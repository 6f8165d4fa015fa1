import Mathlib.Algebra.GroupWithZero.Nat
import RegistryIo.Foundations.PartitionPoint

/-!
# Handler ids, handler entries and the three list updates

Both registries keep their handlers in one list that every write replaces as
a whole.  The closures passed to `SnapCell::update` are the only writers:
`insert`, `remove_id` and `remove_all`.  They are pure functions of the
current list and are shared by the synchronous and the asynchronous registry,
whose handler types differ only in what is stored behind the `Arc`.
-/

namespace RegistryIo

universe u

/-- `HandlerId(u64)`. -/
structure HandlerId where
  raw : Nat
  deriving DecidableEq, Repr

/-- `HandlerIdGenerator`: the value of the atomic counter. -/
structure HandlerIdGenerator where
  counter : Nat
  deriving DecidableEq, Repr

namespace HandlerIdGenerator

/-- The first id issued is `1`. -/
def new : HandlerIdGenerator := ⟨1⟩

/-- `HandlerIdGenerator::next`: `fetch_add(1)`, which wraps at `2 ^ 64`. -/
def next (generator : HandlerIdGenerator) :
    HandlerId × HandlerIdGenerator :=
  (⟨generator.counter⟩, ⟨(generator.counter + 1) % 2 ^ 64⟩)

end HandlerIdGenerator

/-- `HandlerEntry<E>` and `AsyncHandlerEntry<E>`. -/
structure HandlerEntry (H : Type u) where
  id : HandlerId
  priority : Int
  handler : H
  deriving DecidableEq, Repr

namespace HandlerEntry

variable {H : Type u}

/-- The closure of `insert`: place `entry` after every entry of equal or
higher priority. -/
def insert (entry : HandlerEntry H) (current : List (HandlerEntry H)) :
    List (HandlerEntry H) :=
  insertStable HandlerEntry.priority entry current

/-- The closure of `remove_id`: the two slices around the first entry with
`id`, or `None` when there is no such entry. -/
def removeId (id : HandlerId) (current : List (HandlerEntry H)) :
    Option (List (HandlerEntry H)) :=
  (current.findIdx? fun entry => entry.id = id).map fun position =>
    current.take position ++ current.drop (position + 1)

/-- The closure of `remove_all`: the empty list, or `None` when the list is
already empty. -/
def removeAll (current : List (HandlerEntry H)) :
    Option (List (HandlerEntry H)) :=
  if current.isEmpty then none else some []

theorem removeId_eq_none_iff
    {id : HandlerId} {current : List (HandlerEntry H)} :
    removeId id current = none ↔ id ∉ current.map HandlerEntry.id := by
  simp [removeId, List.findIdx?_eq_none_iff]

/-- A successful removal takes out one entry and keeps the order of the
others. -/
theorem removeId_eq_some
    {id : HandlerId} {current next : List (HandlerEntry H)}
    (removed : removeId id current = some next) :
    ∃ initial entry final,
      current = initial ++ entry :: final ∧
        next = initial ++ final ∧
        entry.id = id ∧
        id ∉ initial.map HandlerEntry.id := by
  obtain ⟨position, found, shape⟩ := Option.map_eq_some_iff.mp removed
  obtain ⟨bound, matched, earlier⟩ :=
    List.findIdx?_eq_some_iff_getElem.mp found
  refine ⟨current.take position, current[position],
    current.drop (position + 1), ?_, shape.symm, ?_, ?_⟩
  · rw [List.getElem_cons_drop, List.take_append_drop]
  · simpa using matched
  · intro member
    obtain ⟨entry, inside, same⟩ := List.mem_map.mp member
    obtain ⟨index, indexBound, rfl⟩ := List.mem_take_iff_getElem.mp inside
    have smaller : index < position := by omega
    have different := earlier index smaller
    simp only [decide_eq_true_eq] at different
    exact different same

theorem removeAll_eq_some
    {current next : List (HandlerEntry H)}
    (removed : removeAll current = some next) :
    current ≠ [] ∧ next = [] := by
  unfold removeAll at removed
  split at removed
  · cases removed
  · cases removed
    exact ⟨by simpa using ‹¬current.isEmpty = true›, rfl⟩

theorem insert_perm
    (entry : HandlerEntry H) (current : List (HandlerEntry H)) :
    (insert entry current).Perm (entry :: current) := by
  simp only [insert, insertStable]
  refine List.perm_middle.trans (List.Perm.cons entry ?_)
  rw [List.take_append_drop]

end HandlerEntry

end RegistryIo
