import Mathlib.Data.List.Nodup

/-!
# Shared allocations with strong and weak references

The counters of an allocation that is shared like an `Arc`: the value is
dropped when the last strong reference goes, the memory is released when the
last weak one goes, and the strong references own one weak reference together.
Each operation is one atomic access to a counter.

`owners` and `observers` say who holds the references that are counted.  No
operation reads them.
-/

namespace RegistryIo.ReferenceCount

universe u

/-- In `observers`, `none` is the weak reference of all strong ones.  The
finalizer is who dropped the last strong reference and has to drop the
value. -/
structure Shared (Owner : Type u) where
  strong : Nat
  weak : Nat
  dropped : Bool
  freed : Bool
  owners : List Owner
  observers : List (Option Owner)
  finalizer : Option Owner
  deriving DecidableEq, Repr

namespace Shared

variable {Owner : Type u}

def new (owner : Owner) : Shared Owner :=
  ⟨1, 1, false, false, [owner], [none], none⟩

def clone (shared : Shared Owner) (owner : Owner) : Shared Owner :=
  { shared with
    strong := shared.strong + 1
    owners := owner :: shared.owners }

def downgrade (shared : Shared Owner) (observer : Owner) : Shared Owner :=
  { shared with
    weak := shared.weak + 1
    observers := some observer :: shared.observers }

/-- A weak reference gives a strong one unless there is none left. -/
def upgrade (shared : Shared Owner) (owner : Owner) :
    Option (Shared Owner) :=
  if shared.strong = 0 then none else some (shared.clone owner)

variable [DecidableEq Owner]

def dropStrong (shared : Shared Owner) (owner finisher : Owner) :
    Shared Owner :=
  { shared with
    strong := shared.strong - 1
    owners := shared.owners.erase owner
    finalizer :=
      if shared.strong = 1 then some finisher else shared.finalizer }

def dropValue (shared : Shared Owner) : Shared Owner :=
  { shared with dropped := true }

/-- The memory is released with the last weak reference. -/
def dropWeak (shared : Shared Owner) (observer : Option Owner) :
    Shared Owner :=
  { shared with
    weak := shared.weak - 1
    observers := shared.observers.erase observer
    freed := shared.freed || shared.weak == 1 }

/-- A weak reference is moved to another place. -/
def pass (shared : Shared Owner) (giver taker : Owner) : Shared Owner :=
  { shared with
    observers := some taker :: shared.observers.erase (some giver) }

@[simp]
theorem dropWeak_dropped
    (shared : Shared Owner) (observer : Option Owner) :
    (shared.dropWeak observer).dropped = shared.dropped :=
  rfl

@[simp]
theorem pass_dropped (shared : Shared Owner) (giver taker : Owner) :
    (shared.pass giver taker).dropped = shared.dropped :=
  rfl

end Shared

section Balance

variable {Owner : Type u}

/-- The counters count the references. -/
structure Balanced (shared : Shared Owner) : Prop where
  strong : shared.strong = shared.owners.length
  weak : shared.weak = shared.observers.length
  owners_nodup : shared.owners.Nodup
  observers_nodup : shared.observers.Nodup
  freed : shared.freed = true ↔ shared.observers = []
  finalizer : shared.finalizer = none ↔ shared.owners ≠ []
  implicit : shared.dropped = false → none ∈ shared.observers
  dropped : shared.dropped = true → shared.finalizer ≠ none

theorem balanced_new (owner : Owner) : Balanced (Shared.new owner) := by
  constructor <;> simp [Shared.new]

namespace Balanced

variable {shared : Shared Owner} {owner observer : Owner}

theorem strong_pos
    (balanced : Balanced shared) (member : owner ∈ shared.owners) :
    0 < shared.strong := by
  rw [balanced.strong]
  exact List.length_pos_of_mem member

theorem finalizer_eq_none
    (balanced : Balanced shared) (member : owner ∈ shared.owners) :
    shared.finalizer = none :=
  balanced.finalizer.mpr (List.ne_nil_of_mem member)

/-- A value with an owner is there. -/
theorem not_dropped
    (balanced : Balanced shared) (member : owner ∈ shared.owners) :
    shared.dropped = false := by
  have undecided := balanced.finalizer_eq_none member
  cases gone : shared.dropped with
  | false => rfl
  | true => exact absurd undecided (balanced.dropped gone)

private theorem not_freed
    {held : Option Owner} (balanced : Balanced shared)
    (member : held ∈ shared.observers) : shared.freed = false := by
  cases gone : shared.freed with
  | false => rfl
  | true =>
      rw [balanced.freed.mp gone] at member
      cases member

/-- The memory stays for as long as there is an owner. -/
theorem not_freed_of_owner
    (balanced : Balanced shared) (member : owner ∈ shared.owners) :
    shared.freed = false :=
  balanced.not_freed (balanced.implicit (balanced.not_dropped member))

theorem clone
    (balanced : Balanced shared) (alive : shared.owners ≠ [])
    (fresh : owner ∉ shared.owners) : Balanced (shared.clone owner) where
  strong := by simp [Shared.clone, balanced.strong]
  weak := balanced.weak
  owners_nodup := List.nodup_cons.mpr ⟨fresh, balanced.owners_nodup⟩
  observers_nodup := balanced.observers_nodup
  freed := balanced.freed
  finalizer := by
    have undecided := balanced.finalizer.mpr alive
    simp [Shared.clone, undecided]
  implicit := balanced.implicit
  dropped := balanced.dropped

theorem downgrade
    (balanced : Balanced shared) (present : shared.observers ≠ [])
    (fresh : some observer ∉ shared.observers) :
    Balanced (shared.downgrade observer) where
  strong := balanced.strong
  weak := by simp [Shared.downgrade, balanced.weak]
  owners_nodup := balanced.owners_nodup
  observers_nodup := List.nodup_cons.mpr ⟨fresh, balanced.observers_nodup⟩
  freed := by
    have kept : shared.freed = false := by
      rw [← Bool.not_eq_true, balanced.freed]
      exact present
    simp [Shared.downgrade, kept]
  finalizer := balanced.finalizer
  implicit := fun kept => List.mem_cons_of_mem _ (balanced.implicit kept)
  dropped := balanced.dropped

/-- An upgrade fails exactly when there is no owner. -/
theorem upgrade_eq_none_iff (balanced : Balanced shared) :
    shared.upgrade owner = none ↔ shared.owners = [] := by
  rw [← List.length_eq_zero_iff, ← balanced.strong]
  unfold Shared.upgrade
  split <;> simp_all

theorem upgrade
    {after : Shared Owner} (balanced : Balanced shared)
    (fresh : owner ∉ shared.owners)
    (upgraded : shared.upgrade owner = some after) :
    after = shared.clone owner ∧ shared.owners ≠ [] ∧ Balanced after := by
  have alive : shared.owners ≠ [] := by
    intro none
    rw [balanced.upgrade_eq_none_iff.mpr none] at upgraded
    cases upgraded
  unfold Shared.upgrade at upgraded
  split at upgraded
  · cases upgraded
  · cases upgraded
    exact ⟨rfl, alive, balanced.clone alive fresh⟩

theorem dropValue
    (balanced : Balanced shared) (last : shared.finalizer ≠ none) :
    Balanced shared.dropValue where
  strong := balanced.strong
  weak := balanced.weak
  owners_nodup := balanced.owners_nodup
  observers_nodup := balanced.observers_nodup
  freed := balanced.freed
  finalizer := balanced.finalizer
  implicit := by simp [Shared.dropValue]
  dropped := fun _ => last

variable [DecidableEq Owner]

theorem dropStrong
    {finisher : Owner} (balanced : Balanced shared)
    (member : owner ∈ shared.owners) :
    Balanced (shared.dropStrong owner finisher) := by
  have undecided := balanced.finalizer_eq_none member
  have kept := balanced.not_dropped member
  have length := List.length_erase_of_mem member
  have positive := balanced.strong_pos member
  constructor
  · simp [Shared.dropStrong, balanced.strong, length]
  · exact balanced.weak
  · exact balanced.owners_nodup.erase owner
  · exact balanced.observers_nodup
  · exact balanced.freed
  · have empty : shared.owners.erase owner = [] ↔ shared.strong = 1 := by
      rw [← List.length_eq_zero_iff, length, ← balanced.strong]
      omega
    by_cases last : shared.strong = 1
    · simp [Shared.dropStrong, last, empty.mpr last]
    · simp [Shared.dropStrong, last, undecided, empty]
  · exact balanced.implicit
  · intro gone
    rw [show shared.dropped = true from gone] at kept
    cases kept

/-- The last owner leaves exactly when no other one is left. -/
theorem dropWeak
    {held : Option Owner} (balanced : Balanced shared)
    (member : held ∈ shared.observers)
    (allowed : held = none → shared.dropped = true) :
    Balanced (shared.dropWeak held) := by
  have length := List.length_erase_of_mem member
  have positive : 0 < shared.observers.length :=
    List.length_pos_of_mem member
  have kept := balanced.not_freed member
  constructor
  · exact balanced.strong
  · simp [Shared.dropWeak, balanced.weak, length]
  · exact balanced.owners_nodup
  · exact balanced.observers_nodup.erase held
  · simp only [Shared.dropWeak, kept, Bool.false_or, beq_iff_eq]
    rw [← List.length_eq_zero_iff, length, balanced.weak]
    omega
  · exact balanced.finalizer
  · intro alive
    have different : none ≠ held := by
      rintro rfl
      rw [show shared.dropped = false from alive] at allowed
      cases allowed rfl
    exact (List.mem_erase_of_ne different).mpr (balanced.implicit alive)
  · exact balanced.dropped

theorem pass
    {giver taker : Owner} (balanced : Balanced shared)
    (member : some giver ∈ shared.observers)
    (fresh : some taker ∉ shared.observers) :
    Balanced (shared.pass giver taker) := by
  have length := List.length_erase_of_mem member
  have positive : 0 < shared.observers.length :=
    List.length_pos_of_mem member
  have kept := balanced.not_freed member
  constructor
  · exact balanced.strong
  · simp only [Shared.pass, balanced.weak, List.length_cons, length]
    omega
  · exact balanced.owners_nodup
  · refine List.nodup_cons.mpr ⟨?_, balanced.observers_nodup.erase _⟩
    intro again
    exact fresh (List.mem_of_mem_erase again)
  · simp [Shared.pass, kept]
  · exact balanced.finalizer
  · intro alive
    have different : (none : Option Owner) ≠ some giver := by simp
    refine List.mem_cons_of_mem _ ?_
    exact (List.mem_erase_of_ne different).mpr (balanced.implicit alive)
  · exact balanced.dropped

/-! ### Who holds a reference afterwards -/

theorem mem_owners_dropStrong
    {finisher other : Owner} (balanced : Balanced shared) :
    other ∈ (shared.dropStrong owner finisher).owners ↔
      other ≠ owner ∧ other ∈ shared.owners :=
  balanced.owners_nodup.mem_erase_iff

theorem mem_observers_dropWeak
    {held other : Option Owner} (balanced : Balanced shared) :
    other ∈ (shared.dropWeak held).observers ↔
      other ≠ held ∧ other ∈ shared.observers :=
  balanced.observers_nodup.mem_erase_iff

theorem mem_observers_pass
    {giver taker : Owner} {other : Option Owner}
    (balanced : Balanced shared) :
    other ∈ (shared.pass giver taker).observers ↔
      other = some taker ∨ other ≠ some giver ∧ other ∈ shared.observers := by
  simp [Shared.pass, balanced.observers_nodup.mem_erase_iff]

end Balanced

end Balance

end RegistryIo.ReferenceCount
