import RegistryIo.Snapshot.Store

/-!
# The invariant of cells and reference counts

`ArcOk` is about one allocation, `CellOk` about one cell.  A cell sees the
heap only through `Store.tracked`: the place and the version of those of its
values whose reference is with a writer, in `current` or in the retired list.
-/

namespace RegistryIo.Snapshot

/-- The reference can still come back to the cell. -/
def Place.isTracked : Place → Bool
  | .fresh _ => true
  | .current => true
  | .unlinked _ => true
  | .retired => true
  | .freed _ => false
  | .dropped => false

def ArcInner.trackedFor (inner : ArcInner) (cell : CellId) :
    Option (Place × Nat) :=
  if inner.cell = cell ∧ inner.place.isTracked then
    some (inner.place, inner.version)
  else
    none

theorem ArcInner.trackedFor_of_untracked
    {inner : ArcInner} {cell : CellId}
    (untracked : inner.place.isTracked = false) :
    inner.trackedFor cell = none := by
  simp [ArcInner.trackedFor, untracked]

/-- What a cell knows about an address. -/
def Store.tracked (store : Store) (cell : CellId) (address : Addr) :
    Option (Place × Nat) :=
  (store.heap address).bind fun inner => inner.trackedFor cell

theorem Store.tracked_of_free
    {store : Store} {address : Addr} (cell : CellId)
    (free : store.heap address = none) :
    store.tracked cell address = none := by
  simp [Store.tracked, free]

theorem Store.tracked_eq_some_iff
    {store : Store} {cell : CellId} {address : Addr}
    {place : Place} {version : Nat} :
    store.tracked cell address = some (place, version) ↔
      place.isTracked ∧
        ∃ inner, store.heap address = some inner ∧ inner.cell = cell ∧
          inner.place = place ∧ inner.version = version := by
  constructor
  · intro known
    obtain ⟨inner, found, shape⟩ := Option.bind_eq_some_iff.mp known
    unfold ArcInner.trackedFor at shape
    split at shape
    · rename_i condition
      cases shape
      exact ⟨condition.2, inner, found, condition.1, rfl, rfl⟩
    · cases shape
  · rintro ⟨isTracked, inner, found, sameCell, samePlace, sameVersion⟩
    subst samePlace
    simp [Store.tracked, found, ArcInner.trackedFor, sameCell, isTracked,
      sameVersion]

/-- The count of an allocation adds up its owners, and the cell is one of
them until the cell's reference is dropped. -/
structure ArcOk (store : Store) (inner : ArcInner) : Prop where
  version_lt : inner.version < store.versions
  value_eq : store.values inner.version = inner.value
  strong_eq : inner.strong = inner.owners.length
  owned : inner.owners ≠ []
  owners_nodup : inner.owners.Nodup
  cell_iff : .cell ∈ inner.owners ↔ inner.place ≠ .dropped
  fallback_active : ∀ call, .fallback call ∈ inner.owners →
    call ∈ (store.cells inner.cell).fallbackActive
  user_lt : ∀ handle, .user handle ∈ inner.owners →
    handle < store.nextHandle

/-- The current list of a cell holds exactly the live handlers, once each. -/
structure ListOk (status : Nat → Status) (list : List Entry) : Prop where
  nodup : (handlersOf list).Nodup
  live_iff : ∀ handler, handler ∈ handlersOf list ↔ status handler = .live

structure CellOk (tracked : Addr → Option (Place × Nat))
    (list : List Entry) (snap : SnapCell) : Prop where
  current_alive : snap.phase = .alive →
    tracked snap.current = some (.current, snap.version)
  current_only : ∀ address version,
    tracked address = some (.current, version) →
      snap.phase = .alive ∧ snap.current = address
  retired_iff : ∀ address, address ∈ snap.retired ↔
    ∃ version, tracked address = some (.retired, version)
  retired_nodup : snap.retired.Nodup
  retired_len : snap.writer = none →
    snap.retiredLen = snap.retired.length
  fallback_count : snap.fallbackReaders = snap.fallbackActive.length
  fallback_nodup : snap.fallbackActive.Nodup
  fresh_writer : ∀ address call version,
    tracked address = some (.fresh call, version) → snap.writer = some call
  unlinked_writer : ∀ address call version,
    tracked address = some (.unlinked call, version) →
      snap.writer = some call
  writer_active : ∀ call, snap.writer = some call → call ∈ snap.active
  active_alive : ∀ call ∈ snap.active, snap.phase = .alive
  active_nodup : snap.active.Nodup
  list_ok : snap.phase = .alive → ListOk snap.status list
  unused : ∀ handler, snap.registrations ≤ handler →
    snap.status handler = .unused
  unborn : snap.phase = .unborn → ∀ handler, snap.status handler ≠ .live
  unborn_version : snap.phase = .unborn → snap.version = 0

structure StoreInv (store : Store) : Prop where
  arcs : ∀ address inner,
    store.heap address = some inner → ArcOk store inner
  version_inj : ∀ first second inner other,
    store.heap first = some inner → store.heap second = some other →
      inner.version = other.version → first = second
  cells : ∀ cell,
    CellOk (store.tracked cell)
      (store.values (store.cells cell).version) (store.cells cell)
  handles_owned : ∀ handle address, (handle, address) ∈ store.handles →
    ∃ inner, store.heap address = some inner ∧
      .user handle ∈ inner.owners
  handles_nodup : (store.handles.map Prod.fst).Nodup
  handles_lt : ∀ handle address, (handle, address) ∈ store.handles →
    handle < store.nextHandle

namespace StoreInv

variable {store : Store} {cell : CellId} {address : Addr}
variable {inner : ArcInner} {call : CallId}

theorem initial : StoreInv Store.initial where
  arcs := by simp [Store.initial]
  version_inj := by simp [Store.initial]
  cells := by
    intro cell
    constructor <;> simp [Store.initial, Store.tracked]
  handles_owned := by simp [Store.initial]
  handles_nodup := by simp [Store.initial]
  handles_lt := by simp [Store.initial]

/-- The value in `current` of a cell that is alive. -/
theorem current_inner
    (holds : StoreInv store) (alive : (store.cells cell).phase = .alive) :
    ∃ inner, store.heap (store.cells cell).current = some inner ∧
      inner.cell = cell ∧ inner.place = .current ∧
      inner.version = (store.cells cell).version :=
  (Store.tracked_eq_some_iff.mp
    ((holds.cells cell).current_alive alive)).2

theorem current_of_place
    (holds : StoreInv store) (found : store.heap address = some inner)
    (place : inner.place = .current) :
    (store.cells inner.cell).phase = .alive ∧
      (store.cells inner.cell).current = address :=
  (holds.cells inner.cell).current_only address inner.version
    (Store.tracked_eq_some_iff.mpr ⟨rfl, inner, found, rfl, place, rfl⟩)

theorem mem_retired_iff (holds : StoreInv store) :
    address ∈ (store.cells cell).retired ↔
      ∃ inner, store.heap address = some inner ∧ inner.cell = cell ∧
        inner.place = .retired := by
  rw [(holds.cells cell).retired_iff]
  constructor
  · rintro ⟨version, known⟩
    obtain ⟨_, inner, found, sameCell, place, _⟩ :=
      Store.tracked_eq_some_iff.mp known
    exact ⟨inner, found, sameCell, place⟩
  · rintro ⟨inner, found, sameCell, place⟩
    exact ⟨inner.version, Store.tracked_eq_some_iff.mpr
      ⟨rfl, inner, found, sameCell, place, rfl⟩⟩

section SetCell

/-- A change of one cell that leaves the heap alone. -/
theorem setCell
    (holds : StoreInv store) {snap : SnapCell}
    (ok : CellOk (store.tracked cell) (store.values snap.version) snap)
    (held : ∀ call ∈ (store.cells cell).fallbackActive,
      (∃ address inner, store.heap address = some inner ∧
        inner.cell = cell ∧ .fallback call ∈ inner.owners) →
        call ∈ snap.fallbackActive) :
    StoreInv (store.setCell cell snap) where
  arcs := by
    intro address inner found
    have old := holds.arcs address inner found
    refine ⟨old.version_lt, old.value_eq, old.strong_eq, old.owned,
      old.owners_nodup, old.cell_iff, ?_, old.user_lt⟩
    intro call member
    have active := old.fallback_active call member
    by_cases same : inner.cell = cell
    · subst same
      simpa [Store.setCell] using
        held call active ⟨address, inner, found, rfl, member⟩
    · simpa [Store.setCell, same] using active
  version_inj := holds.version_inj
  cells := by
    intro other
    by_cases same : other = cell
    · subst same
      have updated : (store.setCell other snap).cells other = snap := by
        simp [Store.setCell]
      rw [updated]
      exact ok
    · have kept :
          (store.setCell cell snap).cells other = store.cells other := by
        simp [Store.setCell, same]
      rw [kept]
      exact holds.cells other
  handles_owned := holds.handles_owned
  handles_nodup := holds.handles_nodup
  handles_lt := holds.handles_lt

theorem lock
    (holds : StoreInv store)
    (free : (store.cells cell).writer = none)
    (active : call ∈ (store.cells cell).active) :
    StoreInv (store.lock cell call) := by
  have old := holds.cells cell
  refine holds.setCell ?_ (fun _ member _ => member)
  refine { old with
    retired_len := fun unlocked => by cases unlocked
    fresh_writer := ?_
    unlinked_writer := ?_
    writer_active := ?_ }
  · intro address other version known
    have locked := old.fresh_writer address other version known
    rw [free] at locked
    cases locked
  · intro address other version known
    have locked := old.unlinked_writer address other version known
    rw [free] at locked
    cases locked
  · intro other locked
    cases locked
    exact active

theorem unlock
    (holds : StoreInv store)
    (locked : (store.cells cell).writer = some call)
    (length : (store.cells cell).retiredLen =
      (store.cells cell).retired.length)
    (installed : ∀ address version,
      store.tracked cell address ≠ some (.fresh call, version))
    (retired : ∀ address version,
      store.tracked cell address ≠ some (.unlinked call, version)) :
    StoreInv (store.unlock cell) := by
  have old := holds.cells cell
  refine holds.setCell ?_ (fun _ member _ => member)
  refine { old with
    retired_len := fun _ => length
    fresh_writer := ?_
    unlinked_writer := ?_
    writer_active := fun _ unlocked => by cases unlocked }
  · intro address other version known
    have holder := old.fresh_writer address other version known
    rw [locked] at holder
    cases holder
    exact absurd known (installed address version)
  · intro address other version known
    have holder := old.unlinked_writer address other version known
    rw [locked] at holder
    cases holder
    exact absurd known (retired address version)

theorem storeRetiredLen (holds : StoreInv store) :
    StoreInv (store.storeRetiredLen cell) :=
  holds.setCell { holds.cells cell with retired_len := fun _ => rfl }
    (fun _ member _ => member)

theorem enterFallback
    (holds : StoreInv store)
    (fresh : call ∉ (store.cells cell).fallbackActive) :
    StoreInv (store.enterFallback cell call) := by
  have old := holds.cells cell
  refine holds.setCell
    { old with fallback_count := ?_, fallback_nodup := ?_ }
    (fun _ member _ => List.mem_cons_of_mem call member)
  · simp [old.fallback_count]
  · exact List.nodup_cons.mpr ⟨fresh, old.fallback_nodup⟩

theorem leaveFallback
    (holds : StoreInv store)
    (counted : call ∈ (store.cells cell).fallbackActive)
    (dropped : ∀ address inner, store.heap address = some inner →
      .fallback call ∉ inner.owners) :
    StoreInv (store.leaveFallback cell call) := by
  have old := holds.cells cell
  refine holds.setCell
    { old with fallback_count := ?_, fallback_nodup := ?_ } ?_
  · simp [old.fallback_count, List.length_erase_of_mem counted]
  · exact old.fallback_nodup.erase call
  · rintro other member ⟨address, inner, found, _, owned⟩
    have different : other ≠ call := by
      rintro rfl
      exact dropped address inner found owned
    exact (List.mem_erase_of_ne different).mpr member

theorem beginCall
    (holds : StoreInv store)
    (alive : (store.cells cell).phase = .alive)
    (fresh : call ∉ (store.cells cell).active) :
    StoreInv (store.beginCall cell call) := by
  have old := holds.cells cell
  refine holds.setCell { old with
    writer_active := fun other locked =>
      List.mem_cons_of_mem call (old.writer_active other locked)
    active_alive := fun _ _ => alive
    active_nodup := List.nodup_cons.mpr ⟨fresh, old.active_nodup⟩ }
    (fun _ member _ => member)

theorem endCall
    (holds : StoreInv store)
    (unlocked : (store.cells cell).writer ≠ some call) :
    StoreInv (store.endCall cell call) := by
  have old := holds.cells cell
  refine holds.setCell { old with
    writer_active := ?_
    active_alive := fun other member =>
      old.active_alive other (List.mem_of_mem_erase member)
    active_nodup := old.active_nodup.erase call }
    (fun _ member _ => member)
  intro other locked
  have different : other ≠ call := by
    rintro rfl
    exact unlocked locked
  exact (List.mem_erase_of_ne different).mpr (old.writer_active other locked)

theorem nextId (holds : StoreInv store) :
    StoreInv (store.nextId cell call) := by
  have old := holds.cells cell
  have first := old.unused (store.cells cell).registrations (Nat.le_refl _)
  have live :
      ∀ handler,
        Function.update (store.cells cell).status
            (store.cells cell).registrations (.drawn call) handler = .live ↔
          (store.cells cell).status handler = .live := by
    intro handler
    by_cases same : handler = (store.cells cell).registrations
    · subst same
      simp [first]
    · simp [same]
  refine holds.setCell { old with list_ok := ?_, unused := ?_, unborn := ?_ }
    (fun _ member _ => member)
  · intro alive
    refine ⟨(old.list_ok alive).nodup, fun handler => ?_⟩
    exact ((old.list_ok alive).live_iff handler).trans (live handler).symm
  · intro handler beyond
    have larger : (store.cells cell).registrations < handler := beyond
    have apart : handler ≠ (store.cells cell).registrations :=
      Nat.ne_of_gt larger
    simpa [apart] using old.unused handler (Nat.le_of_lt larger)
  · intro unborn handler isLive
    exact old.unborn unborn handler ((live handler).mp isLive)

end SetCell

end StoreInv

end RegistryIo.Snapshot
