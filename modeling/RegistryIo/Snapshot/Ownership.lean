import RegistryIo.Snapshot.Custody

/-!
# Ownership of the values of a cell

A cell owns each of its values through one strong reference.  The reference is
in `current`, with the writer that has just replaced the value, in the retired
list, or in the batch that a call is dropping.  A value whose last reference
was dropped is destroyed, once; when a cell and all handles to its values are
gone, no value of the cell is left.
-/

namespace RegistryIo.Snapshot

open RegistryIo.Interleaving

/-! ### Where the reference of the cell is -/

/-- The variables that can contain the reference of the cell. -/
inductive Location where
  | current
  | retired
  | batch (call : CallId)
  | writer (call : CallId)
  deriving DecidableEq, Repr

def Location.place : Location → Place
  | .current => .current
  | .retired => .retired
  | .batch call => .freed call
  | .writer call => .unlinked call

private theorem Location.place_injective {location other : Location}
    (same : location.place = other.place) : location = other := by
  cases location <;> cases other <;> cases same <;> rfl

/-- The local variable `raw` of a writer between the store to `current` and
the push to the retired list. -/
def Frame.unlinked : Frame → List Addr
  | .pushing _ _ _ raw => [raw]
  | _ => []

/-- The references at a location. -/
def stored (state : State) (cell : CellId) : Location → List Addr
  | .current =>
      if (state.memory.store.cells cell).phase = .alive then
        [(state.memory.store.cells cell).current]
      else []
  | .retired => (state.memory.store.cells cell).retired
  | .batch call => ((frameOf state call).map Frame.batch).getD []
  | .writer call => ((frameOf state call).map Frame.unlinked).getD []

section Locations

variable {state : State} {cell : CellId} {address : Addr}
variable {inner : ArcInner} {location : Location} {call : CallId}

private theorem unlinked_mem_iff {frame : Frame} :
    .unlinked address ∈ frame.holding ↔ address ∈ frame.unlinked := by
  cases frame with
  | collect target collector step =>
      cases collector <;> cases step <;>
        simp [Frame.holding, Frame.unlinked, Collector.active,
          Collector.holding, CollectStep.holding]
  | dropping target collector freed =>
      cases collector <;>
        simp [Frame.holding, Frame.unlinked, Collector.active,
          Collector.holding]
  | locked target reader step =>
      cases reader <;> cases step <;>
        simp [Frame.holding, Frame.unlinked, Reader.holding,
          LockedStep.holding, Reader.reference]
  | lockWriter target write wait =>
      cases write <;> simp [Frame.holding, Frame.unlinked, Write.holding]
  | compute target write wait =>
      cases write <;> simp [Frame.holding, Frame.unlinked, Write.holding]
  | waiting target removed step =>
      cases step <;> simp [Frame.holding, Frame.unlinked, WaitStep.holding]
  | _ => simp [Frame.holding, Frame.unlinked]

private theorem FrameOk.batch_nodup
    {memory : Memory} {frame : Frame} (ok : FrameOk memory call frame) :
    frame.batch.Nodup := by
  cases frame with
  | collect target collector step =>
      have stepOk : CollectStepOk memory target step := ok.facts.2
      cases step with
      | start => exact List.nodup_nil
      | scan cursor index announced => exact List.nodup_nil
      | storeLen freed => exact stepOk
      | unlock freed => exact stepOk.1
  | dropping target collector freed => exact ok.facts.2
  | _ => exact List.nodup_nil

/-- What a call has in a variable of its frame is what it holds. -/
private theorem Invariant.mem_variable_iff
    {names : Frame → List Addr} {holding : Holding}
    (holds : Invariant state)
    (named : ∀ frame : Frame, holding ∈ frame.holding ↔
      address ∈ names frame) :
    address ∈ ((frameOf state call).map names).getD [] ↔
      state.memory.Held call holding := by
  cases found : frameOf state call with
  | none =>
      have nothing : ¬ state.memory.Held call holding := by
        intro held
        obtain ⟨frame, isFrame, _⟩ := holds.frame_of_held held
        exact absurd (found.symm.trans isFrame) nofun
      simp [nothing]
  | some frame =>
      rw [Option.map_some, Option.getD_some, ← named frame]
      exact ((holds.frameOk found).held holding).symm

private theorem stored_nodup (holds : Invariant state) :
    (stored state cell location).Nodup := by
  cases location with
  | current =>
      simp only [stored]
      split
      · exact List.nodup_singleton _
      · exact List.nodup_nil
  | retired => exact (holds.1.store.cells cell).retired_nodup
  | batch call =>
      simp only [stored]
      cases found : frameOf state call with
      | none => exact List.nodup_nil
      | some frame => exact (holds.frameOk found).batch_nodup
  | writer call =>
      simp only [stored]
      cases frameOf state call with
      | none => exact List.nodup_nil
      | some frame =>
          cases frame with
          | pushing => exact List.nodup_singleton _
          | _ => exact List.nodup_nil

/-- The reference of the cell is stored where its place says. -/
private theorem mem_stored_iff
    (holds : Invariant state)
    (found : state.memory.store.heap address = some inner) :
    address ∈ stored state inner.cell location ↔
      inner.place = location.place := by
  have placed : ∀ place, state.memory.store.place address = some place ↔
      inner.place = place := by
    intro place
    simp [Store.place, found]
  cases location with
  | current =>
      constructor
      · intro member
        simp only [stored] at member
        split at member
        · rename_i alive
          obtain ⟨other, isOther, _, place, _⟩ :=
            holds.1.store.current_inner alive
          rw [← List.mem_singleton.mp member, found] at isOther
          cases isOther
          exact place
        · cases member
      · intro place
        obtain ⟨alive, isCurrent⟩ :=
          holds.1.store.current_of_place found place
        simp [stored, alive, isCurrent]
  | retired =>
      refine holds.1.store.mem_retired_iff.trans ?_
      constructor
      · rintro ⟨other, isOther, _, place⟩
        cases Option.some.inj (found.symm.trans isOther)
        exact place
      · intro place
        exact ⟨inner, found, rfl, place⟩
  | batch call =>
      exact (holds.mem_variable_iff fun _ => freed_mem_iff).trans (placed _)
  | writer call =>
      exact (holds.mem_variable_iff fun _ => unlinked_mem_iff).trans
        (placed _)

private theorem count_stored
    (holds : Invariant state)
    (found : state.memory.store.heap address = some inner) :
    (stored state inner.cell location).count address =
      if inner.place = location.place then 1 else 0 := by
  split
  · rename_i place
    exact List.count_eq_one_of_mem (stored_nodup holds)
      ((mem_stored_iff holds found).mpr place)
  · rename_i elsewhere
    exact List.count_eq_zero.mpr
      fun member => elsewhere ((mem_stored_iff holds found).mp member)

end Locations

/-- The cell has one reference to the value, in one location. -/
structure Owned (state : State) (cell : CellId) (address : Addr)
    (inner : ArcInner) : Prop where
  once : inner.owners.count .cell = 1
  located : ∃ location, ∀ other,
    (stored state cell other).count address =
      if other = location then 1 else 0

/-- The reference of the cell has been dropped. -/
structure Released (state : State) (cell : CellId) (address : Addr)
    (inner : ArcInner) : Prop where
  never : inner.owners.count .cell = 0
  nowhere : ∀ location, (stored state cell location).count address = 0

private theorem owned_or_released
    {state : State} {address : Addr} {inner : ArcInner}
    (holds : Invariant state)
    (found : state.memory.store.heap address = some inner)
    (installed : ∀ call, inner.place ≠ .fresh call) :
    Owned state inner.cell address inner ∨
      Released state inner.cell address inner := by
  have arc := holds.1.store.arcs address inner found
  have counted := fun location : Location =>
    show (stored state inner.cell location).count address = _ from
      count_stored holds found
  have owned : ∀ location : Location, inner.place = location.place →
      Owned state inner.cell address inner := by
    intro location place
    have isOwner : .cell ∈ inner.owners := by
      rw [arc.cell_iff, place]
      cases location <;> nofun
    refine ⟨List.count_eq_one_of_mem arc.owners_nodup isOwner,
      location, fun other => ?_⟩
    rw [counted other, place]
    by_cases same : other = location
    · rw [same, if_pos rfl, if_pos rfl]
    · rw [if_neg same, if_neg]
      exact fun equal => same (Location.place_injective equal).symm
  cases place : inner.place with
  | fresh call => exact absurd place (installed call)
  | current => exact Or.inl (owned .current place)
  | unlinked call => exact Or.inl (owned (.writer call) place)
  | retired => exact Or.inl (owned .retired place)
  | freed call => exact Or.inl (owned (.batch call) place)
  | dropped =>
      refine Or.inr ⟨?_, fun location => ?_⟩
      · rw [List.count_eq_zero, arc.cell_iff]
        exact fun owns => owns place
      · rw [counted location, place, if_neg]
        cases location <;> nofun

/-! ### Destructions -/

/-- The value with this version is allocated. -/
def Store.Allocated (store : Store) (version : Nat) : Prop :=
  ∃ address inner, store.heap address = some inner ∧
    inner.version = version

/-- The version of the value that a step destroys. -/
def destroyed (state : State) (thread : Tid) (act : Act) : Option Nat :=
  (dropped state thread act).bind fun reference =>
    state.memory.store.destroyedBy reference.1

/-- The versions of the values that a run destroys, in order. -/
def destructions (schedule : List (Tid × Act)) : List Nat :=
  program.events destroyed initial schedule

/-- Exactly the values that are no longer allocated have been destroyed, and
none of them twice. -/
structure DestroyedOnce (store : Store) (gone : List Nat) : Prop where
  nodup : gone.Nodup
  mem_iff : ∀ version, version ∈ gone ↔
    version < store.versions ∧ ¬ store.Allocated version

section Destructions

variable {store store' : Store} {result : Option Nat} {gone : List Nat}

private theorem allocated_of_kept
    (arcs : ∀ address inner', store'.heap address = some inner' →
      ∃ inner, store.heap address = some inner ∧ KeptArc inner inner')
    (allocated : ∀ address, store'.heap address = none →
      store.heap address = none) (version : Nat) :
    store'.Allocated version ↔ store.Allocated version := by
  constructor
  · rintro ⟨address, inner', found, isVersion⟩
    obtain ⟨inner, stored, kept⟩ := arcs address inner' found
    exact ⟨address, inner, stored, kept.version.symm.trans isVersion⟩
  · rintro ⟨address, inner, found, isVersion⟩
    cases stored : store'.heap address with
    | none =>
        have missing := (allocated address stored).symm.trans found
        cases missing
    | some inner' =>
        obtain ⟨old, isOld, kept⟩ := arcs address inner' stored
        cases Option.some.inj (found.symm.trans isOld)
        exact ⟨address, inner', stored, kept.version.trans isVersion⟩

section OneAddress

variable {address : Addr} {inner : ArcInner}
variable (others : ∀ other, other ≠ address →
  store'.heap other = store.heap other)

include others

private theorem allocated_of_grown
    (free : store.heap address = none)
    (added : store'.heap address = some inner) (version : Nat) :
    store'.Allocated version ↔
      store.Allocated version ∨ version = inner.version := by
  constructor
  · rintro ⟨other, new, found, isVersion⟩
    by_cases here : other = address
    · subst here
      cases Option.some.inj (added.symm.trans found)
      exact Or.inr isVersion.symm
    · rw [others other here] at found
      exact Or.inl ⟨other, new, found, isVersion⟩
  · rintro (⟨other, old, found, isVersion⟩ | isVersion)
    · have apart : other ≠ address := by
        rintro rfl
        cases free.symm.trans found
      exact ⟨other, old, (others other apart).trans found, isVersion⟩
    · exact ⟨address, inner, added, isVersion.symm⟩

private theorem allocated_of_destroyed
    (inv : StoreInv store) (found : store.heap address = some inner)
    (free : store'.heap address = none) (version : Nat) :
    store'.Allocated version ↔
      store.Allocated version ∧ version ≠ inner.version := by
  constructor
  · rintro ⟨other, inner', stored, isVersion⟩
    have apart : other ≠ address := by
      rintro rfl
      cases free.symm.trans stored
    rw [others other apart] at stored
    refine ⟨⟨other, inner', stored, isVersion⟩, fun equal => apart ?_⟩
    exact inv.version_inj other address inner' inner stored found
      (isVersion.trans equal)
  · rintro ⟨⟨other, inner', stored, isVersion⟩, different⟩
    have apart : other ≠ address := by
      rintro rfl
      cases Option.some.inj (found.symm.trans stored)
      exact different isVersion.symm
    exact ⟨other, inner', (others other apart).trans stored, isVersion⟩

end OneAddress

theorem DestroyedOnce.grown
    (ok : DestroyedOnce store gone)
    (versions : store'.versions = store.versions + 1)
    (allocated : ∀ version, store'.Allocated version ↔
      store.Allocated version ∨ version = store.versions) :
    DestroyedOnce store' gone := by
  refine ⟨ok.nodup, fun version => ?_⟩
  rw [ok.mem_iff, versions, allocated]
  constructor
  · rintro ⟨below, free⟩
    exact ⟨by omega, fun found => found.elim free (Nat.ne_of_lt below)⟩
  · rintro ⟨below, free⟩
    have apart : version ≠ store.versions := fun isNew =>
      free (Or.inr isNew)
    exact ⟨by omega, fun found => free (Or.inl found)⟩

theorem DestroyedOnce.destroyed
    {last : Nat} (ok : DestroyedOnce store gone)
    (versions : store'.versions = store.versions)
    (below : last < store.versions) (present : store.Allocated last)
    (allocated : ∀ version, store'.Allocated version ↔
      store.Allocated version ∧ version ≠ last) :
    DestroyedOnce store' (gone ++ [last]) := by
  have isNew : last ∉ gone := by
    intro member
    exact ((ok.mem_iff _).mp member).2 present
  refine ⟨?_, fun version => ?_⟩
  · rw [List.nodup_append]
    refine ⟨ok.nodup, List.nodup_singleton _, ?_⟩
    rintro version member other isLast rfl
    rw [List.mem_singleton.mp isLast] at member
    exact isNew member
  · rw [List.mem_append, ok.mem_iff, versions, allocated,
      List.mem_singleton]
    constructor
    · rintro (⟨lower, free⟩ | rfl)
      · exact ⟨lower, fun found => free found.1⟩
      · exact ⟨below, fun found => found.2 rfl⟩
    · rintro ⟨lower, free⟩
      by_cases isLast : version = last
      · exact Or.inr isLast
      · exact Or.inl ⟨lower, fun found => free ⟨found, isLast⟩⟩

theorem DestroyedOnce.step
    (inv : StoreInv store) (step : HeapStep store store' result)
    (ok : DestroyedOnce store gone) :
    DestroyedOnce store' (gone ++ result.toList) := by
  cases step with
  | kept versions arcs allocated =>
      rw [Option.toList_none, List.append_nil]
      refine ⟨ok.nodup, fun version => ?_⟩
      rw [ok.mem_iff, versions, allocated_of_kept arcs allocated]
  | grown address new versions free added isNew others =>
      rw [Option.toList_none, List.append_nil]
      refine ok.grown versions fun version => ?_
      rw [allocated_of_grown others free added, isNew]
  | destroyed address inner versions found free others =>
      exact ok.destroyed versions (inv.arcs address inner found).version_lt
        ⟨address, inner, found, rfl⟩
        (allocated_of_destroyed others inv found free)

/-- An old value that is still allocated was allocated before. -/
theorem HeapStep.origin
    {address : Addr} {inner' : ArcInner}
    (step : HeapStep store store' result)
    (found : store'.heap address = some inner')
    (old : inner'.version < store.versions) :
    ∃ inner, store.heap address = some inner ∧ KeptArc inner inner' := by
  cases step with
  | kept versions arcs allocated => exact arcs address inner' found
  | grown location new versions free added isNew others =>
      by_cases same : address = location
      · subst same
        cases Option.some.inj (added.symm.trans found)
        exact absurd isNew (Nat.ne_of_lt old)
      · rw [others address same] at found
        exact ⟨inner', found, .refl inner'⟩
  | destroyed location inner versions stored free others =>
      have apart : address ≠ location := by
        rintro rfl
        exact absurd (free.symm.trans found) nofun
      rw [others address apart] at found
      exact ⟨inner', found, .refl inner'⟩

theorem HeapStep.versions_le (step : HeapStep store store' result) :
    store.versions ≤ store'.versions := by
  cases step <;> omega

end Destructions

private theorem step_heapStep
    {state next : State} {thread : Tid} {act : Act}
    (holds : Invariant state)
    (stepped : program.step state thread act = some next) :
    HeapStep state.memory.store next.memory.store
      (destroyed state thread act) := by
  obtain ⟨actor, step⟩ := step_store holds stepped
  exact step.heapStep

section Runs

variable {schedule : List (Tid × Act)} {state middle : State}
variable {cell : CellId} {version : Nat}

private theorem destroyedOnce_run
    (run : program.exec initial schedule = some state) :
    DestroyedOnce state.memory.store (destructions schedule) := by
  refine exec_induction
    (P := fun done state =>
      DestroyedOnce state.memory.store (destructions done)) ?_ run ?_
  · intro done middle thread act next reached stepped ok
    have holds := invariant_reachable ⟨done, reached⟩
    unfold destructions
    rw [events_snoc reached stepped]
    exact ok.step holds.1.store (step_heapStep holds stepped)
  · refine ⟨List.nodup_nil, fun version => ?_⟩
    simp [destructions, Program.events, initial, Store.initial]

/-- A property of the allocation of an old value that no operation on the heap
takes away holds for the rest of a run. -/
private theorem old_value_run
    {P : ArcInner → Prop}
    (kept : ∀ inner inner', KeptArc inner inner' → P inner → P inner')
    (reachable : program.Reachable initial middle)
    (old : version < middle.memory.store.versions)
    (before : ∀ address inner,
      middle.memory.store.heap address = some inner →
        inner.version = version → P inner)
    (run : program.exec middle schedule = some state) :
    ∀ address inner, state.memory.store.heap address = some inner →
      inner.version = version → P inner := by
  have all : Invariant state ∧ version < state.memory.store.versions ∧
      ∀ address inner, state.memory.store.heap address = some inner →
        inner.version = version → P inner := by
    refine exec_invariant
      (P := fun state : State =>
        Invariant state ∧ version < state.memory.store.versions ∧
          ∀ address inner, state.memory.store.heap address = some inner →
            inner.version = version → P inner)
      ?_ run ⟨invariant_reachable reachable, old, before⟩
    rintro config thread act next stepped ⟨holds, below, property⟩
    have step := step_heapStep holds stepped
    refine ⟨invariant_step stepped holds,
      Nat.lt_of_lt_of_le below step.versions_le, ?_⟩
    intro address inner' found isVersion
    obtain ⟨inner, stored, same⟩ := step.origin found (isVersion ▸ below)
    exact kept inner inner' same
      (property address inner stored (same.version.symm.trans isVersion))
  exact all.2.2

/-- The value was current in the cell at some point of the run. -/
def InstalledIn (schedule : List (Tid × Act)) (cell : CellId)
    (version : Nat) : Prop :=
  ∃ done rest middle, schedule = done ++ rest ∧
    program.exec initial done = some middle ∧
    (middle.memory.store.cells cell).phase = .alive ∧
    (middle.memory.store.cells cell).version = version

theorem InstalledIn.versions
    (installed : InstalledIn schedule cell version)
    (run : program.exec initial schedule = some state) :
    version < state.memory.store.versions := by
  obtain ⟨done, rest, middle, rfl, reached, alive, rfl⟩ := installed
  have holds := invariant_reachable ⟨done, reached⟩
  obtain ⟨inner, found, _, _, isVersion⟩ := holds.1.store.current_inner alive
  have below := (holds.1.store.arcs _ inner found).version_lt
  have all : Invariant state ∧
      (middle.memory.store.cells cell).version <
        state.memory.store.versions := by
    refine exec_invariant
      (P := fun state : State => Invariant state ∧
        (middle.memory.store.cells cell).version <
          state.memory.store.versions)
      ?_ (exec_rest run reached) ⟨holds, isVersion ▸ below⟩
    rintro config thread act next stepped ⟨holds, lower⟩
    exact ⟨invariant_step stepped holds, Nat.lt_of_lt_of_le lower
      (step_heapStep holds stepped).versions_le⟩
  exact all.2

/-- An installed value stays a value of its cell and is never fresh again. -/
theorem InstalledIn.inner
    {address : Addr} {inner : ArcInner}
    (installed : InstalledIn schedule cell version)
    (run : program.exec initial schedule = some state)
    (found : state.memory.store.heap address = some inner)
    (isVersion : inner.version = version) :
    inner.cell = cell ∧ ∀ call, inner.place ≠ .fresh call := by
  obtain ⟨done, rest, middle, rfl, reached, alive, rfl⟩ := installed
  have holds := invariant_reachable ⟨done, reached⟩
  obtain ⟨current, isCurrent, isCell, place, same⟩ :=
    holds.1.store.current_inner alive
  refine old_value_run
    (P := fun inner => inner.cell = cell ∧
      ∀ call, inner.place ≠ .fresh call)
    ?_ ⟨done, reached⟩ ?_ ?_ (exec_rest run reached) address inner found
    isVersion
  · rintro inner inner' kept ⟨ofCell, notFresh⟩
    exact ⟨kept.cell.trans ofCell,
      fun call isFresh => notFresh call (kept.fresh call isFresh)⟩
  · rw [← same]
    exact (holds.1.store.arcs _ current isCurrent).version_lt
  · intro other inner found isVersion
    have here := holds.1.store.version_inj other _ inner current found
      isCurrent (isVersion.trans same.symm)
    subst here
    cases Option.some.inj (found.symm.trans isCurrent)
    refine ⟨isCell, fun call isFresh => ?_⟩
    rw [place] at isFresh
    cases isFresh

/-- The cell has a reference to the value. -/
def Store.CellOwns (store : Store) (version : Nat) : Prop :=
  ∃ address inner, store.heap address = some inner ∧
    inner.version = version ∧ .cell ∈ inner.owners

/-- A reference that was dropped does not come back. -/
private theorem cellOwns_earlier
    {done rest : List (Tid × Act)}
    (run : program.exec initial (done ++ rest) = some state)
    (reached : program.exec initial done = some middle)
    (old : version < middle.memory.store.versions)
    (owns : state.memory.store.CellOwns version) :
    middle.memory.store.CellOwns version := by
  by_contra released
  obtain ⟨address, inner, found, isVersion, isOwner⟩ := owns
  refine old_value_run (P := fun inner => .cell ∉ inner.owners)
    (fun _ _ kept notOwner isOwner => notOwner (kept.owned isOwner))
    ⟨done, reached⟩ old ?_ (exec_rest run reached) address inner found
    isVersion isOwner
  intro address inner found isVersion isOwner
  exact released ⟨address, inner, found, isVersion, isOwner⟩

end Runs

/-! ### After the cell -/

/-- The cell is dropped, its drop is over, and no handle to a value of the
cell is left. -/
structure CellGone (state : State) (cell : CellId) : Prop where
  dropped : (state.memory.store.cells cell).phase = .dropped
  finished : ∀ thread freed,
    .dropping cell .drop freed ∉ (state.threads thread).stack
  handles : ∀ handle address inner,
    (handle, address) ∈ state.memory.store.handles →
      state.memory.store.heap address = some inner → inner.cell ≠ cell

section Gone

variable {state : State} {cell : CellId} {address : Addr}
variable {inner : ArcInner} {call : CallId} {frame : Frame}

private theorem CellGone.not_active
    (gone : CellGone state cell) (holds : Invariant state) :
    ¬ state.memory.Held call (.active cell) := by
  intro active
  have alive := (holds.1.store.cells cell).active_alive call active
  exact absurd (alive.symm.trans gone.dropped) nofun

private theorem CellGone.not_writer
    (gone : CellGone state cell) (holds : Invariant state) :
    (state.memory.store.cells cell).writer ≠ some call := by
  intro locked
  exact gone.not_active holds
    ((holds.1.store.cells cell).writer_active call locked)

/-- A batch of the cell is dropped by a call or by the drop of the cell. -/
private theorem holder_of_batch (member : address ∈ frame.batch) :
    (.active frame.cellOf ∈ frame.holding) ∨
      (.writer frame.cellOf ∈ frame.holding) ∨
      ∃ freed, frame = .dropping frame.cellOf .drop freed := by
  cases frame with
  | collect target collector step =>
      refine Or.inr (Or.inl ?_)
      simp [Frame.holding, Frame.cellOf]
  | dropping target collector freed =>
      cases collector with
      | drop => exact Or.inr (Or.inr ⟨freed, rfl⟩)
      | _ =>
          refine Or.inl ?_
          simp [Frame.holding, Frame.cellOf, Collector.active]
  | _ => cases member

private theorem CellGone.not_batch
    (gone : CellGone state cell) (holds : Invariant state)
    (custody : CustodyOk state)
    (found : state.memory.store.heap address = some inner)
    (isCell : inner.cell = cell) : inner.place ≠ .freed call := by
  intro place
  have held : state.memory.Held call (.freed address) := by
    simp [Memory.Held, Store.place, found, place]
  obtain ⟨frame, isFrame, member⟩ := holds.frame_of_held held
  have inBatch := freed_mem_iff.mp member
  obtain ⟨other, stored, ofCell⟩ := custody call frame isFrame address
    (List.mem_append_left _ inBatch)
  cases Option.some.inj (found.symm.trans stored)
  have ok := holds.frameOk isFrame
  have called : frame.cellOf = cell := ofCell.symm.trans isCell
  rcases holder_of_batch inBatch with active | locked | ⟨freed, shape⟩
  · rw [called] at active
    exact gone.not_active holds ((ok.held _).mpr active)
  · rw [called] at locked
    exact gone.not_writer holds ((ok.held _).mpr locked)
  · rw [called] at shape
    rw [shape] at isFrame
    exact gone.finished call.thread freed (mem_of_frameAt isFrame)

private theorem CellGone.not_owner
    (gone : CellGone state cell) (holds : Invariant state)
    (custody : CustodyOk state) (handlesOk : HandlesOk state.memory.store)
    (found : state.memory.store.heap address = some inner)
    (isCell : inner.cell = cell)
    (installed : ∀ call, inner.place ≠ .fresh call) :
    .cell ∉ inner.owners := by
  intro isOwner
  have inv := holds.1.store
  have notDropped := (inv.arcs address inner found).cell_iff.mp isOwner
  cases place : inner.place with
  | fresh call => exact installed call place
  | current =>
      obtain ⟨alive, _⟩ := inv.current_of_place found place
      rw [isCell, gone.dropped] at alive
      cases alive
  | unlinked call =>
      have locked := (inv.cells cell).unlinked_writer address call
        inner.version (Store.tracked_eq_some_iff.mpr
          ⟨rfl, inner, found, isCell, place, rfl⟩)
      exact gone.not_writer holds locked
  | retired =>
      have member := inv.mem_retired_iff.mpr ⟨inner, found, isCell, place⟩
      rw [handlesOk.dropped cell gone.dropped] at member
      cases member
  | freed call => exact gone.not_batch holds custody found isCell place
  | dropped => exact notDropped place

/-- Nothing refers to a value of a cell that is gone. -/
private theorem CellGone.not_allocated
    (gone : CellGone state cell) (holds : Invariant state)
    (custody : CustodyOk state) (handlesOk : HandlesOk state.memory.store)
    (found : state.memory.store.heap address = some inner)
    (isCell : inner.cell = cell)
    (installed : ∀ call, inner.place ≠ .fresh call) : False := by
  have arc := holds.1.store.arcs address inner found
  obtain ⟨owner, member⟩ := List.exists_mem_of_ne_nil _ arc.owned
  have owners : state.memory.store.owners address = inner.owners := by
    simp [Store.owners, found]
  cases owner with
  | cell =>
      exact gone.not_owner holds custody handlesOk found isCell installed
        member
  | fallback call =>
      have reading : state.memory.Held call (.fallback cell) := by
        rw [← isCell]
        exact arc.fallback_active call member
      obtain ⟨frame, isFrame, named⟩ := holds.frame_of_held reading
      exact gone.not_active holds
        (((holds.frameOk isFrame).held _).mpr (active_of_fallback named))
  | load call =>
      have loading : state.memory.Held call (.loaded address) := by
        show .load call ∈ state.memory.store.owners address
        rw [owners]
        exact member
      obtain ⟨frame, isFrame, named⟩ := holds.frame_of_held loading
      have isLoaded := loaded_mem_iff.mp named
      obtain ⟨other, stored, ofCell⟩ := custody call frame isFrame address
        (List.mem_append_right _ isLoaded)
      cases Option.some.inj (found.symm.trans stored)
      have active := active_of_loaded isLoaded
      rw [ofCell.symm.trans isCell] at active
      exact gone.not_active holds
        (((holds.frameOk isFrame).held _).mpr active)
  | user handle =>
      exact gone.handles handle address inner
        (handlesOk.users address inner handle found member) found isCell

end Gone

section Drops

variable {state next : State} {thread : Tid} {act : Act}
variable {reference : Reference}

private theorem FrameOk.drops_owned
    {memory : Memory} {call : CallId} {frame : Frame}
    (inv : MemInv memory) (ok : FrameOk memory call frame)
    (isDropped : frame.drops call act = some reference) :
    reference.2 ∈ memory.store.owners reference.1 := by
  have ofBatch : ∀ address, .freed address ∈ frame.holding →
      .cell ∈ memory.store.owners address := by
    intro address member
    obtain ⟨inner, found, place⟩ :=
      Option.map_eq_some_iff.mp ((ok.held (.freed address)).mpr member)
    have isOwner : .cell ∈ inner.owners := by
      rw [(inv.store.arcs address inner found).cell_iff, place]
      nofun
    simpa [Store.owners, found] using isOwner
  unfold Frame.drops at isDropped
  split at isDropped
  · cases isDropped
    exact ofBatch _ (by simp [Frame.holding])
  · cases isDropped
    exact ofBatch _ (by simp [Frame.holding])
  · rename_i cell address
    cases isDropped
    exact (ok.held (.loaded address)).mpr
      (by simp [Frame.holding, Collector.holding])
  · rename_i cell address version body
    split at isDropped
    · cases isDropped
      exact (ok.held (.shared address)).mpr (by simp [Frame.holding])
    · cases isDropped
  · cases isDropped

/-- A drop finds the reference that it drops. -/
private theorem dropped_owned
    (holds : Invariant state)
    (stepped : program.step state thread act = some next)
    (isDropped : dropped state thread act = some reference) :
    reference.2 ∈ state.memory.store.owners reference.1 := by
  obtain ⟨actor, rfl, step, _⟩ := actorStep stepped
  cases step with
  | user level userPoint performed pushed =>
      rw [dropped_of_user performed] at isDropped
      cases act with
      | dropHandle handle address =>
          cases isDropped
          simp only [userStep] at performed
          split at performed
          · rename_i member
            obtain ⟨inner, found, isOwner⟩ :=
              holds.1.store.handles_owned handle address member
            simpa [Store.owners, found] using isOwner
          · cases performed
      | _ => cases isDropped
  | top frame rest tls shape level moved =>
      rw [dropped_of_top shape level moved] at isDropped
      exact (holds.frameOk (frameOf_top rfl shape level)).drops_owned holds.1
        isDropped

end Drops

/-- Ownership of the values of a cell.  In every run every value that was ever
installed is either allocated, then its count adds up its owners, and the cell
is one of them exactly once with its reference in exactly one variable, or has
released it for good; or the value has been destroyed exactly once.  `current`
is never empty, `retired_len` is the length of the retired list whenever the
writer lock is free, no reference is dropped twice, and nothing is left when
the cell and the handles to its values are gone. -/
theorem ownership_conserved
    {schedule : List (Tid × Act)} {state : State}
    (run : program.exec initial schedule = some state) (cell : CellId) :
    (∀ version, InstalledIn schedule cell version →
      (∃ address inner,
        state.memory.store.heap address = some inner ∧
          inner.cell = cell ∧ inner.version = version ∧
          inner.strong = inner.owners.length ∧
          (destructions schedule).count version = 0 ∧
          (Owned state cell address inner ∨
            Released state cell address inner)) ∨
      (¬ state.memory.store.Allocated version ∧
        (destructions schedule).count version = 1)) ∧
    (∀ done rest middle version, schedule = done ++ rest →
      program.exec initial done = some middle →
      InstalledIn done cell version →
      state.memory.store.CellOwns version →
        middle.memory.store.CellOwns version) ∧
    ((state.memory.store.cells cell).phase = .alive →
      ∃ inner,
        state.memory.store.heap (state.memory.store.cells cell).current =
            some inner ∧
          inner.cell = cell ∧ .cell ∈ inner.owners) ∧
    ((state.memory.store.cells cell).writer = none →
      (state.memory.store.cells cell).retiredLen =
        (state.memory.store.cells cell).retired.length) ∧
    (∀ thread act next reference,
      program.step state thread act = some next →
      dropped state thread act = some reference →
        reference.2 ∈ state.memory.store.owners reference.1) ∧
    (CellGone state cell → ∀ version, InstalledIn schedule cell version →
      (destructions schedule).count version = 1) := by
  have reachable : program.Reachable initial state := ⟨schedule, run⟩
  have holds := invariant_reachable reachable
  have once := destroyedOnce_run run
  have gone : ∀ version, InstalledIn schedule cell version →
      ¬ state.memory.store.Allocated version →
        (destructions schedule).count version = 1 := by
    intro version installed free
    exact List.count_eq_one_of_mem once.nodup
      ((once.mem_iff version).mpr ⟨installed.versions run, free⟩)
  refine ⟨?_, ?_, ?_, ?_, ?_, ?_⟩
  · intro version installed
    by_cases allocated : state.memory.store.Allocated version
    · obtain ⟨address, inner, found, isVersion⟩ := allocated
      obtain ⟨rfl, notFresh⟩ := installed.inner run found isVersion
      refine Or.inl ⟨address, inner, found, rfl, isVersion,
        (holds.1.store.arcs address inner found).strong_eq, ?_,
        owned_or_released holds found notFresh⟩
      rw [List.count_eq_zero, once.mem_iff]
      exact fun destroyed =>
        destroyed.2 ⟨address, inner, found, isVersion⟩
    · exact Or.inr ⟨allocated, gone version installed allocated⟩
  · rintro done rest middle version rfl reached installed owns
    exact cellOwns_earlier run reached (installed.versions reached) owns
  · intro alive
    obtain ⟨inner, found, isCell, place, _⟩ :=
      holds.1.store.current_inner alive
    refine ⟨inner, found, isCell, ?_⟩
    rw [(holds.1.store.arcs _ inner found).cell_iff, place]
    nofun
  · exact (holds.1.store.cells cell).retired_len
  · intro thread act next reference stepped isDropped
    exact dropped_owned holds stepped isDropped
  · intro cellGone version installed
    refine gone version installed ?_
    rintro ⟨address, inner, found, isVersion⟩
    obtain ⟨isCell, notFresh⟩ := installed.inner run found isVersion
    exact cellGone.not_allocated holds (custodyOk_reachable reachable)
      (handlesOk_reachable reachable) found isCell notFresh

/-- A writer has stored the new list and not pushed the old one yet. -/
def replacingFirst : List (Tid × Act) :=
  (0, .newCell 0 100) :: registration 0 0 1 101 1

theorem reference_with_writer :
    ∃ schedule state version address inner,
      program.exec initial schedule = some state ∧
        InstalledIn schedule 0 version ∧
        state.memory.store.heap address = some inner ∧
        inner.version = version ∧ .cell ∈ inner.owners ∧
        ∀ location, (∀ call, location ≠ .writer call) →
          (stored state 0 location).count address = 0 := by
  have first :
      (program.exec initial [(0, .newCell 0 100)]).map
          (fun state => ((state.memory.store.cells 0).phase,
            (state.memory.store.cells 0).version)) =
        some (.alive, 0) := by
    decide +kernel
  have evaluated :
      ((program.exec initial replacingFirst).bind fun state =>
          (state.memory.store.heap 100).map fun inner =>
            (state, inner)).map
          (fun found => (found.2.cell, found.2.version, found.2.owners,
            found.2.place)) =
        some (0, 0, [.cell], .unlinked ⟨0, 0⟩) := by
    decide +kernel
  obtain ⟨middle, reached, atStart⟩ := Option.map_eq_some_iff.mp first
  obtain ⟨alive, version⟩ := Prod.mk.inj atStart
  obtain ⟨⟨state, inner⟩, both, view⟩ := Option.map_eq_some_iff.mp evaluated
  obtain ⟨other, run, paired⟩ := Option.bind_eq_some_iff.mp both
  obtain ⟨_, found, same⟩ := Option.map_eq_some_iff.mp paired
  cases same
  obtain ⟨isCell, isVersion, owners, place⟩ := by
    simpa only [Prod.mk.injEq] using view
  have holds := invariant_reachable ⟨replacingFirst, run⟩
  refine ⟨replacingFirst, state, 0, 100, inner, run,
    ⟨_, _, middle, rfl, reached, alive, version⟩, found, isVersion,
    by simp [owners], ?_⟩
  intro location elsewhere
  have apart : inner.place ≠ location.place := by
    rw [place]
    cases location with
    | writer call => exact absurd rfl (elsewhere call)
    | _ => nofun
  have counted : (stored state inner.cell location).count 100 = _ :=
    count_stored holds found
  rw [if_neg apart, isCell] at counted
  exact counted

/-- The handle of a load outlives the cell. -/
def handleOutlivesCell : List (Tid × Act) :=
  (0, .newCell 0 100) :: registration 0 0 1 101 9 ++
    ((0, .call 0 .loadArcIf) :: nexts 0 8 ++
      ((0, .keep true) :: nexts 0 4 ++
        ((0, .dropCell 0) :: nexts 0 2 ++ [(0, .dropHandle 0 101)])))

theorem ownership_conserved_handle :
    ∃ state, program.exec initial handleOutlivesCell = some state ∧
      CellGone state 0 ∧ InstalledIn handleOutlivesCell 0 1 ∧
      (destructions handleOutlivesCell).count 1 = 1 := by
  have first :
      (program.exec initial
          ((0, .newCell 0 100) :: registration 0 0 1 101 9)).map
          (fun state => ((state.memory.store.cells 0).phase,
            (state.memory.store.cells 0).version)) =
        some (.alive, 1) := by
    decide +kernel
  have evaluated :
      (program.exec initial handleOutlivesCell).map
          (fun state => ((state.memory.store.cells 0).phase,
            state.memory.store.handles, (state.threads 0).stack)) =
        some (.dropped, [], []) := by
    decide +kernel
  obtain ⟨middle, reached, atStart⟩ := Option.map_eq_some_iff.mp first
  obtain ⟨alive, version⟩ := Prod.mk.inj atStart
  obtain ⟨state, run, view⟩ := Option.map_eq_some_iff.mp evaluated
  obtain ⟨dropped, handles, stack⟩ := by
    simpa only [Prod.mk.injEq] using view
  have idle : ∀ thread, (state.threads thread).stack = [] := by
    intro thread
    by_cases same : thread = 0
    · rw [same]
      exact stack
    · have absent : ∀ entry ∈ handleOutlivesCell, entry.1 ≠ thread := by
        intro entry member isThread
        have alone : ∀ entry ∈ handleOutlivesCell, entry.1 = 0 := by
          decide
        exact same (isThread.symm.trans (alone entry member))
      rw [exec_threads run absent]
      rfl
  have gone : CellGone state 0 := by
    refine ⟨dropped, fun thread freed member => ?_, ?_⟩
    · rw [idle thread] at member
      cases member
    · intro handle address inner member
      rw [handles] at member
      cases member
  have installed : InstalledIn handleOutlivesCell 0 1 :=
    ⟨_, _, middle, rfl, reached, alive, version⟩
  obtain ⟨_, _, _, _, _, conserved⟩ := ownership_conserved run 0
  exact ⟨state, run, gone, installed, conserved gone 1 installed⟩

end RegistryIo.Snapshot
