import RegistryIo.Snapshot.Identity
import RegistryIo.Snapshot.Linearization

/-!
# The life of an unregistration

A call of `unregister` waits for the writer lock, computes the list without
its id, installs it, and then has nothing more to do with the list.  When the
id belongs to one registration, the call takes out that registration and no
other, and when it is over the registration is gone for good.
-/

namespace RegistryIo.Snapshot

open RegistryIo.Interleaving

/-- A call that has nothing more to do with the list of its cell. -/
def Frame.settles : Frame → Bool
  | .pushing .. => true
  | .unlockUnchanged _ => true
  | .collect .. => true
  | .dropping .. => true
  | .handOver .. => true
  | .waiting .. => true
  | .returned .. => true
  | _ => false

/-- The operation changes no cell as far as it concerns handlers. -/
structure SameStatus (store store' : Store) : Prop where
  status : ∀ cell, (store'.cells cell).status = (store.cells cell).status
  phase : ∀ cell, (store'.cells cell).phase = (store.cells cell).phase

/-- The id of an entry belongs to its handler. -/
structure Owns (memory : Memory) (cell : CellId) (entry : Entry) : Prop where
  installed : Installed memory cell entry.handler
  owner : ∀ other ∈ memory.store.deref (memory.store.cells cell).current,
    other.id = entry.id ↔ other.handler = entry.handler

/-- A call of `unregister` with the id of an entry that is still to take the
entry out of the list. -/
inductive TakesOut (cell : CellId) (entry : Entry) : Frame → Prop where
  | locks (wait : Bool) :
      TakesOut cell entry (.lockWriter cell (.remove entry.id) wait)
  | computes (wait : Bool) :
      TakesOut cell entry (.compute cell (.remove entry.id) wait)
  | installs (wait : Bool) (new : Addr) :
      TakesOut cell entry (.installing cell wait ⟨[entry.handler], none⟩ new)

/-- A call of `unregister` with the id of an entry. -/
def Unregisters (memory : Memory) (cell : CellId) (entry : Entry)
    (frame : Frame) : Prop :=
  TakesOut cell entry frame ∨
    frame.settles = true ∧
      (memory.store.cells cell).status entry.handler = .removed

section Statuses

variable {store : Store} {cell : CellId}

private theorem SameStatus.of_cells
    {store' : Store} (cells : store'.cells = store.cells) :
    SameStatus store store' :=
  ⟨fun _ => by rw [cells], fun _ => by rw [cells]⟩

theorem SameStatus.refl (store : Store) : SameStatus store store :=
  .of_cells rfl

theorem SameStatus.of_update
    {store' : Store} {snap : SnapCell}
    (cells : store'.cells = Function.update store.cells cell snap)
    (status : snap.status = (store.cells cell).status)
    (phase : snap.phase = (store.cells cell).phase) :
    SameStatus store store' := by
  have each : ∀ other,
      (store'.cells other).status = (store.cells other).status ∧
        (store'.cells other).phase = (store.cells other).phase := by
    intro other
    rw [cells]
    by_cases here : other = cell
    · subst here
      rw [Function.update_self]
      exact ⟨status, phase⟩
    · rw [Function.update_of_ne here]
      exact ⟨rfl, rfl⟩
  exact ⟨fun other => (each other).1, fun other => (each other).2⟩

theorem SameStatus.dropOwner (address : Addr) (owner : Owner) :
    SameStatus store (store.dropOwner address owner) :=
  .of_cells (dropOwner_cells store address owner).1

end Statuses

section Steps

variable {memory memory' : Memory} {call : CallId} {tls tls' : Tls}
variable {cell : CellId} {act : Act} {frame : Frame} {next : Option Frame}

/-- The rest of a call leaves the list alone. -/
private theorem frameStep_settles
    (settles : frame.settles = true)
    (stepped : frameStep memory call tls frame act =
      some (memory', tls', next)) :
    next.all Frame.settles = true ∧
      SameStatus memory.store memory'.store := by
  cases frameStep_rule stepped with
  | collectNothing | collectStart | collectSlot | collectRecord | dropWaits
  | dropWrote | dropCell | dropDone | waitStart | waitPasses | waitBacksOff
  | waitDone | waitEach | waitRecord | waitFound | waitSlot | waitAgain
  | waitNext => exact ⟨rfl, .refl _⟩
  | @dropReclaimed _ result =>
      cases result with
      | none => exact ⟨rfl, .refl _⟩
      | some address => exact ⟨rfl, .refl _⟩
  | collectEnd | collectLen | collectUnlock | retire | unlockUnchanged
  | waitLock | waitCopy | returned => exact ⟨rfl, .of_update rfl rfl rfl⟩
  | dropValue | dropPanics | dropHandle => exact ⟨rfl, .dropOwner _ _⟩
  | handOver =>
      refine ⟨rfl, .of_cells ?_⟩
      simp only [Memory.withStore, Store.giveHandle]
      split <;> rfl
  | _ => cases settles

/-- When the id is not in the list, its owner has been removed. -/
private theorem Owns.removed_of_absent
    {entry : Entry} (inv : MemInv memory)
    (alive : (memory.store.cells cell).phase = .alive)
    (owns : Owns memory cell entry)
    (absent : Write.apply (.remove entry.id)
      (memory.store.deref (memory.store.cells cell).current) = none) :
    (memory.store.cells cell).status entry.handler = .removed := by
  rcases owns.installed with live | removed
  · have listed := (((inv.store.cells cell).list_ok alive).live_iff
      entry.handler).mpr live
    rw [← deref_current inv alive] at listed
    obtain ⟨other, member, same⟩ := List.mem_map.mp listed
    refine absurd ?_ (HandlerEntry.removeId_eq_none_iff.mp absent)
    exact List.mem_map.mpr ⟨other, member, (owns.owner other member).mpr same⟩
  · exact removed

/-- The id of a removed handler is not in the list. -/
theorem Owns.ne_of_removed
    {entry : Entry} (inv : MemInv memory)
    (alive : (memory.store.cells cell).phase = .alive)
    (owns : Owns memory cell entry)
    (removed : (memory.store.cells cell).status entry.handler = .removed) :
    ∀ other ∈ memory.store.deref (memory.store.cells cell).current,
      other.id ≠ entry.id := by
  intro other member same
  have handler := (owns.owner other member).mp same
  rw [deref_current inv alive] at member
  have live := (((inv.store.cells cell).list_ok alive).live_iff
    other.handler).mp (List.mem_map_of_mem member)
  rw [handler, removed] at live
  cases live

/-- An unregistration takes out the owner of its id. -/
private theorem Owns.effect_eq
    {entry : Entry} {value : List Entry} (owns : Owns memory cell entry)
    (found : Write.apply (.remove entry.id)
      (memory.store.deref (memory.store.cells cell).current) = some value) :
    Write.effect (.remove entry.id)
        (memory.store.deref (memory.store.cells cell).current) =
      ⟨[entry.handler], none⟩ := by
  obtain ⟨before, other, after, split, _, isId, _⟩ :=
    HandlerEntry.removeId_eq_some found
  simp only [Write.effect]
  cases first : (memory.store.deref (memory.store.cells cell).current).find?
      fun candidate => candidate.id = entry.id with
  | none =>
      have member : other ∈
          memory.store.deref (memory.store.cells cell).current := by
        rw [split]
        exact List.mem_append_right _ List.mem_cons_self
      have different := List.find?_eq_none.mp first other member
      exact absurd isId (by simpa using different)
  | some candidate =>
      have isOwn : candidate.id = entry.id := by
        simpa using List.find?_some first
      have same := (owns.owner candidate
        (List.mem_of_find?_eq_some first)).mp isOwn
      simp [handlersOf, same]

/-- What a step of an unregistration does. -/
structure UnregisterStep (cell : CellId) (entry : Entry)
    (memory memory' : Memory) (next : Option Frame) : Prop where
  goesOn : ∀ frame, next = some frame →
    Unregisters memory' cell entry frame
  ends : next = none →
    (memory'.store.cells cell).status entry.handler = .removed
  others : ∀ target handler, ¬ (target = cell ∧ handler = entry.handler) →
    (memory'.store.cells target).status handler =
      (memory.store.cells target).status handler
  phase : ∀ target, (memory'.store.cells target).phase =
    (memory.store.cells target).phase

theorem UnregisterStep.of_same
    {entry : Entry} (same : SameStatus memory.store memory'.store)
    (takes : TakesOut cell entry frame) :
    UnregisterStep cell entry memory memory' (some frame) where
  goesOn := by
    intro after isNext
    cases isNext
    exact Or.inl takes
  ends := nofun
  others := fun target _ _ => by rw [same.status target]
  phase := same.phase

private theorem UnregisterStep.of_settled
    {entry : Entry}
    (settled : next.all Frame.settles = true ∧
      SameStatus memory.store memory'.store)
    (removed : (memory.store.cells cell).status entry.handler = .removed) :
    UnregisterStep cell entry memory memory' next := by
  have kept : (memory'.store.cells cell).status entry.handler =
      .removed := by
    rw [settled.2.status cell]
    exact removed
  refine ⟨?_, fun _ => kept,
    fun target _ _ => by rw [settled.2.status target], settled.2.phase⟩
  rintro frame rfl
  exact Or.inr ⟨settled.1, kept⟩

/-- The update that takes the entry out of the list removes it. -/
private theorem UnregisterStep.of_installed
    {entry : Entry} {new : Addr} (settles : frame.settles = true) :
    UnregisterStep cell entry memory
      (memory.withStore (memory.store.install cell new
        ⟨[entry.handler], none⟩ call)) (some frame) := by
  have removed : ((memory.withStore (memory.store.install cell new
      ⟨[entry.handler], none⟩ call)).store.cells cell).status
        entry.handler = .removed := by
    simp [Memory.withStore, Store.install, Store.setCell,
      SnapCell.installed]
  have elsewhere : ∀ target, target ≠ cell →
      (memory.store.install cell new ⟨[entry.handler], none⟩
        call).cells target = memory.store.cells target :=
    fun target apart => Function.update_of_ne apart _ _
  constructor
  · intro after isNext
    cases isNext
    exact Or.inr ⟨settles, removed⟩
  · intro isNext
    cases isNext
  · intro target handler apart
    by_cases here : target = cell
    · subst here
      have other : handler ≠ entry.handler :=
        fun same => apart ⟨rfl, same⟩
      simp [Memory.withStore, Store.install, Store.setCell,
        SnapCell.installed, other]
    · exact congrArg (fun snap => snap.status handler)
        (elsewhere target here)
  · intro target
    by_cases here : target = cell
    · subst here
      simp [Memory.withStore, Store.install, Store.setCell,
        SnapCell.installed]
    · exact congrArg SnapCell.phase (elsewhere target here)

theorem Unregisters.step
    {entry : Entry} (inv : MemInv memory)
    (frameOk : FrameOk memory call frame) (owns : Owns memory cell entry)
    (unregisters : Unregisters memory cell entry frame)
    (stepped : frameStep memory call tls frame act =
      some (memory', tls', next)) :
    UnregisterStep cell entry memory memory' next := by
  rcases unregisters with takes | ⟨settles, removed⟩
  · cases takes with
    | locks wait =>
        cases frameStep_rule stepped with
        | lockWriter =>
            exact .of_same (.of_update rfl rfl rfl) (.computes wait)
    | computes wait =>
        cases frameStep_rule stepped with
        | computeNone absent =>
            have alive : (memory.store.cells cell).phase = .alive :=
              frameOk.alive inv (by simp [Frame.holding])
            exact .of_settled ⟨rfl, .refl _⟩
              (owns.removed_of_absent inv alive absent)
        | @computeSome _ _ _ address value found =>
            rw [owns.effect_eq found]
            exact .of_same (.of_cells rfl) (.installs wait address)
    | installs wait new =>
        cases frameStep_rule stepped with
        | install => exact .of_installed rfl
  · exact .of_settled (frameStep_settles settles stepped) removed

end Steps

/-! ### Entries of a dispatch -/

/-- What a dispatch has got was in the list once, under its own id. -/
structure EntryOk (memory : Memory) (cell : CellId) (entry : Entry) :
    Prop where
  installed : Installed memory cell entry.handler
  named : NamedOk entry

/-- The entries that a dispatch still runs. -/
def DispatchesOk (state : State) : Prop :=
  ∀ call claim body, stageOf state call = some (.inside claim body) →
    ∀ entry ∈ body.remaining, EntryOk state.memory claim.cell entry

section Run

variable {state next : State} {thread : Tid} {act : Act}

private theorem dispatchesOk_step
    (holds : Invariant state) (ids : IdsOk state)
    (stepped : program.step state thread act = some next)
    (ok : DispatchesOk state) : DispatchesOk next := by
  intro call claim body inside entry member
  have grows : CellGrows claim.cell state next :=
    CellGrows.refl.step holds stepped
  have known : EntryOk state.memory claim.cell entry := by
    rcases inside_step holds stepped inside with
      ⟨before, found, moved⟩ | ⟨alive, isVersion, notify, rfl⟩
    · refine ok call claim before found entry ?_
      rcases moved with rfl | moved
      · exact member
      · exact (bodyStep_remaining moved).subset member
    · have listed := (remaining_start notify _).subset member
      refine ⟨Or.inl ?_, ids.values _ entry listed⟩
      rw [isVersion] at listed
      exact (((holds.1.store.cells claim.cell).list_ok alive).live_iff
        entry.handler).mp (List.mem_map_of_mem listed)
  exact ⟨grows.installed _ known.installed, known.named⟩

theorem dispatchesOk_reachable
    (reachable : program.Reachable initial state) : DispatchesOk state := by
  have all : (Invariant state ∧ IdsOk state) ∧ DispatchesOk state := by
    refine reachable_invariant
      (P := fun state => (Invariant state ∧ IdsOk state) ∧
        DispatchesOk state) ?_ ?_ reachable
    · refine ⟨⟨invariant_initial, idsOk_initial⟩, ?_⟩
      intro call claim body inside
      cases inside
    · rintro state thread act next stepped ⟨⟨holds, ids⟩, ok⟩
      exact ⟨⟨invariant_step stepped holds, idsOk_step holds stepped ids⟩,
        dispatchesOk_step holds ids stepped ok⟩
  exact all.2

/-- The cell of a read is alive. -/
theorem Invariant.alive_of_inside
    {call : CallId} {claim : Claim} {body : Body} (holds : Invariant state)
    (inside : stageOf state call = some (.inside claim body)) :
    (state.memory.store.cells claim.cell).phase = .alive := by
  obtain ⟨frame, found, stage⟩ := Option.map_eq_some_iff.mp inside
  have active : .active claim.cell ∈ frame.holding := by
    rcases Frame.of_inside stage with ⟨address, pin, rfl⟩ | ⟨address, rfl⟩
    · simp [Frame.holding]
    · simp [Frame.holding]
  exact (holds.frameOk found).alive holds.1 active

theorem Invariant.drawn_of_installed
    {cell : CellId} {handler : Nat} (holds : Invariant state)
    (installed : Installed state.memory cell handler) :
    handler < (state.memory.store.cells cell).registrations := by
  by_contra beyond
  have unused := (holds.1.store.cells cell).unused handler
    (Nat.le_of_not_lt beyond)
  rcases installed with live | removed
  · exact absurd (unused.symm.trans live) nofun
  · exact absurd (unused.symm.trans removed) nofun

/-- With at most `2 ^ 64` draws the id of an entry belongs to it alone. -/
theorem EntryOk.owns
    {cell : CellId} {entry : Entry} (holds : Invariant state)
    (ids : IdsOk state)
    (alive : (state.memory.store.cells cell).phase = .alive)
    (few : (state.memory.store.cells cell).registrations ≤ 2 ^ 64)
    (ok : EntryOk state.memory cell entry) :
    Owns state.memory cell entry := by
  have cellOk := holds.1.store.cells cell
  refine ⟨ok.installed, fun other member => ?_⟩
  have named : NamedOk other := deref_named holds ids member
  constructor
  · intro same
    rw [deref_current holds.1 alive] at member
    have live := ((cellOk.list_ok alive).live_iff other.handler).mp
      (List.mem_map_of_mem member)
    refine idOf_inj few (holds.drawn_of_installed (Or.inl live))
      (holds.drawn_of_installed ok.installed) ?_
    rw [← named, ← ok.named, same]
  · intro same
    rw [named, ok.named, same]

end Run

end RegistryIo.Snapshot
