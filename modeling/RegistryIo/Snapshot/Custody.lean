import RegistryIo.Snapshot.HazardSafety
import RegistryIo.Snapshot.StoreSteps

/-!
# Whose references a call and a caller hold

The batch that a call drops and the handle that a load returns contain values
of the cell that was called.  Every reference of a caller is one of the
handles it was given, and a dropped cell has no retired values left.
-/

namespace RegistryIo.Snapshot

open RegistryIo.Interleaving

/-- The handle that a load is going to return or to drop. -/
def Collector.refs : Collector → List Addr
  | .reclaim result => result.toList
  | .discard result => result.toList
  | _ => []

/-- The batch that left the retired list. -/
def CollectStep.batch : CollectStep → List Addr
  | .storeLen freed => freed
  | .unlock freed => freed
  | _ => []

namespace Frame

/-- The values a call took out of the cell and has not dropped yet. -/
def batch : Frame → List Addr
  | .collect _ _ step => step.batch
  | .dropping _ _ freed => freed
  | _ => []

/-- The value a load has counted a reference of. -/
def loaded : Frame → List Addr
  | .counted _ address _ _ => [address]
  | .checkRetired _ result => result.toList
  | .tryLock _ result => result.toList
  | .collect _ collector _ => collector.refs
  | .dropping _ collector _ => collector.refs
  | .handOver _ address => [address]
  | .locked _ .loadArcIf (.unlock address _) => [address]
  | .lockedKeep _ address _ => [address]
  | _ => []

/-- The cell that was called. -/
def cellOf : Frame → CellId
  | .enter cell _ => cell
  | .pinning cell _ _ _ => cell
  | .validate cell _ _ _ => cell
  | .republish cell _ _ _ => cell
  | .reading cell _ _ _ _ => cell
  | .keeping cell _ _ _ => cell
  | .counted cell _ _ _ => cell
  | .checkRetired cell _ => cell
  | .tryLock cell _ => cell
  | .collect cell _ _ => cell
  | .dropping cell _ _ => cell
  | .handOver cell _ => cell
  | .draw cell _ => cell
  | .lockWriter cell _ _ => cell
  | .compute cell _ _ => cell
  | .installing cell _ _ _ => cell
  | .pushing cell _ _ _ => cell
  | .unlockUnchanged cell => cell
  | .enterFallback cell _ => cell
  | .locked cell _ _ => cell
  | .fallbackReading cell _ _ _ => cell
  | .leaveFallback cell => cell
  | .lockedKeep cell _ _ => cell
  | .waiting cell _ _ => cell
  | .returned cell _ => cell
  | .exiting _ _ => 0

/-- The values that the call keeps alive by references of its own. -/
def refs (frame : Frame) : List Addr :=
  frame.batch ++ frame.loaded

end Frame

section Holdings

variable {frame : Frame} {address : Addr}

theorem freed_mem_iff :
    .freed address ∈ frame.holding ↔ address ∈ frame.batch := by
  cases frame with
  | collect cell collector step =>
      cases collector <;> cases step <;>
        simp [Frame.holding, Frame.batch, Collector.active,
          Collector.holding, CollectStep.holding, CollectStep.batch]
  | dropping cell collector freed =>
      cases collector <;>
        simp [Frame.holding, Frame.batch, Collector.active,
          Collector.holding]
  | locked cell reader step =>
      cases reader <;> cases step <;>
        simp [Frame.holding, Frame.batch, Reader.holding,
          LockedStep.holding, Reader.reference]
  | lockWriter cell write wait =>
      cases write <;> simp [Frame.holding, Frame.batch, Write.holding]
  | compute cell write wait =>
      cases write <;> simp [Frame.holding, Frame.batch, Write.holding]
  | waiting cell removed step =>
      cases step <;> simp [Frame.holding, Frame.batch, WaitStep.holding]
  | _ => simp [Frame.holding, Frame.batch]

theorem loaded_mem_iff :
    .loaded address ∈ frame.holding ↔ address ∈ frame.loaded := by
  cases frame with
  | collect cell collector step =>
      cases collector <;> cases step <;>
        simp [Frame.holding, Frame.loaded, Collector.active,
          Collector.holding, CollectStep.holding, Collector.refs]
  | dropping cell collector freed =>
      cases collector <;>
        simp [Frame.holding, Frame.loaded, Collector.active,
          Collector.holding, Collector.refs]
  | locked cell reader step =>
      cases reader <;> cases step <;>
        simp [Frame.holding, Frame.loaded, Reader.holding,
          LockedStep.holding, Reader.reference]
  | lockWriter cell write wait =>
      cases write <;> simp [Frame.holding, Frame.loaded, Write.holding]
  | compute cell write wait =>
      cases write <;> simp [Frame.holding, Frame.loaded, Write.holding]
  | waiting cell removed step =>
      cases step <;> simp [Frame.holding, Frame.loaded, WaitStep.holding]
  | _ => simp [Frame.holding, Frame.loaded]

/-- A load is a call of its cell. -/
theorem active_of_loaded (member : address ∈ frame.loaded) :
    .active frame.cellOf ∈ frame.holding := by
  cases frame with
  | collect cell collector step =>
      cases collector <;>
        simp [Frame.loaded, Collector.refs, Frame.holding, Frame.cellOf,
          Collector.active] at member ⊢
  | dropping cell collector freed =>
      cases collector <;>
        simp [Frame.loaded, Collector.refs, Frame.holding, Frame.cellOf,
          Collector.active] at member ⊢
  | exiting record index => cases member
  | _ => simp [Frame.holding, Frame.cellOf]

theorem active_of_fallback {cell : CellId}
    (member : .fallback cell ∈ frame.holding) :
    .active cell ∈ frame.holding := by
  cases frame with
  | locked target reader step =>
      cases reader <;> cases step <;>
        simp [Frame.holding, Reader.holding, LockedStep.holding,
          Reader.reference] at member ⊢ <;> exact member
  | fallbackReading target address version body =>
      simpa [Frame.holding] using member
  | leaveFallback target => simpa [Frame.holding] using member
  | collect target collector step =>
      cases collector <;> cases step <;>
        simp [Frame.holding, Collector.active, Collector.holding,
          CollectStep.holding] at member
  | dropping target collector freed =>
      cases collector <;>
        simp [Frame.holding, Collector.active, Collector.holding] at member
  | lockWriter target write wait =>
      cases write <;> simp [Frame.holding, Write.holding] at member
  | compute target write wait =>
      cases write <;> simp [Frame.holding, Write.holding] at member
  | waiting target removed step =>
      cases step <;> simp [Frame.holding, WaitStep.holding] at member
  | _ => simp [Frame.holding] at member

end Holdings

/-- The address holds a value of the cell. -/
def Belongs (store : Store) (cell : CellId) (address : Addr) : Prop :=
  ∃ inner, store.heap address = some inner ∧ inner.cell = cell

/-- Where the references of the next frame come from. -/
structure RefsFrom (memory : Memory) (frame after : Frame) : Prop where
  cell : after.cellOf = frame.cellOf
  refs : ∀ address ∈ after.refs,
    address ∈ frame.refs ∨ Belongs memory.store frame.cellOf address

section Steps

variable {memory memory' : Memory} {call : CallId} {tls tls' : Tls}
variable {cell : CellId} {act : Act} {frame after : Frame}

/-- A frame without references. -/
theorem RefsFrom.none
    (isCell : after.cellOf = frame.cellOf) (empty : after.refs = []) :
    RefsFrom memory frame after := by
  refine ⟨isCell, fun address member => ?_⟩
  rw [empty] at member
  cases member

/-- The references are passed on, or some of them are dropped. -/
theorem RefsFrom.kept
    (isCell : after.cellOf = frame.cellOf)
    (sublist : after.refs.Sublist frame.refs) :
    RefsFrom memory frame after :=
  ⟨isCell, fun _ member => Or.inl (sublist.subset member)⟩

theorem RefsFrom.slowPath
    {reader : Reader} (isCell : frame.cellOf = cell) :
    RefsFrom memory frame (slowPath cell reader) := by
  cases reader with
  | read notify => exact .none isCell.symm rfl
  | loadArcIf => exact .none isCell.symm rfl

theorem RefsFrom.afterRelease
    {result : Option Addr} (isCell : frame.cellOf = cell)
    (refs : frame.refs = result.toList) :
    RefsFrom memory frame (afterRelease cell result) := by
  cases result with
  | none => exact .none isCell.symm rfl
  | some address =>
      refine .kept isCell.symm ?_
      rw [refs]
      exact List.Sublist.refl _

private theorem unwound_refs (collector : Collector) :
    collector.unwound.refs = collector.refs := by
  cases collector <;> rfl

theorem frameStep_refs
    (inv : MemInv memory) (ok : FrameOk memory call frame)
    (stepped : frameStep memory call tls frame act =
      some (memory', tls', some after)) : RefsFrom memory frame after := by
  cases frameStep_rule stepped with
  | pinGone | pinFull => exact .slowPath rfl
  | nothingRetired | tryLockBusy | dropReclaimed =>
      exact .afterRelease rfl rfl
  | counted | someRetired | tryLockTaken | collectNothing | collectStart
  | collectSlot | collectRecord | collectLen | collectUnlock | lockedKeep
  | lockedAccept | lockedReject => exact .kept rfl (List.Sublist.refl _)
  | dropValue => exact .kept rfl (List.sublist_cons_self _ _)
  | dropPanics =>
      refine .kept rfl ?_
      simp only [Frame.refs, Frame.batch, Frame.loaded, unwound_refs]
      exact List.sublist_cons_self _ _
  | keep =>
      refine ⟨rfl, fun other member => Or.inr ?_⟩
      rw [List.mem_singleton.mp member]
      obtain ⟨inner, found, isCell, _⟩ := Announces.found inv ok.facts
      exact ⟨inner, found, isCell⟩
  | collectEnd =>
      refine ⟨rfl, fun address member => ?_⟩
      rcases List.mem_append.mp member with freed | loaded
      · obtain ⟨inner, found, isCell, _⟩ := inv.store.mem_retired_iff.mp
          (Store.mem_collectUnprotected_freed.mp freed).1
        exact Or.inr ⟨inner, found, isCell⟩
      · exact Or.inl (List.mem_append_right _ loaded)
  | @lockedCountLoad cell =>
      have alive : (memory.store.cells cell).phase = .alive :=
        ok.alive inv (by simp [Frame.holding])
      refine ⟨rfl, fun other member => Or.inr ?_⟩
      obtain ⟨inner, found, isCell, _⟩ := inv.store.current_inner alive
      rw [List.mem_singleton.mp member, ok.facts.2.1]
      exact ⟨inner, found, isCell⟩
  | @lockedLock _ reader | @lockedLoad _ reader =>
      cases reader with
      | read notify => exact .none rfl rfl
      | loadArcIf => exact .none rfl rfl
  | _ => exact .none rfl rfl

theorem Pushed.refs
    {thread : Tid} {locals locals' : Thread} (inv : MemInv memory)
    (performed : userStep thread memory locals act =
      some (memory', locals'))
    (pushed : locals'.stack = frame :: locals.stack)
    {address : Addr} (member : address ∈ frame.refs) :
    Belongs memory.store frame.cellOf address := by
  cases userStep_rule performed with
  | newCell | dropHandle | exitUnclaimed => exact absurd pushed (by simp)
  | dropCell alive =>
      cases (List.cons.inj pushed).1
      simp only [Frame.refs, Frame.batch, Frame.loaded, Collector.refs,
        List.append_nil, List.mem_cons] at member
      rcases member with isCurrent | isRetired
      · obtain ⟨inner, found, isCell, _⟩ := inv.store.current_inner alive
        rw [isCurrent]
        exact ⟨inner, found, isCell⟩
      · obtain ⟨inner, found, isCell, _⟩ :=
          inv.store.mem_retired_iff.mp isRetired
        exact ⟨inner, found, isCell⟩
  | @call _ operation =>
      cases (List.cons.inj pushed).1
      cases operation <;> cases member
  | exitClaimed =>
      cases (List.cons.inj pushed).1
      cases member

end Steps

/-- The references of every call are to values of the cell it was called
on. -/
def CustodyOk (state : State) : Prop :=
  ∀ call frame, frameOf state call = some frame →
    ∀ address ∈ frame.refs, Belongs state.memory.store frame.cellOf address

section Run

variable {state next : State} {thread : Tid} {act : Act}

private theorem Invariant.allocated_of_refs
    {call : CallId} {frame : Frame} {address : Addr}
    (holds : Invariant state) (found : frameOf state call = some frame)
    (member : address ∈ frame.refs) :
    ∃ inner, state.memory.store.heap address = some inner := by
  have ok := holds.frameOk found
  rcases List.mem_append.mp member with inBatch | isLoaded
  · have held := (ok.held (.freed address)).mpr (freed_mem_iff.mpr inBatch)
    obtain ⟨inner, stored, _⟩ := Option.map_eq_some_iff.mp held
    exact ⟨inner, stored⟩
  · have held :=
      (ok.held (.loaded address)).mpr (loaded_mem_iff.mpr isLoaded)
    obtain ⟨inner, stored, _⟩ := Store.heap_of_mem_owners held
    exact ⟨inner, stored⟩

private theorem custodyOk_step
    (holds : Invariant state)
    (stepped : program.step state thread act = some next)
    (ok : CustodyOk state) : CustodyOk next := by
  obtain ⟨actor, isThread, step, others⟩ := actorStep stepped
  obtain ⟨gained, lost, advance⟩ := step.advance holds isThread
  have holdsNext := invariant_step stepped holds
  intro call frame found address member
  -- The address is still allocated, and its contents do not change.
  have stable : Belongs state.memory.store frame.cellOf address →
      Belongs next.memory.store frame.cellOf address := by
    rintro ⟨inner, stored, isCell⟩
    obtain ⟨inner', stored'⟩ := holdsNext.allocated_of_refs found member
    obtain ⟨same, _, _⟩ :=
      advance.store.contents address inner inner' stored stored'
    exact ⟨inner', stored', same.trans isCell⟩
  apply stable
  by_cases same : call = actor
  · subst same
    cases step with
    | user level userPoint performed after =>
        rcases after with vacant | ⟨pushed, isPushed, _⟩
        · exact absurd (found.symm.trans vacant) nofun
        · cases Option.some.inj (found.symm.trans isPushed)
          rcases (userStep_stack performed).2.2 with
            unchanged | ⟨grown, shape, _⟩
          · have vacant : frameOf next call = none := frameOf_vacant isThread
              (level.trans (congrArg List.length unchanged).symm)
            exact absurd (found.symm.trans vacant) nofun
          · have isTop : frameOf next call = some grown :=
              frameOf_top isThread shape level
            cases Option.some.inj (found.symm.trans isTop)
            exact Pushed.refs holds.1 performed shape member
    | top before rest tls shape level moved =>
        have foundBefore := frameOf_top isThread shape level
        rw [found] at moved
        have origin :=
          frameStep_refs holds.1 (holds.frameOk foundBefore) moved
        rw [origin.cell]
        rcases origin.refs address member with old | belongs
        · exact ok call before foundBefore address old
        · exact belongs
  · exact ok call frame ((others call same).symm.trans found) address member

theorem custodyOk_reachable
    (reachable : program.Reachable initial state) : CustodyOk state := by
  have both : Invariant state ∧ CustodyOk state := by
    refine reachable_invariant
      (P := fun state => Invariant state ∧ CustodyOk state)
      ⟨invariant_initial, ?_⟩ ?_ reachable
    · intro call frame found
      cases found
    · intro state thread act next stepped holds
      exact ⟨invariant_step stepped holds.1,
        custodyOk_step holds.1 stepped holds.2⟩
  exact both.2

end Run

/-! ### Handles, and what is left of a dropped cell -/

structure HandlesOk (store : Store) : Prop where
  /-- Every reference of a caller is a handle. -/
  users : ∀ address inner handle, store.heap address = some inner →
    .user handle ∈ inner.owners → (handle, address) ∈ store.handles
  dropped : ∀ cell, (store.cells cell).phase = .dropped →
    (store.cells cell).retired = []

section Handles

variable {store store' : Store} {call : CallId} {address : Addr}

/-- The owners of every allocation stay or become fewer. -/
theorem HandlesOk.of_owners
    (ok : HandlesOk store)
    (owners : ∀ address inner', store'.heap address = some inner' →
      ∃ inner, store.heap address = some inner ∧
        ∀ handle, .user handle ∈ inner'.owners →
          .user handle ∈ inner.owners)
    (handles : store'.handles = store.handles)
    (cells : ∀ cell, (store'.cells cell).phase = .dropped →
      (store'.cells cell).retired = []) : HandlesOk store' := by
  refine ⟨?_, cells⟩
  intro address inner' handle found member
  obtain ⟨inner, stored, kept⟩ := owners address inner' found
  rw [handles]
  exact ok.users address inner handle stored (kept handle member)

theorem HandlesOk.setCell
    {cell : CellId} {snap : SnapCell} (ok : HandlesOk store)
    (dropped : snap.phase = .dropped → snap.retired = []) :
    HandlesOk (store.setCell cell snap) := by
  refine ⟨ok.users, fun other => ?_⟩
  by_cases same : other = cell
  · subst same
    simpa [Store.setCell] using dropped
  · simpa [Store.setCell, same] using ok.dropped other

theorem HandlesOk.move
    {place : Addr → Place → Place} (ok : HandlesOk store) :
    HandlesOk (store.move place) := by
  refine ok.of_owners (fun address inner' found => ?_) rfl ok.dropped
  obtain ⟨inner, stored, rfl⟩ := Option.map_eq_some_iff.mp found
  exact ⟨inner, stored, fun _ => id⟩

theorem HandlesOk.allocArc
    {cell : CellId} {value : List Entry} {place : Place}
    (ok : HandlesOk store) :
    HandlesOk (store.allocArc address cell value place) := by
  refine ⟨?_, ok.dropped⟩
  intro other inner handle found member
  by_cases same : other = address
  · subst same
    simp only [Store.allocArc, Function.update_self,
      Option.some.injEq] at found
    subst found
    simp at member
  · simp only [Store.allocArc, Function.update_of_ne same] at found
    exact ok.users other inner handle found member

theorem HandlesOk.addOwner
    {owner : Owner} (ok : HandlesOk store)
    (notUser : ∀ handle, owner ≠ .user handle) :
    HandlesOk (store.addOwner address owner) := by
  unfold Store.addOwner
  split
  · exact ok
  · rename_i inner found
    refine ok.of_owners (fun other inner' stored => ?_) rfl ok.dropped
    by_cases same : other = address
    · subst same
      simp only [Store.setArc, Function.update_self,
        Option.some.injEq] at stored
      subst stored
      refine ⟨inner, found, fun handle member => ?_⟩
      rcases List.mem_cons.mp member with equal | old
      · exact absurd equal.symm (notUser handle)
      · exact old
    · simp only [Store.setArc, Function.update_of_ne same] at stored
      exact ⟨inner', stored, fun _ => id⟩

private theorem dropOwner_owners
    {owner : Owner} {other : Addr} {inner' : ArcInner}
    (stored : (store.dropOwner address owner).heap other = some inner') :
    ∃ inner, store.heap other = some inner ∧
      ((other ≠ address ∧ inner' = inner) ∨
        (other = address ∧
          (inner'.owners = inner.owners.erase owner))) := by
  unfold Store.dropOwner at stored
  split at stored
  · rename_i free
    refine ⟨inner', stored, Or.inl ⟨?_, rfl⟩⟩
    rintro rfl
    rw [free] at stored
    cases stored
  · rename_i inner found
    by_cases same : other = address
    · subst same
      split at stored
      · simp at stored
      · simp only [Store.setArc, Function.update_self,
          Option.some.injEq] at stored
        subst stored
        exact ⟨inner, found, Or.inr ⟨rfl, rfl⟩⟩
    · refine ⟨inner', ?_, Or.inl ⟨same, rfl⟩⟩
      split at stored
      · simpa [same] using stored
      · simpa [Store.setArc, same] using stored

theorem dropOwner_cells (store : Store) (address : Addr) (owner : Owner) :
    (store.dropOwner address owner).cells = store.cells ∧
      (store.dropOwner address owner).handles = store.handles := by
  unfold Store.dropOwner
  split
  · exact ⟨rfl, rfl⟩
  · split <;> exact ⟨rfl, rfl⟩

theorem HandlesOk.dropOwner
    {owner : Owner} (ok : HandlesOk store) :
    HandlesOk (store.dropOwner address owner) := by
  obtain ⟨cells, handles⟩ := dropOwner_cells store address owner
  refine ok.of_owners (fun other inner' stored => ?_) handles ?_
  · obtain ⟨inner, found, ⟨_, rfl⟩ | ⟨_, owners⟩⟩ := dropOwner_owners stored
    · exact ⟨_, found, fun _ => id⟩
    · refine ⟨inner, found, fun handle member => ?_⟩
      rw [owners] at member
      exact List.mem_of_mem_erase member
  · rw [cells]
    exact ok.dropped

theorem HandlesOk.giveHandle (ok : HandlesOk store) :
    HandlesOk (store.giveHandle address call) := by
  unfold Store.giveHandle
  split
  · exact ok
  · rename_i inner found
    refine ⟨?_, ok.dropped⟩
    intro other inner' handle stored member
    by_cases same : other = address
    · subst same
      simp only [Store.setArc, Function.update_self,
        Option.some.injEq] at stored
      subst stored
      rcases List.mem_cons.mp member with equal | old
      · cases equal
        exact List.mem_cons_self
      · exact List.mem_cons_of_mem _ (ok.users other inner handle found
          (List.mem_of_mem_erase old))
    · simp only [Store.setArc, Function.update_of_ne same] at stored
      exact List.mem_cons_of_mem _
        (ok.users other inner' handle stored member)

theorem HandlesOk.dropHandle
    {handle : Nat} (ok : HandlesOk store) (inv : StoreInv store) :
    HandlesOk (store.dropHandle handle address) := by
  obtain ⟨cells, handles⟩ := dropOwner_cells store address (.user handle)
  constructor
  · intro other inner' user stored member
    show (user, other) ∈ store.handles.erase (handle, address)
    obtain ⟨inner, found, ⟨different, rfl⟩ | ⟨rfl, owners⟩⟩ :=
      dropOwner_owners stored
    · have apart : (user, other) ≠ (handle, address) := by
        intro equal
        exact different (Prod.mk.inj equal).2
      exact (List.mem_erase_of_ne apart).mpr
        (ok.users other _ user found member)
    · rw [owners] at member
      have nodup := (inv.arcs other inner found).owners_nodup
      have apart : (user, other) ≠ (handle, other) := by
        intro equal
        rw [(Prod.mk.inj equal).1] at member
        exact nodup.not_mem_erase member
      exact (List.mem_erase_of_ne apart).mpr
        (ok.users other inner user found (List.mem_of_mem_erase member))
  · intro cell
    have sameCell : (store.dropHandle handle address).cells cell =
        store.cells cell := congrFun cells cell
    rw [sameCell]
    exact ok.dropped cell

theorem StoreStep.handlesOk
    {reference : Option Reference}
    (step : StoreStep call store reference store') (inv : StoreInv store)
    (ok : HandlesOk store) : HandlesOk store' := by
  cases step with
  | same => exact ok
  | setCell cell snap phase retired =>
      refine ok.setCell fun isDropped => ?_
      rw [retired]
      exact ok.dropped cell (phase.symm.trans isDropped)
  | alloc => exact ok.allocArc
  | newCell cell address free unborn =>
      exact ok.allocArc.setCell fun isDropped => by cases isDropped
  | install cell new effect =>
      exact ok.move.setCell fun isDropped => ok.dropped cell isDropped
  | retire cell raw alive =>
      refine ok.move.setCell fun isDropped => ?_
      exact absurd (alive.symm.trans isDropped) nofun
  | collect cell announced =>
      refine ok.move.setCell fun isDropped => ?_
      show (Store.collectUnprotected announced
        (store.cells cell).retired).1 = []
      rw [ok.dropped cell isDropped]
      rfl
  | dropCell cell => exact ok.move.setCell fun _ => rfl
  | addFallback => exact ok.addOwner nofun
  | addLoad => exact ok.addOwner nofun
  | dropOwner => exact ok.dropOwner
  | giveHandle => exact ok.giveHandle
  | dropHandle => exact ok.dropHandle inv

end Handles

theorem handlesOk_reachable
    {state : State} (reachable : program.Reachable initial state) :
    HandlesOk state.memory.store := by
  have both : Invariant state ∧ HandlesOk state.memory.store := by
    refine reachable_invariant
      (P := fun state => Invariant state ∧ HandlesOk state.memory.store)
      ⟨invariant_initial, ?_, ?_⟩ ?_ reachable
    · intro address inner handle found
      cases found
    · intro cell isDropped
      rfl
    · intro state thread act next stepped holds
      obtain ⟨actor, step⟩ := step_store holds.1 stepped
      exact ⟨invariant_step stepped holds.1,
        step.handlesOk holds.1.1.store holds.2⟩
  exact both.2

end RegistryIo.Snapshot
