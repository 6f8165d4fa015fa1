import RegistryIo.Snapshot.Calls

/-!
# What a step does to the heap

Every step performs at most one operation on the store.  `StoreStep` lists
the operations, as far as allocations, references and handles are concerned,
together with the reference that is dropped.  `KeptArc` is what all of them
keep of an allocation, and `HeapStep` says which value is allocated or
destroyed.
-/

namespace RegistryIo.Snapshot

open RegistryIo.Interleaving

/-- A strong reference: the allocation and the owner. -/
abbrev Reference := Addr × Owner

/-- The operations on the store that a step of `call` can perform, with the
reference that is dropped. -/
inductive StoreStep (call : CallId) (store : Store) :
    Option Reference → Store → Prop where
  | same : StoreStep call store none store
  | setCell (cell : CellId) (snap : SnapCell)
      (phase : snap.phase = (store.cells cell).phase)
      (retired : snap.retired = (store.cells cell).retired) :
      StoreStep call store none (store.setCell cell snap)
  | alloc (address : Addr) (cell : CellId) (value : List Entry)
      (free : store.heap address = none) :
      StoreStep call store none
        (store.allocArc address cell value (.fresh call))
  | install (cell : CellId) (new : Addr) (effect : Effect) :
      StoreStep call store none (store.install cell new effect call)
  | retire (cell : CellId) (raw : Addr)
      (alive : (store.cells cell).phase = .alive) :
      StoreStep call store none (store.retire cell raw)
  | collect (cell : CellId) (announced : List Addr) :
      StoreStep call store none (store.collect cell announced call)
  | addFallback (address : Addr) :
      StoreStep call store none (store.addOwner address (.fallback call))
  | addLoad (address : Addr) :
      StoreStep call store none (store.addOwner address (.load call))
  | dropOwner (address : Addr) (owner : Owner) :
      StoreStep call store (some (address, owner))
        (store.dropOwner address owner)
  | giveHandle (address : Addr) :
      StoreStep call store none (store.giveHandle address call)
  | dropHandle (handle : Nat) (address : Addr)
      (member : (handle, address) ∈ store.handles) :
      StoreStep call store (some (address, .user handle))
        (store.dropHandle handle address)
  | newCell (cell : CellId) (address : Addr)
      (free : store.heap address = none)
      (unborn : (store.cells cell).phase = .unborn) :
      StoreStep call store none (store.newCell cell address)
  | dropCell (cell : CellId) :
      StoreStep call store none (store.dropCell cell call)

/-- The reference that an operation of the frame drops. -/
def Frame.drops (call : CallId) : Frame → Act → Option Reference
  | .dropping _ _ (address :: _), .next => some (address, .cell)
  | .dropping _ _ (address :: _), .unwind => some (address, .cell)
  | .dropping _ (.discard (some address)) [], .next =>
      some (address, .load call)
  | .fallbackReading _ address _ body, act =>
      if (act = .finish ∧ body.finishes) ∨
          (act = .unwind ∧ body.unwinds) then
        some (address, .fallback call)
      else none
  | _, _ => none

/-- The actions of user code. -/
def Act.isUser : Act → Bool
  | .newCell .. | .dropCell .. | .call .. | .dropHandle ..
  | .exitThread => true
  | _ => false

/-- The reference that user code drops. -/
def Act.drops : Act → Option Reference
  | .dropHandle handle address => some (address, .user handle)
  | _ => none

/-- The reference that a step drops. -/
def dropped (state : State) (thread : Tid) (act : Act) : Option Reference :=
  match (state.threads thread).stack with
  | [] => act.drops
  | frame :: rest =>
      (frame.drops ⟨thread, rest.length⟩ act).or act.drops

section Steps

variable {memory memory' : Memory} {call : CallId} {tls tls' : Tls}
variable {cell : CellId} {act : Act} {frame : Frame} {next : Option Frame}

private theorem frameStep_store
    (inv : MemInv memory) (ok : FrameOk memory call frame)
    (stepped : frameStep memory call tls frame act =
      some (memory', tls', next)) :
    StoreStep call memory.store (frame.drops call act) memory'.store := by
  cases frameStep_rule stepped with
  | tryLockTaken | lockWriter | lockedLock | waitLock | collectLen
  | collectUnlock | unlockUnchanged | lockedRead | lockedKeep | waitCopy
  | draw | enterFallback | leaveFallback | returned =>
      exact .setCell _ _ rfl rfl
  | keep | lockedCountLoad => exact .addLoad _
  | lockedCountRead => exact .addFallback _
  | collectEnd => exact .collect _ _
  | dropValue | dropPanics | dropHandle => exact .dropOwner _ _
  | handOver => exact .giveHandle _
  | computeSome value computed free => exact .alloc _ _ _ free
  | install => exact .install _ _ _
  | retire =>
      exact .retire _ _ (ok.alive inv (by simp [Frame.holding]))
  | fallbackFinish finishes =>
      simp only [Frame.drops, finishes, and_self, true_or, if_true]
      exact .dropOwner _ _
  | fallbackUnwind unwinds =>
      simp only [Frame.drops, unwinds, and_self, or_true, if_true]
      exact .dropOwner _ _
  | fallbackBody inside =>
      obtain ⟨notFinish, notUnwind⟩ := bodyStep_goes_on inside
      simp only [Frame.drops, notFinish, notUnwind, false_and, or_self,
        if_false]
      exact .same
  | _ => exact .same

private theorem userStep_store
    {thread : Tid} {locals locals' : Thread}
    (performed : userStep thread memory locals act =
      some (memory', locals')) :
    StoreStep ⟨thread, locals.stack.length⟩ memory.store act.drops
      memory'.store := by
  cases userStep_rule performed with
  | newCell unborn free => exact .newCell _ _ free unborn
  | dropCell => exact .dropCell _
  | call => exact .setCell _ _ rfl rfl
  | dropHandle member => exact .dropHandle _ _ member
  | exitUnclaimed | exitClaimed => exact .same

/-- User code and the frame below it do not drop references in one step. -/
private theorem drops_of_userStep
    {thread : Tid} {locals locals' : Thread}
    (performed : userStep thread memory locals act =
      some (memory', locals')) : frame.drops call act = none := by
  cases act with
  | newCell | dropCell | call | dropHandle | exitThread =>
      unfold Frame.drops
      split
      case h_4 => simp
      all_goals first | rfl | contradiction
  | _ => cases performed

private theorem bodyStep_not_user
    {body body' : Body} (inside : bodyStep body act = some body') :
    act.isUser = false := by
  unfold bodyStep at inside
  split at inside
  · rfl
  · rfl
  · rfl
  · rfl
  · cases inside

/-- Actions of user code are not operations of a frame. -/
theorem frameStep_not_user
    (stepped : frameStep memory call tls frame act =
      some (memory', tls', next)) : act.isUser = false := by
  cases frameStep_rule stepped with
  | readBody inside => exact bodyStep_not_user inside
  | fallbackBody inside => exact bodyStep_not_user inside
  | _ => rfl

private theorem drops_of_frameStep
    (stepped : frameStep memory call tls frame act =
      some (memory', tls', next)) : act.drops = none := by
  have notUser := frameStep_not_user stepped
  cases act with
  | dropHandle handle address => cases notUser
  | _ => rfl

theorem dropped_of_user
    {state : State} {thread : Tid} {locals' : Thread}
    (performed : userStep thread state.memory (state.threads thread) act =
      some (memory', locals')) : dropped state thread act = act.drops := by
  unfold dropped
  split
  · rfl
  · rw [drops_of_userStep performed, Option.none_or]

theorem dropped_of_top
    {state : State} {actor : CallId} {rest : List Frame}
    (shape : (state.threads actor.thread).stack = frame :: rest)
    (level : actor.depth = rest.length)
    (moved : frameStep state.memory actor tls frame act =
      some (memory', tls', next)) :
    dropped state actor.thread act = frame.drops actor act := by
  unfold dropped
  rw [shape]
  dsimp only
  rw [drops_of_frameStep moved, Option.or_none, ← level]

/-- Every step performs at most one operation on the store. -/
theorem step_store
    {state after : State} {thread : Tid}
    (holds : Invariant state)
    (stepped : program.step state thread act = some after) :
    ∃ actor : CallId, StoreStep actor state.memory.store
      (dropped state thread act) after.memory.store := by
  obtain ⟨actor, rfl, step, _⟩ := actorStep stepped
  cases step with
  | user level userPoint performed pushed =>
      rw [dropped_of_user performed]
      exact ⟨_, userStep_store performed⟩
  | top frame rest tls shape level moved =>
      rw [dropped_of_top shape level moved]
      exact ⟨actor, frameStep_store holds.1
        (holds.frameOk (frameOf_top rfl shape level)) moved⟩

end Steps

/-- What stays of an allocation: it belongs to the same cell and has the same
version, the cell never gets its reference back, and an installed value is
never fresh again. -/
structure KeptArc (inner inner' : ArcInner) : Prop where
  cell : inner'.cell = inner.cell
  version : inner'.version = inner.version
  owned : .cell ∈ inner'.owners → .cell ∈ inner.owners
  fresh : ∀ call, inner'.place = .fresh call → inner.place = .fresh call

/-- The version of the value that the drop of a reference destroys. -/
def Store.destroyedBy (store : Store) (address : Addr) : Option Nat :=
  (store.heap address).bind fun inner =>
    if inner.strong = 1 then some inner.version else none

/-- A step makes at most one allocation, with the next version, or destroys at
most one value. -/
inductive HeapStep (store store' : Store) : Option Nat → Prop where
  | kept (versions : store'.versions = store.versions)
      (arcs : ∀ address inner', store'.heap address = some inner' →
        ∃ inner, store.heap address = some inner ∧ KeptArc inner inner')
      (allocated : ∀ address, store'.heap address = none →
        store.heap address = none) : HeapStep store store' none
  | grown (address : Addr) (new : ArcInner)
      (versions : store'.versions = store.versions + 1)
      (free : store.heap address = none)
      (added : store'.heap address = some new)
      (isVersion : new.version = store.versions)
      (others : ∀ other, other ≠ address →
        store'.heap other = store.heap other) : HeapStep store store' none
  | destroyed (address : Addr) (inner : ArcInner)
      (versions : store'.versions = store.versions)
      (found : store.heap address = some inner)
      (gone : store'.heap address = none)
      (others : ∀ other, other ≠ address →
        store'.heap other = store.heap other) :
      HeapStep store store' (some inner.version)

section Heap

variable {store store' : Store} {call : CallId} {address : Addr}

theorem KeptArc.refl (inner : ArcInner) : KeptArc inner inner :=
  ⟨rfl, rfl, id, fun _ => id⟩

theorem HeapStep.of_same
    (heap : store'.heap = store.heap)
    (versions : store'.versions = store.versions) :
    HeapStep store store' none := by
  refine .kept versions (fun address inner' found => ?_) ?_
  · rw [heap] at found
    exact ⟨inner', found, .refl inner'⟩
  · rw [heap]
    exact fun _ => id

/-- References move to other places, but none becomes fresh. -/
private theorem HeapStep.of_move
    (place : Addr → Place → Place)
    (heap : store'.heap = (store.move place).heap)
    (versions : store'.versions = store.versions)
    (fresh : ∀ address old call, place address old = .fresh call →
      old = .fresh call) : HeapStep store store' none := by
  refine .kept versions (fun address inner' found => ?_) ?_
  · rw [heap] at found
    obtain ⟨inner, stored, rfl⟩ := Option.map_eq_some_iff.mp found
    exact ⟨inner, stored, rfl, rfl, id, fun call => fresh address _ call⟩
  · intro address free
    rw [heap] at free
    exact Option.map_eq_none_iff.mp free

private theorem HeapStep.of_setPlaces
    {addresses : List Addr} {target : Place}
    (heap : store'.heap = (store.setPlaces addresses target).heap)
    (versions : store'.versions = store.versions)
    (installed : ∀ call, target ≠ .fresh call) :
    HeapStep store store' none := by
  refine .of_move _ heap versions fun address old call isFresh => ?_
  split at isFresh
  · exact absurd isFresh (installed call)
  · exact isFresh

/-- One allocation gets other owners. -/
private theorem HeapStep.of_setArc
    {inner inner' : ArcInner} (found : store.heap address = some inner)
    (heap : store'.heap =
      Function.update store.heap address (some inner'))
    (versions : store'.versions = store.versions)
    (kept : KeptArc inner inner') : HeapStep store store' none := by
  refine .kept versions (fun other inner'' stored => ?_) ?_
  · rw [heap] at stored
    by_cases same : other = address
    · subst same
      rw [Function.update_self] at stored
      cases stored
      exact ⟨inner, found, kept⟩
    · rw [Function.update_of_ne same] at stored
      exact ⟨inner'', stored, .refl inner''⟩
  · intro other free
    rw [heap] at free
    by_cases same : other = address
    · subst same
      rw [Function.update_self] at free
      cases free
    · rwa [Function.update_of_ne same] at free

private theorem heapStep_addOwner
    {owner : Owner} (foreign : owner ≠ .cell) :
    HeapStep store (store.addOwner address owner) none := by
  unfold Store.addOwner
  split
  · exact .of_same rfl rfl
  · rename_i inner found
    refine .of_setArc found rfl rfl ⟨rfl, rfl, ?_, fun _ => id⟩
    intro member
    rcases List.mem_cons.mp member with same | old
    · exact absurd same.symm foreign
    · exact old

/-- The last reference destroys the value. -/
private theorem heapStep_dropOwner
    {owner : Owner}
    (heap : store'.heap = (store.dropOwner address owner).heap)
    (versions : store'.versions = store.versions) :
    HeapStep store store' (store.destroyedBy address) := by
  unfold Store.dropOwner at heap
  unfold Store.destroyedBy
  cases found : store.heap address with
  | none =>
      rw [found] at heap
      exact .of_same heap versions
  | some inner =>
      rw [found] at heap
      dsimp only at heap
      rw [Option.bind_some]
      by_cases last : inner.strong = 1
      · rw [if_pos last] at heap ⊢
        refine .destroyed address inner versions found ?_ ?_
        · rw [heap]
          simp
        · intro other different
          rw [heap]
          simp [different]
      · rw [if_neg last] at heap ⊢
        refine .of_setArc found heap versions
          ⟨rfl, rfl, List.mem_of_mem_erase, ?_⟩
        intro call isFresh
        dsimp only at isFresh
        split at isFresh
        · cases isFresh
        · exact isFresh

private theorem heapStep_giveHandle :
    HeapStep store (store.giveHandle address call) none := by
  unfold Store.giveHandle
  split
  · exact .of_same rfl rfl
  · rename_i inner found
    refine .of_setArc found rfl rfl ⟨rfl, rfl, ?_, fun _ => id⟩
    intro member
    rcases List.mem_cons.mp member with same | old
    · cases same
    · exact List.mem_of_mem_erase old

private theorem HeapStep.of_alloc
    {cell : CellId} {value : List Entry} {place : Place}
    (free : store.heap address = none)
    (heap : store'.heap = (store.allocArc address cell value place).heap)
    (versions : store'.versions = store.versions + 1) :
    HeapStep store store' none := by
  refine .grown address
    ⟨cell, store.versions, value, 1, [.cell], place⟩ versions free ?_ rfl ?_
  · rw [heap]
    simp [Store.allocArc]
  · intro other different
    rw [heap]
    simp [Store.allocArc, different]

private theorem dropOwner_versions
    (store : Store) (address : Addr) (owner : Owner) :
    (store.dropOwner address owner).versions = store.versions := by
  unfold Store.dropOwner
  split
  · rfl
  · split <;> rfl

theorem StoreStep.heapStep
    {reference : Option Reference}
    (step : StoreStep call store reference store') :
    HeapStep store store'
      (reference.bind fun dropped => store.destroyedBy dropped.1) := by
  cases step with
  | same => exact .of_same rfl rfl
  | setCell => exact .of_same rfl rfl
  | alloc address cell value free => exact .of_alloc free rfl rfl
  | newCell cell address free unborn => exact .of_alloc free rfl rfl
  | install cell new effect =>
      refine .of_move
        (fun address place =>
          if address = new then .current
          else if address = (store.cells cell).current then .unlinked call
          else place)
        rfl rfl fun address old caller isFresh => ?_
      split at isFresh
      · cases isFresh
      · split at isFresh
        · cases isFresh
        · exact isFresh
  | retire => exact .of_setPlaces rfl rfl nofun
  | collect => exact .of_setPlaces rfl rfl nofun
  | dropCell => exact .of_setPlaces rfl rfl nofun
  | addFallback => exact heapStep_addOwner nofun
  | addLoad => exact heapStep_addOwner nofun
  | dropOwner address owner =>
      exact heapStep_dropOwner rfl (dropOwner_versions store address owner)
  | giveHandle => exact heapStep_giveHandle
  | dropHandle handle address member =>
      exact heapStep_dropOwner rfl
        (dropOwner_versions store address (.user handle))

end Heap

end RegistryIo.Snapshot
