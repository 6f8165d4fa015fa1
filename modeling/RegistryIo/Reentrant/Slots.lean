import RegistryIo.Reentrant.DispatchTrace
import RegistryIo.Snapshot.Unregister

/-!
# The slot of a one-shot handler

`register_once` stores its function in a slot, and the wrapper that takes it
out calls it.  A slot is filled once, together with the id of its
registration, and emptied once, so the function is called at most once, and
it has been called when a dispatch is done with the entry.
-/

namespace RegistryIo.Reentrant

open RegistryIo.Interleaving RegistryIo.Snapshot
open RegistryIo.Isolation (PanicInfo)

variable {E P : Type}

/-- What happens to a one-shot handler: its function is taken out of the slot
and called, and the wrapper that has called it returns or unwinds. -/
inductive OnceEvent where
  | called (cell : CellId) (entry : Entry)
  | ended (cell : CellId) (entry : Entry)
  deriving DecidableEq, Repr

def OnceEvent.isCall (cell : CellId) (handler : Nat) : OnceEvent → Bool
  | .called target entry => decide (target = cell ∧ entry.handler = handler)
  | .ended _ _ => false

def Activation.onceEvent (memory : Memory) (activation : Activation E P) :
    Act E P → Option OnceEvent
  | .next =>
      match activation.work, invoked activation.frame with
      | .take, some (cell, entry) =>
          match (memory.shared.registries cell).slots entry.handler with
          | some ⟨_, true⟩ => some (.called cell entry)
          | _ => none
      | .remove _, some (cell, entry) => some (.ended cell entry)
      | _, _ => none
  | _ => none

def observedOnce (memory : Memory) (top : Option (Activation E P))
    (act : Act E P) : Option OnceEvent :=
  top.bind fun activation => activation.onceEvent memory act

def observeOnce (state : State E P) (thread : Tid) (act : Act E P) :
    Option OnceEvent :=
  observedOnce state.memory (topCall (state.threads thread).stack) act

/-- Whether the function of a one-shot handler is still in its slot. -/
def fullness (shared : Shared) (cell : CellId) (handler : Nat) :
    Option Bool :=
  ((shared.registries cell).slots handler).map Slot.full

/-- How often a step calls the function of a registration. -/
def callsIn (cell : CellId) (handler : Nat) (emitted : Option OnceEvent) :
    Nat :=
  emitted.toList.countP (OnceEvent.isCall cell handler)

/-- What a step does to the slot of a registration. -/
inductive SlotMove (memory memory' : Memory) (emitted : Option OnceEvent)
    (cell : CellId) (handler : Nat) : Prop where
  | kept (quiet : callsIn cell handler emitted = 0)
      (same : fullness memory'.shared cell handler =
        fullness memory.shared cell handler) :
      SlotMove memory memory' emitted cell handler
  | drawn (quiet : callsIn cell handler emitted = 0)
      (isNew : handler = (memory.cells.store.cells cell).registrations)
      (full : fullness memory'.shared cell handler = some true) :
      SlotMove memory memory' emitted cell handler
  | taken (emits : callsIn cell handler emitted = 1)
      (full : fullness memory.shared cell handler = some true)
      (empty : fullness memory'.shared cell handler = some false) :
      SlotMove memory memory' emitted cell handler

section Moves

variable {thread : Tid} {act meant : Act E P} {memory memory' : Memory}
variable {tls : Tls} {activation : Activation E P}
variable {calls calls' : List (Activation E P)}
variable {top : Option (Activation E P)} {cell : CellId} {handler : Nat}
variable {operation : Snapshot.Act} {shared shared' : Shared}

private theorem fullness_of_kept (kept : Kept shared shared') :
    fullness shared' cell handler = fullness shared cell handler := by
  unfold fullness
  rw [kept.slots]

private theorem fullness_setSlot
    (target : CellId) (number : Nat) (slot : Slot) :
    fullness (shared.setSlot target number slot) cell handler =
      if target = cell ∧ number = handler then some slot.full
      else fullness shared cell handler := by
  unfold fullness
  by_cases sameCell : cell = target
  · subst sameCell
    by_cases sameSlot : handler = number
    · subst sameSlot
      simp [Shared.setSlot, Shared.setRegistry]
    · simp [Shared.setSlot, Shared.setRegistry, sameSlot, Ne.symm sameSlot]
  · simp [Shared.setSlot, Shared.setRegistry, sameCell, Ne.symm sameCell]

/-- A new state of a slot that is as full as the old one. -/
private theorem fullness_relock
    {target : CellId} {number : Nat} {old new : Slot}
    (found : (shared.registries target).slots number = some old)
    (same : new.full = old.full) :
    fullness (shared.setSlot target number new) cell handler =
      fullness shared cell handler := by
  rw [fullness_setSlot]
  split
  · rename_i here
    obtain ⟨rfl, rfl⟩ := here
    simp [fullness, found, same]
  · rfl

private theorem Via.fullness_eq
    (via : Via thread act memory activation operation meant shared) :
    fullness shared cell handler =
      fullness memory.shared cell handler := by
  cases via with
  | plain | removed | removedPanicked => rfl
  | skipped isNext work inside empty => exact fullness_relock empty rfl
  | reported work ended | reportedPanicked work ended =>
      exact fullness_of_kept (reportStep_kept ended)

/-- An operation of the cell is not a call of the function. -/
private theorem Via.callsIn_eq
    (via : Via thread act memory activation operation meant shared) :
    callsIn cell handler (observedOnce memory (some activation) act) = 0 := by
  cases via with
  | plain work isAct =>
      cases act <;>
        simp [observedOnce, Activation.onceEvent, work, callsIn]
  | skipped isNext work inside empty =>
      simp [observedOnce, Activation.onceEvent, work, inside, isNext, empty,
        callsIn]
  | removed isNext work inside =>
      simp [observedOnce, Activation.onceEvent, work, inside, isNext,
        callsIn, OnceEvent.isCall]
  | removedPanicked isNext work inside =>
      simp [observedOnce, Activation.onceEvent, work, inside, isNext,
        callsIn, OnceEvent.isCall]
  | reported work ended =>
      cases act <;>
        simp [observedOnce, Activation.onceEvent, work, callsIn]
  | reportedPanicked work ended =>
      cases act <;>
        simp [observedOnce, Activation.onceEvent, work, callsIn]

/-- Only the draw of a registration fills a slot. -/
private theorem sharedAfter_fullness
    (memory : Memory) (activation : Activation E P)
    (operation : Snapshot.Act) (cell : CellId) (handler : Nat) :
    fullness (sharedAfter memory activation operation) cell handler =
        fullness memory.shared cell handler ∨
      handler = (memory.cells.store.cells cell).registrations ∧
        fullness (sharedAfter memory activation operation) cell handler =
          some true := by
  unfold sharedAfter
  split
  · left
    unfold fullness Shared.countPanic
    by_cases here : cell = activation.frame.cellOf
    · subst here
      simp [Shared.setRegistry]
    · simp [Shared.setRegistry, here]
  · split
    · rename_i target priority _ _
      rw [fullness_setSlot]
      split
      · rename_i here
        obtain ⟨rfl, rfl⟩ := here
        exact Or.inr ⟨rfl, rfl⟩
      · exact Or.inl rfl
    · exact Or.inl rfl

private theorem observedOnce_foreign (foreign : Foreign act top) :
    observedOnce memory top act = none := by
  rcases foreign.elsewhere with isUser | isNone
  · cases top with
    | none => rfl
    | some activation =>
        cases act with
        | next => cases isUser
        | _ => rfl
  · rw [isNone]
    rfl

private theorem Move.slotMove
    (move : Move thread act memory memory' tls top calls calls')
    (cell : CellId) (handler : Nat) :
    SlotMove memory memory' (observedOnce memory top act) cell handler := by
  cases move with
  | outside exit foreign kept =>
      rw [observedOnce_foreign foreign]
      exact .kept rfl (fullness_of_kept kept)
  | notified target event calls isNotify same =>
      subst isNotify
      refine .kept ?_ (by rw [same])
      cases top <;> rfl
  | called frame once calls foreign pushed notDispatch kept =>
      rw [observedOnce_foreign foreign]
      exact .kept rfl (fullness_of_kept kept)
  | lockedSlot activation rest isTop target entry full isNext work inside
      free after =>
      subst isTop isNext after
      refine .kept ?_ (fullness_relock free rfl)
      simp [observedOnce, Activation.onceEvent, work, callsIn]
  | took activation rest isTop target entry holder isNext work inside full
      after =>
      subst isTop isNext after
      have emits : observedOnce memory (some activation) .next =
          some (.called target entry) := by
        simp [observedOnce, Activation.onceEvent, work, inside, full]
      rw [emits]
      have emptied : fullness (memory.withShared (memory.shared.setSlot
          target entry.handler ⟨none, false⟩)).shared cell handler =
            if target = cell ∧ entry.handler = handler then some false
            else fullness memory.shared cell handler :=
        fullness_setSlot target entry.handler ⟨none, false⟩
      by_cases here : target = cell ∧ entry.handler = handler
      · rw [if_pos here] at emptied
        refine .taken ?_ ?_ emptied
        · simp [callsIn, OnceEvent.isCall, here]
        · obtain ⟨rfl, rfl⟩ := here
          simp [fullness, full]
      · rw [if_neg here] at emptied
        refine .kept ?_ emptied
        simp [callsIn, OnceEvent.isCall, here]
  | removing activation rest isTop target entry panic ended work inside
      same =>
      subst isTop
      refine .kept ?_ (by rw [same])
      rcases ended with ⟨rfl, _⟩ | ⟨payload, rfl, _⟩
      · rfl
      · rfl
  | reporting activation rest isTop info step next shared work stepped
      after =>
      subst isTop after
      refine .kept ?_ (fullness_of_kept (reportStep_kept stepped))
      cases act <;>
        simp [observedOnce, Activation.onceEvent, work, callsIn]
  | thrown activation rest isTop target payload isPanic work isFrame same =>
      subst isTop isPanic same
      exact .kept rfl rfl
  | popped activation isTop operation meant shared after via stepped same =>
      subst isTop
      refine .kept via.callsIn_eq ?_
      rw [same, via.fullness_eq]
  | moved activation rest isTop operation meant shared after frame unwinding
      via stepped same =>
      subst isTop
      rcases sharedAfter_fullness ⟨memory.cells, shared⟩ activation
        operation cell handler with kept | ⟨isNew, full⟩
      · refine .kept via.callsIn_eq ?_
        rw [same, kept, via.fullness_eq]
      · refine .drawn via.callsIn_eq isNew ?_
        rw [same, full]

end Moves

/-! ### Wrappers -/

/-- What a wrapper knows about its slot: a handler that is not a wrapper has
none, and after the call of the function it is empty. -/
def Work.Slotted (full : Option Bool) : Work P → Prop
  | .plain => full = none
  | .once => full = some false
  | .remove _ => full = some false
  | _ => True

def Activation.SlotOk (shared : Shared) (activation : Activation E P) :
    Prop :=
  ∀ cell entry, invoked activation.frame = some (cell, entry) →
    activation.work.Slotted (fullness shared cell entry.handler)

section Wrappers

variable {thread : Tid} {act meant : Act E P} {memory memory' : Memory}
variable {tls : Tls} {activation : Activation E P}
variable {calls calls' : List (Activation E P)}
variable {top : Option (Activation E P)} {cell : CellId} {handler : Nat}
variable {emitted : Option OnceEvent}

/-- The slot of a registration that has been made. -/
private theorem SlotMove.slotted
    {work : Work P}
    (move : SlotMove memory memory' emitted cell handler)
    (drawn : handler < (memory.cells.store.cells cell).registrations)
    (slotted : work.Slotted (fullness memory.shared cell handler)) :
    work.Slotted (fullness memory'.shared cell handler) := by
  cases move with
  | kept quiet same =>
      rw [same]
      exact slotted
  | drawn quiet isNew => omega
  | taken emits full empty =>
      rw [full] at slotted
      cases work with
      | plain | once | remove => cases slotted
      | _ => trivial

private theorem SlotMove.slotOk
    (moves : ∀ cell handler, SlotMove memory memory' emitted cell handler)
    (drawn : ∀ cell entry, invoked activation.frame = some (cell, entry) →
      entry.handler < (memory.cells.store.cells cell).registrations)
    (ok : activation.SlotOk memory.shared) :
    activation.SlotOk memory'.shared := by
  intro cell entry inside
  exact (moves cell entry.handler).slotted (drawn cell entry inside)
    (ok cell entry inside)

private theorem Resumed.slotOk
    {exit : Option P} {shared : Shared}
    (resumed : Resumed exit calls calls')
    (ok : ∀ activation ∈ calls, activation.SlotOk shared) :
    ∀ activation ∈ calls', activation.SlotOk shared := by
  cases resumed with
  | same => exact ok
  | thrown payload caller rest work =>
      rw [List.forall_mem_cons] at ok ⊢
      refine ⟨fun cell entry inside => ?_, ok.2⟩
      have old := ok.1 cell entry inside
      rw [work] at old
      exact old

/-- A dispatch gets to a handler by its loop. -/
private theorem invoke_of_invoked
    {cells' : Snapshot.Memory} {call : CallId} {tls' : Tls}
    {frame frame' : Frame} {operation : Snapshot.Act}
    {found : CellId × Entry} (inv : MemInv memory.cells)
    (frameOk : FrameOk memory.cells call frame)
    (stepped : frameStep memory.cells call tls frame operation =
      some (cells', tls', some frame'))
    (inside : invoked frame' = some found) :
    operation = .invoke ∧
      ∃ claim body, frame.stage = .inside claim body := by
  obtain ⟨claim, pending, _, stage⟩ := stage_of_invoked inside
  have moved := frameStep_stage inv frameOk stepped
  rw [Option.map_some] at moved
  generalize frame.stage = before at moved
  generalize frame'.stage = after at moved stage
  cases moved with
  | acquires cell notify => cases notify <;> cases stage
  | @walks claim body next moved =>
      cases stage
      refine ⟨?_, claim, body, rfl⟩
      unfold bodyStep at moved
      split at moved
      · rfl
      all_goals cases moved
  | _ => cases stage

private theorem Move.slotOk
    (move : Move thread act memory memory' tls top calls calls')
    (inv : MemInv memory.cells)
    (frameOk : ∀ activation rest, calls = activation :: rest →
      FrameOk memory.cells ⟨thread, rest.length⟩ activation.frame)
    (drawn : ∀ activation ∈ calls, ∀ cell entry,
      invoked activation.frame = some (cell, entry) →
        entry.handler < (memory.cells.store.cells cell).registrations)
    (ok : ∀ activation ∈ calls, activation.SlotOk memory.shared) :
    ∀ activation ∈ calls', activation.SlotOk memory'.shared := by
  have moves := move.slotMove
  have kept : ∀ activation ∈ calls, activation.SlotOk memory'.shared :=
    fun activation member =>
      SlotMove.slotOk moves (drawn activation member)
        (ok activation member)
  cases move with
  | outside exit foreign same resumed => exact resumed.slotOk kept
  | notified =>
      rw [List.forall_mem_cons]
      exact ⟨nofun, kept⟩
  | called frame once calls foreign pushed =>
      rw [List.forall_mem_cons]
      refine ⟨fun cell entry inside => ?_, kept⟩
      obtain ⟨claim, pending, _, stage⟩ := stage_of_invoked inside
      exact absurd stage (Pushed.not_inside pushed claim _)
  | lockedSlot =>
      rw [List.forall_mem_cons] at kept ⊢
      exact ⟨fun _ _ _ => trivial, kept.2⟩
  | took activation rest isTop target entry holder isNext work inside full
      after =>
      subst after
      rw [List.forall_mem_cons] at kept ⊢
      refine ⟨fun cell other found => ?_, kept.2⟩
      cases inside.symm.trans found
      exact (fullness_setSlot _ _ _).trans (if_pos ⟨rfl, rfl⟩)
  | removing activation rest isTop target entry panic ended work inside =>
      rw [List.forall_mem_cons] at kept ⊢
      refine ⟨nofun, List.forall_mem_cons.mpr ⟨?_, kept.2⟩⟩
      intro cell other found
      have old := kept.1 cell other found
      rw [work] at old
      exact old
  | reporting =>
      rw [List.forall_mem_cons] at kept ⊢
      exact ⟨fun _ _ _ => trivial, kept.2⟩
  | thrown =>
      rw [List.forall_mem_cons] at kept ⊢
      exact kept
  | popped activation isTop operation meant shared after via stepped same
      resumed =>
      rw [List.forall_mem_cons] at kept
      exact resumed.slotOk kept.2
  | moved activation rest isTop operation meant shared after frame unwinding
      via stepped same =>
      rw [List.forall_mem_cons] at kept ⊢
      refine ⟨fun cell entry inside => ?_, kept.2⟩
      obtain ⟨rfl, claim, body, stage⟩ :=
        invoke_of_invoked inv (frameOk _ _ rfl) stepped inside
      have unchanged : memory'.shared = shared := by
        rw [same]
        rcases Frame.of_inside stage with
          ⟨address, pin, isFrame⟩ | ⟨address, isFrame⟩
        · simp [sharedAfter, isFrame]
        · simp [sharedAfter, isFrame]
      rw [unchanged]
      simp only [workAfter, inside]
      split
      · trivial
      · rename_i noSlot
        simpa [Work.Slotted, fullness] using noSlot

end Wrappers

/-! ### Runs -/

/-- What the events of a run say about the slots of its last state. -/
structure SlotsOk (state : State E P) (once : List OnceEvent)
    (traces : List (Traced E P)) : Prop where
  wrappers : ∀ thread,
    ∀ activation ∈ activations (state.threads thread).stack,
      activation.SlotOk state.memory.shared
  calls : ∀ cell handler,
    once.countP (OnceEvent.isCall cell handler) =
      if fullness state.memory.shared cell handler = some false then 1
      else 0
  processed : ∀ traced ∈ traces, ∀ entry, traced.what.processes entry →
    fullness state.memory.shared traced.cell entry.handler ≠ some true ∧
      entry.handler <
        (state.memory.cells.store.cells traced.cell).registrations

section Runs

variable {state next : State E P} {thread : Tid} {act : Act E P}
variable {activation : Activation E P} {cell : CellId} {entry : Entry}
variable {once : List OnceEvent} {traces : List (Traced E P)}

/-- The entry that a dispatch is inside of. -/
theorem entryOk_of_invoked
    (reachable : (program E P).Reachable (initial E P) state)
    (member : activation ∈ activations (state.threads thread).stack)
    (inside : invoked activation.frame = some (cell, entry)) :
    EntryOk state.memory.cells cell entry ∧
      (state.memory.cells.store.cells cell).phase = .alive := by
  have inner := project_reachable reachable
  obtain ⟨claim, pending, rfl, stage⟩ := stage_of_invoked inside
  have isFrame : activation.frame ∈
      ((project state).threads thread).stack := by
    change activation.frame ∈ frames (state.threads thread).stack
    rw [frames_eq]
    exact List.mem_map_of_mem member
  obtain ⟨depth, found⟩ := exists_frameAt_of_mem isFrame
  have isStage : stageOf (project state) ⟨thread, depth⟩ =
      some (.inside claim (.handler entry pending)) := by
    unfold stageOf frameOf
    rw [found, Option.map_some, stage]
  exact ⟨dispatchesOk_reachable inner _ claim _ isStage entry
      List.mem_cons_self,
    (invariant_reachable inner).alive_of_inside isStage⟩

private theorem drawn_of_invoked
    (reachable : (program E P).Reachable (initial E P) state)
    (member : activation ∈ activations (state.threads thread).stack)
    (inside : invoked activation.frame = some (cell, entry)) :
    entry.handler < (state.memory.cells.store.cells cell).registrations := by
  have holds := invariant_reachable (project_reachable reachable)
  exact holds.drawn_of_installed
    (entryOk_of_invoked reachable member inside).1.installed

/-- A slot that a dispatch has passed is not full. -/
private theorem passed_of_traced
    {memory : Memory} {event : E} {what : TraceEvent E P}
    (ok : activation.SlotOk memory.shared)
    (isTraced : activation.traced memory event act = some what)
    (passes : what.processes entry) :
    invoked activation.frame = some (activation.frame.cellOf, entry) ∧
      fullness memory.shared activation.frame.cellOf entry.handler ≠
        some true := by
  obtain ⟨claim, pending, stage⟩ := stage_of_processed isTraced passes
  have inside := invoked_of_stage stage
  have isCell : activation.frame.cellOf = claim.cell := by
    rcases Frame.of_inside stage with
      ⟨address, pin, isFrame⟩ | ⟨address, isFrame⟩
    · rw [isFrame]
      rfl
    · rw [isFrame]
      rfl
  rw [isCell]
  refine ⟨inside, ?_⟩
  have slotted := ok claim.cell entry inside
  cases work : activation.work with
  | plain | remove =>
      rw [work] at slotted
      rw [slotted]
      exact nofun
  | take =>
      cases act with
      | next =>
          simp only [Activation.traced, work, inside, Option.bind_some]
            at isTraced
          split at isTraced
          · rename_i empty
            simp [fullness, empty]
          · cases isTraced
      | _ => simp [Activation.traced, work] at isTraced
  | report info step =>
      simp only [Activation.traced, work] at isTraced
      unfold reportEvent at isTraced
      split at isTraced <;> cases isTraced <;> cases passes
  | lockSlot | once =>
      simp [Activation.traced, work] at isTraced

private theorem observed_processes
    {memory : Memory} {top : Option (Activation E P)} {level : Nat}
    {traced : Traced E P}
    (emitted : observed memory thread top level act = some traced)
    (passes : traced.what.processes entry) :
    ∃ activation, top = some activation ∧ ∃ event,
      activation.traced memory event act = some traced.what ∧
        traced.cell = activation.frame.cellOf := by
  unfold observed at emitted
  split at emitted
  · cases emitted
    cases passes
  · obtain ⟨activation, isTop, emitted⟩ :=
      Option.bind_eq_some_iff.mp emitted
    obtain ⟨event, _, emitted⟩ := Option.bind_eq_some_iff.mp emitted
    obtain ⟨what, isTraced, rfl⟩ := Option.map_eq_some_iff.mp emitted
    exact ⟨activation, isTop, event, isTraced, rfl⟩

theorem slotsOk_initial : SlotsOk (initial E P) [] [] where
  wrappers := by
    intro thread activation member
    cases member
  calls := fun _ _ => rfl
  processed := by
    intro traced member
    cases member

theorem slotsOk_step
    (reachable : (program E P).Reachable (initial E P) state)
    (stepped : (program E P).step state thread act = some next)
    (ok : SlotsOk state once traces) :
    SlotsOk next (once ++ (observeOnce state thread act).toList)
      (traces ++ (observe state thread act).toList) := by
  have inv := (invariant_reachable (project_reachable reachable)).1
  have stateOk := stateOk_reachable reachable
  have move := step_move stepped
  have moves := move.slotMove
  constructor
  · intro other
    by_cases same : other = thread
    · subst same
      exact move.slotOk inv (top_frameOk reachable other)
        (fun activation member _ _ => drawn_of_invoked reachable member)
        (ok.wrappers other)
    · rw [step_others stepped same]
      intro activation member
      exact SlotMove.slotOk moves
        (fun _ _ => drawn_of_invoked reachable member)
        (ok.wrappers other activation member)
  · intro cell handler
    have before := ok.calls cell handler
    have added : (observeOnce state thread act).toList.countP
        (OnceEvent.isCall cell handler) =
          callsIn cell handler (observedOnce state.memory
            (topCall (state.threads thread).stack) act) := rfl
    rw [List.countP_append, before, added]
    cases moves cell handler with
    | kept quiet same => rw [quiet, same, Nat.add_zero]
    | drawn quiet isNew full =>
        have unmade : fullness state.memory.shared cell handler = none := by
          unfold fullness
          rw [stateOk.fresh cell handler (Nat.le_of_eq isNew.symm)]
          rfl
        rw [quiet, full, unmade]
        rfl
    | taken emits full empty =>
        rw [emits, full, empty]
        rfl
  · have persists : ∀ target (entry : Entry),
        fullness state.memory.shared target entry.handler ≠ some true ∧
            entry.handler <
              (state.memory.cells.store.cells target).registrations →
          fullness next.memory.shared target entry.handler ≠ some true ∧
            entry.handler <
              (next.memory.cells.store.cells target).registrations := by
      rintro target entry ⟨notFull, drawn⟩
      refine ⟨?_, Nat.lt_of_lt_of_le drawn
        (registrations_step stateOk stepped target)⟩
      cases moves target entry.handler with
      | kept quiet same =>
          rw [same]
          exact notFull
      | drawn quiet isNew => omega
      | taken emits full => exact absurd full notFull
    intro traced member entry passes
    rcases List.mem_append.mp member with old | new
    · exact persists _ entry (ok.processed traced old entry passes)
    · obtain ⟨activation, isTop, event, isTraced, isCell⟩ :=
        observed_processes (Option.mem_toList.mp new) passes
      obtain ⟨below, shape⟩ := activations_of_topCall isTop
      have member : activation ∈
          activations (state.threads thread).stack := by
        rw [shape]
        exact List.mem_cons_self
      obtain ⟨inside, notFull⟩ := passed_of_traced
        (ok.wrappers thread activation member) isTraced passes
      rw [isCell]
      exact persists _ entry
        ⟨notFull, drawn_of_invoked reachable member inside⟩

end Runs

end RegistryIo.Reentrant
