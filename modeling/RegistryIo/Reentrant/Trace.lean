import RegistryIo.Reentrant.Containment

/-!
# The trace of a synchronous dispatch

`observe` names what a dispatch does: it starts, takes its list, invokes
handlers, counts panics, consults and invokes the callback, and ends.  The
trace of a call is what it has done since its last start.

The trace of a dispatch is a function of its list and of how the handlers
end: one block of events for every entry, in the order of the list.
-/

namespace RegistryIo.Reentrant

open RegistryIo.Interleaving RegistryIo.Snapshot
open RegistryIo.Isolation (PanicInfo)

variable {E P : Type}

/-- What a dispatch does.  `panicked` stands for a caught panic together with
the increment of `panics`; `consulted` for the clone of the installed
callback; `destructorPanicked` for the panic of a destructor that
`handle_panic` runs, which nothing catches. -/
inductive TraceEvent (E P : Type) where
  | started (cell : CellId) (event : E)
  | took (list : List Entry)
  | invoked (entry : Entry) (event : E)
  | returned (entry : Entry)
  | panicked (entry : Entry) (payload : P)
  | consulted (installed : Option CallbackId)
  | callback (holder : CallbackId) (info : PanicInfo P)
  | destructorPanicked
  | finished
  deriving DecidableEq, Repr

/-- A dispatch is done with an entry. -/
def TraceEvent.processes (entry : Entry) : TraceEvent E P → Prop
  | .returned other => other = entry
  | .panicked other _ => other = entry
  | _ => False

/-- An event with the call and the registry it belongs to. -/
structure Traced (E P : Type) where
  call : CallId
  cell : CellId
  what : TraceEvent E P
  deriving DecidableEq, Repr

/-- The operation that fixes the list of a read: the validating load, or the
end of `load_arc_locked`. -/
def takesList (memory : Snapshot.Memory) : Frame → Bool
  | .validate cell (.read _) address _ =>
      decide ((memory.store.cells cell).current = address)
  | .locked _ (.read _) (.unlock _ _) => true
  | _ => false

/-- The events of the loop of `notify`. -/
def loopEvent (memory : Snapshot.Memory) (frame : Frame) (event : E) :
    Act E P → Option (TraceEvent E P)
  | .next =>
      match frame.stage with
      | .entering cell _ =>
          if takesList memory frame then
            some (.took (memory.store.deref
              (memory.store.cells cell).current))
          else none
      | .inside _ (.dispatch []) => some .finished
      | .inside _ (.dispatch (entry :: _)) => some (.invoked entry event)
      | _ => none
  | .returns =>
      match frame.stage with
      | .inside _ (.handler entry _) => some (.returned entry)
      | _ => none
  | .panics payload =>
      match frame.stage with
      | .inside _ (.handler entry _) => some (.panicked entry payload)
      | _ => none
  | _ => none

/-- The events of `handle_panic`. -/
def reportEvent (registry : Registry) (info : PanicInfo P) :
    ReportStep P → Act E P → Option (TraceEvent E P)
  | .clone, .next => some (.consulted registry.panicCallback)
  | .unlock (some holder), .next => some (.callback holder info)
  | .dropSecond _ _, .panics _ => some .destructorPanicked
  | .destroyHolder none, .panics _ => some .destructorPanicked
  | .dropPayload none, .panics _ => some .destructorPanicked
  | _, _ => none

/-- The events of a dispatch.  The closure that `register_once` stores ends
when it finds its slot empty, or after `RemoveOnDrop`. -/
def Activation.traced (memory : Memory) (activation : Activation E P)
    (event : E) (act : Act E P) : Option (TraceEvent E P) :=
  match activation.work, act with
  | .plain, act => loopEvent memory.cells activation.frame event act
  | .report info step, act =>
      reportEvent (memory.shared.registries activation.frame.cellOf) info
        step act
  | .take, .next =>
      (invoked activation.frame).bind fun (cell, entry) =>
        match (memory.shared.registries cell).slots entry.handler with
        | some ⟨_, false⟩ => some (.returned entry)
        | _ => none
  | .remove none, .next =>
      (invoked activation.frame).map fun (_, entry) => .returned entry
  | .remove (some payload), .next =>
      (invoked activation.frame).map fun (_, entry) =>
        .panicked entry payload
  | _, _ => none

/-- The event of a step, with the call it belongs to; `level` is the number of
calls of the thread. -/
def observed (memory : Memory) (thread : Tid)
    (top : Option (Activation E P)) (level : Nat) :
    Act E P → Option (Traced E P)
  | .notify cell event =>
      some ⟨⟨thread, level⟩, cell, .started cell event⟩
  | act =>
      top.bind fun activation => activation.event.bind fun event =>
        (activation.traced memory event act).map fun what =>
          ⟨⟨thread, level - 1⟩, activation.frame.cellOf, what⟩

def observe (state : State E P) (thread : Tid) (act : Act E P) :
    Option (Traced E P) :=
  observed state.memory thread (topCall (state.threads thread).stack)
    (activations (state.threads thread).stack).length act

/-- A start begins a new trace. -/
def extend (call : CallId) (trace : List (TraceEvent E P))
    (traced : Traced E P) : List (TraceEvent E P) :=
  if traced.call = call then
    match traced.what with
    | .started cell event => [.started cell event]
    | what => trace ++ [what]
  else trace

/-- What a call has done since its last start. -/
def traceOf (call : CallId) (events : List (Traced E P)) :
    List (TraceEvent E P) :=
  events.foldl (extend call) []

/-! ### What a trace looks like -/

/-- What a dispatch does for one entry.  The callback is invoked if and only
if the handler panicked and a callback was installed then. -/
inductive Block (event : E) (entry : Entry) : List (TraceEvent E P) → Prop
  | returned : Block event entry [.invoked entry event, .returned entry]
  | silent (payload : P) :
      Block event entry
        [.invoked entry event, .panicked entry payload, .consulted none]
  | reported (payload : P) (holder : CallbackId) :
      Block event entry
        [.invoked entry event, .panicked entry payload,
          .consulted (some holder), .callback holder ⟨entry.id, payload⟩]

/-- One block for every entry, in order. -/
inductive Walked (event : E) :
    List Entry → List (TraceEvent E P) → Prop where
  | start : Walked event [] []
  | entry {processed : List Entry} {trace block : List (TraceEvent E P)}
      {entry : Entry} (walked : Walked event processed trace)
      (isBlock : Block event entry block) :
      Walked event (processed ++ [entry]) (trace ++ block)

/-- The trace of a dispatch that is over: all entries of its list, or a part
of them that ends with the panic of a destructor. -/
inductive Over (cell : CellId) (event : E) :
    List (TraceEvent E P) → Prop where
  | finished {list : List Entry} {trace : List (TraceEvent E P)}
      (walked : Walked event list trace) :
      Over cell event
        (.started cell event :: .took list :: (trace ++ [.finished]))
  | cut {processed rest : List Entry} {trace : List (TraceEvent E P)}
      (walked : Walked event processed trace) :
      Over cell event
        (.started cell event :: .took (processed ++ rest) ::
          (trace ++ [.destructorPanicked]))

/-- A point of `handle_panic` after the callback: the payload of the panic
that is on its way out. -/
def ReportStep.late : ReportStep P → Option (Option P)
  | .invoke _ => some none
  | .dropSecond _ _ => some none
  | .dropHolder _ unwinding => some unwinding
  | .destroyHolder unwinding => some unwinding
  | .dropPayload unwinding => some unwinding
  | _ => none

/-- A whole block, and the panic of a destructor after it. -/
inductive Ended (event : E) (entry : Entry) :
    Option P → List (TraceEvent E P) → Prop where
  | normally {block : List (TraceEvent E P)}
      (isBlock : Block event entry block) : Ended event entry none block
  | unwinding {block : List (TraceEvent E P)} (payload : P)
      (isBlock : Block event entry block) :
      Ended event entry (some payload) (block ++ [.destructorPanicked])

/-- What has been done for the entry at hand. -/
inductive Part (event : E) :
    Work P → Body → List (TraceEvent E P) → Prop where
  | loop (work : Work P) (pending : List Entry) :
      Part event work (.dispatch pending) []
  | handler (work : Work P) (entry : Entry) (pending : List Entry) :
      Part event work (.handler entry pending) [.invoked entry event]
  | caught {info : PanicInfo P} {step : ReportStep P} {entry : Entry}
      (pending : List Entry) (isEntry : info.handlerId = entry.id)
      (early : step = .lock ∨ step = .clone) :
      Part event (.report info step) (.callback entry pending)
        [.invoked entry event, .panicked entry info.payload]
  | consulted {info : PanicInfo P} {entry : Entry}
      (holder : Option CallbackId) (pending : List Entry)
      (isEntry : info.handlerId = entry.id) :
      Part event (.report info (.unlock holder)) (.callback entry pending)
        [.invoked entry event, .panicked entry info.payload,
          .consulted holder]
  | late {info : PanicInfo P} {step : ReportStep P} {entry : Entry}
      {part : List (TraceEvent E P)} {unwinding : Option P}
      (pending : List Entry) (late : step.late = some unwinding)
      (ended : Ended event entry unwinding part) :
      Part event (.report info step) (.callback entry pending) part

/-- The trace of a dispatch at a stage. -/
inductive TraceOk (event : E) (work : Work P) :
    Stage → List (TraceEvent E P) → Prop where
  | entering (cell : CellId) :
      TraceOk event work (.entering cell true) [.started cell event]
  | inside (claim : Claim) {body : Body} {processed : List Entry}
      {trace part : List (TraceEvent E P)}
      (walked : Walked event processed trace)
      (isPart : Part event work body part) :
      TraceOk event work (.inside claim body)
        (.started claim.cell event ::
          .took (processed ++ body.remaining) :: (trace ++ part))
  | leaving {cell : CellId} {trace : List (TraceEvent E P)}
      (isOver : Over cell event trace) :
      TraceOk event work (.leaving cell) trace

/-- The dispatch at a depth of a stack. -/
def dispatchAt : List (Activation E P) → Nat → Option (E × Activation E P)
  | [], _ => none
  | activation :: rest, depth =>
      if depth = rest.length then
        activation.event.map fun event => (event, activation)
      else dispatchAt rest depth

/-- The dispatch that a call is, while it is in progress. -/
def dispatchOf (state : State E P) (call : CallId) :
    Option (E × Activation E P) :=
  dispatchAt (activations (state.threads call.thread).stack) call.depth

/-- The trace of a call: its dispatch is in progress, or the last one, if
there was one, is over. -/
def CallTrace (trace : List (TraceEvent E P)) :
    Option (E × Activation E P) → Prop
  | some (event, activation) =>
      TraceOk event activation.work activation.frame.stage trace
  | none => trace = [] ∨ ∃ cell event, Over cell event trace

section Reports

variable {event : E} {info : PanicInfo P} {step next : ReportStep P}
variable {entry : Entry} {pending : List Entry} {act : Act E P}
variable {part : List (TraceEvent E P)} {shared shared' : Shared}
variable {thread : Tid} {cell : CellId}

private theorem Part.of_dispatch
    {work : Work P} (isPart : Part event work (.dispatch pending) part) :
    part = [] := by
  cases isPart
  rfl

private theorem Part.of_handler
    {work : Work P} (isPart : Part event work (.handler entry pending) part) :
    part = [.invoked entry event] := by
  cases isPart
  rfl

private theorem Part.not_closure
    {work : Work P} : ¬ Part event work .closure part := nofun

theorem Part.ended
    {unwinding : Option P}
    (isPart : Part event (.report info step) (.callback entry pending) part)
    (late : step.late = some unwinding) :
    Ended event entry unwinding part := by
  cases isPart with
  | caught _ _ early =>
      rcases early with rfl | rfl
      · cases late
      · cases late
  | consulted => cases late
  | late _ isLate ended =>
      cases isLate.symm.trans late
      exact ended

theorem Ended.panics
    (ended : Ended event entry (none : Option P) part) (payload : P) :
    Ended event entry (some payload) (part ++ [.destructorPanicked]) := by
  cases ended with
  | normally isBlock => exact .unwinding payload isBlock

/-- A step inside `handle_panic`. -/
theorem Part.report
    (isPart : Part event (.report info step) (.callback entry pending) part)
    (stepped : reportStep shared thread cell step act =
      some (shared', .inl next)) :
    Part event (.report info next) (.callback entry pending)
      (part ++ (reportEvent (shared.registries cell) info step
        act).toList) := by
  -- The steps after the callback emit nothing, unless a destructor panics.
  have quiet : ∀ {unwinding}, step.late = some unwinding →
      next.late = some unwinding →
        Part event (.report info next) (.callback entry pending)
          (part ++ []) := by
    intro unwinding before after
    rw [List.append_nil]
    exact .late pending after (isPart.ended before)
  unfold reportStep at stepped
  split at stepped
  case h_1 =>
      split at stepped
      · cases stepped
        cases isPart with
        | caught _ isEntry _ => exact .caught pending isEntry (Or.inr rfl)
        | late _ late => cases late
      · cases stepped
  case h_2 =>
      cases stepped
      cases isPart with
      | caught _ isEntry _ => exact .consulted _ pending isEntry
      | late _ late => cases late
  case h_3 =>
      cases stepped
      cases isPart with
      | caught _ _ early => rcases early with early | early <;> cases early
      | consulted _ _ isEntry =>
          exact .late pending rfl (.normally (.silent _))
      | late _ late => cases late
  case h_4 =>
      rename_i holder
      cases stepped
      cases isPart with
      | caught _ _ early => rcases early with early | early <;> cases early
      | consulted _ _ isEntry =>
          have block : Block event entry _ :=
            .reported info.payload holder
          rw [← isEntry] at block
          exact .late pending rfl (.normally block)
      | late _ late => cases late
  case h_8 =>
      cases stepped
      exact .late pending rfl ((isPart.ended rfl).panics _)
  case h_9 =>
      split at stepped
      · cases stepped
        exact quiet rfl rfl
      · cases stepped
        exact quiet rfl rfl
  case h_10 =>
      rename_i unwinding
      cases stepped
      cases unwinding with
      | none => exact quiet rfl rfl
      | some payload => exact quiet rfl rfl
  case h_11 =>
      cases stepped
      exact .late pending rfl ((isPart.ended rfl).panics _)
  all_goals
      cases stepped
  all_goals exact quiet rfl rfl

/-- The last step of `handle_panic`. -/
theorem Part.reported
    {exit : Option P}
    (isPart : Part event (.report info step) (.callback entry pending) part)
    (stepped : reportStep shared thread cell step act =
      some (shared', .inr exit)) :
    Ended event entry exit
      (part ++ (reportEvent (shared.registries cell) info step
        act).toList) := by
  unfold reportStep at stepped
  split at stepped
  case h_1 | h_9 =>
      split at stepped
      · cases stepped
      · cases stepped
  case h_12 =>
      cases stepped
      cases exit with
      | none => simpa [reportEvent] using isPart.ended rfl
      | some payload => simpa [reportEvent] using isPart.ended rfl
  case h_13 =>
      cases stepped
      exact (isPart.ended rfl).panics _
  all_goals cases stepped

end Reports

section Stages

variable {memory : Snapshot.Memory} {cells' : Snapshot.Memory}
variable {call : CallId} {tls tls' : Tls} {frame frame' : Frame}
variable {operation : Snapshot.Act} {claim : Claim} {body : Body}

theorem invoked_of_stage
    {entry : Entry} {pending : List Entry}
    (inside : frame.stage = .inside claim (.handler entry pending)) :
    invoked frame = some (claim.cell, entry) := by
  rcases Frame.of_inside inside with ⟨address, pin, rfl⟩ | ⟨address, rfl⟩
  · rfl
  · rfl

private theorem caught_of_stage
    {entry : Entry} {pending : List Entry}
    (inside : frame.stage = .inside claim (.callback entry pending)) :
    caught frame = some (claim.cell, entry) := by
  rcases Frame.of_inside inside with ⟨address, pin, rfl⟩ | ⟨address, rfl⟩
  · rfl
  · rfl

theorem stage_of_invoked
    {cell : CellId} {entry : Entry}
    (inside : invoked frame = some (cell, entry)) :
    ∃ claim pending, claim.cell = cell ∧
      frame.stage = .inside claim (.handler entry pending) := by
  unfold invoked at inside
  split at inside
  · cases inside
    exact ⟨_, _, rfl, rfl⟩
  · cases inside
    exact ⟨_, _, rfl, rfl⟩
  · cases inside

private theorem stage_of_caught
    {cell : CellId} {entry : Entry}
    (inside : caught frame = some (cell, entry)) :
    ∃ claim pending, claim.cell = cell ∧
      frame.stage = .inside claim (.callback entry pending) := by
  unfold caught at inside
  split at inside
  · cases inside
    exact ⟨_, _, rfl, rfl⟩
  · cases inside
    exact ⟨_, _, rfl, rfl⟩
  · cases inside

private theorem cellAct_of_stage
    {act : Act E P} (inside : frame.stage = .inside claim body) :
    cellAct memory frame act = bodyAct body act := by
  rcases Frame.of_inside inside with ⟨address, pin, rfl⟩ | ⟨address, rfl⟩
  · rfl
  · rfl

/-- A read is inside its closure after the operation that fixes its list, and
after no other one. -/
private theorem takesList_iff
    {cell : CellId} {notify : Bool}
    (entering : frame.stage = .entering cell notify)
    (stepped : frameStep memory call tls frame operation =
      some (cells', tls', some frame')) :
    takesList memory frame = true ↔
      ∃ claim body, frame'.stage = .inside claim body := by
  cases frameStep_rule stepped with
  | @pinGone _ reader | @pinFull _ reader =>
      rw [slowPath_stage]
      cases reader <;> simp [takesList, Reader.stage]
  | @enter _ reader | @pinFirst _ reader | @pinSlot _ reader
  | @claimBusy _ reader | @claimFree _ reader | @claimSkip _ reader
  | @claimReturn _ reader | @claimAllocate _ reader
  | @claimAdvance _ reader | @publishLoad _ reader | @publishLink _ reader
  | @publish _ reader | @publishLost _ reader | @publishSpurious _ reader
  | @republish _ reader | @lockedLock _ reader | @lockedLoad _ reader =>
      cases reader <;> simp [takesList, Frame.stage, Reader.stage]
  | @invalid _ reader _ _ replaced =>
      cases reader <;>
        simp [takesList, Frame.stage, Reader.stage, replaced]
  | validRead current => simp [takesList, Frame.stage, current]
  | enterFallback | lockedCountRead =>
      simp [takesList, Frame.stage, Reader.stage]
  | lockedRead => simp [takesList, Frame.stage]
  | @nothingRetired _ result | @someRetired _ result
  | @tryLockTaken _ result | @tryLockBusy _ result
  | @dropReclaimed _ result => cases result <;> cases entering
  | collectNothing | collectStart | collectSlot | collectRecord
  | collectEnd | collectLen | collectUnlock | dropValue | dropPanics =>
      simp only [Frame.stage, Collector.stage] at entering
      split at entering <;> cases entering
  | _ => cases entering

/-- Only a plain step takes a list. -/
private theorem act_of_takesList
    {act : Act E P} (takes : takesList memory frame = true)
    (isAct : cellAct memory frame act = some operation)
    (stepped : frameStep memory call tls frame operation =
      some (cells', tls', some frame')) : act = .next := by
  cases frame with
  | validate target reader address pin =>
      cases act with
      | next => rfl
      | alloc | spurious =>
          cases isAct
          cases stepped
      | _ => cases isAct
  | locked target reader step =>
      cases act with
      | next => rfl
      | alloc | spurious =>
          cases isAct
          cases stepped
      | _ => cases isAct
  | _ => cases takes

end Stages

section Steps

variable {thread : Tid} {act meant : Act E P} {memory memory' : Memory}
variable {tls tls' : Tls} {activation : Activation E P} {event : E}
variable {operation : Snapshot.Act} {shared : Shared} {frame : Frame}
variable {trace : List (TraceEvent E P)} {call : CallId}

/-- No handler is running. -/
theorem not_invoked
    (elsewhere : ∀ claim entry pending,
      activation.frame.stage ≠ .inside claim (.handler entry pending)) :
    invoked activation.frame = none := by
  cases inside : invoked activation.frame with
  | none => rfl
  | some found =>
      obtain ⟨claim, pending, _, stage⟩ := stage_of_invoked inside
      exact absurd stage (elsewhere _ _ _)

/-- No panic is being reported. -/
theorem Activation.WorkOk.not_report
    (fits : activation.WorkOk)
    (elsewhere : ∀ claim entry pending,
      activation.frame.stage ≠ .inside claim (.callback entry pending))
    (info : PanicInfo P) (step : ReportStep P) :
    activation.work ≠ .report info step := by
  intro work
  unfold Activation.WorkOk at fits
  rw [work] at fits
  obtain ⟨⟨cell, entry⟩, inside⟩ := Option.isSome_iff_exists.mp fits
  obtain ⟨claim, pending, _, stage⟩ := stage_of_caught inside
  exact elsewhere _ _ _ stage

/-- Outside its closure a dispatch performs operations of the cell only. -/
private theorem Via.plain_of_outside
    (via : Via thread act memory activation operation meant shared)
    (fits : activation.WorkOk)
    (outside : ∀ claim body, activation.frame.stage ≠ .inside claim body) :
    activation.work = .plain ∧ meant = act ∧
      cellAct memory.cells activation.frame act = some operation := by
  have idle := not_invoked fun claim _ _ => outside claim _
  have quiet := fits.not_report fun claim _ _ => outside claim _
  cases via with
  | plain work isAct => exact ⟨work, rfl, isAct⟩
  | skipped _ _ inside => exact absurd (idle.symm.trans inside) nofun
  | removed _ _ inside => exact absurd (idle.symm.trans inside) nofun
  | removedPanicked _ _ inside => exact absurd (idle.symm.trans inside) nofun
  | reported work => exact absurd work (quiet _ _)
  | reportedPanicked work => exact absurd work (quiet _ _)

private theorem traced_plain (work : activation.work = .plain) :
    activation.traced memory event act =
      loopEvent memory.cells activation.frame event act := by
  unfold Activation.traced
  rw [work]

/-- Before the list is taken nothing happens. -/
private theorem loopEvent_entering
    {cell : CellId} {notify : Bool}
    (entering : activation.frame.stage = .entering cell notify)
    (waits : takesList memory.cells activation.frame = false) :
    loopEvent memory.cells activation.frame event act = none := by
  cases act <;> simp [loopEvent, entering, waits]

private theorem loopEvent_leaving
    {cell : CellId} (leaving : activation.frame.stage = .leaving cell) :
    loopEvent memory.cells activation.frame event act = none := by
  cases act <;> simp [loopEvent, leaving]

/-- At the head of the loop. -/
private theorem via_of_dispatch
    {claim : Claim} {pending : List Entry}
    (via : Via thread act memory activation operation meant shared)
    (fits : activation.WorkOk)
    (stage : activation.frame.stage = .inside claim (.dispatch pending)) :
    activation.work = .plain ∧ act = .next ∧
      bodyAct (.dispatch pending) act = some operation := by
  have idle := not_invoked fun _ _ _ => by rw [stage]; exact nofun
  have quiet := fits.not_report fun _ _ _ => by rw [stage]; exact nofun
  cases via with
  | plain work isAct =>
      rw [cellAct_of_stage stage] at isAct
      refine ⟨work, ?_, isAct⟩
      cases act with
      | next => rfl
      | _ => cases pending <;> cases isAct
  | skipped _ _ inside => exact absurd (idle.symm.trans inside) nofun
  | removed _ _ inside => exact absurd (idle.symm.trans inside) nofun
  | removedPanicked _ _ inside => exact absurd (idle.symm.trans inside) nofun
  | reported work => exact absurd work (quiet _ _)
  | reportedPanicked work => exact absurd work (quiet _ _)

/-- A handler ends: it returns or it panics. -/
theorem via_of_handler
    (event : E) {claim : Claim} {entry : Entry} {pending : List Entry}
    (via : Via thread act memory activation operation meant shared)
    (fits : activation.WorkOk)
    (stage : activation.frame.stage = .inside claim (.handler entry pending)) :
    (operation = .handlerReturns ∧
        activation.traced memory event act = some (.returned entry)) ∨
      ∃ payload, operation = .handlerPanics ∧ meant = .panics payload ∧
        activation.traced memory event act =
          some (.panicked entry payload) := by
  have inside := invoked_of_stage stage
  have quiet := fits.not_report fun _ _ _ => by rw [stage]; exact nofun
  cases via with
  | plain work isAct =>
      rw [cellAct_of_stage stage] at isAct
      rw [traced_plain work]
      cases act with
      | returns =>
          cases isAct
          exact Or.inl ⟨rfl, by simp [loopEvent, stage]⟩
      | panics payload =>
          cases isAct
          exact Or.inr ⟨payload, rfl, rfl, by simp [loopEvent, stage]⟩
      | _ => cases isAct
  | skipped isNext work same empty =>
      cases inside.symm.trans same
      refine Or.inl ⟨rfl, ?_⟩
      simp [Activation.traced, work, isNext, inside, empty]
  | removed isNext work same =>
      refine Or.inl ⟨rfl, ?_⟩
      simp [Activation.traced, work, isNext, inside]
  | removedPanicked isNext work same =>
      refine Or.inr ⟨_, rfl, rfl, ?_⟩
      simp [Activation.traced, work, isNext, inside]
  | reported work => exact absurd work (quiet _ _)
  | reportedPanicked work => exact absurd work (quiet _ _)

/-- `handle_panic` ends: it returns or it unwinds. -/
private theorem via_of_callback
    {claim : Claim} {entry : Entry} {pending : List Entry}
    (via : Via thread act memory activation operation meant shared)
    (stage : activation.frame.stage =
      .inside claim (.callback entry pending)) :
    ∃ info step exit, activation.work = .report info step ∧
      reportStep memory.shared thread activation.frame.cellOf step act =
        some (shared, .inr exit) ∧
      (exit = none ∧ operation = .callbackReturns ∨
        ∃ payload, exit = some payload ∧ operation = .unwind) := by
  have idle := not_invoked fun _ _ _ => by rw [stage]; exact nofun
  cases via with
  | plain work isAct =>
      rw [cellAct_of_stage stage] at isAct
      cases isAct
  | skipped _ _ inside => exact absurd (idle.symm.trans inside) nofun
  | removed _ _ inside => exact absurd (idle.symm.trans inside) nofun
  | removedPanicked _ _ inside => exact absurd (idle.symm.trans inside) nofun
  | reported work ended =>
      exact ⟨_, _, _, work, ended, Or.inl ⟨rfl, rfl⟩⟩
  | reportedPanicked work ended =>
      exact ⟨_, _, _, work, ended, Or.inr ⟨_, rfl, rfl⟩⟩

private theorem caught_workAfter
    {claim : Claim} {entry : Entry} {pending : List Entry} {payload : P}
    (stage : frame.stage = .inside claim (.callback entry pending)) :
    workAfter (E := E) shared frame .handlerPanics (.panics payload) =
      .report ⟨entry.id, payload⟩ .lock := by
  simp [workAfter, caught_of_stage stage]

/-- A step of the cell inside the closure of a dispatch. -/
theorem TraceOk.walked
    {claim : Claim} {body : Body} {processed : List Entry}
    {part : List (TraceEvent E P)}
    (fits : activation.WorkOk)
    (via : Via thread act memory activation operation meant shared)
    (stage : activation.frame.stage = .inside claim body)
    (moved : StageStep memory.cells operation (.inside claim body)
      (some frame.stage))
    (walked : Walked event processed trace)
    (isPart : Part event activation.work body part) :
    TraceOk event (workAfter shared frame operation meant) frame.stage
      (.started claim.cell event ::
        .took (processed ++ body.remaining) ::
          (trace ++ part ++ (activation.traced memory event act).toList)) := by
  generalize isNext : frame.stage = next at moved
  cases body with
  | closure => exact absurd isPart Part.not_closure
  | dispatch pending =>
      cases isPart.of_dispatch
      obtain ⟨plain, rfl, isAct⟩ := via_of_dispatch via fits stage
      rw [traced_plain plain]
      cases pending with
      | nil =>
          cases isAct
          cases moved with
          | walks _ moved => cases moved
          | finishes =>
              simp only [loopEvent, stage]
              simpa [Body.remaining] using
                TraceOk.leaving (.finished walked)
          | unwinds _ isUnwind => cases isUnwind
      | cons entry pending =>
          cases isAct
          cases moved with
          | walks _ moved =>
              cases moved
              simp only [loopEvent, stage]
              simpa [Body.remaining] using
                TraceOk.inside claim walked (.handler _ entry pending)
          | finishes _ isFinish => cases isFinish
          | unwinds _ isUnwind => cases isUnwind
  | handler entry pending =>
      cases isPart.of_handler
      rcases via_of_handler event via fits stage with
        ⟨rfl, traced⟩ | ⟨payload, rfl, rfl, traced⟩
      · rw [traced]
        cases moved with
        | walks _ moved =>
            cases moved
            simpa [Body.remaining] using
              TraceOk.inside claim (walked.entry .returned)
                (.loop _ pending)
        | finishes _ isFinish => cases isFinish
        | unwinds _ isUnwind => cases isUnwind
      · rw [traced]
        cases moved with
        | walks _ moved =>
            cases moved
            have isPart : Part event (.report ⟨entry.id, payload⟩ .lock)
                (.callback entry pending)
                [.invoked entry event, .panicked entry payload] :=
              .caught pending rfl (Or.inl rfl)
            rw [caught_workAfter isNext]
            simpa [Body.remaining] using
              TraceOk.inside claim walked isPart
        | finishes _ isFinish => cases isFinish
        | unwinds _ isUnwind => cases isUnwind
  | callback entry pending =>
      obtain ⟨info, step, exit, isReport, reported, outcome⟩ :=
        via_of_callback via stage
      have traced : activation.traced memory event act =
          reportEvent (memory.shared.registries activation.frame.cellOf)
            info step act := by
        simp [Activation.traced, isReport]
      rw [isReport] at isPart
      have ended := isPart.reported reported
      rw [traced, List.append_assoc]
      generalize part ++ (reportEvent (memory.shared.registries
        activation.frame.cellOf) info step act).toList = whole at ended ⊢
      rcases outcome with ⟨rfl, rfl⟩ | ⟨payload, rfl, rfl⟩
      · cases ended with
        | normally isBlock =>
            cases moved with
            | walks _ moved =>
                cases moved
                simpa [Body.remaining] using
                  TraceOk.inside claim (walked.entry isBlock)
                    (.loop _ pending)
            | finishes _ isFinish => cases isFinish
            | unwinds _ isUnwind => cases isUnwind
      · cases ended with
        | unwinding _ isBlock =>
            cases moved with
            | walks _ moved => cases moved
            | finishes _ isFinish => cases isFinish
            | unwinds =>
                simpa [Body.remaining] using
                  TraceOk.leaving (.cut (walked.entry isBlock))

/-- A step of the cell inside a dispatch. -/
theorem TraceOk.moved
    {cells' : Snapshot.Memory}
    (inv : MemInv memory.cells)
    (frameOk : FrameOk memory.cells call activation.frame)
    (fits : activation.WorkOk)
    (via : Via thread act memory activation operation meant shared)
    (stepped : frameStep memory.cells call tls activation.frame operation =
      some (cells', tls', some frame))
    (ok : TraceOk event activation.work activation.frame.stage trace) :
    TraceOk event (workAfter shared frame operation meant) frame.stage
      (trace ++ (activation.traced memory event act).toList) := by
  have moved := frameStep_stage inv frameOk stepped
  rw [Option.map_some] at moved
  generalize isStage : activation.frame.stage = stage at ok moved
  cases ok with
  | entering cell =>
      obtain ⟨work, _, isAct⟩ := via.plain_of_outside fits (by simp [isStage])
      have takes := takesList_iff isStage stepped
      rw [traced_plain work]
      generalize isNext : frame.stage = next at moved takes
      cases moved with
      | enters =>
          rw [loopEvent_entering isStage (by simpa using takes)]
          exact .entering cell
      | acquires _ _ alive =>
          have taken := takes.mpr ⟨_, _, rfl⟩
          cases act_of_takesList taken isAct stepped
          simp only [loopEvent, isStage, taken, if_true, Option.toList_some]
          rw [deref_current inv alive]
          exact .inside _ .start (.loop _ _)
  | inside claim walked isPart =>
      have result := TraceOk.walked fits via isStage moved walked isPart
      simpa using result
  | leaving isOver =>
      obtain ⟨work, _, isAct⟩ := via.plain_of_outside fits (by simp [isStage])
      rw [traced_plain work, loopEvent_leaving isStage]
      generalize isNext : frame.stage = next at moved
      cases moved with
      | leaves =>
          rw [Option.toList_none, List.append_nil]
          exact .leaving isOver

private theorem TraceOk.rework
    {work work' : Work P} {stage : Stage}
    (notReport : ∀ info step, work ≠ .report info step)
    (ok : TraceOk event work stage trace) :
    TraceOk event work' stage trace := by
  cases ok with
  | entering cell => exact .entering cell
  | inside claim walked isPart =>
      refine .inside claim walked ?_
      cases isPart with
      | loop _ pending => exact .loop work' pending
      | handler _ entry pending => exact .handler work' entry pending
      | caught => exact absurd rfl (notReport _ _)
      | consulted => exact absurd rfl (notReport _ _)
      | late => exact absurd rfl (notReport _ _)
  | leaving isOver => exact .leaving isOver

/-- A dispatch whose call returns is over. -/
theorem TraceOk.popped
    {cells' : Snapshot.Memory}
    (inv : MemInv memory.cells)
    (frameOk : FrameOk memory.cells call activation.frame)
    (fits : activation.WorkOk)
    (via : Via thread act memory activation operation meant shared)
    (stepped : frameStep memory.cells call tls activation.frame operation =
      some (cells', tls', none))
    (ok : TraceOk event activation.work activation.frame.stage trace) :
    activation.traced memory event act = none ∧
      ∃ cell, Over cell event trace := by
  have moved := frameStep_stage inv frameOk stepped
  rw [Option.map_none] at moved
  generalize isStage : activation.frame.stage = stage at ok moved
  cases moved with
  | returns cell =>
      obtain ⟨work, _, _⟩ := via.plain_of_outside fits (by simp [isStage])
      rw [traced_plain work, loopEvent_leaving isStage]
      cases ok with
      | leaving isOver => exact ⟨rfl, cell, isOver⟩
  | pops => cases ok

private theorem traced_ne_started
    {cell : CellId} {given : E} :
    activation.traced memory event act ≠ some (.started cell given) := by
  unfold Activation.traced
  split
  · unfold loopEvent
    split
    · split
      · split <;> exact nofun
      all_goals exact nofun
    · split <;> exact nofun
    · split <;> exact nofun
    · exact nofun
  · unfold reportEvent
    split <;> exact nofun
  · cases invoked activation.frame with
    | none => exact nofun
    | some inside =>
        rw [Option.bind_some]
        dsimp only
        split <;> exact nofun
  · cases invoked activation.frame <;> exact nofun
  · cases invoked activation.frame <;> exact nofun
  · exact nofun

theorem observed_foreign
    {top : Option (Activation E P)} {level : Nat}
    (foreign : Foreign act top) :
    observed memory thread top level act = none := by
  have reports : ∀ (activation : Activation E P) event,
      act.isUser = true → activation.traced memory event act = none := by
    intro activation event isUser
    unfold Activation.traced
    split
    · unfold loopEvent
      split <;> first | rfl | cases isUser
    · unfold reportEvent
      split <;> first | rfl | cases isUser
    all_goals first | rfl | cases isUser
  unfold observed
  split
  · exact absurd rfl (foreign.notNotify _ _)
  · rcases foreign.elsewhere with isUser | isNone
    · cases top with
      | none => rfl
      | some activation =>
          cases isEvent : activation.event with
          | none => simp [isEvent]
          | some event => simp [isEvent, reports activation event isUser]
    · rw [isNone]
      rfl

end Steps

section Calls

variable {thread : Tid} {act : Act E P} {memory memory' : Memory}
variable {tls : Tls} {activation activation' : Activation E P}
variable {calls calls' rest : List (Activation E P)} {depth : Nat}
variable {trace : List (TraceEvent E P)} {call : CallId}
variable {top : Option (Activation E P)}

private theorem dispatchAt_top :
    dispatchAt (activation :: rest) rest.length =
      activation.event.map fun event => (event, activation) := by
  simp [dispatchAt]

private theorem dispatchAt_of_ne (apart : depth ≠ rest.length) :
    dispatchAt (activation :: rest) depth = dispatchAt rest depth := by
  simp [dispatchAt, apart]

private theorem dispatchAt_beyond (beyond : calls.length ≤ depth) :
    dispatchAt calls depth = none := by
  induction calls with
  | nil => rfl
  | cons activation rest inductionHypothesis =>
      rw [List.length_cons] at beyond
      rw [dispatchAt_of_ne (by omega)]
      exact inductionHypothesis (by omega)

/-- The trace of a call after a step. -/
def traceAfter (call : CallId) (trace : List (TraceEvent E P))
    (emitted : Option (Traced E P)) : List (TraceEvent E P) :=
  emitted.toList.foldl (extend call) trace

theorem traceAfter_other
    {emitted : Option (Traced E P)}
    (other : ∀ traced, emitted = some traced → traced.call ≠ call) :
    traceAfter call trace emitted = trace := by
  cases emitted with
  | none => rfl
  | some traced => simp [traceAfter, extend, other traced rfl]

/-- The event of a dispatch belongs to the call on top. -/
theorem observed_top
    (notNotify : ∀ cell event, act ≠ .notify cell event) (level : Nat) :
    observed memory thread (some activation) (level + 1) act =
      activation.event.bind fun event =>
        (activation.traced memory event act).map fun what =>
          ⟨⟨thread, level⟩, activation.frame.cellOf, what⟩ := by
  unfold observed
  split
  · exact absurd rfl (notNotify _ _)
  · rfl

private theorem traceAfter_top
    {event : E} (isEvent : activation.event = some event)
    (notNotify : ∀ cell event, act ≠ .notify cell event) (level : Nat) :
    traceAfter ⟨thread, level⟩ trace
        (observed memory thread (some activation) (level + 1) act) =
      trace ++ (activation.traced memory event act).toList := by
  rw [observed_top notNotify, isEvent, Option.bind_some]
  cases isTraced : activation.traced memory event act with
  | none => simp [traceAfter]
  | some what =>
      cases what with
      | started cell given => exact absurd isTraced traced_ne_started
      | _ => simp [traceAfter, extend]

private theorem traceAfter_below
    (notNotify : ∀ cell event, act ≠ .notify cell event) (level : Nat)
    (apart : depth ≠ level) :
    traceAfter ⟨thread, depth⟩ trace
        (observed memory thread (some activation) (level + 1) act) =
      trace := by
  refine traceAfter_other fun traced emitted same => ?_
  rw [observed_top notNotify] at emitted
  obtain ⟨event, _, emitted⟩ := Option.bind_eq_some_iff.mp emitted
  obtain ⟨what, _, rfl⟩ := Option.map_eq_some_iff.mp emitted
  cases same
  exact apart rfl

private theorem traceAfter_silent
    (silent : activation.event = none)
    (notNotify : ∀ cell event, act ≠ .notify cell event) (level : Nat) :
    traceAfter call trace
        (observed memory thread (some activation) (level + 1) act) =
      trace := by
  rw [observed_top notNotify, silent]
  rfl

/-- The top changes, and its trace with it. -/
theorem CallTrace.replace
    (notNotify : ∀ cell event, act ≠ .notify cell event)
    (sameEvent : activation'.event = activation.event)
    (own : ∀ event trace, activation.event = some event →
      TraceOk event activation.work activation.frame.stage trace →
        TraceOk event activation'.work activation'.frame.stage
          (trace ++ (activation.traced memory event act).toList))
    (before : CallTrace trace (dispatchAt (activation :: rest) depth)) :
    CallTrace
      (traceAfter ⟨thread, depth⟩ trace
        (observed memory thread (some activation) (rest.length + 1) act))
      (dispatchAt (activation' :: rest) depth) := by
  by_cases isTop : depth = rest.length
  · subst isTop
    rw [dispatchAt_top] at before ⊢
    rw [sameEvent]
    cases isEvent : activation.event with
    | none =>
        rw [isEvent] at before
        rw [traceAfter_silent isEvent notNotify]
        exact before
    | some event =>
        rw [isEvent] at before
        rw [traceAfter_top isEvent notNotify]
        exact own event trace isEvent before
  · rw [dispatchAt_of_ne isTop] at before ⊢
    rw [traceAfter_below notNotify _ isTop]
    exact before

/-- The top returns, and its trace is complete. -/
theorem CallTrace.pop
    (notNotify : ∀ cell event, act ≠ .notify cell event)
    (own : ∀ event trace, activation.event = some event →
      TraceOk event activation.work activation.frame.stage trace →
        activation.traced memory event act = none ∧
          ∃ cell, Over cell event trace)
    (before : CallTrace trace (dispatchAt (activation :: rest) depth)) :
    CallTrace
      (traceAfter ⟨thread, depth⟩ trace
        (observed memory thread (some activation) (rest.length + 1) act))
      (dispatchAt rest depth) := by
  by_cases isTop : depth = rest.length
  · subst isTop
    rw [dispatchAt_top] at before
    rw [dispatchAt_beyond (Nat.le_refl _)]
    cases isEvent : activation.event with
    | none =>
        rw [isEvent] at before
        rw [traceAfter_silent isEvent notNotify]
        exact before
    | some event =>
        rw [isEvent] at before
        obtain ⟨quiet, cell, isOver⟩ := own event trace isEvent before
        rw [traceAfter_top isEvent notNotify, quiet, Option.toList_none,
          List.append_nil]
        exact Or.inr ⟨cell, event, isOver⟩
  · rw [dispatchAt_of_ne isTop] at before
    rw [traceAfter_below notNotify _ isTop]
    exact before

/-- A caller that gets a panic from its call. -/
theorem Resumed.callTrace
    {exit : Option P} (resumed : Resumed exit calls calls')
    (before : CallTrace trace (dispatchAt calls depth)) :
    CallTrace trace (dispatchAt calls' depth) := by
  cases resumed with
  | same => exact before
  | thrown payload caller rest work =>
      by_cases isTop : depth = rest.length
      · subst isTop
        rw [dispatchAt_top] at before ⊢
        cases isEvent : caller.event with
        | none =>
            rw [isEvent] at before
            exact before
        | some event =>
            rw [isEvent] at before
            refine TraceOk.rework ?_ before
            intro info step isReport
            exact absurd (work.symm.trans isReport) nofun
      · rw [dispatchAt_of_ne isTop] at before ⊢
        exact before

theorem notNotify_of_report
    {cell : CellId} {step : ReportStep P}
    {result : Shared × (ReportStep P ⊕ Option P)}
    (stepped : reportStep memory.shared thread cell step act = some result) :
    ∀ cell event, act ≠ .notify cell event := by
  rintro cell event rfl
  unfold reportStep at stepped
  split at stepped
  all_goals contradiction

theorem Via.notNotify
    {operation : Snapshot.Act} {meant : Act E P} {shared : Shared}
    (via : Via thread act memory activation operation meant shared) :
    ∀ cell event, act ≠ .notify cell event := by
  cases via with
  | plain work isAct =>
      rintro cell event rfl
      unfold cellAct bodyAct at isAct
      split at isAct
      · split at isAct <;> contradiction
      · split at isAct <;> contradiction
      all_goals contradiction
  | skipped isNext | removed isNext | removedPanicked isNext =>
      subst isNext
      exact nofun
  | reported _ ended | reportedPanicked _ ended =>
      exact notNotify_of_report ended

/-- A step inside `handle_panic`. -/
theorem TraceOk.reports
    {event : E} {info : PanicInfo P} {step next : ReportStep P}
    {shared : Shared}
    (fits : activation.WorkOk)
    (work : activation.work = .report info step)
    (stepped : reportStep memory.shared thread activation.frame.cellOf step
      act = some (shared, .inl next))
    (ok : TraceOk event activation.work activation.frame.stage trace) :
    TraceOk event (.report info next) activation.frame.stage
      (trace ++ (activation.traced memory event act).toList) := by
  have traced : activation.traced memory event act =
      reportEvent (memory.shared.registries activation.frame.cellOf)
        info step act := by
    simp [Activation.traced, work]
  unfold Activation.WorkOk at fits
  rw [work] at fits ok
  obtain ⟨⟨cell, entry⟩, inside⟩ := Option.isSome_iff_exists.mp fits
  obtain ⟨claim, pending, _, stage⟩ := stage_of_caught inside
  rw [stage] at ok ⊢
  rw [traced]
  cases ok with
  | inside _ walked isPart =>
      simpa using TraceOk.inside claim walked (isPart.report stepped)

/-- Inside a handler only the loop emits events. -/
theorem TraceOk.keep
    {event : E} {work : Work P}
    (notReport : ∀ info step, activation.work ≠ .report info step)
    (quiet : activation.traced memory event act = none)
    (ok : TraceOk event activation.work activation.frame.stage trace) :
    TraceOk event work activation.frame.stage
      (trace ++ (activation.traced memory event act).toList) := by
  rw [quiet, Option.toList_none, List.append_nil]
  exact ok.rework notReport

/-- The traces of the calls of a thread after a step. -/
theorem Move.callTrace
    (move : Move thread act memory memory' tls top calls calls')
    (inv : MemInv memory.cells)
    (frameOk : ∀ activation rest, calls = activation :: rest →
      FrameOk memory.cells ⟨thread, rest.length⟩ activation.frame)
    (works : ∀ activation ∈ calls, activation.WorkOk)
    (before : CallTrace trace (dispatchAt calls depth)) :
    CallTrace
      (traceAfter ⟨thread, depth⟩ trace
        (observed memory thread top calls.length act))
      (dispatchAt calls' depth) := by
  cases move with
  | outside exit foreign kept resumed =>
      rw [observed_foreign foreign]
      exact resumed.callTrace before
  | notified cell event calls isNotify shared =>
      subst isNotify
      by_cases isNew : depth = calls.length
      · subst isNew
        rw [dispatchAt_top]
        simp only [observed, traceAfter, extend, Option.toList_some,
          List.foldl_cons, List.foldl_nil, if_true]
        exact .entering cell
      · rw [dispatchAt_of_ne isNew, traceAfter_other]
        · exact before
        · intro traced emitted same
          cases emitted
          cases same
          exact isNew rfl
  | called frame once calls foreign pushed notDispatch kept =>
      rw [observed_foreign foreign]
      by_cases isNew : depth = calls.length
      · subst isNew
        rw [dispatchAt_beyond (Nat.le_refl _)] at before
        rw [dispatchAt_top]
        exact before
      · rw [dispatchAt_of_ne isNew]
        exact before
  | lockedSlot activation rest isTop cell entry full isNext work =>
      subst isTop isNext
      refine before.replace nofun rfl fun event trace _ ok => ?_
      exact ok.keep (by simp [work]) (by simp [Activation.traced, work])
  | took activation rest isTop cell entry holder isNext work inside full =>
      subst isTop isNext
      refine before.replace nofun rfl fun event trace _ ok => ?_
      exact ok.keep (by simp [work])
        (by simp [Activation.traced, work, inside, full])
  | removing activation rest isTop cell entry panic ended work =>
      subst isTop
      have notNotify : ∀ cell event, act ≠ .notify cell event := by
        rcases ended with ⟨rfl, _⟩ | ⟨payload, rfl, _⟩
        · exact nofun
        · exact nofun
      have quiet : ∀ event, activation.traced memory event act = none := by
        intro event
        rcases ended with ⟨rfl, _⟩ | ⟨payload, rfl, _⟩
        · simp [Activation.traced, work]
        · simp [Activation.traced, work]
      by_cases isNew : depth = rest.length + 1
      · subst isNew
        rw [dispatchAt_beyond (by simp)] at before
        rw [List.length_cons,
          traceAfter_below notNotify rest.length (by omega)]
        have pushed : ∀ (callee caller : Activation E P),
            callee.event = none →
              dispatchAt (callee :: caller :: rest) (rest.length + 1) =
                none := by
          intro callee caller silent
          simp [dispatchAt, silent]
        rw [pushed _ _ rfl]
        exact before
      · rw [dispatchAt_of_ne isNew]
        refine before.replace notNotify rfl fun event trace _ ok => ?_
        exact ok.keep (by simp [work]) (quiet event)
  | reporting activation rest isTop info step next shared work stepped =>
      subst isTop
      have notNotify := notNotify_of_report stepped
      refine before.replace notNotify rfl fun event trace _ ok => ?_
      exact ok.reports (works _ List.mem_cons_self) work stepped
  | thrown activation rest isTop cell payload isPanic work isFrame =>
      subst isTop isPanic
      refine before.replace nofun rfl fun event trace _ ok => ?_
      have quiet : activation.traced memory event (.panics payload) =
          none := by
        rw [traced_plain work]
        simp [loopEvent, isFrame, Frame.stage]
      exact ok.keep (by simp [work]) quiet
  | moved activation rest isTop operation meant shared after frame unwinding
      via stepped =>
      subst isTop
      refine before.replace via.notNotify rfl fun event trace _ ok => ?_
      exact ok.moved inv (frameOk _ _ rfl) (works _ List.mem_cons_self) via
        stepped
  | @popped activation rest rest' isTop operation meant shared after via
      stepped same resumed =>
      subst isTop
      refine resumed.callTrace ?_
      refine before.pop via.notNotify fun event trace _ ok => ?_
      exact ok.popped inv (frameOk _ _ rfl) (works _ List.mem_cons_self)
        via stepped

end Calls

end RegistryIo.Reentrant
