import RegistryIo.Reentrant.Trace

/-!
# The traces of a whole run

Every dispatch of every run has the trace that its list and the outcomes of
its handlers give, whatever its handlers, its callback and the other threads
do meanwhile, and the panic counter counts the panics in the traces.
-/

namespace RegistryIo.Reentrant

open RegistryIo.Interleaving RegistryIo.Snapshot
open RegistryIo.Isolation (PanicInfo)

variable {E P : Type}

/-- A read that walks its list, or is going to. -/
def dispatches : Stage → Bool
  | .entering _ notify => notify
  | .inside _ .closure => false
  | .inside _ _ => true
  | _ => false

/-- A dispatch has an event. -/
def Activation.Announced (activation : Activation E P) : Prop :=
  dispatches activation.frame.stage = true → activation.event.isSome

/-- A panic of a handler that a dispatch of the registry has caught. -/
def Traced.isPanicIn (cell : CellId) (traced : Traced E P) : Bool :=
  match traced.what with
  | .panicked _ _ => decide (traced.cell = cell)
  | _ => false

section Announcements

variable {thread : Tid} {act : Act E P} {memory memory' : Memory}
variable {tls : Tls} {activation : Activation E P}
variable {calls calls' : List (Activation E P)}
variable {top : Option (Activation E P)}

private theorem StageStep.dispatches_of
    {cells : Snapshot.Memory} {operation : Snapshot.Act} {stage next : Stage}
    (moved : StageStep cells operation stage (some next))
    (isDispatch : dispatches next = true) : dispatches stage = true := by
  cases moved with
  | enters => exact isDispatch
  | acquires cell notify =>
      cases notify with
      | false => cases isDispatch
      | true => rfl
  | @walks claim body next moved =>
      cases body with
      | closure => cases moved
      | dispatch | handler | callback => rfl
  | finishes => cases isDispatch
  | unwinds => cases isDispatch
  | leaves => exact isDispatch
  | strays => exact isDispatch
  | joins => cases isDispatch

theorem Pushed.silent
    {stack : List Frame} {frame : Frame} (pushed : Pushed stack frame)
    (notDispatch : ∀ cell, frame ≠ .enter cell (.read true)) :
    dispatches frame.stage = false := by
  rcases pushed with
    ⟨cell, operation, rfl⟩ | ⟨cell, freed, rfl⟩ | ⟨_, record, rfl⟩
  · cases operation with
    | read notify =>
        cases notify with
        | false => rfl
        | true => exact absurd rfl (notDispatch cell)
    | _ => rfl
  · rfl
  · rfl

theorem Resumed.announced
    {exit : Option P} (resumed : Resumed exit calls calls')
    (announced : ∀ activation ∈ calls, activation.Announced) :
    ∀ activation ∈ calls', activation.Announced := by
  cases resumed with
  | same => exact announced
  | thrown payload caller rest work =>
      rw [List.forall_mem_cons] at announced ⊢
      exact announced

/-- A step starts no dispatch without an event. -/
theorem Move.announced
    (move : Move thread act memory memory' tls top calls calls')
    (inv : MemInv memory.cells)
    (frameOk : ∀ activation rest, calls = activation :: rest →
      FrameOk memory.cells ⟨thread, rest.length⟩ activation.frame)
    (announced : ∀ activation ∈ calls, activation.Announced) :
    ∀ activation ∈ calls', activation.Announced := by
  cases move with
  | outside exit foreign kept resumed => exact resumed.announced announced
  | notified =>
      rw [List.forall_mem_cons]
      exact ⟨fun _ => rfl, announced⟩
  | called frame once calls foreign pushed notDispatch =>
      rw [List.forall_mem_cons]
      refine ⟨fun isDispatch => ?_, announced⟩
      rw [Pushed.silent pushed notDispatch] at isDispatch
      cases isDispatch
  | removing =>
      rw [List.forall_mem_cons] at announced ⊢
      exact ⟨nofun, List.forall_mem_cons.mpr announced⟩
  | lockedSlot | took | reporting | thrown =>
      rw [List.forall_mem_cons] at announced ⊢
      exact announced
  | moved activation rest isTop operation meant shared after frame unwinding
      via stepped =>
      rw [List.forall_mem_cons] at announced ⊢
      refine ⟨fun isDispatch => ?_, announced.2⟩
      exact announced.1 (StageStep.dispatches_of
        (frameStep_stage inv (frameOk _ _ rfl) stepped) isDispatch)
  | popped activation isTop operation meant shared after via stepped same
      resumed =>
      rw [List.forall_mem_cons] at announced
      exact resumed.announced announced.2

end Announcements

section Panics

variable {thread : Tid} {act meant : Act E P} {memory memory' : Memory}
variable {tls : Tls} {activation : Activation E P} {event : E}
variable {calls calls' : List (Activation E P)}
variable {top : Option (Activation E P)} {cell : CellId}
variable {operation : Snapshot.Act} {shared : Shared}

@[simp]
theorem panics_setSlot
    (target : CellId) (handler : Nat) (slot : Slot) :
    ((shared.setSlot target handler slot).registries cell).panics =
      (shared.registries cell).panics := by
  by_cases here : cell = target
  · subst here
    simp [Shared.setSlot, Shared.setRegistry]
  · simp [Shared.setSlot, Shared.setRegistry, here]

private theorem panics_countPanic (target : CellId) :
    ((shared.countPanic target).registries cell).panics =
      if target = cell then ((shared.registries cell).panics + 1) % 2 ^ 64
      else (shared.registries cell).panics := by
  by_cases here : cell = target
  · subst here
    simp [Shared.countPanic, Shared.setRegistry]
  · simp [Shared.countPanic, Shared.setRegistry, here, Ne.symm here]

theorem Via.panics
    (via : Via thread act memory activation operation meant shared) :
    (shared.registries cell).panics =
      (memory.shared.registries cell).panics := by
  cases via with
  | plain | removed | removedPanicked => rfl
  | skipped => exact panics_setSlot _ _ _
  | reported work ended | reportedPanicked work ended =>
      exact (reportStep_kept ended).panics cell

private theorem panics_sharedAfter (quiet : operation ≠ .handlerPanics) :
    ((sharedAfter memory activation operation).registries cell).panics =
      (memory.shared.registries cell).panics := by
  unfold sharedAfter
  split
  · exact absurd rfl quiet
  · split
    · exact panics_setSlot _ _ _
    · rfl

/-- Only a handler returns or panics. -/
theorem stage_of_processed
    {entry : Entry} {what : TraceEvent E P}
    (traced : activation.traced memory event act = some what)
    (passes : what.processes entry) :
    ∃ claim pending,
      activation.frame.stage = .inside claim (.handler entry pending) := by
  have inside : ∀ {cell : CellId} {other : Entry},
      invoked activation.frame = some (cell, other) → other = entry →
        ∃ claim pending, activation.frame.stage =
          .inside claim (.handler entry pending) := by
    intro cell other isInside same
    obtain ⟨claim, pending, _, stage⟩ := stage_of_invoked isInside
    exact ⟨claim, pending, same ▸ stage⟩
  unfold Activation.traced at traced
  split at traced
  · unfold loopEvent at traced
    split at traced
    · split at traced
      · split at traced
        · cases traced
          cases passes
        · cases traced
      all_goals
          cases traced
      all_goals cases passes
    · split at traced
      · rename_i stage
        cases traced
        cases passes
        exact ⟨_, _, stage⟩
      · cases traced
    · split at traced
      · rename_i stage
        cases traced
        cases passes
        exact ⟨_, _, stage⟩
      · cases traced
    · cases traced
  · unfold reportEvent at traced
    split at traced <;> cases traced <;> cases passes
  · obtain ⟨⟨cell, other⟩, isInside, traced⟩ :=
      Option.bind_eq_some_iff.mp traced
    dsimp only at traced
    split at traced
    · cases traced
      exact inside isInside passes
    · cases traced
  · obtain ⟨⟨cell, other⟩, isInside, same⟩ :=
      Option.map_eq_some_iff.mp traced
    subst same
    exact inside isInside passes
  · obtain ⟨⟨cell, other⟩, isInside, same⟩ :=
      Option.map_eq_some_iff.mp traced
    subst same
    exact inside isInside passes
  · cases traced

private theorem Via.stage_of_handlerPanics
    (via : Via thread act memory activation .handlerPanics meant shared) :
    ∃ claim entry pending,
      activation.frame.stage = .inside claim (.handler entry pending) := by
  cases via with
  | plain work isAct =>
      have body : ∀ body, bodyAct body act = some .handlerPanics →
          ∃ entry pending, body = .handler entry pending := by
        intro body isBody
        unfold bodyAct at isBody
        split at isBody
        all_goals cases isBody
        exact ⟨_, _, rfl⟩
      unfold cellAct at isAct
      split at isAct
      case h_1 isFrame =>
          obtain ⟨entry, pending, rfl⟩ := body _ isAct
          exact ⟨_, entry, pending, by rw [isFrame]; rfl⟩
      case h_2 isFrame =>
          obtain ⟨entry, pending, rfl⟩ := body _ isAct
          exact ⟨_, entry, pending, by rw [isFrame]; rfl⟩
      all_goals cases isAct
  | removedPanicked isNext work inside =>
      obtain ⟨claim, pending, _, stage⟩ := stage_of_invoked inside
      exact ⟨claim, _, pending, stage⟩

/-- How much a step adds to the counter of a registry. -/
def panicsIn (cell : CellId) (emitted : Option (Traced E P)) : Nat :=
  emitted.toList.countP (Traced.isPanicIn cell)

private theorem panicsIn_quiet
    (notNotify : ∀ cell event, act ≠ .notify cell event)
    (quiet : ∀ event entry payload,
      activation.traced memory event act ≠ some (.panicked entry payload))
    (level : Nat) :
    panicsIn cell
      (observed memory thread (some activation) (level + 1) act) = 0 := by
  rw [observed_top notNotify]
  cases isEvent : activation.event with
  | none => rfl
  | some event =>
      cases isTraced : activation.traced memory event act with
      | none => simp [panicsIn, isTraced]
      | some what =>
          cases what with
          | panicked entry payload =>
              exact absurd isTraced (quiet event entry payload)
          | _ => simp [panicsIn, isTraced, Traced.isPanicIn]

/-- The counter of a registry after a step. -/
theorem Move.panics
    (move : Move thread act memory memory' tls top calls calls')
    (inv : MemInv memory.cells)
    (frameOk : ∀ activation rest, calls = activation :: rest →
      FrameOk memory.cells ⟨thread, rest.length⟩ activation.frame)
    (works : ∀ activation ∈ calls, activation.WorkOk)
    (announced : ∀ activation ∈ calls, activation.Announced)
    (bounded : (memory.shared.registries cell).panics < 2 ^ 64) :
    (memory'.shared.registries cell).panics =
      ((memory.shared.registries cell).panics +
        panicsIn cell (observed memory thread top calls.length act)) %
          2 ^ 64 := by
  -- Most steps count nothing, and emit no panic.
  have same : ∀ {emitted : Option (Traced E P)} {count : Nat},
      panicsIn cell emitted = 0 →
        count = (memory.shared.registries cell).panics →
          count = ((memory.shared.registries cell).panics +
            panicsIn cell emitted) % 2 ^ 64 := by
    intro emitted count isNone isCount
    rw [isNone, isCount, Nat.add_zero, Nat.mod_eq_of_lt bounded]
  cases move with
  | outside exit foreign kept resumed =>
      rw [observed_foreign foreign]
      exact same rfl (kept.panics cell)
  | notified target event calls isNotify shared =>
      subst isNotify
      exact same rfl (by rw [shared])
  | called frame once calls foreign pushed notDispatch kept =>
      rw [observed_foreign foreign]
      exact same rfl (kept.panics cell)
  | lockedSlot activation rest isTop target entry full isNext work inside
      free after =>
      subst isTop isNext after
      refine same (panicsIn_quiet (by simp) ?_ _) (panics_setSlot _ _ _)
      simp [Activation.traced, work]
  | took activation rest isTop target entry holder isNext work inside full
      after =>
      subst isTop isNext after
      refine same (panicsIn_quiet (by simp) ?_ _) (panics_setSlot _ _ _)
      simp [Activation.traced, work, inside, full]
  | removing activation rest isTop target entry panic ended work inside
      shared =>
      subst isTop
      rw [shared]
      rcases ended with ⟨rfl, _⟩ | ⟨payload, rfl, _⟩
      · refine same (panicsIn_quiet (by simp) ?_ _) rfl
        simp [Activation.traced, work]
      · refine same (panicsIn_quiet (by simp) ?_ _) rfl
        simp [Activation.traced, work]
  | reporting activation rest isTop info step next shared work stepped
      after =>
      subst isTop after
      refine same (panicsIn_quiet (notNotify_of_report stepped) ?_ _)
        ((reportStep_kept stepped).panics cell)
      intro event entry payload traced
      obtain ⟨claim, pending, stage⟩ := stage_of_processed traced rfl
      exact (works activation List.mem_cons_self).not_report
        (by simp [stage]) info step work
  | thrown activation rest isTop target payload isPanic work isFrame
      unchanged =>
      subst isTop unchanged
      have notNotify : ∀ cell event, act ≠ .notify cell event := by
        simp [isPanic]
      refine same (panicsIn_quiet notNotify ?_ _) rfl
      intro event entry payload traced
      obtain ⟨claim, pending, stage⟩ := stage_of_processed traced rfl
      rw [isFrame] at stage
      cases stage
  | popped activation isTop operation meant shared after via stepped shape =>
      subst isTop
      refine same (panicsIn_quiet via.notNotify ?_ _)
        (by rw [shape, via.panics])
      intro event entry payload traced
      obtain ⟨claim, pending, stage⟩ := stage_of_processed traced rfl
      have moved := frameStep_stage inv (frameOk _ _ rfl) stepped
      rw [stage] at moved
      cases moved
  | moved activation rest isTop operation meant shared after frame unwinding
      via stepped shape =>
      subst isTop
      have fits := works activation List.mem_cons_self
      by_cases isPanic : operation = .handlerPanics
      · subst isPanic
        obtain ⟨claim, entry, pending, stage⟩ := via.stage_of_handlerPanics
        have isSome : activation.event.isSome :=
          announced activation List.mem_cons_self (by rw [stage]; rfl)
        obtain ⟨event, isEvent⟩ := Option.isSome_iff_exists.mp isSome
        rcases via_of_handler event via fits stage with
          ⟨absurd, _⟩ | ⟨payload, _, _, traced⟩
        · cases absurd
        · rw [List.length_cons, observed_top via.notNotify, isEvent,
            Option.bind_some, traced, shape]
          simp only [sharedAfter]
          rw [panics_countPanic, via.panics]
          by_cases here : activation.frame.cellOf = cell
          · simp [panicsIn, Traced.isPanicIn, here]
          · refine same ?_ (if_neg here)
            simp [panicsIn, Traced.isPanicIn, here]
      · refine same (panicsIn_quiet via.notNotify ?_ _) ?_
        · intro event entry payload traced
          obtain ⟨claim, pending, stage⟩ := stage_of_processed traced rfl
          rcases via_of_handler event via fits stage with
            ⟨_, returned⟩ | ⟨payload, caught, _⟩
          · cases returned.symm.trans traced
          · exact isPanic caught
        · rw [shape, panics_sharedAfter isPanic, via.panics]

end Panics

/-! ### Runs -/

/-- What the events of a run say about its last state. -/
structure TracesOk (state : State E P) (events : List (Traced E P)) :
    Prop where
  announced : ∀ thread,
    ∀ activation ∈ activations (state.threads thread).stack,
      activation.Announced
  calls : ∀ call, CallTrace (traceOf call events) (dispatchOf state call)
  panics : ∀ cell, (state.memory.shared.registries cell).panics =
    events.countP (Traced.isPanicIn cell) % 2 ^ 64

section Runs

variable {state next : State E P} {thread : Tid} {act : Act E P}
variable {events : List (Traced E P)}

/-- The top call of a thread has the invariant of its frame. -/
theorem top_frameOk
    (reachable : (program E P).Reachable (initial E P) state)
    (thread : Tid) (activation : Activation E P)
    (rest : List (Activation E P))
    (shape : activations (state.threads thread).stack = activation :: rest) :
    FrameOk state.memory.cells ⟨thread, rest.length⟩ activation.frame := by
  have holds := invariant_reachable (project_reachable reachable)
  have stack : ((project state).threads thread).stack =
      activation.frame :: rest.map Activation.frame := by
    change frames (state.threads thread).stack = _
    rw [frames_eq, shape, List.map_cons]
  exact holds.frameOk (frameOf_top rfl stack (by simp))

private theorem observed_thread
    {memory : Memory} {top : Option (Activation E P)} {level : Nat}
    {traced : Traced E P}
    (emitted : observed memory thread top level act = some traced) :
    traced.call.thread = thread := by
  unfold observed at emitted
  split at emitted
  · cases emitted
    rfl
  · obtain ⟨activation, _, emitted⟩ := Option.bind_eq_some_iff.mp emitted
    obtain ⟨event, _, emitted⟩ := Option.bind_eq_some_iff.mp emitted
    obtain ⟨what, _, rfl⟩ := Option.map_eq_some_iff.mp emitted
    rfl

private theorem tracesOk_initial : TracesOk (initial E P) [] where
  announced := by
    intro thread activation member
    cases member
  calls := fun _ => Or.inl rfl
  panics := fun _ => rfl

private theorem tracesOk_step
    (reachable : (program E P).Reachable (initial E P) state)
    (stepped : (program E P).step state thread act = some next)
    (ok : TracesOk state events) :
    TracesOk next (events ++ (observe state thread act).toList) := by
  have inv := (invariant_reachable (project_reachable reachable)).1
  have works := ((stateOk_reachable reachable).threads thread).works
  have frameOk := top_frameOk reachable thread
  have move := step_move stepped
  constructor
  · intro other
    by_cases same : other = thread
    · subst same
      exact move.announced inv frameOk (ok.announced other)
    · rw [step_others stepped same]
      exact ok.announced other
  · rintro ⟨other, depth⟩
    have before := ok.calls ⟨other, depth⟩
    unfold dispatchOf at before ⊢
    have trace : traceOf ⟨other, depth⟩
        (events ++ (observe state thread act).toList) =
          traceAfter ⟨other, depth⟩ (traceOf ⟨other, depth⟩ events)
            (observe state thread act) := by
      unfold traceOf traceAfter
      rw [List.foldl_append]
    rw [trace]
    by_cases same : other = thread
    · subst same
      exact move.callTrace inv frameOk works before
    · rw [traceAfter_other, step_others stepped same]
      · exact before
      · intro traced emitted isCall
        have isThread := observed_thread emitted
        rw [isCall] at isThread
        exact same isThread
  · intro cell
    have before := ok.panics cell
    have bounded : (state.memory.shared.registries cell).panics <
        2 ^ 64 := by
      rw [before]
      exact Nat.mod_lt _ (Nat.two_pow_pos 64)
    have after := move.panics inv frameOk works (ok.announced thread) bounded
    rw [after, before, List.countP_append, Nat.mod_add_mod]
    rfl

/-- Every dispatch of every run has an event and the trace of its list: for
each entry in order one invocation with the event and, if and only if it
panicked, one increment of the counter and one invocation of the callback that
is installed then, with the id and the payload.  Only the panic of a
destructor in `handle_panic` ends it early.  The counter is the number of
caught panics modulo `2 ^ 64`. -/
theorem dispatch_traces
    {schedule : List (Tid × Act E P)}
    (executed : (program E P).exec (initial E P) schedule = some state) :
    TracesOk state ((program E P).events observe (initial E P) schedule) := by
  refine exec_induction
    (P := fun done state =>
      TracesOk state ((program E P).events observe (initial E P) done))
    ?_ executed tracesOk_initial
  intro done middle thread act next reached stepped ok
  rw [events_snoc reached stepped]
  exact tracesOk_step ⟨done, reached⟩ stepped ok

end Runs

/-- Actions of one thread, each with a number of operations after it. -/
def paced (thread : Tid) (acts : List (Act E P × Nat)) :
    List (Tid × Act E P) :=
  acts.flatMap fun (act, count) =>
    (thread, act) :: List.replicate count (thread, .next)

/-- A dispatch of two handlers.  The first one clears the registry and then
panics; the callback returns, and so does the destructor of the payload. -/
def clearsAndPanics : List (Tid × Act Nat Nat) :=
  paced 0
    [(.newCell 0 100, 0), (.call 0 (.register 0), 2), (.alloc 101, 9),
      (.call 0 (.register 0), 2), (.alloc 102, 9), (.onPanic 0, 3),
      (.notify 0 7, 9), (.call 0 (.clear false), 1), (.alloc 103, 17),
      (.panics 5, 3), (.returns, 1), (.returns, 1), (.returns, 19)]

theorem dispatch_traces_cleared :
    ∃ state : State Nat Nat,
      (program Nat Nat).exec (initial Nat Nat) clearsAndPanics =
          some state ∧
        TracesOk state ((program Nat Nat).events observe (initial Nat Nat)
          clearsAndPanics) ∧
        (state.memory.shared.registries 0).panics = 1 ∧
        traceOf ⟨0, 0⟩ ((program Nat Nat).events observe (initial Nat Nat)
            clearsAndPanics) =
          [.started 0 7, .took [⟨⟨1⟩, 0, 0⟩, ⟨⟨2⟩, 0, 1⟩],
            .invoked ⟨⟨1⟩, 0, 0⟩ 7, .panicked ⟨⟨1⟩, 0, 0⟩ 5,
            .consulted (some 0), .callback 0 ⟨⟨1⟩, 5⟩,
            .invoked ⟨⟨2⟩, 0, 1⟩ 7, .returned ⟨⟨2⟩, 0, 1⟩, .finished] := by
  have run : ((program Nat Nat).exec (initial Nat Nat)
      clearsAndPanics).map (fun state =>
        (state.memory.shared.registries 0).panics) = some 1 := by
    decide +kernel
  obtain ⟨state, executed, panics⟩ := Option.map_eq_some_iff.mp run
  refine ⟨state, executed, dispatch_traces executed, panics, ?_⟩
  decide +kernel

end RegistryIo.Reentrant
