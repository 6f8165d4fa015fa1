import RegistryIo.Snapshot.Dispatch

/-!
# Linearizable snapshots

A read works on one list.  The list was the current one at a moment after the
read was called and before its first handler; this moment orders reads among
each other and against registrations and removals.
-/

namespace RegistryIo.Snapshot

open RegistryIo.Interleaving

section Monotone

variable {state last : State} {schedule : List (Tid × Act)} {cell : CellId}
variable {handler : Nat}

/-- What a run keeps of a cell. -/
structure CellGrows (cell : CellId) (state later : State) : Prop where
  version_le : (state.memory.store.cells cell).version ≤
    (later.memory.store.cells cell).version
  removed : ∀ handler,
    (state.memory.store.cells cell).status handler = .removed →
      (later.memory.store.cells cell).status handler = .removed
  installed : ∀ handler, Installed state.memory cell handler →
    Installed later.memory cell handler

theorem CellGrows.refl : CellGrows cell state state :=
  ⟨Nat.le_refl _, fun _ removed => removed, fun _ installed => installed⟩

theorem CellGrows.step
    {later next : State} {thread : Tid} {act : Act}
    (grows : CellGrows cell state later) (holds : Invariant later)
    (stepped : program.step later thread act = some next) :
    CellGrows cell state next := by
  obtain ⟨actor, gained, lost, advance⟩ := step_advance holds stepped
  have kept := advance.store.cells cell
  exact ⟨Nat.le_trans grows.version_le kept.version_le,
    fun handler removed => kept.removed handler (grows.removed handler removed),
    fun handler installed =>
      (grows.installed handler installed).stable advance⟩

theorem CellGrows.exec
    (holds : Invariant state)
    (executed : program.exec state schedule = some last) :
    CellGrows cell state last := by
  have both : Invariant last ∧ CellGrows cell state last := by
    refine exec_invariant
      (P := fun later => Invariant later ∧ CellGrows cell state later)
      ?_ executed ⟨holds, .refl⟩
    intro later thread act next stepped current
    exact ⟨invariant_step stepped current.1,
      current.2.step current.1 stepped⟩
  exact both.2

/-- No closure works on a version that is ahead of the cell. -/
private theorem version_le_current
    (reachable : program.Reachable initial state) (call : CallId)
    (claim : Claim) (body : Body)
    (inside : stageOf state call = some (.inside claim body)) :
    claim.version ≤ (state.memory.store.cells claim.cell).version := by
  have both : Invariant state ∧ ∀ call claim body,
      stageOf state call = some (.inside claim body) →
        claim.version ≤
          (state.memory.store.cells claim.cell).version := by
    refine reachable_invariant
      (P := fun state => Invariant state ∧ ∀ call claim body,
        stageOf state call = some (.inside claim body) →
          claim.version ≤ (state.memory.store.cells claim.cell).version)
      ⟨invariant_initial, ?_⟩ ?_ reachable
    · intro call claim body inside
      cases inside
    · intro state thread act next stepped current
      refine ⟨invariant_step stepped current.1, ?_⟩
      intro call claim body inside
      have grows : CellGrows claim.cell state next :=
        CellGrows.refl.step current.1 stepped
      rcases inside_step current.1 stepped inside with
        ⟨old, before, _⟩ | ⟨_, isVersion, _⟩
      · exact Nat.le_trans (current.2 call claim old before)
          grows.version_le
      · rw [isVersion]
        exact grows.version_le
  exact both.2 call claim body inside

end Monotone

section Progress

variable {call : CallId} {cell : CellId} {notify : Bool}
variable {started state now : State} {schedule done : List (Tid × Act)}
variable {version : Nat} {list : List Entry}

/-- The version and the list were current at a moment of the run before the
call invoked its first handler. -/
def CurrentDuring (call : CallId) (cell : CellId) (started : State)
    (schedule : List (Tid × Act)) (version : Nat)
    (list : List Entry) : Prop :=
  ∃ before after moment, schedule = before ++ after ∧
    program.exec started before = some moment ∧
    (moment.memory.store.cells cell).phase = .alive ∧
    (moment.memory.store.cells cell).version = version ∧
    moment.memory.store.deref (moment.memory.store.cells cell).current =
      list ∧
    invokedBy call (program.events observe started before) = []

theorem CurrentDuring.extend
    (current : CurrentDuring call cell started schedule version list)
    (more : List (Tid × Act)) :
    CurrentDuring call cell started (schedule ++ more) version list := by
  obtain ⟨before, after, moment, split, rest⟩ := current
  exact ⟨before, after ++ more, moment, by rw [split, List.append_assoc],
    rest⟩

/-- How far a read has got after a part of the run.  `events` are the events
of the run so far. -/
inductive Progress (call : CallId) (cell : CellId) (notify : Bool)
    (started : State) (done : List (Tid × Act)) (state : State)
    (events : List Event) : Prop where
  | entering
      (stage : stageOf state call = some (.entering cell notify))
      (silent : invokedBy call events = [])
      (running : .finished call cell ∉ events)
  | inside (version : Nat) (list : List Entry) (body : Body)
      (current : CurrentDuring call cell started done version list)
      (stage : stageOf state call = some (.inside ⟨cell, version⟩ body))
      (walked : invokedBy call events ++ body.pending =
        (Body.start notify list).pending)
      (running : .finished call cell ∉ events)
  | leaving (version : Nat) (list : List Entry)
      (current : CurrentDuring call cell started done version list)
      (stage : stageOf state call = some (.leaving cell))
      (walked : invokedBy call events <+:
        (Body.start notify list).pending)
      (whole : .finished call cell ∈ events →
        invokedBy call events = (Body.start notify list).pending)

/-- A step of another call. -/
theorem Progress.other
    {next : State} {events : List Event} {event : Option Event}
    (progress : Progress call cell notify started done state events)
    (same : stageOf next call = stageOf state call)
    (quiet : ∀ emitted, event = some emitted → emitted.call ≠ call)
    (step : Tid × Act) :
    Progress call cell notify started (done ++ [step]) next
      (events ++ event.toList) := by
  have invoked : invokedBy call (events ++ event.toList) =
      invokedBy call events := by
    rw [invokedBy_append, invokedBy_of_quiet quiet, List.append_nil]
  have finished : .finished call cell ∈ events ++ event.toList ↔
      .finished call cell ∈ events := by
    rw [List.mem_append, Option.mem_toList]
    refine or_iff_left ?_
    intro emitted
    exact quiet _ emitted rfl
  cases progress with
  | entering stage silent running =>
      exact .entering (same.trans stage) (invoked.trans silent)
        (mt finished.mp running)
  | inside version list body current stage walked running =>
      refine .inside version list body (current.extend _)
        (same.trans stage) ?_ (mt finished.mp running)
      rw [invoked]
      exact walked
  | leaving version list current stage walked whole =>
      refine .leaving version list (current.extend _) (same.trans stage)
        ?_ ?_
      · rw [invoked]
        exact walked
      · rw [invoked, finished]
        exact whole

/-- A step of the call itself. -/
theorem Progress.own
    {next : State} {events : List Event} {thread : Tid} {act : Act}
    {stage : Stage} (holds : Invariant state)
    (executed : program.exec started done = some state)
    (sofar : program.events observe started done = events)
    (progress : Progress call cell notify started done state events)
    (before : stageOf state call = some stage)
    (moved : StageStep state.memory act stage (stageOf next call))
    (still : stageOf next call ≠ none) :
    Progress call cell notify started (done ++ [(thread, act)]) next
      (events ++ (stage.event call act).toList) := by
  obtain ⟨after, isAfter⟩ := Option.ne_none_iff_exists'.mp still
  rw [isAfter] at moved
  cases progress with
  | entering isStage silent running =>
      rw [isStage] at before
      cases before
      simp only [Stage.event, Option.toList_none, List.append_nil]
      cases moved with
      | enters => exact .entering isAfter silent running
      | acquires _ _ alive =>
          refine .inside _ _ _ ?_ isAfter (by rw [silent]; rfl) running
          refine ⟨done, [(thread, act)], state, rfl, executed, alive, rfl,
            deref_current holds.1 alive, ?_⟩
          rw [sofar]
          exact silent
  | inside version list body current isStage walked running =>
      rw [isStage] at before
      cases before
      cases moved with
      | walks claim moved =>
          rcases bodyStep_event call ⟨cell, version⟩ moved with
            ⟨same, event⟩ | ⟨entry, split, event⟩
          · rw [event]
            refine .inside version list _ (current.extend _) isAfter ?_ ?_
            · rw [same]
              simpa using walked
            · simpa using running
          · rw [event]
            refine .inside version list _ (current.extend _) isAfter ?_ ?_
            · rw [invokedBy_append, List.append_assoc, ← walked, split]
              simp [invokedBy]
            · simpa using running
      | finishes claim isFinish isOver =>
          subst isFinish
          rw [pending_of_finishes isOver, List.append_nil] at walked
          have invoked : invokedBy call (events ++
              (Stage.event call (.inside ⟨cell, version⟩ body)
                .finish).toList) = (Body.start notify list).pending := by
            rw [invokedBy_append, walked]
            simp [Stage.event, isOver, invokedBy]
          exact .leaving version list (current.extend _) isAfter
            ⟨[], by rw [List.append_nil, invoked]⟩ (fun _ => invoked)
      | unwinds claim isUnwind thrown =>
          subst isUnwind
          have event : Stage.event call (.inside ⟨cell, version⟩ body)
              .unwind = some (.unwound call cell) := by
            simp [Stage.event, thrown]
          rw [event]
          refine .leaving version list (current.extend _) isAfter ?_ ?_
          · rw [← walked, invokedBy_append]
            simp [invokedBy]
          · intro finished
            simp only [Option.toList_some, List.mem_append,
              List.mem_singleton, reduceCtorEq, or_false] at finished
            exact absurd finished running
  | leaving version list current isStage walked whole =>
      rw [isStage] at before
      cases before
      simp only [Stage.event, Option.toList_none, List.append_nil]
      cases moved with
      | leaves =>
          exact .leaving version list (current.extend _) isAfter walked whole

/-- The progress of a read over any run during which it lasts. -/
private theorem progress_run
    (holds : Invariant started)
    (entered : stageOf started call = some (.entering cell notify))
    (lasts : program.execWhere (fun state _ _ => inProgress call state)
      started schedule = some now)
    (still : inProgress call now = true) :
    Progress call cell notify started schedule now
      (program.events observe started schedule) := by
  refine execWhere_induction
    (P := fun done state => inProgress call state = true →
      Progress call cell notify started done state
        (program.events observe started done))
    ?_ lasts ?_ still
  · intro done state thread act next executed active stepped progress still
    have holdsNow : Invariant state :=
      exec_invariant (fun _ _ _ _ => invariant_step) executed holds
    have present : stageOf next call ≠ none := by
      obtain ⟨frame, found⟩ := Option.isSome_iff_exists.mp still
      unfold stageOf
      simp [found]
    rw [events_snoc executed stepped]
    rcases stageOf_step holdsNow stepped call with
      ⟨same, quiet⟩ | ⟨_, stage, before, moved, emits⟩ | ⟨vacant, _⟩
    · exact (progress active).other same quiet (thread, act)
    · rw [emits]
      exact Progress.own holdsNow executed rfl (progress active) before
        moved present
    · obtain ⟨frame, found⟩ := Option.isSome_iff_exists.mp active
      unfold stageOf at vacant
      rw [found] at vacant
      cases vacant
  · intro _
    exact .entering entered rfl List.not_mem_nil

/-- A read that was just called. -/
private theorem entering_of_call
    {before : State} {thread : Tid}
    (called : program.step before thread (.call cell (.read notify)) =
      some started) :
    stageOf started ⟨thread, (before.threads thread).stack.length⟩ =
      some (.entering cell notify) := by
  obtain ⟨memory', locals', performed, rfl⟩ := step_eq_some called
  simp only [program] at performed
  split at performed
  · cases userStep_rule performed
    simp [stageOf, frameOf, frameAt, Call.enter, Frame.stage, Reader.stage]
  · cases performed

end Progress

section Law

variable {earlier before started now : State} {thread : Tid}
variable {interval schedule : List (Tid × Act)} {cell : CellId}
variable {notify : Bool}

/-- The handlers that a finished call took out of the list. -/
def Outcome.removed : Outcome → List Nat
  | .wrote effect => effect.removed
  | .waited _ removed => removed
  | _ => []

/-- What holds of a read that is called after the state `earlier` and has
reached the state `now`; `events` are the events since it was called. -/
structure ReadLaw (call : CallId) (cell : CellId) (notify : Bool)
    (earlier started : State) (schedule : List (Tid × Act)) (now : State)
    (events : List Event) : Prop where
  /-- The read has no list yet, or it works on one list that was current after
  the call and before its first handler.  A dispatch invokes the entries of
  that list in order, and all of them if it is not cut short by a panic. -/
  snapshot :
    (invokedBy call events = [] ∧ .finished call cell ∉ events ∧
      ∀ claim body, stageOf now call ≠ some (.inside claim body)) ∨
    ∃ version list, CurrentDuring call cell started schedule version list ∧
      (∀ claim body, stageOf now call = some (.inside claim body) →
        claim = ⟨cell, version⟩ ∧
          invokedBy call events ++ body.pending =
            if notify then list else []) ∧
      invokedBy call events <+: (if notify then list else []) ∧
      (.finished call cell ∈ events →
        invokedBy call events = if notify then list else [])
  /-- A read sees no older version than a read that came before it. -/
  monotone : ∀ other claim body claim' body', claim.cell = cell →
    stageOf earlier other = some (.inside claim body) →
      stageOf now call = some (.inside claim' body') →
        claim.version ≤ claim'.version
  /-- A handler whose removal had returned is not invoked. -/
  removed : ∀ remover outcome handler,
    frameOf earlier remover = some (.returned cell outcome) →
      handler ∈ outcome.removed →
        handler ∉ handlersOf (invokedBy call events)
  /-- A handler whose registration had returned is invoked exactly once by a
  dispatch that ends before the handler is removed. -/
  registered : ∀ registrar effect handler,
    frameOf earlier registrar = some (.returned cell (.wrote effect)) →
      effect.inserted = some handler → notify = true →
        .finished call cell ∈ events →
          (now.memory.store.cells cell).status handler ≠ .removed →
            (handlersOf (invokedBy call events)).count handler = 1

theorem Progress.snapshot
    {call : CallId} {events : List Event}
    (progress : Progress call cell notify started schedule now events) :
    (invokedBy call events = [] ∧ .finished call cell ∉ events ∧
      ∀ claim body, stageOf now call ≠ some (.inside claim body)) ∨
    ∃ version list, CurrentDuring call cell started schedule version list ∧
      (∀ claim body, stageOf now call = some (.inside claim body) →
        claim = ⟨cell, version⟩ ∧
          invokedBy call events ++ body.pending =
            if notify then list else []) ∧
      invokedBy call events <+: (if notify then list else []) ∧
      (.finished call cell ∈ events →
        invokedBy call events = if notify then list else []) := by
  cases progress with
  | entering stage silent running =>
      refine Or.inl ⟨silent, running, ?_⟩
      intro claim body inside
      rw [stage] at inside
      cases inside
  | inside version list body current stage walked running =>
      rw [pending_start] at walked
      refine Or.inr ⟨version, list, current, ?_, ⟨_, walked⟩,
        fun finished => absurd finished running⟩
      intro claim other inside
      rw [stage] at inside
      cases inside
      exact ⟨rfl, walked⟩
  | leaving version list current stage walked whole =>
      rw [pending_start] at walked whole
      refine Or.inr ⟨version, list, current, ?_, walked, whole⟩
      intro claim other inside
      rw [stage] at inside
      cases inside

/-- The current list of a cell holds exactly the live handlers, once each. -/
theorem Invariant.current_list
    (holds : Invariant now)
    (alive : (now.memory.store.cells cell).phase = .alive) :
    ListOk (now.memory.store.cells cell).status
      (now.memory.store.deref (now.memory.store.cells cell).current) := by
  rw [deref_current holds.1 alive]
  exact (holds.1.store.cells cell).list_ok alive

/-- Linearizable snapshots: the law of every read, called at any time after a
reachable state and followed for as long as it is in progress. -/
theorem linearizable_snapshots
    (reachable : program.Reachable initial earlier)
    (between : program.exec earlier interval = some before)
    (called : program.step before thread (.call cell (.read notify)) =
      some started)
    (lasts : program.execWhere
      (fun state _ _ =>
        inProgress ⟨thread, (before.threads thread).stack.length⟩ state)
      started schedule = some now)
    (still : inProgress ⟨thread, (before.threads thread).stack.length⟩ now =
      true) :
    ReadLaw ⟨thread, (before.threads thread).stack.length⟩ cell notify
      earlier started schedule now
      (program.events observe started schedule) := by
  have reachedBefore := reachable.exec between
  have reachedStart := reachedBefore.step called
  have executed := exec_of_execWhere lasts
  have holds := invariant_reachable reachable
  have holdsStart := invariant_reachable reachedStart
  have sinceEarlier : CellGrows cell earlier started :=
    (CellGrows.exec holds between).step (invariant_reachable reachedBefore)
      called
  have progress := progress_run holdsStart (entering_of_call called) lasts
    still
  have snapshot := progress.snapshot
  refine ⟨snapshot, ?_, ?_, ?_⟩
  · intro other claim body claim' body' isCell inside inside'
    subst isCell
    rcases snapshot with
      ⟨_, _, outside⟩ | ⟨version, list, current, works, _, _⟩
    · exact absurd inside' (outside claim' body')
    · rw [(works claim' body' inside').1]
      obtain ⟨first, rest, moment, _, reached, _, rfl, _, _⟩ := current
      exact Nat.le_trans (version_le_current reachable other claim body inside)
        (Nat.le_trans sinceEarlier.version_le
          (CellGrows.exec holdsStart reached).version_le)
  · intro remover outcome handler returns member
    rcases snapshot with
      ⟨silent, _⟩ | ⟨version, list, current, _, walked, _⟩
    · rw [silent]
      exact List.not_mem_nil
    · obtain ⟨first, rest, moment, _, reached, alive, _, rfl, _⟩ := current
      have isRemoved : (earlier.memory.store.cells cell).status handler =
          .removed := by
        have known := holds.outcomeOk returns
        cases outcome with
        | wrote effect => exact known.removed handler member
        | waited onFallback removed => exact known.1 handler member
        | _ => cases member
      have removedThen := (CellGrows.exec holdsStart reached).removed handler
        (sinceEarlier.removed handler isRemoved)
      have listed := Invariant.current_list
        (invariant_reachable (reachedStart.exec reached)) alive
      intro present
      have inList : handler ∈ handlersOf
          (if notify then moment.memory.store.deref
            (moment.memory.store.cells cell).current else []) :=
        (walked.map _).subset present
      cases notify with
      | false => cases inList
      | true =>
          rw [(listed.live_iff handler).mp inList] at removedThen
          cases removedThen
  · rintro registrar effect handler returns inserted rfl finished unremoved
    rcases snapshot with
      ⟨_, running, _⟩ | ⟨version, list, current, _, _, whole⟩
    · exact absurd finished running
    · obtain ⟨first, rest, moment, split, reached, alive, _, rfl, _⟩ :=
        current
      have installed := (CellGrows.exec holdsStart reached).installed handler
        (sinceEarlier.installed handler
          ((holds.outcomeOk returns).inserted handler inserted))
      have holdsThen := invariant_reachable (reachedStart.exec reached)
      have listed := Invariant.current_list holdsThen alive
      have live : (moment.memory.store.cells cell).status handler =
          .live := by
        rcases installed with live | removed
        · exact live
        · rw [split, exec_append, reached] at executed
          exact absurd ((CellGrows.exec holdsThen executed).removed handler
            removed) unremoved
      rw [whole finished]
      exact List.count_eq_one_of_mem listed.nodup
        ((listed.live_iff handler).mpr live)

end Law

/-- Thread `0` registers a handler; the call is about to return. -/
def registers : List (Tid × Act) :=
  (0, .newCell 0 100) :: registration 0 0 1 101 8

/-- A dispatch of thread `1` after it was called. -/
def wholeDispatch : List (Tid × Act) :=
  nexts 1 8 ++ [(1, .invoke), (1, .handlerReturns), (1, .finish)]

theorem linearizable_snapshots_registered :
    ∃ earlier before started now,
      program.exec initial registers = some earlier ∧
      program.exec earlier [(0, .next)] = some before ∧
      program.step before 1 (.call 0 (.read true)) = some started ∧
      program.exec started wholeDispatch = some now ∧
      (handlersOf (invokedBy ⟨1, 0⟩
        (program.events observe started wholeDispatch))).count 0 = 1 := by
  have evaluated :
      (program.exec initial registers).bind
          (fun earlier => (program.exec earlier [(0, .next)]).bind
            fun before => (program.step before 1
                (.call 0 (.read true))).bind
              fun started => (program.execWhere
                  (fun state _ _ => inProgress ⟨1, 0⟩ state)
                  started wholeDispatch).map
                fun now => (frameOf earlier ⟨0, 0⟩,
                  (before.threads 1).stack.length, inProgress ⟨1, 0⟩ now,
                  program.events observe started wholeDispatch,
                  (now.memory.store.cells 0).status 0)) =
        some (some (.returned 0 (.wrote ⟨[], some 0⟩)), 0, true,
          [.invoked ⟨1, 0⟩ 0 ⟨⟨1⟩, 1, 0⟩, .finished ⟨1, 0⟩ 0], .live) := by
    decide +kernel
  obtain ⟨earlier, reached, evaluated⟩ :=
    Option.bind_eq_some_iff.mp evaluated
  obtain ⟨before, between, evaluated⟩ :=
    Option.bind_eq_some_iff.mp evaluated
  obtain ⟨started, called, evaluated⟩ :=
    Option.bind_eq_some_iff.mp evaluated
  obtain ⟨now, lasts, view⟩ := Option.map_eq_some_iff.mp evaluated
  simp only [Prod.mk.injEq] at view
  obtain ⟨returns, depth, still, events, live⟩ := view
  have law := linearizable_snapshots ⟨registers, reached⟩ between called
    (by rw [depth]; exact lasts) (by rw [depth]; exact still)
  rw [depth] at law
  refine ⟨earlier, before, started, now, reached, between, called,
    exec_of_execWhere lasts, ?_⟩
  refine law.registered ⟨0, 0⟩ _ 0 returns rfl rfl ?_ ?_
  · rw [events]
    simp
  · rw [live]
    simp

end RegistryIo.Snapshot
