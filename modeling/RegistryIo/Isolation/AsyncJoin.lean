import RegistryIo.Isolation.Requests

/-!
# The discipline of the join

A dispatch over two or more handlers starts all of them in its first poll and
then polls their slots, pass by pass.  The futures are arbitrary code from
outside: how a poll ends may depend on the world, and the world may change
between the polls of the dispatch in any way.

The laws speak about the requests that the outside records and about the log
of the dispatch, side by side.
-/

namespace RegistryIo.Isolation.Async.Join

open RegistryIo.Unwinding

section Specification

variable {E H F Payload Callback σ : Type}

/-- No destructor panics. -/
structure Harmless (user : User E H F Payload Callback σ) : Prop where
  future : ∀ future world, (user.dropFuture future world).1 = none
  payload : ∀ payload world, (user.dropPayload payload world).1 = none
  holder : ∀ holder world, (user.dropHolder holder world).1 = none
  released : ∀ before, ∀ destructor ∈ user.reclaimed before,
    ∀ world, (destructor world).1 = none
  list : ∀ before, ∀ destructor ∈ user.lastOwner before,
    ∀ world, (destructor world).1 = none

/-- The handlers whose futures are running, in list order. -/
def running (slots : Slots H F Payload) : List (HandlerEntry H) :=
  (slots.filter fun slot => slot.2.isRunning).map Prod.fst

/-- The handlers are called once each and in order.  A slot is running unless
the call of its handler panicked. -/
inductive StartsAll (event : E) :
    List (HandlerEntry H) → Slots H F Payload →
      List (Request E H F Payload Callback) → List (Event H Payload) →
      Prop where
  | nil : StartsAll event [] [] [] []
  | cons {list : List (HandlerEntry H)} {slots : Slots H F Payload}
      {requests : List (Request E H F Payload Callback)}
      {events : List (Event H Payload)} (entry : HandlerEntry H)
      (started : Except Payload F)
      (rest : StartsAll event list slots requests events) :
      StartsAll event (entry :: list) ((entry, .new started) :: slots)
        (.call entry.handler event started :: requests)
        (startEvents entry started ++ events)

/-- What a pass does to a slot.  A running future is polled once, and dropped
if it has ended; any other slot is left alone. -/
inductive PollsSlot :
    HandlerEntry H × Slot F Payload → HandlerEntry H × Slot F Payload →
      List (Request E H F Payload Callback) → List (Event H Payload) →
      Prop where
  | pending (entry : HandlerEntry H) (future next : F) :
      PollsSlot (entry, .running future) (entry, .running next)
        [.poll future (.ok (some next))] [.polled entry]
  | ready (entry : HandlerEntry H) (future : F) :
      PollsSlot (entry, .running future) (entry, .done)
        [.poll future (.ok none), .dropFuture future none]
        [.polled entry, .ended entry none]
  | panics (entry : HandlerEntry H) (future : F) (payload : Payload) :
      PollsSlot (entry, .running future) (entry, .panicked payload)
        [.poll future (.error payload), .dropFuture future none]
        [.polled entry, .ended entry (some payload)]
  | ended (slot : HandlerEntry H × Slot F Payload)
      (isEnded : slot.2.isRunning = false) : PollsSlot slot slot [] []

/-- A pass over the slots, in list order. -/
inductive PollsSlots :
    Slots H F Payload → Slots H F Payload →
      List (Request E H F Payload Callback) → List (Event H Payload) →
      Prop where
  | nil : PollsSlots [] [] [] []
  | cons {slot slot' : HandlerEntry H × Slot F Payload}
      {slots slots' : Slots H F Payload}
      {requests more : List (Request E H F Payload Callback)}
      {events log : List (Event H Payload)}
      (first : PollsSlot slot slot' requests events)
      (rest : PollsSlots slots slots' more log) :
      PollsSlots (slot :: slots) (slot' :: slots') (requests ++ more)
        (events ++ log)

/-- The panics that the slots hold are reported once each, in list order. -/
inductive ReportsSlots (user : User E H F Payload Callback σ) :
    Slots H F Payload → List (Request E H F Payload Callback) →
      List (Event H Payload) → Prop where
  | nil : ReportsSlots user [] [] []
  | done {slots : Slots H F Payload}
      {requests : List (Request E H F Payload Callback)}
      {events : List (Event H Payload)} (entry : HandlerEntry H)
      (rest : ReportsSlots user slots requests events) :
      ReportsSlots user ((entry, .done) :: slots) requests events
  | panicked {slots : Slots H F Payload}
      {requests more : List (Request E H F Payload Callback)}
      {events log : List (Event H Payload)} {entry : HandlerEntry H}
      {payload : Payload}
      (first : Reports user ⟨entry.id, payload⟩ requests events)
      (rest : ReportsSlots user slots more log) :
      ReportsSlots user ((entry, .panicked payload) :: slots)
        (requests ++ more) (events ++ log)

/-- One poll of the join: one pass, and the reports as soon as no future is
running.  The counter is the number of running slots. -/
inductive PollsOnce (user : User E H F Payload Callback σ)
    (slots : Slots H F Payload) :
    Exit Payload (Option (Notify H F Payload)) →
      List (Request E H F Payload Callback) → List (Event H Payload) →
      Prop where
  | ready {slots' : Slots H F Payload}
      {pass reports freed : List (Request E H F Payload Callback)}
      {passLog reportLog : List (Event H Payload)}
      (polls : PollsSlots slots slots' pass passLog)
      (allEnded : running slots' = [])
      (reported : ReportsSlots user slots' reports reportLog)
      (frees : Frees freed) :
      PollsOnce user slots (.returned none) (pass ++ reports ++ freed)
        (passLog ++ reportLog)
  | pending {slots' : Slots H F Payload}
      {pass : List (Request E H F Payload Callback)}
      {passLog : List (Event H Payload)}
      (polls : PollsSlots slots slots' pass passLog)
      (goesOn : running slots' ≠ []) :
      PollsOnce user slots
        (.returned (some (.joining slots' (running slots').length))) pass
        passLog

/-- What the first poll of a dispatch over `list` does. -/
inductive FirstPoll (user : User E H F Payload Callback σ) (event : E)
    (list : List (HandlerEntry H))
    (exit : Exit Payload (Option (Notify H F Payload))) :
    List (Request E H F Payload Callback) → List (Event H Payload) →
      Prop where
  | mk {slots : Slots H F Payload}
      {loads calls requests : List (Request E H F Payload Callback)}
      {callLog events : List (Event H Payload)} (frees : Frees loads)
      (starts : StartsAll event list slots calls callLog)
      (polls : PollsOnce user slots exit requests events) :
      FirstPoll user event list exit (loads ++ calls ++ requests)
        (callLog ++ events)

/-- The suspended states of a dispatch over `list`.  Every poll may find
another world. -/
inductive Suspended (user : User E H F Payload Callback σ) (event : E)
    (list : List (HandlerEntry H)) : Notify H F Payload → Prop where
  | first {world world' : σ} {events : List (Event H Payload)}
      {state : Notify H F Payload} (loads : user.handlers world = list)
      (polled : pollNotify user event .unresumed world =
        ⟨.returned (some state), world', events⟩) :
      Suspended user event list state
  | later {world world' : σ} {events : List (Event H Payload)}
      {before after : Notify H F Payload}
      (suspended : Suspended user event list before)
      (polled : pollNotify user event before world =
        ⟨.returned (some after), world', events⟩) :
      Suspended user event list after

end Specification

section Proofs

variable {E H F Payload Callback σ : Type}
variable (user : User E H F Payload Callback σ)

private theorem startAll_asks
    (event : E) (list : List (HandlerEntry H)) (world : σ) :
    Asks user (startAll user.recorded event list) (startAll user event list)
      world (StartsAll event list) := by
  induction list generalizing world with
  | nil => exact Code.asks_pure .nil
  | cons entry rest inductionHypothesis =>
      apply (start_asks user event entry world).bind
      rintro started last _ _ ⟨rfl, rfl⟩
      apply (inductionHypothesis last).bindPure
      intro slots requests events starts
      exact .cons entry started starts

private theorem running_append (before after : Slots H F Payload) :
    running (before ++ after) = running before ++ running after := by
  unfold running
  rw [List.filter_append, List.map_append]

private theorem running_cons
    (slot : HandlerEntry H × Slot F Payload) (rest : Slots H F Payload) :
    (running (slot :: rest)).length =
      (running [slot]).length + (running rest).length := by
  rw [← List.singleton_append, running_append, List.length_append]

/-- The slot of a future after a poll, and whether it is over. -/
def polledSlot : Polled F Payload → Slot F Payload × Bool
  | .pending next => (.running next, false)
  | .ready panic => (.ended panic, true)

private theorem polledSlot_polls
    (entry : HandlerEntry H) (future : F) (polled : Polled F Payload) :
    PollsSlot (entry, .running future) (entry, (polledSlot polled).1)
      (pollRequests future polled :
        List (Request E H F Payload Callback))
      (pollEvents entry polled) := by
  match polled with
  | .pending next => exact .pending entry future next
  | .ready none => exact .ready entry future
  | .ready (some payload) => exact .panics entry future payload

section Pass

variable {abandon' : Slot F Payload → AsyncCode
  (σ × List (Request E H F Payload Callback)) H Payload Unit}
variable {abandon : Slot F Payload → AsyncCode σ H Payload Unit}
variable {abandoned : Slot F Payload →
  List (Request E H F Payload Callback) → List (Event H Payload) → Prop}

private theorem slotPoll_asks
    (abandons : ∀ slot world, Asks user (abandon' slot) (abandon slot) world
      fun _ => abandoned slot)
    (entry : HandlerEntry H) (future : F) (world : σ) :
    Asks user ((Slot.running future).poll user.recorded entry abandon')
      ((Slot.running future).poll user entry abandon) world
      fun value requests events => ∃ polled, value = polledSlot polled ∧
        requests = pollRequests future polled ∧
        events = pollEvents entry polled :=
  pollThenDrop_asks user (fun panic => abandons (.ended panic)) polledSlot
    entry future world

private theorem pollRunning_asks
    (abandons : ∀ slot world, Asks user (abandon' slot) (abandon slot) world
      fun _ => abandoned slot)
    (entry : HandlerEntry H) (slot : Slot F Payload) (others : Nat)
    (world : σ) :
    Asks user
      (pollRunning user.recorded entry abandon' slot
        ((running [(entry, slot)]).length + others))
      (pollRunning user entry abandon slot
        ((running [(entry, slot)]).length + others)) world
      fun value requests events =>
        PollsSlot (entry, slot) (entry, value.1) requests events ∧
          value.2 = (running [(entry, value.1)]).length + others := by
  cases slot with
  | running future =>
      apply (slotPoll_asks user abandons entry future world).bindPure
      rintro _ _ _ ⟨polled, rfl, rfl, rfl⟩
      refine ⟨polledSlot_polls entry future polled, ?_⟩
      match polled with
      | .pending next => rfl
      | .ready none =>
          change 1 + others - 1 = 0 + others
          omega
      | .ready (some payload) =>
          change 1 + others - 1 = 0 + others
          omega
  | done => exact Code.asks_pure ⟨.ended _ rfl, rfl⟩
  | panicked payload => exact Code.asks_pure ⟨.ended _ rfl, rfl⟩

end Pass

/-- One pass.  The counter goes down by the number of futures that end, which
is at most what it counts. -/
private theorem pollSlots_asks
    (polled slots : Slots H F Payload) (others : Nat) (world : σ) :
    Asks user
      (pollSlots user.recorded polled slots
        ((running slots).length + others))
      (pollSlots user polled slots ((running slots).length + others)) world
      fun value requests events => ∃ slots',
        value = (polled ++ slots', (running slots').length + others) ∧
          PollsSlots slots slots' requests events := by
  induction slots generalizing polled others world with
  | nil =>
      refine Code.asks_pure ⟨[], ?_, .nil⟩
      rw [List.append_nil]
  | cons slot rest inductionHypothesis =>
      obtain ⟨entry, slot⟩ := slot
      rw [running_cons, Nat.add_assoc]
      apply (pollRunning_asks user
        (fun next => dropSlots_asks user (polled ++ (entry, next) :: rest))
        entry slot _ world).bind
      rintro ⟨next, counter⟩ last requests events ⟨first, isCounter⟩
      change counter = (running [(entry, next)]).length +
        ((running rest).length + others) at isCounter
      have swap : counter = (running rest).length +
          ((running [(entry, next)]).length + others) := by omega
      rw [swap]
      apply (inductionHypothesis _ _ last).weaken
      rintro _ more log _ ⟨slots', rfl, second⟩
      refine ⟨(entry, next) :: slots', ?_, .cons first second⟩
      rw [List.append_assoc, running_cons (entry, next) slots']
      congr 1
      omega

private theorem reportSlots_asks
    (slots : Slots H F Payload) (allEnded : running slots = []) (world : σ) :
    Asks user (reportSlots user.recorded slots) (reportSlots user slots)
      world fun _ => ReportsSlots user slots := by
  induction slots generalizing world with
  | nil => exact Code.asks_pure .nil
  | cons slot rest inductionHypothesis =>
      obtain ⟨entry, slot⟩ := slot
      rw [← List.singleton_append, running_append] at allEnded
      obtain ⟨isEnded, others⟩ := List.append_eq_nil_iff.mp allEnded
      have goesOn := inductionHypothesis others
      cases slot with
      | running future => cases isEnded
      | done =>
          apply ((Slot.drop_asks user .done world).onUnwind
            (dropSlots_asks user rest)).bind
          rintro _ last _ _ ⟨rfl, rfl⟩
          apply (goesOn last).weaken
          intro _ requests events _ reports
          exact .done entry reports
      | panicked payload =>
          apply ((handlePanic_asks user entry.id payload world).onUnwind
            (dropSlots_asks user rest)).bind
          intro _ last requests events first
          apply (goesOn last).weaken
          intro _ more log _ reports
          exact .panicked first reports

private theorem awaitJoin_asks (slots : Slots H F Payload) (world : σ) :
    Asks user (awaitJoin user.recorded slots (running slots).length)
      (awaitJoin user slots (running slots).length) world
      fun value => PollsOnce user slots (.returned value) := by
  apply (pollSlots_asks user [] slots 0 world).bind
  rintro _ last pass passLog ⟨slots', rfl, polls⟩
  change Asks user (if (running slots').length = 0 then _ else _)
    (if (running slots').length = 0 then _ else _) _ _
  by_cases allEnded : running slots' = []
  · simp only [List.length_eq_zero_iff, if_pos allEnded]
    apply (reportSlots_asks user slots' allEnded last).bindPure
    intro _ reports reportLog reported
    have polled : PollsOnce user slots (.returned none)
        (pass ++ reports ++ []) (passLog ++ reportLog) :=
      .ready polls allEnded reported nofun
    rw [List.append_nil] at polled
    exact polled
  · simp only [List.length_eq_zero_iff, if_neg allEnded]
    refine Code.asks_pure ?_
    rw [List.append_nil, List.append_nil]
    exact .pending polls allEnded

/-- The list is freed after a poll that ends ready. -/
theorem PollsOnce.freed
    {user : User E H F Payload Callback σ} {slots : Slots H F Payload}
    {requests freed : List (Request E H F Payload Callback)}
    {events : List (Event H Payload)}
    (polls : PollsOnce user slots (.returned none) requests events)
    (frees : Frees freed) :
    PollsOnce user slots (.returned none) (requests ++ freed) events := by
  cases polls with
  | ready polls allEnded reported frees' =>
      rw [List.append_assoc]
      exact .ready polls allEnded reported
        (List.forall_mem_append.mpr ⟨frees', frees⟩)

/-- A poll of a dispatch that is suspended in the join. -/
theorem joining_asks (event : E) (slots : Slots H F Payload) (world : σ) :
    Asks user
      (pollNotify user.recorded event (.joining slots (running slots).length))
      (pollNotify user event (.joining slots (running slots).length)) world
      fun value => PollsOnce user slots (.returned value) := by
  refine (awaitJoin_asks user slots world).holding (dropList_asks user) ?_ ?_
  · rintro requests events more _ polls ⟨frees, rfl⟩
    rw [List.append_nil]
    exact polls.freed frees
  · exact fun _ _ _ polls => polls

theorem notifyList_asks
    (event : E) (list : List (HandlerEntry H)) (many : 2 ≤ list.length)
    (world : σ) :
    Asks user (notifyList user.recorded event list)
      (notifyList user event list) world fun value =>
        FirstPoll user event list (.returned value) := by
  obtain ⟨first, second, rest, rfl⟩ : ∃ first second rest,
      list = first :: second :: rest := by
    match list, many with
    | first :: second :: rest, _ => exact ⟨first, second, rest, rfl⟩
  apply (startAll_asks user event (first :: second :: rest) world).bind
  intro slots last calls callLog starts
  have count : slots.countP (fun slot => slot.2.isRunning) =
      (running slots).length := by
    rw [running, List.length_map, List.countP_eq_length_filter]
  rw [count]
  apply (awaitJoin_asks user slots last).weaken
  intro value more log _ polls
  have noLoads : Frees ([] : List (Request E H F Payload Callback)) := nofun
  exact .mk noLoads starts polls

private theorem unresumed_asks
    (event : E) (world : σ) (many : 2 ≤ (user.handlers world).length) :
    Asks user (pollNotify user.recorded event .unresumed)
      (pollNotify user event .unresumed) world fun value =>
        FirstPoll user event (user.handlers world) (.returned value) := by
  have nonempty : user.handlers world ≠ [] := by
    intro isEmpty
    rw [isEmpty] at many
    cases many
  apply (loadArcIf_asks user world).bind
  rintro _ last loads _ ⟨rfl, frees, rfl⟩
  rw [if_neg nonempty]
  have added : ∀ {exit requests events},
      FirstPoll user event (user.handlers world) exit requests events →
        FirstPoll user event (user.handlers world) exit (loads ++ requests)
          events := by
    rintro _ _ _ ⟨frees', starts, polls⟩
    rw [← List.append_assoc, ← List.append_assoc]
    exact .mk (List.forall_mem_append.mpr ⟨frees, frees'⟩) starts polls
  refine (notifyList_asks user event _ many last).holding
    (dropList_asks user) ?_ ?_
  · rintro _ _ more _ ⟨frees', starts, polls⟩ ⟨freed, rfl⟩
    have first := added (.mk frees' starts (polls.freed freed))
    rw [← List.append_assoc _ _ more] at first
    rw [List.append_nil]
    exact first
  · exact fun _ _ _ polls => added polls

/-- A user without harmful destructors gives no harmful answer. -/
theorem Harmless.answers
    {user : User E H F Payload Callback σ} (harmless : Harmless user)
    {request : Request E H F Payload Callback}
    (genuine : request.Genuine user) : request.harmful = false := by
  cases request with
  | call handler event answer => rfl
  | poll future answer => rfl
  | callback holder info panic => rfl
  | dropFuture future panic =>
      obtain ⟨world, rfl⟩ := genuine
      rw [Request.harmful, harmless.future]
      rfl
  | dropPayload payload panic =>
      obtain ⟨world, rfl⟩ := genuine
      rw [Request.harmful, harmless.payload]
      rfl
  | dropHolder holder panic =>
      obtain ⟨world, rfl⟩ := genuine
      rw [Request.harmful, harmless.holder]
      rfl
  | dropHandler panic =>
      obtain ⟨before, world, destructor, owned, rfl⟩ := genuine
      have returns : (destructor world).1 = none := by
        rcases owned with released | listed
        · exact harmless.released before destructor released world
        · exact harmless.list before destructor listed world
      rw [Request.harmful, returns]
      rfl

variable {user}

/-- Code that asks a harmless outside returns. -/
theorem Harmless.returns
    (harmless : Harmless user) {α : Type}
    {code' : AsyncCode (σ × List (Request E H F Payload Callback)) H
      Payload α}
    {code : AsyncCode σ H Payload α} {world : σ}
    {post : α → List (Request E H F Payload Callback) →
      List (Event H Payload) → Prop}
    (asks : Asks user code' code world post) :
    ∃ value, (code world).exit = .returned value ∧
      post value (code'.requests world) (code world).events := by
  obtain ⟨genuine, answered⟩ := asks.run
  have unharmed : ¬ ∃ request ∈ code'.requests world,
      request.harmful = true := by
    rintro ⟨request, member, harms⟩
    rw [harmless.answers (genuine request member)] at harms
    cases harms
  generalize (code world).exit = exit at answered
  cases answered with
  | returned _ met => exact ⟨_, rfl, met⟩
  | unwound harmed => exact absurd harmed unharmed
  | aborted harmed => exact absurd harmed unharmed

theorem PollsSlots.entries
    {slots slots' : Slots H F Payload}
    {requests : List (Request E H F Payload Callback)}
    {events : List (Event H Payload)}
    (polls : PollsSlots slots slots' requests events) :
    slots'.map Prod.fst = slots.map Prod.fst := by
  induction polls with
  | nil => rfl
  | cons first _ inductionHypothesis =>
      rw [List.map_cons, List.map_cons, inductionHypothesis]
      cases first <;> rfl

theorem StartsAll.entries
    {event : E} {list : List (HandlerEntry H)} {slots : Slots H F Payload}
    {requests : List (Request E H F Payload Callback)}
    {events : List (Event H Payload)}
    (starts : StartsAll event list slots requests events) :
    slots.map Prod.fst = list := by
  induction starts with
  | nil => rfl
  | cons entry _ _ inductionHypothesis =>
      rw [List.map_cons, inductionHypothesis]

/-- A poll that ends pending leaves a join with a running future. -/
theorem PollsOnce.joining
    {slots : Slots H F Payload}
    {requests : List (Request E H F Payload Callback)}
    {events : List (Event H Payload)} {state : Notify H F Payload}
    (polls : PollsOnce user slots (.returned (some state)) requests
      events) :
    ∃ slots', state = .joining slots' (running slots').length ∧
      slots'.map Prod.fst = slots.map Prod.fst ∧ running slots' ≠ [] := by
  cases polls with
  | pending passed goesOn => exact ⟨_, rfl, passed.entries, goesOn⟩

theorem FirstPoll.joining
    {event : E} {list : List (HandlerEntry H)}
    {requests : List (Request E H F Payload Callback)}
    {events : List (Event H Payload)} {state : Notify H F Payload}
    (first : FirstPoll user event list (.returned (some state)) requests
      events) :
    ∃ slots, state = .joining slots (running slots).length ∧
      slots.map Prod.fst = list ∧ running slots ≠ [] := by
  obtain ⟨_, starts, polls⟩ := first
  obtain ⟨slots, isState, entries, goesOn⟩ := polls.joining
  exact ⟨slots, isState, entries.trans starts.entries, goesOn⟩

/-- The suspended states of a dispatch are joins of its list. -/
theorem Suspended.joining
    (harmless : Harmless user) {event : E} {list : List (HandlerEntry H)}
    (many : 2 ≤ list.length) {state : Notify H F Payload}
    (suspended : Suspended user event list state) :
    ∃ slots, state = .joining slots (running slots).length ∧
      slots.map Prod.fst = list ∧ running slots ≠ [] := by
  induction suspended with
  | first loads polled =>
      subst loads
      obtain ⟨value, returned, first⟩ :=
        harmless.returns (unresumed_asks user event _ many)
      rw [polled] at returned
      cases returned
      exact first.joining
  | later _ polled inductionHypothesis =>
      obtain ⟨slots, rfl, entries, _⟩ := inductionHypothesis
      obtain ⟨value, returned, polls⟩ :=
        harmless.returns (joining_asks user event slots _)
      rw [polled] at returned
      cases returned
      obtain ⟨slots', isState, same, goesOn⟩ := polls.joining
      exact ⟨slots', isState, same.trans entries, goesOn⟩

end Proofs

/-- One handler panics when it is started.  The future of the other one is
pending until the world has reached the number it waits for. -/
def waiting : User Unit (Option Nat) Nat Nat Unit Nat where
  handlers := fun _ => [⟨⟨1⟩, 0, some 1⟩, ⟨⟨2⟩, 0, none⟩]
  call := fun handler _ world =>
    match handler with
    | some number => (.ok number, world)
    | none => (.error 7, world)
  poll := fun number world =>
    (.ok (if number ≤ world then none else some number), world)
  installed := fun _ => some ()
  callback := fun _ _ world => (none, world)
  dropFuture := fun _ world => (none, world)
  dropPayload := fun _ world => (none, world)
  dropHolder := fun _ world => (none, world)
  protects := fun _ => true
  reclaimed := fun _ => []
  lastOwner := fun _ => []

end RegistryIo.Isolation.Async.Join
