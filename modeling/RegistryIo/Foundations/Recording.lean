import RegistryIo.Foundations.Polling

/-!
# Requests to code from outside

Code from outside is wrapped so that it writes down what it was asked and how
it answered.  The record is made by the outside and not by the code that calls
it, so it tells which calls really happened.

`Code.Asks` compares code that runs with a record with the plain code: both do
the same, every answer in the record is `genuine`, and the postcondition
speaks about the requests that were made.  Some answers are `harmful`, like
the panic of a destructor; the code returns exactly if it got none.
-/

namespace RegistryIo.Unwinding

section Definitions

variable {σ Request Event Payload α β : Type}

/-- Code from outside that writes down what it was asked and its answer. -/
def record (request : β → Request) (outside : σ → β × σ)
    (world : σ × List Request) : β × (σ × List Request) :=
  ((outside world.1).1, (outside world.1).2,
    world.2 ++ [request (outside world.1).1])

/-- The requests that code makes. -/
def Code.requests (code : Code (σ × List Request) Event Payload α)
    (world : σ) : List Request :=
  (code (world, [])).world.2

/-- How code ends that has made some requests. -/
inductive Answered (harmful : Request → Bool)
    (post : α → List Request → List Event → Prop)
    (requests : List Request) (events : List Event) :
    Exit Payload α → Prop where
  | returned {value : α}
      (harmless : ∀ request ∈ requests, harmful request = false)
      (met : post value requests events) :
      Answered harmful post requests events (.returned value)
  | unwound {payload : Payload}
      (harmed : ∃ request ∈ requests, harmful request = true) :
      Answered harmful post requests events (.unwound payload)
  | aborted (harmed : ∃ request ∈ requests, harmful request = true) :
      Answered harmful post requests events .aborted

def Code.Asks (harmful : Request → Bool) (genuine : Request → Prop)
    (code' : Code (σ × List Request) Event Payload α)
    (code : Code σ Event Payload α) (world : σ)
    (post : α → List Request → List Event → Prop) : Prop :=
  ∀ past, ∃ exit last requests events,
    code' (world, past) = ⟨exit, (last, past ++ requests), events⟩ ∧
      code world = ⟨exit, last, events⟩ ∧
      (∀ request ∈ requests, genuine request) ∧
      Answered harmful post requests events exit

/-- The panic that an unwind boundary caught. -/
def caughtPanic : Except Payload Unit → Option Payload
  | .ok _ => none
  | .error payload => some payload

end Definitions

section Rules

variable {σ Request Event Payload α β ι : Type}
variable {harmful : Request → Bool} {genuine : Request → Prop}
variable {code' : Code (σ × List Request) Event Payload α}
variable {code : Code σ Event Payload α} {world : σ}
variable {post : α → List Request → List Event → Prop}

namespace Code

/-- The whole of a run: the plain code ends in the same way. -/
theorem Asks.run (asks : Asks harmful genuine code' code world post) :
    (∀ request ∈ code'.requests world, genuine request) ∧
      Answered harmful post (code'.requests world) (code world).events
        (code world).exit := by
  obtain ⟨exit, last, requests, events, ran', ran, answered⟩ := asks []
  rw [Code.requests, ran', ran]
  exact answered

private theorem asks_of_run
    (last : σ) (requests : List Request) {value : α} {events : List Event}
    (ran' : ∀ past, code' (world, past) =
      ⟨.returned value, (last, past ++ requests), events⟩)
    (ran : code world = ⟨.returned value, last, events⟩)
    (answers : ∀ request ∈ requests, genuine request)
    (harmless : ∀ request ∈ requests, harmful request = false)
    (met : post value requests events) :
    Asks harmful genuine code' code world post :=
  fun past => ⟨_, last, requests, events, ran' past, ran, answers,
    .returned harmless met⟩

theorem asks_pure
    {value : α} (met : post value [] []) :
    Asks harmful genuine
      (Pure.pure value : Code (σ × List Request) Event Payload α)
      (Pure.pure value : Code σ Event Payload α) world post := by
  refine asks_of_run world [] ?_ rfl nofun nofun met
  intro past
  rw [List.append_nil]
  rfl

theorem Asks.weaken
    {post' : α → List Request → List Event → Prop}
    (asks : Asks harmful genuine code' code world post)
    (implies : ∀ value requests events,
      (∀ request ∈ requests, genuine request) →
        post value requests events → post' value requests events) :
    Asks harmful genuine code' code world post' := by
  intro past
  obtain ⟨exit, last, requests, events, ran', ran, answers, answered⟩ :=
    asks past
  refine ⟨exit, last, requests, events, ran', ran, answers, ?_⟩
  cases answered with
  | returned harmless met =>
      exact .returned harmless (implies _ _ _ answers met)
  | unwound harmed => exact .unwound harmed
  | aborted harmed => exact .aborted harmed

theorem Asks.bind
    {next' : α → Code (σ × List Request) Event Payload β}
    {next : α → Code σ Event Payload β}
    {post' : β → List Request → List Event → Prop}
    (asks : Asks harmful genuine code' code world post)
    (continues : ∀ value last requests events,
      post value requests events →
        Asks harmful genuine (next' value) (next value) last
          fun result more log =>
            post' result (requests ++ more) (events ++ log)) :
    Asks harmful genuine (code' >>= next') (code >>= next) world post' := by
  intro past
  obtain ⟨exit, middle, requests, events, ran', ran, answers, answered⟩ :=
    asks past
  cases answered with
  | @returned value harmless met =>
      obtain ⟨exit, last, more, log, goesOn', goesOn, answers', answered⟩ :=
        continues value middle requests events met (past ++ requests)
      refine ⟨exit, last, requests ++ more, events ++ log, ?_, ?_,
        List.forall_mem_append.mpr ⟨answers, answers'⟩, ?_⟩
      · rw [bind_of_returned ran', goesOn', List.append_assoc]
        rfl
      · rw [bind_of_returned ran, goesOn]
        rfl
      · have later : (∃ request ∈ more, harmful request = true) →
            ∃ request ∈ requests ++ more, harmful request = true := by
          rintro ⟨request, member, harms⟩
          exact ⟨request, List.mem_append_right _ member, harms⟩
        cases answered with
        | returned harmless' met =>
            exact .returned
              (List.forall_mem_append.mpr ⟨harmless, harmless'⟩) met
        | unwound harmed => exact .unwound (later harmed)
        | aborted harmed => exact .aborted (later harmed)
  | @unwound payload harmed =>
      refine ⟨.unwound payload, middle, requests, events, ?_, ?_, answers,
        .unwound harmed⟩
      · change Code.bind code' next' _ = _
        simp only [Code.bind, ran']
      · change Code.bind code next _ = _
        simp only [Code.bind, ran]
  | aborted harmed =>
      refine ⟨.aborted, middle, requests, events, ?_, ?_, answers,
        .aborted harmed⟩
      · change Code.bind code' next' _ = _
        simp only [Code.bind, ran']
      · change Code.bind code next _ = _
        simp only [Code.bind, ran]

theorem Asks.bindPure
    (result : α → β) {post' : β → List Request → List Event → Prop}
    (asks : Asks harmful genuine code' code world post)
    (implies : ∀ value requests events, post value requests events →
      post' (result value) requests events) :
    Asks harmful genuine (code' >>= fun value => return result value)
      (code >>= fun value => return result value) world post' := by
  apply asks.bind
  intro value last requests events met
  refine asks_pure ?_
  rw [List.append_nil, List.append_nil]
  exact implies value requests events met

/-- Code that looks at the world, but not at the record. -/
theorem asks_get
    {next' : σ × List Request → Code (σ × List Request) Event Payload α}
    {next : σ → Code σ Event Payload α}
    (asks : ∀ past, Asks harmful genuine (next' (world, past)) (next world)
      world post) :
    Asks harmful genuine (get >>= next') (get >>= next) world post :=
  fun past => asks past past

private theorem asks_set (change : σ → σ) :
    Asks harmful genuine
      (set (Prod.map change id) :
        Code (σ × List Request) Event Payload Unit)
      (set change : Code σ Event Payload Unit) world
      fun _ requests events => requests = [] ∧ events = [] := by
  refine asks_of_run (change world) [] ?_ rfl nofun nofun ⟨rfl, rfl⟩
  intro past
  rw [List.append_nil]
  rfl

theorem asks_log (event : Event) :
    Asks harmful genuine
      (log event : Code (σ × List Request) Event Payload Unit)
      (log event : Code σ Event Payload Unit) world
      fun _ requests events => requests = [] ∧ events = [event] := by
  refine asks_of_run world [] ?_ rfl nofun nofun ⟨rfl, rfl⟩
  intro past
  rw [List.append_nil]
  rfl

/-- A destructor, whose panic is harmful. -/
theorem asks_destroy
    {request : Option Payload → Request} {outside : Outside σ Payload}
    (real : ∀ world, genuine (request (outside world).1))
    (harm : ∀ panic, harmful (request panic) = panic.isSome) :
    Asks harmful genuine
      (call (record request outside) :
        Code (σ × List Request) Event Payload Unit)
      (call outside : Code σ Event Payload Unit) world
      fun _ requests events => requests = [request none] ∧ events = [] := by
  intro past
  have isReal := real world
  unfold call record
  generalize outside world = answer at isReal ⊢
  obtain ⟨panic, last⟩ := answer
  have answers := List.forall_mem_singleton.mpr isReal
  cases panic with
  | none =>
      exact ⟨_, last, [request none], [], rfl, rfl, answers,
        .returned (by simp [harm]) ⟨rfl, rfl⟩⟩
  | some payload =>
      exact ⟨_, last, [request (some payload)], [], rfl, rfl, answers,
        .unwound (by simp [harm])⟩

/-- A call inside an unwind boundary, whose panic is an answer like any
other. -/
theorem asks_attempt
    {request : Except Payload α → Request}
    {outside : σ → Except Payload α × σ}
    (real : ∀ world, genuine (request (outside world).1))
    (harmless : ∀ answer, harmful (request answer) = false) :
    Asks harmful genuine
      (catchUnwind (callFor (record request outside) :
        Code (σ × List Request) Event Payload α))
      (catchUnwind (callFor outside : Code σ Event Payload α)) world
      fun answer requests events =>
        requests = [request answer] ∧ events = [] := by
  intro past
  have isReal := real world
  unfold catchUnwind callFor record
  generalize outside world = answer at isReal ⊢
  obtain ⟨answer, last⟩ := answer
  have answers := List.forall_mem_singleton.mpr isReal
  cases answer with
  | ok value =>
      exact ⟨_, last, [request (.ok value)], [], rfl, rfl, answers,
        .returned (by simp [harmless]) ⟨rfl, rfl⟩⟩
  | error payload =>
      exact ⟨_, last, [request (.error payload)], [], rfl, rfl, answers,
        .returned (by simp [harmless]) ⟨rfl, rfl⟩⟩

/-- The same for a call that gives no value. -/
theorem asks_invoke
    {request : Option Payload → Request} {outside : Outside σ Payload}
    (real : ∀ world, genuine (request (outside world).1))
    (harmless : ∀ panic, harmful (request panic) = false) :
    Asks harmful genuine
      (catchUnwind (call (record request outside) :
        Code (σ × List Request) Event Payload Unit))
      (catchUnwind (call outside : Code σ Event Payload Unit)) world
      fun outcome requests events =>
        requests = [request (caughtPanic outcome)] ∧ events = [] := by
  intro past
  have isReal := real world
  unfold catchUnwind call record
  generalize outside world = answer at isReal ⊢
  obtain ⟨panic, last⟩ := answer
  have answers := List.forall_mem_singleton.mpr isReal
  cases panic with
  | none =>
      exact ⟨_, last, [request none], [], rfl, rfl, answers,
        .returned (by simp [harmless]) ⟨rfl, rfl⟩⟩
  | some payload =>
      exact ⟨_, last, [request (some payload)], [], rfl, rfl, answers,
        .returned (by simp [harmless]) ⟨rfl, rfl⟩⟩

/-- The destructors of a scope run only after something harmful. -/
theorem Asks.onUnwind
    {cleanup' : Code (σ × List Request) Event Payload Unit}
    {cleanup : Code σ Event Payload Unit}
    {cleaned : Unit → List Request → List Event → Prop}
    (asks : Asks harmful genuine code' code world post)
    (cleans : ∀ last, Asks harmful genuine cleanup' cleanup last cleaned) :
    Asks harmful genuine (code'.onUnwind cleanup') (code.onUnwind cleanup)
      world post := by
  intro past
  obtain ⟨exit, middle, requests, events, ran', ran, answers, answered⟩ :=
    asks past
  simp only [Code.onUnwind, ran', ran]
  cases answered with
  | returned harmless met =>
      exact ⟨_, middle, requests, events, rfl, rfl, answers,
        .returned harmless met⟩
  | unwound harmed =>
      obtain ⟨exit, last, more, log, cleaned', cleaned, answers',
        answered⟩ := cleans middle (past ++ requests)
      have both := List.forall_mem_append.mpr ⟨answers, answers'⟩
      have still : ∃ request ∈ requests ++ more, harmful request = true := by
        obtain ⟨request, member, harms⟩ := harmed
        exact ⟨request, List.mem_append_left _ member, harms⟩
      simp only [cleaned', cleaned, List.append_assoc]
      cases answered with
      | returned =>
          exact ⟨_, last, requests ++ more, events ++ log, rfl, rfl, both,
            .unwound still⟩
      | unwound =>
          exact ⟨_, last, requests ++ more, events ++ log, rfl, rfl, both,
            .aborted still⟩
      | aborted =>
          exact ⟨_, last, requests ++ more, events ++ log, rfl, rfl, both,
            .aborted still⟩
  | aborted harmed =>
      exact ⟨_, middle, requests, events, rfl, rfl, answers,
        .aborted harmed⟩

theorem Asks.scope
    {cleanup' : Code (σ × List Request) Event Payload Unit}
    {cleanup : Code σ Event Payload Unit}
    {cleaned : Unit → List Request → List Event → Prop}
    {post' : α → List Request → List Event → Prop}
    (asks : Asks harmful genuine code' code world post)
    (cleans : ∀ last, Asks harmful genuine cleanup' cleanup last cleaned)
    (implies : ∀ value requests events more log,
      post value requests events → cleaned () more log →
        post' value (requests ++ more) (events ++ log)) :
    Asks harmful genuine (code'.scope cleanup') (code.scope cleanup) world
      post' := by
  apply (asks.onUnwind cleans).bind
  intro value last requests events met
  apply (cleans last).bindPure
  intro _ more log cleaned
  exact implies value requests events more log met cleaned

/-- Drop of a vector. -/
theorem Asks.dropAll
    {destroy' : ι → Code (σ × List Request) Event Payload Unit}
    {destroy : ι → Code σ Event Payload Unit} {asked : ι → List Request}
    (items : List ι)
    (asks : ∀ item ∈ items, ∀ last,
      Asks harmful genuine (destroy' item) (destroy item) last
        fun _ requests events => requests = asked item ∧ events = [])
    (world : σ) :
    Asks harmful genuine (Code.dropAll destroy' items)
      (Code.dropAll destroy items) world fun _ requests events =>
        requests = items.flatMap asked ∧ events = [] := by
  induction items generalizing world with
  | nil => exact asks_pure ⟨rfl, rfl⟩
  | cons item rest inductionHypothesis =>
      obtain ⟨first, others⟩ := List.forall_mem_cons.mp asks
      have dropped := inductionHypothesis others
      apply ((first world).onUnwind dropped).bind
      rintro _ last _ _ ⟨rfl, rfl⟩
      apply (dropped last).weaken
      rintro _ _ _ _ ⟨rfl, rfl⟩
      exact ⟨rfl, rfl⟩

end Code

end Rules

section Futures

variable {S σ Request Event Payload : Type}
variable {harmful : Request → Bool} {genuine : Request → Prop}

theorem Code.Asks.holding
    {cleanup' : Code (σ × List Request) Event Payload Unit}
    {cleanup : Code σ Event Payload Unit}
    {body' : Code (σ × List Request) Event Payload (Option S)}
    {body : Code σ Event Payload (Option S)} {world : σ}
    {post post' : Option S → List Request → List Event → Prop}
    {cleaned : Unit → List Request → List Event → Prop}
    (asks : Asks harmful genuine body' body world post)
    (cleans : ∀ last, Asks harmful genuine cleanup' cleanup last cleaned)
    (ready : ∀ requests events more log, post none requests events →
      cleaned () more log → post' none (requests ++ more) (events ++ log))
    (pending : ∀ state requests events, post (some state) requests events →
      post' (some state) requests events) :
    Asks harmful genuine (holding cleanup' body') (holding cleanup body)
      world post' := by
  apply (asks.onUnwind cleans).bind
  intro value last requests events met
  cases value with
  | none =>
      apply (cleans last).bindPure
      intro _ more log cleaned
      exact ready requests events more log met cleaned
  | some state =>
      refine asks_pure ?_
      rw [List.append_nil, List.append_nil]
      exact pending state requests events met

/-- A future that is polled while the world changes between its polls. -/
def interrupted (between : Nat → σ → σ)
    (poll : S → Code σ Event Payload (Option S)) (state : Nat × S) :
    Code σ Event Payload (Option (Nat × S)) := do
  match ← poll state.2 with
  | none => return none
  | some later =>
      Code.set (between state.1)
      return some (state.1 + 1, later)

theorem Code.Asks.interrupted
    {poll' : S → Code (σ × List Request) Event Payload (Option S)}
    {poll : S → Code σ Event Payload (Option S)} {state : S} {world : σ}
    {post : Option S → List Request → List Event → Prop}
    (asks : Asks harmful genuine (poll' state) (poll state) world post)
    (between : Nat → σ → σ) (number : Nat) :
    Asks harmful genuine
      (interrupted (fun number => Prod.map (between number) id) poll'
        (number, state))
      (interrupted between poll (number, state)) world
      fun next => post (next.map Prod.snd) := by
  apply asks.bind
  intro next last requests events met
  cases next with
  | none =>
      refine asks_pure ?_
      rw [List.append_nil, List.append_nil]
      exact met
  | some later =>
      apply (asks_set (between number)).bindPure
      rintro _ _ _ ⟨rfl, rfl⟩
      rw [List.append_nil, List.append_nil]
      exact met

/-- The polls of a future until it is ready or no poll is left. -/
inductive Driven
    (polls : S → Option S → List Request → List Event → Prop) :
    Nat → S → Option Nat → List Request → List Event → Prop where
  | exhausted (state : S) : Driven polls 0 state none [] []
  | ready {fuel : Nat} {state : S} {requests : List Request}
      {events : List Event} (polled : polls state none requests events) :
      Driven polls (fuel + 1) state (some fuel) requests events
  | pending {fuel : Nat} {state later : S} {result : Option Nat}
      {requests more : List Request} {events log : List Event}
      (polled : polls state (some later) requests events)
      (rest : Driven polls fuel later result more log) :
      Driven polls (fuel + 1) state result (requests ++ more) (events ++ log)

/-- What every poll asks is asked again and again.  `Inv` is what a state and
the world promise before a poll. -/
theorem Code.asks_drive
    {poll' : S → Code (σ × List Request) Event Payload (Option S)}
    {poll : S → Code σ Event Payload (Option S)} {Inv : S → σ → Prop}
    {polls : S → Option S → List Request → List Event → Prop}
    (polled : ∀ state world, Inv state world →
      Asks harmful genuine (poll' state) (poll state) world
        fun next requests events => polls state next requests events ∧
          ∀ later, next = some later → ∀ world, Inv later world)
    (fuel : Nat) (state : S) (world : σ) (holds : Inv state world) :
    Asks harmful genuine (drive poll' fuel state) (drive poll fuel state)
      world (Driven polls fuel state) := by
  induction fuel generalizing state world with
  | zero => exact asks_pure (.exhausted state)
  | succ fuel inductionHypothesis =>
      apply (polled state world holds).bind
      rintro next last requests events ⟨met, preserved⟩
      cases next with
      | none =>
          refine asks_pure ?_
          rw [List.append_nil, List.append_nil]
          exact .ready met
      | some later =>
          apply (inductionHypothesis later last
            (preserved later rfl last)).weaken
          intro result more log _ rest
          exact .pending met rest

end Futures

end RegistryIo.Unwinding
