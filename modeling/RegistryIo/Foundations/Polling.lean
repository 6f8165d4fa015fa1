import RegistryIo.Foundations.Unwinding

/-!
# Futures that are polled

A future is a state with a poll function: a poll returns `none` when the
future is ready and the next state when it is pending.  `drive` polls it until
it is ready.  `holding` is the body of an async block that owns values: their
destructors run when the body ends and when it unwinds.

`Code.Ensures` is the rule for reasoning about scripted code: under the
condition `harmless` the code returns with a postcondition about its value and
its log, and otherwise it does not return.
-/

namespace RegistryIo.Unwinding

/-- The code returns with the postcondition if nothing harmful happens, and
does not return otherwise. -/
structure Code.Ensures {σ Event Payload α : Type}
    (code : Code σ Event Payload α) (world : σ) (harmless : Prop)
    (post : α → σ → List Event → Prop) : Prop where
  returns : harmless → ∃ value world' events,
    code world = ⟨.returned value, world', events⟩ ∧
      post value world' events
  escapes : ¬ harmless → ∀ value, (code world).exit ≠ .returned value

section Ensures

variable {σ Event Payload α β : Type}
variable {code : Code σ Event Payload α} {world : σ}
variable {harmless later : Prop} {post : α → σ → List Event → Prop}

namespace Code

theorem Meets.ensures
    {intended : Intended σ Event α} (meets : Meets code intended)
    (world : σ) :
    Ensures code world ((intended world).harmless = true)
      fun value world' events => value = (intended world).value ∧
        world' = (intended world).world ∧
        events = (intended world).events := by
  constructor
  · intro harmless
    exact ⟨_, _, _, meets.returns world harmless, rfl, rfl, rfl⟩
  · intro harmful
    exact meets.escapes world ((Bool.not_eq_true _).mp harmful)

theorem Ensures.weaken
    {harmless' : Prop} {post' : α → σ → List Event → Prop}
    (ensures : Ensures code world harmless post)
    (same : harmless' ↔ harmless)
    (implies : ∀ value world' events,
      post value world' events → post' value world' events) :
    Ensures code world harmless' post' := by
  constructor
  · intro holds
    obtain ⟨value, world', events, run, met⟩ :=
      ensures.returns (same.mp holds)
    exact ⟨value, world', events, run, implies _ _ _ met⟩
  · intro fails
    exact ensures.escapes fun holds => fails (same.mpr holds)

theorem Ensures.congr
    {harmless' : Prop} (same : harmless' ↔ harmless)
    (ensures : Ensures code world harmless post) :
    Ensures code world harmless' post :=
  ensures.weaken same fun _ _ _ met => met

theorem ensures_of_run
    {value : α} {world' : σ} {events : List Event}
    (holds : harmless)
    (run : code world = ⟨.returned value, world', events⟩)
    (met : post value world' events) :
    Ensures code world harmless post where
  returns := fun _ => ⟨value, world', events, run, met⟩
  escapes := fun fails => absurd holds fails

/-- Code that runs like other code from another world on. -/
theorem Ensures.after
    {other : Code σ Event Payload α} {world' : σ} {events : List Event}
    (same : code world = (other world').after events)
    (ensures : Ensures other world' harmless
      fun value last more => post value last (events ++ more)) :
    Ensures code world harmless post := by
  constructor
  · intro holds
    obtain ⟨value, last, more, run, met⟩ := ensures.returns holds
    refine ⟨value, last, events ++ more, ?_, met⟩
    rw [same, run]
    rfl
  · intro fails value
    rw [same]
    exact ensures.escapes fails value

/-- Code that goes on as `rest` after `code`, and does not return when `code`
does not. -/
private theorem Ensures.andThen
    {whole : Code σ Event Payload β} {rest : α → Code σ Event Payload β}
    {post' : β → σ → List Event → Prop}
    (ensures : Ensures code world harmless post)
    (follows : ∀ value world' events,
      code world = ⟨.returned value, world', events⟩ →
        whole world = (rest value world').after events)
    (breaks : (∀ value, (code world).exit ≠ .returned value) →
      ∀ value, (whole world).exit ≠ .returned value)
    (continues : ∀ value world' events, post value world' events →
      Ensures (rest value) world' later
        fun result last more => post' result last (events ++ more)) :
    Ensures whole world (harmless ∧ later) post' := by
  by_cases first : harmless
  · obtain ⟨value, world', events, run, met⟩ := ensures.returns first
    have goesOn := Ensures.after (follows value world' events run)
      (continues value world' events met)
    exact goesOn.congr (and_iff_right first)
  · refine ⟨fun holds => absurd holds.1 first, fun _ => ?_⟩
    exact breaks (ensures.escapes first)

theorem Ensures.bind
    {next : α → Code σ Event Payload β}
    {post' : β → σ → List Event → Prop}
    (ensures : Ensures code world harmless post)
    (continues : ∀ value world' events, post value world' events →
      Ensures (next value) world' later
        fun result last more => post' result last (events ++ more)) :
    Ensures (code >>= next) world (harmless ∧ later) post' :=
  ensures.andThen (fun _ _ _ => bind_of_returned) exit_bind_ne_returned
    continues

theorem Ensures.bindBind
    {γ : Type} {next : α → Code σ Event Payload β}
    {last : β → Code σ Event Payload γ}
    {post' : γ → σ → List Event → Prop}
    (ensures : Ensures code world harmless post)
    (continues : ∀ value world' events, post value world' events →
      Ensures (next value >>= last) world' later
        fun result final more => post' result final (events ++ more)) :
    Ensures (code >>= next >>= last) world (harmless ∧ later) post' :=
  ensures.andThen (fun _ _ _ run => bind_after (bind_of_returned run))
    (fun escaped => exit_bind_ne_returned (exit_bind_ne_returned escaped))
    continues

theorem Ensures.bindPure
    (result : α → β) {post' : β → σ → List Event → Prop}
    (ensures : Ensures code world harmless post)
    (implies : ∀ value world' events, post value world' events →
      post' (result value) world' events) :
    Ensures (code >>= fun value => return result value) world harmless
      post' := by
  have both : Ensures (code >>= fun value => return result value) world
      (harmless ∧ True) post' := by
    apply ensures.bind
    intro value world' events met
    refine ensures_of_run trivial rfl ?_
    rw [List.append_nil]
    exact implies value world' events met
  exact both.congr (by simp)

theorem Ensures.onUnwind
    {cleanup : Code σ Event Payload Unit}
    (ensures : Ensures code world harmless post) :
    Ensures (code.onUnwind cleanup) world harmless post := by
  constructor
  · intro holds
    obtain ⟨value, world', events, run, met⟩ := ensures.returns holds
    exact ⟨value, world', events, onUnwind_of_returned run, met⟩
  · intro fails
    exact exit_onUnwind_ne_returned (ensures.escapes fails)

end Code

end Ensures

section Futures

variable {S σ Event Payload α : Type}

/-- The body of an async block while it owns values that `cleanup` drops. -/
def holding (cleanup : Code σ Event Payload Unit)
    (body : Code σ Event Payload (Option S)) :
    Code σ Event Payload (Option S) := do
  match ← body.onUnwind cleanup with
  | none =>
      cleanup
      return none
  | some state => return some state

/-- Poll a future until it is ready, at most `fuel` times.  The result is the
number of polls that were left when it got ready. -/
def drive (poll : S → Code σ Event Payload (Option S)) :
    Nat → S → Code σ Event Payload (Option Nat)
  | 0, _ => return none
  | fuel + 1, state => do
      match ← poll state with
      | none => return some fuel
      | some next => drive poll fuel next

/-- With fewer polls than it needs, a future stays pending. -/
theorem drive_fewer
    {poll : S → Code σ Event Payload (Option S)} {fuel left : Nat}
    {state : S} {world : σ}
    (ready : (drive poll fuel state world).exit = .returned (some left))
    {fewer : Nat} (less : fewer + left < fuel) :
    (drive poll fewer state world).exit = .returned none := by
  induction fuel generalizing state world fewer with
  | zero => cases ready
  | succ fuel inductionHypothesis =>
      cases fewer with
      | zero => rfl
      | succ fewer =>
          change (Code.bind (poll state) _ world).exit = _ at ready ⊢
          simp only [Code.bind] at ready ⊢
          cases polled : (poll state world).exit with
          | returned result =>
              simp only [polled] at ready ⊢
              cases result with
              | none =>
                  cases ready
                  omega
              | some next => exact inductionHypothesis ready (by omega)
          | unwound payload =>
              simp only [polled] at ready
              cases ready
          | aborted =>
              simp only [polled] at ready
              cases ready

variable (cleanup : Code σ Event Payload Unit)
variable (poll : S → Code σ Event Payload (Option S)) (fuel : Nat)

/-- The rest of a drive when the current poll still has to run `body`. -/
def driveFrom (body : Code σ Event Payload (Option S)) :
    Code σ Event Payload (Option Nat) := do
  match ← holding cleanup body with
  | none => return some fuel
  | some next => drive poll fuel next

variable {cleanup poll fuel}

/-- The poll ends ready, and the values that the future owns are dropped. -/
theorem Code.Ensures.ready
    {world : σ} {harmless : Prop} {post : Unit → σ → List Event → Prop}
    {post' : Option Nat → σ → List Event → Prop}
    (ensures : Ensures cleanup world harmless post)
    (implies : ∀ world' events, post () world' events →
      post' (some fuel) world' events) :
    Ensures (driveFrom cleanup poll fuel (return none)) world harmless
      post' := by
  have ends : ∀ value world' events, post value world' events →
      Ensures (return some fuel : Code σ Event Payload (Option Nat)) world'
        True fun result last more => post' result last (events ++ more) := by
    intro value world' events met
    refine Code.ensures_of_run trivial rfl ?_
    rw [List.append_nil]
    exact implies world' events met
  have follows : ∀ value world' events,
      cleanup world = ⟨.returned value, world', events⟩ →
        driveFrom cleanup poll fuel (return none) world =
          ((return some fuel : Code σ Event Payload (Option Nat)) world').after
            events := by
    intro value world' events run
    exact Code.bind_after (Code.bind_of_returned run)
  have breaks : (∀ value, (cleanup world).exit ≠ .returned value) →
      ∀ value, (driveFrom cleanup poll fuel (return none) world).exit ≠
        .returned value := by
    intro escaped
    have inner : ∀ state,
        ((cleanup >>= fun _ => (return none : Code σ Event Payload
          (Option S))) world).exit ≠ .returned state :=
      Code.exit_bind_ne_returned escaped
    exact Code.exit_bind_ne_returned inner
  exact (ensures.andThen follows breaks ends).congr (by simp)

theorem driveFrom_bind_of_returned
    {code : Code σ Event Payload α}
    {next : α → Code σ Event Payload (Option S)} {world world' : σ}
    {value : α} {events : List Event}
    (returned : code world = ⟨.returned value, world', events⟩) :
    driveFrom cleanup poll fuel (code >>= next) world =
      (driveFrom cleanup poll fuel (next value) world').after events :=
  Code.bind_after (Code.bind_after (Code.onUnwind_after
    (Code.bind_of_returned returned)))

private theorem exit_driveFrom_ne_returned
    {code : Code σ Event Payload α}
    {next : α → Code σ Event Payload (Option S)} {world : σ}
    (escaped : ∀ value, (code world).exit ≠ .returned value)
    (value : Option Nat) :
    (driveFrom cleanup poll fuel (code >>= next) world).exit ≠
      .returned value := by
  refine Code.exit_bind_ne_returned ?_ value
  refine Code.exit_bind_ne_returned ?_
  exact Code.exit_onUnwind_ne_returned (Code.exit_bind_ne_returned escaped)

/-- A poll runs `code` first and goes on from there. -/
theorem Code.Ensures.driveFrom
    {code : Code σ Event Payload α}
    {next : α → Code σ Event Payload (Option S)} {world : σ}
    {harmless later : Prop} {post : α → σ → List Event → Prop}
    {post' : Option Nat → σ → List Event → Prop}
    (ensures : Ensures code world harmless post)
    (continues : ∀ value world' events, post value world' events →
      Ensures (driveFrom cleanup poll fuel (next value)) world' later
        fun result last more => post' result last (events ++ more)) :
    Ensures (driveFrom cleanup poll fuel (code >>= next)) world
      (harmless ∧ later) post' :=
  ensures.andThen (fun _ _ _ => driveFrom_bind_of_returned)
    exit_driveFrom_ne_returned continues

end Futures

end RegistryIo.Unwinding
