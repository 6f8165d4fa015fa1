import Mathlib.Data.List.Basic

/-!
# Code that can unwind

A piece of code acts on a world and logs events.  It ends in one of three
ways: it returns, it unwinds with a panic payload, or it aborts, which is what
a second panic during unwinding does.  `catchUnwind` is an unwind boundary,
`onUnwind` runs the destructors of a scope that unwinds.

`Intended` describes what the same code is meant to do when the panics of
destructors are contained.  `Code.Meets` relates the two: as long as no
destructor panics the code does what is intended, and otherwise it does not
return.
-/

namespace RegistryIo.Unwinding

/-- How code ends. -/
inductive Exit (Payload α : Type) where
  | returned (value : α)
  | unwound (payload : Payload)
  | aborted
  deriving DecidableEq, Repr

/-- The end of a run, the world it leaves and what it logged. -/
structure Run (σ Event Payload α : Type) where
  exit : Exit Payload α
  world : σ
  events : List Event
  deriving DecidableEq, Repr

/-- The run of code that has logged `events` before. -/
def Run.after {σ Event Payload α : Type} (run : Run σ Event Payload α)
    (events : List Event) : Run σ Event Payload α :=
  ⟨run.exit, run.world, events ++ run.events⟩

def Code (σ Event Payload α : Type) : Type :=
  σ → Run σ Event Payload α

/-- A call of code from outside: it returns, or it panics with a payload. -/
abbrev Outside (σ Payload : Type) : Type :=
  σ → Option Payload × σ

section Definitions

variable {σ Event Payload α β : Type}

namespace Code

def pure (value : α) : Code σ Event Payload α :=
  fun world => ⟨.returned value, world, []⟩

def bind (code : Code σ Event Payload α)
    (next : α → Code σ Event Payload β) : Code σ Event Payload β :=
  fun world =>
    let first := code world
    match first.exit with
    | .returned value =>
        let second := next value first.world
        ⟨second.exit, second.world, first.events ++ second.events⟩
    | .unwound payload => ⟨.unwound payload, first.world, first.events⟩
    | .aborted => ⟨.aborted, first.world, first.events⟩

instance : Monad (Code σ Event Payload) where
  pure := Code.pure
  bind := Code.bind

/-- The present world. -/
def get : Code σ Event Payload σ :=
  fun world => ⟨.returned world, world, []⟩

def set (change : σ → σ) : Code σ Event Payload Unit :=
  fun world => ⟨.returned (), change world, []⟩

def log (event : Event) : Code σ Event Payload Unit :=
  fun world => ⟨.returned (), world, [event]⟩

/-- Call code from outside and let its panic through. -/
def call (outside : Outside σ Payload) : Code σ Event Payload Unit :=
  fun world =>
    match outside world with
    | (none, world') => ⟨.returned (), world', []⟩
    | (some payload, world') => ⟨.unwound payload, world', []⟩

/-- Call code from outside that gives a value. -/
def callFor (outside : σ → Except Payload α × σ) :
    Code σ Event Payload α :=
  fun world =>
    match outside world with
    | (.ok value, world') => ⟨.returned value, world', []⟩
    | (.error payload, world') => ⟨.unwound payload, world', []⟩

/-- `catch_unwind`. -/
def catchUnwind (code : Code σ Event Payload α) :
    Code σ Event Payload (Except Payload α) :=
  fun world =>
    let run := code world
    match run.exit with
    | .returned value => ⟨.returned (.ok value), run.world, run.events⟩
    | .unwound payload => ⟨.returned (.error payload), run.world, run.events⟩
    | .aborted => ⟨.aborted, run.world, run.events⟩

/-- The destructors of a scope that is left by a panic.  A panic of theirs
aborts. -/
def onUnwind (code : Code σ Event Payload α)
    (cleanup : Code σ Event Payload Unit) : Code σ Event Payload α :=
  fun world =>
    let run := code world
    match run.exit with
    | .returned value => ⟨.returned value, run.world, run.events⟩
    | .unwound payload =>
        let last := cleanup run.world
        match last.exit with
        | .returned _ =>
            ⟨.unwound payload, last.world, run.events ++ last.events⟩
        | _ => ⟨.aborted, last.world, run.events ++ last.events⟩
    | .aborted => ⟨.aborted, run.world, run.events⟩

/-- A scope with a local variable whose destructor runs on every way out. -/
def scope (code : Code σ Event Payload α)
    (cleanup : Code σ Event Payload Unit) : Code σ Event Payload α := do
  let value ← code.onUnwind cleanup
  cleanup
  return value

def forEach (body : β → Code σ Event Payload Unit) :
    List β → Code σ Event Payload Unit
  | [] => Code.pure ()
  | item :: rest => do
      body item
      forEach body rest

/-- Drop of a vector: when a destructor panics, the rest is still dropped. -/
def dropAll (destroy : β → Code σ Event Payload Unit) :
    List β → Code σ Event Payload Unit
  | [] => Code.pure ()
  | item :: rest => do
      (destroy item).onUnwind (dropAll destroy rest)
      dropAll destroy rest

end Code

/-- What code is meant to do.  `harmless` says that no destructor that fell
due on the way panicked. -/
structure Effect (σ Event α : Type) where
  value : α
  world : σ
  events : List Event
  harmless : Bool

def Intended (σ Event α : Type) : Type :=
  σ → Effect σ Event α

namespace Intended

def pure (value : α) : Intended σ Event α :=
  fun world => ⟨value, world, [], true⟩

def bind (first : Intended σ Event α) (next : α → Intended σ Event β) :
    Intended σ Event β :=
  fun world =>
    let before := first world
    let after := next before.value before.world
    ⟨after.value, after.world, before.events ++ after.events,
      before.harmless && after.harmless⟩

instance : Monad (Intended σ Event) where
  pure := Intended.pure
  bind := Intended.bind

def get : Intended σ Event σ :=
  fun world => ⟨world, world, [], true⟩

def set (change : σ → σ) : Intended σ Event Unit :=
  fun world => ⟨(), change world, [], true⟩

def log (event : Event) : Intended σ Event Unit :=
  fun world => ⟨(), world, [event], true⟩

/-- A call from outside whose panic is caught. -/
def attempt (outside : Outside σ Payload) :
    Intended σ Event (Except Payload Unit) :=
  fun world =>
    match outside world with
    | (none, world') => ⟨.ok (), world', [], true⟩
    | (some payload, world') => ⟨.error payload, world', [], true⟩

/-- A destructor, which should not panic. -/
def destroy (outside : Outside σ Payload) : Intended σ Event Unit :=
  fun world => ⟨(), (outside world).2, [], (outside world).1.isNone⟩

/-- A scope with a local variable whose destructor runs at its end. -/
def scope (intended : Intended σ Event α)
    (cleaned : Intended σ Event Unit) : Intended σ Event α := do
  let value ← intended
  cleaned
  return value

def forEach (body : β → Intended σ Event Unit) :
    List β → Intended σ Event Unit
  | [] => Intended.pure ()
  | item :: rest => do
      body item
      forEach body rest

@[simp]
theorem value_get (world : σ) :
    ((get : Intended σ Event σ) world).value = world :=
  rfl

@[simp]
theorem world_get (world : σ) :
    ((get : Intended σ Event σ) world).world = world :=
  rfl

/-! What a computation logs is logged by its parts, in order. -/

@[simp]
theorem events_bind (first : Intended σ Event α)
    (next : α → Intended σ Event β) (world : σ) :
    ((first >>= next) world).events = (first world).events ++
      (next (first world).value (first world).world).events :=
  rfl

@[simp]
theorem events_pure (value : α) (world : σ) :
    ((Pure.pure value : Intended σ Event α) world).events = [] :=
  rfl

@[simp]
theorem events_get (world : σ) :
    ((get : Intended σ Event σ) world).events = [] :=
  rfl

@[simp]
theorem events_set (change : σ → σ) (world : σ) :
    ((set change : Intended σ Event Unit) world).events = [] :=
  rfl

@[simp]
theorem events_log (event : Event) (world : σ) :
    (log event world).events = [event] :=
  rfl

@[simp]
theorem events_attempt (outside : Outside σ Payload) (world : σ) :
    ((attempt outside : Intended σ Event _) world).events = [] := by
  unfold attempt
  split
  · rfl
  · rfl

@[simp]
theorem events_destroy (outside : Outside σ Payload) (world : σ) :
    ((destroy outside : Intended σ Event Unit) world).events = [] :=
  rfl

@[simp]
theorem events_scope (intended : Intended σ Event α)
    (cleaned : Intended σ Event Unit) (world : σ) :
    (intended.scope cleaned world).events = (intended world).events ++
      (cleaned (intended world).world).events := by
  simp [scope]

/-! A computation is harmless when its parts are. -/

@[simp]
theorem harmless_bind (first : Intended σ Event α)
    (next : α → Intended σ Event β) (world : σ) :
    ((first >>= next) world).harmless = ((first world).harmless &&
      (next (first world).value (first world).world).harmless) :=
  rfl

@[simp]
theorem harmless_pure (value : α) (world : σ) :
    ((Pure.pure value : Intended σ Event α) world).harmless = true :=
  rfl

@[simp]
theorem harmless_get (world : σ) :
    ((get : Intended σ Event σ) world).harmless = true :=
  rfl

@[simp]
theorem harmless_log (event : Event) (world : σ) :
    (log event world).harmless = true :=
  rfl

@[simp]
theorem harmless_attempt (outside : Outside σ Payload) (world : σ) :
    ((attempt outside : Intended σ Event _) world).harmless = true := by
  unfold attempt
  split
  · rfl
  · rfl

@[simp]
theorem harmless_destroy (outside : Outside σ Payload) (world : σ) :
    ((destroy outside : Intended σ Event Unit) world).harmless =
      (outside world).1.isNone :=
  rfl

@[simp]
theorem harmless_scope (intended : Intended σ Event α)
    (cleaned : Intended σ Event Unit) (world : σ) :
    (intended.scope cleaned world).harmless =
      ((intended world).harmless &&
        (cleaned (intended world).world).harmless) := by
  simp [scope]

theorem value_attempt (outside : Outside σ Payload) (world : σ) :
    ((attempt outside : Intended σ Event _) world).value =
      match (outside world).1 with
      | none => .ok ()
      | some payload => .error payload := by
  unfold attempt
  split
  · rename_i called
    rw [called]
  · rename_i called
    rw [called]

/-- A property of logs that composes holds of a loop if it holds of every
step. -/
theorem events_forEach
    {body : β → Intended σ Event Unit} {P : List Event → Prop}
    (empty : P []) (append : ∀ first second,
      P first → P second → P (first ++ second))
    (each : ∀ item world, P (body item world).events)
    (items : List β) (world : σ) :
    P (forEach body items world).events := by
  induction items generalizing world with
  | nil => exact empty
  | cons item rest inductionHypothesis =>
      exact append _ _ (each item world) (inductionHypothesis _)

/-- What a loop logs under a filter when each step logs what its item says. -/
theorem filterMap_forEach
    {γ : Type} {body : β → Intended σ Event Unit}
    {select : Event → Option γ} {expected : β → List γ}
    (logged : ∀ item world,
      (body item world).events.filterMap select = expected item)
    (items : List β) (world : σ) :
    (forEach body items world).events.filterMap select =
      items.flatMap expected := by
  induction items generalizing world with
  | nil => rfl
  | cons item rest inductionHypothesis =>
      simp [forEach, logged, inductionHypothesis]

end Intended

end Definitions

section Meets

variable {σ Event Payload α β : Type}

/-- The code does what is intended if no destructor panics, and does not
return otherwise. -/
structure Code.Meets (code : Code σ Event Payload α)
    (intended : Intended σ Event α) : Prop where
  returns : ∀ world, (intended world).harmless = true →
    code world = ⟨.returned (intended world).value, (intended world).world,
      (intended world).events⟩
  escapes : ∀ world, (intended world).harmless = false →
    ∀ value, (code world).exit ≠ .returned value

namespace Code

variable {code : Code σ Event Payload α} {intended : Intended σ Event α}

theorem bind_of_returned
    {next : α → Code σ Event Payload β} {world world' : σ} {value : α}
    {events : List Event}
    (returned : code world = ⟨.returned value, world', events⟩) :
    (code >>= next) world = (next value world').after events := by
  change Code.bind code next world = _
  simp only [Code.bind, returned, Run.after]

/-- Code that runs like other code does so in front of anything. -/
theorem bind_after
    {other : Code σ Event Payload α} {next : α → Code σ Event Payload β}
    {world world' : σ} {events : List Event}
    (same : code world = (other world').after events) :
    (code >>= next) world = ((other >>= next) world').after events := by
  change Code.bind code next world =
    (Code.bind other next world').after events
  simp only [Code.bind, same, Run.after]
  cases (other world').exit with
  | returned value => simp
  | unwound payload => rfl
  | aborted => rfl

theorem onUnwind_after
    {other : Code σ Event Payload α} {cleanup : Code σ Event Payload Unit}
    {world world' : σ} {events : List Event}
    (same : code world = (other world').after events) :
    code.onUnwind cleanup world =
      (other.onUnwind cleanup world').after events := by
  simp only [onUnwind, same, Run.after]
  cases (other world').exit with
  | returned value => rfl
  | unwound payload =>
      simp only
      cases (cleanup (other world').world).exit <;> simp
  | aborted => rfl

theorem exit_bind_ne_returned
    {next : α → Code σ Event Payload β} {world : σ}
    (escaped : ∀ value, (code world).exit ≠ .returned value) (value : β) :
    ((code >>= next) world).exit ≠ .returned value := by
  change (Code.bind code next world).exit ≠ _
  unfold Code.bind
  cases ended : (code world).exit with
  | returned first => exact absurd ended (escaped first)
  | unwound payload => simp [ended]
  | aborted => simp [ended]

theorem meets_pure (value : α) :
    Meets (Pure.pure value : Code σ Event Payload α) (Pure.pure value) where
  returns := fun _ _ => rfl
  escapes := by
    intro world harmful
    cases harmful

theorem Meets.bind
    {next : α → Code σ Event Payload β} {after : α → Intended σ Event β}
    (meets : Meets code intended) (continues : ∀ value,
      Meets (next value) (after value)) :
    Meets (code >>= next) (intended >>= after) := by
  constructor
  · intro world harmless
    change (_ && _) = true at harmless
    obtain ⟨first, second⟩ := Bool.and_eq_true_iff.mp harmless
    rw [bind_of_returned (meets.returns world first),
      (continues _).returns _ second]
    rfl
  · intro world harmful value
    cases first : (intended world).harmless with
    | false =>
        exact exit_bind_ne_returned (meets.escapes world first) value
    | true =>
        change (_ && _) = false at harmful
        rw [first, Bool.true_and] at harmful
        rw [bind_of_returned (meets.returns world first)]
        exact (continues _).escapes _ harmful value

theorem meets_get : Meets (get : Code σ Event Payload σ) Intended.get where
  returns := fun _ _ => rfl
  escapes := by
    intro world harmful
    cases harmful

theorem meets_set (change : σ → σ) :
    Meets (set change : Code σ Event Payload Unit)
      (Intended.set change) where
  returns := fun _ _ => rfl
  escapes := by
    intro world harmful
    cases harmful

theorem meets_log (event : Event) :
    Meets (log event : Code σ Event Payload Unit)
      (Intended.log event) where
  returns := fun _ _ => rfl
  escapes := by
    intro world harmful
    cases harmful

/-- A panic inside an unwind boundary is a value like any other. -/
theorem meets_attempt (outside : Outside σ Payload) :
    Meets (catchUnwind (call outside : Code σ Event Payload Unit))
      (Intended.attempt outside) := by
  constructor
  · intro world _
    unfold catchUnwind call Intended.attempt
    obtain ⟨outcome, world'⟩ := outside world
    cases outcome with
    | none => rfl
    | some payload => rfl
  · intro world harmful
    unfold Intended.attempt at harmful
    split at harmful
    · cases harmful
    · cases harmful

/-- Outside an unwind boundary a panicking destructor is not contained. -/
theorem meets_destroy (outside : Outside σ Payload) :
    Meets (call outside : Code σ Event Payload Unit)
      (Intended.destroy outside) := by
  constructor
  · intro world harmless
    unfold call Intended.destroy
    change (outside world).1.isNone = true at harmless
    split
    · rename_i world' called
      rw [called]
    · rename_i payload world' called
      rw [called] at harmless
      cases harmless
  · intro world harmful value
    unfold call
    change (outside world).1.isNone = false at harmful
    split
    · rename_i world' called
      rw [called] at harmful
      cases harmful
    · simp

theorem onUnwind_of_returned
    {cleanup : Code σ Event Payload Unit} {world world' : σ} {value : α}
    {events : List Event}
    (returned : code world = ⟨.returned value, world', events⟩) :
    code.onUnwind cleanup world = ⟨.returned value, world', events⟩ := by
  simp only [Code.onUnwind, returned]

theorem exit_onUnwind_ne_returned
    {cleanup : Code σ Event Payload Unit} {world : σ}
    (escaped : ∀ value, (code world).exit ≠ .returned value) (value : α) :
    (code.onUnwind cleanup world).exit ≠ .returned value := by
  unfold Code.onUnwind
  cases ended : (code world).exit with
  | returned first => exact absurd ended (escaped first)
  | unwound payload =>
      simp only [ended]
      cases (cleanup (code world).world).exit <;> simp
  | aborted => simp [ended]

theorem Meets.onUnwind
    {cleanup : Code σ Event Payload Unit} (meets : Meets code intended) :
    Meets (code.onUnwind cleanup) intended where
  returns := fun world harmless =>
    onUnwind_of_returned (meets.returns world harmless)
  escapes := fun world harmful =>
    exit_onUnwind_ne_returned (meets.escapes world harmful)

theorem Meets.scope
    {cleanup : Code σ Event Payload Unit}
    {cleaned : Intended σ Event Unit} (meets : Meets code intended)
    (cleans : Meets cleanup cleaned) :
    Meets (code.scope cleanup) (intended.scope cleaned) :=
  meets.onUnwind.bind fun value => cleans.bind fun _ => meets_pure value

theorem Meets.forEach
    {body : β → Code σ Event Payload Unit}
    {intention : β → Intended σ Event Unit}
    (meets : ∀ item, Meets (body item) (intention item)) (items : List β) :
    Meets (forEach body items) (Intended.forEach intention items) := by
  induction items with
  | nil => exact meets_pure _
  | cons item rest inductionHypothesis =>
      exact (meets item).bind fun _ => inductionHypothesis

theorem Meets.dropAll
    {destroy : β → Code σ Event Payload Unit}
    {intention : β → Intended σ Event Unit}
    (meets : ∀ item, Meets (destroy item) (intention item))
    (items : List β) :
    Meets (dropAll destroy items) (Intended.forEach intention items) := by
  induction items with
  | nil => exact meets_pure _
  | cons item rest inductionHypothesis =>
      exact (meets item).onUnwind.bind fun _ => inductionHypothesis

theorem dropAll_map
    {ι : Type} (destroy : α → Code σ Event Payload Unit) (item : ι → α)
    (items : List ι) :
    dropAll destroy (items.map item) =
      dropAll (fun index => destroy (item index)) items := by
  induction items with
  | nil => rfl
  | cons first rest inductionHypothesis =>
      simp only [List.map_cons, dropAll, inductionHypothesis]

end Code

end Meets

end RegistryIo.Unwinding
