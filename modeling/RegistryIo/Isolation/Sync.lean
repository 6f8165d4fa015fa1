import RegistryIo.Isolation.Report

/-!
# Panic isolation of the synchronous dispatch

`SyncRegistry::notify` calls every handler inside an unwind boundary.  Three
kinds of destructors run outside of any boundary: those of panic payloads,
that of the callback when the cloned `Arc` was the last one, and those of
handlers that are freed when the read ends.  A dispatch is isolated exactly
when none of the destructors that fall due panics.
-/

namespace RegistryIo.Isolation.Sync

open RegistryIo.Unwinding

/-- The fields of `SyncRegistry` that a dispatch uses, and everything else
that code from outside can act on. -/
structure Shared (H Callback σ : Type) where
  handlers : List (HandlerEntry H)
  panicCallback : Option Callback
  panics : Nat
  outside : σ

/-- Code from outside, and the state of the cell.  `protects` says that
`hazard::pin` finds a free slot; `reclaimed` and `lastOwner` are the handlers
whose last reference is in a list that `try_reclaim` takes out, or in the list
that a fallback read owns. -/
structure User (E H Payload Callback σ : Type) where
  handler : H → E → Outside (Shared H Callback σ) Payload
  callback : Callback → PanicInfo Payload →
    Outside (Shared H Callback σ) Payload
  dropPayload : Payload → Outside (Shared H Callback σ) Payload
  dropHolder : Callback → Outside (Shared H Callback σ) Payload
  dropHandler : H → Outside (Shared H Callback σ) Payload
  protects : Shared H Callback σ → Bool
  reclaimed : Shared H Callback σ → List H
  lastOwner : Shared H Callback σ → List H

section Dispatch

variable {E H Payload Callback σ : Type}
variable (user : User E H Payload Callback σ)

def User.reporting :
    Reporting (Shared H Callback σ) Payload Callback where
  installed := Shared.panicCallback
  invoke := user.callback
  dropPayload := user.dropPayload
  dropHolder := user.dropHolder

/-- `panics.fetch_add(1)`, which wraps at `2 ^ 64`. -/
def Shared.countPanic (world : Shared H Callback σ) : Shared H Callback σ :=
  { world with panics := (world.panics + 1) % 2 ^ 64 }

/-- `SyncRegistry::handle_panic`. -/
def handlePanic (handlerId : HandlerId) (payload : Payload) :
    Code (Shared H Callback σ) (Event H Payload) Payload Unit := do
  Code.set Shared.countPanic
  reportPanic user.reporting handlerId payload

/-- `SnapCell::release`: the slot is null again, and the handlers that can be
freed now are dropped. -/
def release : Code (Shared H Callback σ) (Event H Payload) Payload Unit := do
  let world ← Code.get
  Code.dropAll (fun handler => Code.call (user.dropHandler handler))
    (user.reclaimed world)

/-- Drop of the list that a fallback read owns. -/
def dropOwned :
    Code (Shared H Callback σ) (Event H Payload) Payload Unit := do
  let world ← Code.get
  Code.dropAll (fun handler => Code.call (user.dropHandler handler))
    (user.lastOwner world)

/-- `SnapCell::read`.  When the closure unwinds under a hazard, only the slot
is cleared; on the fallback path the owned list is dropped as well. -/
def read
    (closure : List (HandlerEntry H) →
      Code (Shared H Callback σ) (Event H Payload) Payload Unit) :
    Code (Shared H Callback σ) (Event H Payload) Payload Unit := do
  let world ← Code.get
  if user.protects world then
    do
      closure world.handlers
      release user
  else
    (closure world.handlers).scope (dropOwned user)

/-- One iteration of the loop of `SyncRegistry::notify`. -/
def notifyEntry (event : E) (entry : HandlerEntry H) :
    Code (Shared H Callback σ) (Event H Payload) Payload Unit := do
  Code.log (.invoked entry)
  match ← Code.catchUnwind (Code.call (user.handler entry.handler event)) with
  | .ok _ => Code.log (.ended entry none)
  | .error payload =>
      Code.log (.ended entry (some payload))
      handlePanic user entry.id payload

/-- `SyncRegistry::notify`. -/
def notify (event : E) :
    Code (Shared H Callback σ) (Event H Payload) Payload Unit :=
  read user fun list => Code.forEach (notifyEntry user event) list

/-! The same dispatch with the panics of destructors contained. -/

def intendedEntry (event : E) (entry : HandlerEntry H) :
    Intended (Shared H Callback σ) (Event H Payload) Unit := do
  Intended.log (.invoked entry)
  match ← Intended.attempt (user.handler entry.handler event) with
  | .ok _ => Intended.log (.ended entry none)
  | .error payload =>
      Intended.log (.ended entry (some payload))
      Intended.set Shared.countPanic
      intendedReport user.reporting entry.id payload

/-- The handlers that are freed when the read ends. -/
def intendedRelease (freed : Shared H Callback σ → List H) :
    Intended (Shared H Callback σ) (Event H Payload) Unit := do
  let world ← Intended.get
  Intended.forEach
    (fun handler => Intended.destroy (user.dropHandler handler))
    (freed world)

def intendedNotify (event : E) :
    Intended (Shared H Callback σ) (Event H Payload) Unit := do
  let world ← Intended.get
  if user.protects world then
    do
      Intended.forEach (intendedEntry user event) world.handlers
      intendedRelease user user.reclaimed
  else
    (Intended.forEach (intendedEntry user event) world.handlers).scope
      (intendedRelease user user.lastOwner)

/-- No destructor that falls due in the dispatch panics: neither that of a
handler's payload, nor of a payload of the callback, nor of the callback, nor
of a handler that is freed when the read ends. -/
def DestructorsReturn (event : E) (world : Shared H Callback σ) : Prop :=
  (intendedNotify user event world).harmless = true

private theorem handlePanic_meets (handlerId : HandlerId) (payload : Payload) :
    Code.Meets (handlePanic user handlerId payload)
      (do
        Intended.set Shared.countPanic
        intendedReport user.reporting handlerId payload) :=
  (Code.meets_set _).bind fun _ => reportPanic_meets user.reporting _ _

private theorem notifyEntry_meets (event : E) (entry : HandlerEntry H) :
    Code.Meets (notifyEntry user event entry)
      (intendedEntry user event entry) := by
  unfold notifyEntry intendedEntry
  apply (Code.meets_log _).bind
  intro _
  apply (Code.meets_attempt _).bind
  intro outcome
  cases outcome with
  | ok value => exact Code.meets_log _
  | error payload =>
      apply (Code.meets_log _).bind
      intro _
      exact handlePanic_meets user entry.id payload

private theorem dropHandlers_meets (freed : Shared H Callback σ → List H) :
    Code.Meets
      (do
        let world ← Code.get
        Code.dropAll (fun handler => Code.call (user.dropHandler handler))
          (freed world))
      (intendedRelease user freed) := by
  apply Code.meets_get.bind
  intro world
  exact Code.Meets.dropAll (fun handler => Code.meets_destroy _) _

private theorem notify_meets (event : E) :
    Code.Meets (notify user event) (intendedNotify user event) := by
  unfold notify read intendedNotify
  apply Code.meets_get.bind
  intro world
  have loop := Code.Meets.forEach (notifyEntry_meets user event)
    world.handlers
  cases user.protects world with
  | true =>
      apply loop.bind
      intro _
      exact dropHandlers_meets user user.reclaimed
  | false => exact loop.scope (dropHandlers_meets user user.lastOwner)

/-- The log of one iteration. -/
private theorem intendedEntry_events
    (event : E) (entry : HandlerEntry H) (world : Shared H Callback σ) :
    (intendedEntry user event entry world).events =
        [.invoked entry, .ended entry none] ∨
      ∃ payload installed, (intendedEntry user event entry world).events =
        [.invoked entry, .ended entry (some payload),
          .ofPanic installed ⟨entry.id, payload⟩] := by
  simp only [intendedEntry, Intended.events_bind, Intended.events_log,
    Intended.events_attempt]
  generalize (Intended.attempt (user.handler entry.handler event) _).value =
    outcome
  cases outcome with
  | ok value => exact Or.inl rfl
  | error payload =>
      simp only [Intended.events_bind, Intended.events_log,
        Intended.events_set, intendedReport_events]
      exact Or.inr ⟨payload, _, rfl⟩

private theorem intendedEntry_invocations
    (event : E) (entry : HandlerEntry H) (world : Shared H Callback σ) :
    (intendedEntry user event entry world).events.filterMap
      Event.invocation = [entry] := by
  rcases intendedEntry_events user event entry world with
    quiet | ⟨payload, installed, reported⟩
  · rw [quiet]
    rfl
  · rw [reported]
    cases installed with
    | true => rfl
    | false => rfl

/-- Every panic of an iteration is reported once. -/
private theorem intendedEntry_reports
    (event : E) (entry : HandlerEntry H) (world : Shared H Callback σ) :
    (intendedEntry user event entry world).events.filterMap Event.report =
      (intendedEntry user event entry world).events.filterMap
        Event.panic := by
  rcases intendedEntry_events user event entry world with
    quiet | ⟨payload, installed, reported⟩
  · rw [quiet]
    rfl
  · rw [reported]
    cases installed with
    | true => rfl
    | false => rfl

private theorem intendedRelease_events
    (freed : Shared H Callback σ → List H) (world : Shared H Callback σ) :
    (intendedRelease user freed world).events = [] := by
  simp only [intendedRelease, Intended.events_bind, Intended.events_get]
  refine Intended.events_forEach (P := fun events => events = []) rfl ?_
    (fun _ _ => rfl) _ _
  intro first second isFirst isSecond
  rw [isFirst, isSecond]
  rfl

/-- What an isolated dispatch logs is what its loop logs. -/
private theorem intendedNotify_events
    (event : E) (world : Shared H Callback σ) :
    (intendedNotify user event world).events =
      (Intended.forEach (intendedEntry user event) world.handlers
        world).events := by
  unfold intendedNotify
  simp only [Intended.events_bind, Intended.events_get]
  change [] ++ ((if user.protects world = true then _ else _ :
    Intended _ _ _) world).events = _
  split
  · rw [Intended.events_bind, intendedRelease_events, List.append_nil,
      List.nil_append]
    rfl
  · rw [Intended.events_scope, intendedRelease_events, List.append_nil,
      List.nil_append]
    rfl

/-- Complete panic isolation of a dispatch over `snapshot`: it returns, every
handler was invoked in order, and every panic led to one call of the callback,
unless none was installed at that moment. -/
structure Isolated (snapshot : List (HandlerEntry H))
    (run : Run (Shared H Callback σ) (Event H Payload) Payload Unit) :
    Prop where
  returns : run.exit = .returned ()
  invoked : run.events.filterMap Event.invocation = snapshot
  reported : run.events.filterMap Event.report =
    run.events.filterMap Event.panic

/-- A dispatch isolates panics exactly when no destructor that falls due in
it panics. -/
theorem notify_isolated_iff (event : E) (world : Shared H Callback σ) :
    Isolated world.handlers (notify user event world) ↔
      DestructorsReturn user event world := by
  constructor
  · intro isolated
    by_contra harmful
    have escapes := (notify_meets user event).escapes world
      (Bool.eq_false_of_not_eq_true harmful)
    exact escapes () isolated.returns
  · intro harmless
    have run := (notify_meets user event).returns world harmless
    rw [run, intendedNotify_events]
    refine ⟨rfl, ?_, ?_⟩
    · rw [Intended.filterMap_forEach
        (intendedEntry_invocations user event)]
      simp
    · refine Intended.events_forEach
        (P := fun events => events.filterMap Event.report =
          events.filterMap Event.panic) rfl ?_
        (intendedEntry_reports user event) _ _
      intro first second isFirst isSecond
      rw [List.filterMap_append, List.filterMap_append, isFirst, isSecond]

end Dispatch

/-- Handlers are given by what they do, and payloads by whether their
destructor panics. -/
def scripted : User Unit (Option Bool) Bool Unit Unit where
  handler := fun script _ world => (script, world)
  callback := fun _ _ world => (none, world)
  dropPayload := fun explodes world =>
    (if explodes then some false else none, world)
  dropHolder := fun _ world => (none, world)
  dropHandler := fun _ world => (none, world)
  protects := fun _ => true
  reclaimed := fun _ => []
  lastOwner := fun _ => []

/-- The first of two handlers panics with a payload whose destructor panics;
a callback is installed. -/
def explodingPayload : Shared (Option Bool) Unit Unit where
  handlers := [⟨⟨1⟩, 0, some true⟩, ⟨⟨2⟩, 0, none⟩]
  panicCallback := some ()
  panics := 0
  outside := ()

/-- `notify` unwinds into its caller and never invokes the second handler. -/
theorem payload_drop_escapes :
    (notify scripted () explodingPayload).exit = .unwound false ∧
      (notify scripted () explodingPayload).events.filterMap
        Event.invocation = [⟨⟨1⟩, 0, some true⟩] ∧
      ¬ Isolated explodingPayload.handlers
        (notify scripted () explodingPayload) := by
  refine ⟨rfl, rfl, ?_⟩
  intro isolated
  cases isolated.returns

end RegistryIo.Isolation.Sync
