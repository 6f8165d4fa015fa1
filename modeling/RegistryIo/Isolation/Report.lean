import RegistryIo.Foundations.Unwinding
import RegistryIo.HandlerList

/-!
# Reporting a caught panic

Both registries report a caught panic in the same way: they clone the `Arc`
of the installed callback, call it inside an unwind boundary, and drop the
payload of the handler's panic.  The handlers, the callback and all destructors
are code from outside; the payload of a panic is a value whose destructor is
again code from outside.
-/

namespace RegistryIo.Isolation

open RegistryIo.Unwinding

/-- `PanicInfo`. -/
structure PanicInfo (Payload : Type) where
  handlerId : HandlerId
  payload : Payload
  deriving DecidableEq, Repr

/-- What a dispatch does, as the outside sees it.  `ended` tells how the work
of a handler ended; `unreported` stands for a panic that found no callback
installed. -/
inductive Event (H Payload : Type) where
  | invoked (entry : HandlerEntry H)
  | polled (entry : HandlerEntry H)
  | ended (entry : HandlerEntry H) (panic : Option Payload)
  | reported (info : PanicInfo Payload)
  | unreported (info : PanicInfo Payload)
  deriving DecidableEq, Repr

namespace Event

variable {H Payload : Type}

def invocation : Event H Payload → Option (HandlerEntry H)
  | .invoked entry => some entry
  | _ => none

def polling : Event H Payload → Option (HandlerEntry H)
  | .polled entry => some entry
  | _ => none

/-- The panic of a handler. -/
def panic : Event H Payload → Option (PanicInfo Payload)
  | .ended entry (some payload) => some ⟨entry.id, payload⟩
  | _ => none

def ending : Event H Payload → Option (HandlerEntry H × Option Payload)
  | .ended entry panic => some (entry, panic)
  | _ => none

/-- A call of the callback. -/
def callbackCall : Event H Payload → Option (PanicInfo Payload)
  | .reported info => some info
  | _ => none

/-- What became of a panic. -/
def report : Event H Payload → Option (PanicInfo Payload)
  | .reported info => some info
  | .unreported info => some info
  | _ => none

/-- The event of a panic that found a callback installed, or did not. -/
def ofPanic (installed : Bool) (info : PanicInfo Payload) :
    Event H Payload :=
  if installed then .reported info else .unreported info

end Event

/-- The code from outside that a report runs: the callback that is installed
now, its call, and the destructors of payloads and of the cloned `Arc`. -/
structure Reporting (σ Payload Callback : Type) where
  installed : σ → Option Callback
  invoke : Callback → PanicInfo Payload → Outside σ Payload
  dropPayload : Payload → Outside σ Payload
  dropHolder : Callback → Outside σ Payload

section Report

variable {σ H Payload Callback : Type}
variable (user : Reporting σ Payload Callback)

/-- `drop(catch_unwind(|| holder.invoke(&info)))`. -/
def invokeHolder (holder : Callback) (info : PanicInfo Payload) :
    Code σ (Event H Payload) Payload Unit := do
  Code.log (.reported info)
  match ← Code.catchUnwind (Code.call (user.invoke holder info)) with
  | .ok _ => return ()
  | .error second => Code.call (user.dropPayload second)

/-- The part of `handle_panic` that both registries share.  The clone of the
`Arc` and the payload are dropped on every way out of their scopes. -/
def reportPanic (handlerId : HandlerId) (payload : Payload) :
    Code σ (Event H Payload) Payload Unit :=
  Code.scope
    (do
      let world ← Code.get
      match user.installed world with
      | none => Code.log (.unreported ⟨handlerId, payload⟩)
      | some holder =>
          Code.scope (invokeHolder user holder ⟨handlerId, payload⟩)
            (Code.call (user.dropHolder holder)))
    (Code.call (user.dropPayload payload))

def intendedInvoke (holder : Callback) (info : PanicInfo Payload) :
    Intended σ (Event H Payload) Unit := do
  Intended.log (.reported info)
  match ← Intended.attempt (user.invoke holder info) with
  | .ok _ => return ()
  | .error second => Intended.destroy (user.dropPayload second)

/-- One report of a panic, with the panics of destructors contained. -/
def intendedReport (handlerId : HandlerId) (payload : Payload) :
    Intended σ (Event H Payload) Unit :=
  Intended.scope
    (do
      let world ← Intended.get
      match user.installed world with
      | none => Intended.log (.unreported ⟨handlerId, payload⟩)
      | some holder =>
          Intended.scope (intendedInvoke user holder ⟨handlerId, payload⟩)
            (Intended.destroy (user.dropHolder holder)))
    (Intended.destroy (user.dropPayload payload))

private theorem invokeHolder_meets
    (holder : Callback) (info : PanicInfo Payload) :
    Code.Meets (invokeHolder (H := H) user holder info)
      (intendedInvoke user holder info) := by
  unfold invokeHolder intendedInvoke
  apply (Code.meets_log _).bind
  intro _
  apply (Code.meets_attempt _).bind
  intro outcome
  cases outcome with
  | ok value => exact Code.meets_pure _
  | error second => exact Code.meets_destroy _

theorem reportPanic_meets (handlerId : HandlerId) (payload : Payload) :
    Code.Meets (reportPanic (H := H) user handlerId payload)
      (intendedReport user handlerId payload) := by
  unfold reportPanic intendedReport
  refine Code.Meets.scope ?_ (Code.meets_destroy _)
  apply Code.meets_get.bind
  intro world
  cases user.installed world with
  | none => exact Code.meets_log _
  | some holder =>
      exact (invokeHolder_meets user holder _).scope (Code.meets_destroy _)

private theorem intendedInvoke_events
    (holder : Callback) (info : PanicInfo Payload) (world : σ) :
    (intendedInvoke (H := H) user holder info world).events =
      [.reported info] := by
  simp only [intendedInvoke, Intended.events_bind, Intended.events_log,
    Intended.events_attempt]
  generalize (Intended.attempt (user.invoke holder info) _).value = outcome
  cases outcome with
  | ok value => simp
  | error second => simp

/-- A panic leads to one report, or finds no callback installed. -/
theorem intendedReport_events
    (handlerId : HandlerId) (payload : Payload) (world : σ) :
    (intendedReport (H := H) user handlerId payload world).events =
      [.ofPanic (user.installed world).isSome ⟨handlerId, payload⟩] := by
  simp only [intendedReport, Intended.events_scope, Intended.events_bind,
    Intended.events_get, Intended.value_get, Intended.world_get,
    Intended.events_destroy]
  cases user.installed world with
  | none => rfl
  | some holder => simp [intendedInvoke_events, Event.ofPanic]

end Report

end RegistryIo.Isolation
