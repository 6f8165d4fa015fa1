import RegistryIo.Foundations.Ownership
import RegistryIo.Isolation.Sync

/-!
# Payloads of panics are disposed of

The code from outside is instrumented with a ledger: every payload that it
panics with gets a tag, the callback has to find the payload of its
`PanicInfo` live, and a destructor has to run on a live payload.  The dispatch
is the same with and without the ledger.
-/

namespace RegistryIo.Isolation

open RegistryIo.Unwinding

/-- What a dispatch has to dispose of: the futures of handlers, which may be
polled until they have finished, and the payloads of panics. -/
inductive Kind where
  | future
  | finished
  | payload
  deriving DecidableEq, Repr

section Report

variable {τ σ H Payload Callback : Type}

def PanicInfo.untag (info : PanicInfo (Tagged Payload)) : PanicInfo Payload :=
  ⟨info.handlerId, info.payload.value⟩

def Event.untag : Event H (Tagged Payload) → Event H Payload
  | .invoked entry => .invoked entry
  | .polled entry => .polled entry
  | .ended entry panic => .ended entry (panic.map Tagged.value)
  | .reported info => .reported info.untag
  | .unreported info => .unreported info.untag

/-- The code from outside that a report runs, with a ledger. -/
def Reporting.tracked (user : Reporting σ Payload Callback)
    (tracking : Tracking τ σ Kind) :
    Reporting τ (Tagged Payload) Callback where
  installed world := user.installed (tracking.world world)
  invoke holder info :=
    tracking.outside
      (fun ledger => ledger.use ⟨tracking.panic, info.payload.tag⟩)
      (user.invoke holder info.untag)
  dropPayload payload :=
    tracking.outside (fun ledger => ledger.destroy payload.tag)
      (user.dropPayload payload.value)
  dropHolder holder := tracking.outside id (user.dropHolder holder)

/-- What code of a dispatch does with the values that it owns. -/
abbrev Owns {α' α : Type} (tracking : Tracking τ σ Kind)
    (borrowed owned : List (Token Kind))
    (code' : Code τ (Event H (Tagged Payload)) (Tagged Payload) α')
    (code : Code σ (Event H Payload) Payload α) (erase : α' → α)
    (left : α' → List (Token Kind)) : Prop :=
  Code.Tracks tracking Event.untag false borrowed owned code' code erase left

variable (tracking : Tracking τ σ Kind)
variable (user : Reporting σ Payload Callback)

def payloadToken (payload : Tagged Payload) : Token Kind :=
  ⟨tracking.panic, payload.tag⟩

theorem dropPayload_owns
    {borrowed : List (Token Kind)} (payload : Tagged Payload) :
    Owns (H := H) tracking borrowed [payloadToken tracking payload]
      (Code.call ((user.tracked tracking).dropPayload payload))
      (Code.call (user.dropPayload payload.value)) id fun _ => [] :=
  Code.tracks_destroy (payloadToken tracking payload)

/-- The callback borrows the payload.  Its own panic is dropped. -/
private theorem invokeHolder_owns
    (holder : Callback) (info : PanicInfo (Tagged Payload)) :
    Owns (H := H) tracking [payloadToken tracking info.payload] []
      (invokeHolder (user.tracked tracking) holder info)
      (invokeHolder user holder info.untag) id fun _ => [] := by
  unfold invokeHolder
  apply (Code.tracks_log _).bind
  intro _
  apply ((Code.tracks_use (List.mem_singleton_self _)).catchUnwind.loud
    (List.Subset.refl _)).bind
  intro outcome
  cases outcome with
  | ok value => exact Code.tracks_pure rfl (List.Perm.refl _)
  | error second => exact dropPayload_owns tracking user second

theorem reportPanic_owns
    (handlerId : HandlerId) (payload : Tagged Payload) :
    Owns (H := H) tracking [] [payloadToken tracking payload]
      (reportPanic (user.tracked tracking) handlerId payload)
      (reportPanic user handlerId payload.value) id fun _ => [] := by
  unfold reportPanic
  change Owns tracking [] ([] ++ [payloadToken tracking payload]) _ _ _ _
  refine Code.Tracks.scope ?_ (dropPayload_owns tracking user payload)
    (List.subset_append_left _ _)
  apply Code.tracks_get.bind
  intro world
  simp only [Reporting.tracked]
  cases user.installed (tracking.world world) with
  | none => exact Code.tracks_log _
  | some holder =>
      exact (invokeHolder_owns tracking user holder _).scope
        Code.tracks_plain (List.subset_append_right _ _)

end Report

namespace Sync

variable {E H Payload Callback σ : Type}

/-- The world of a dispatch with a ledger beside what the outside owns. -/
def tracking :
    Tracking (Shared H Callback (σ × Ledger Kind)) (Shared H Callback σ)
      Kind where
  world shared :=
    ⟨shared.handlers, shared.panicCallback, shared.panics, shared.outside.1⟩
  ledger shared := shared.outside.2
  join shared ledger :=
    ⟨shared.handlers, shared.panicCallback, shared.panics,
      (shared.outside, ledger)⟩
  world_join _ _ := rfl
  ledger_join _ _ := rfl
  panic := .payload

/-- The code from outside with a ledger. -/
def User.tracked (user : User E H Payload Callback σ) :
    User E H (Tagged Payload) Callback (σ × Ledger Kind) where
  handler handler event := tracking.outside id (user.handler handler event)
  callback := (user.reporting.tracked tracking).invoke
  dropPayload := (user.reporting.tracked tracking).dropPayload
  dropHolder := (user.reporting.tracked tracking).dropHolder
  dropHandler handler := tracking.outside id (user.dropHandler handler)
  protects world := user.protects (tracking.world world)
  reclaimed world := user.reclaimed (tracking.world world)
  lastOwner world := user.lastOwner (tracking.world world)

variable (user : User E H Payload Callback σ)

theorem handlePanic_owns
    (handlerId : HandlerId) (payload : Tagged Payload) :
    Owns (H := H) tracking [] [⟨.payload, payload.tag⟩]
      (handlePanic user.tracked handlerId payload)
      (handlePanic user handlerId payload.value) id fun _ => [] := by
  apply (Code.tracks_change Shared.countPanic).bind
  intro _
  exact reportPanic_owns tracking user.reporting handlerId payload

private theorem notifyEntry_owns (event : E) (entry : HandlerEntry H) :
    Owns tracking [] [] (notifyEntry user.tracked event entry)
      (notifyEntry user event entry) id fun _ => [] := by
  apply (Code.tracks_log _).bind
  intro _
  apply (Code.tracks_plain.catchUnwind.loud (List.Subset.refl _)).bind
  intro outcome
  cases outcome with
  | ok value => exact Code.tracks_log _
  | error payload =>
      apply (Code.tracks_log _).bind
      intro _
      exact handlePanic_owns user entry.id payload

private theorem notify_owns (event : E) :
    Owns tracking [] [] (notify user.tracked event) (notify user event) id
      fun _ => [] := by
  have loop := fun list : List (HandlerEntry H) =>
    Code.Tracks.forEach (notifyEntry_owns user event) list
  apply Code.tracks_get.bind
  intro world
  apply Code.Tracks.ite
  · apply (loop _).bind
    intro _
    apply Code.tracks_get.bind
    intro world
    exact Code.tracks_dropPlain user.dropHandler _
  · refine (loop _).scope ?_ (List.Subset.refl _)
    apply Code.tracks_get.bind
    intro world
    exact Code.tracks_dropPlain user.dropHandler _

/-- Whatever handlers, callback and destructors do, the payload of every panic
of a dispatch is live when the callback sees it and is dropped exactly once,
unless it is the one that the caller of `notify` gets. -/
theorem payloads_disposed (event : E) (world : Shared H Callback σ) :
    Disposes tracking Event.untag id
      (notify user.tracked event (tracking.join world Ledger.empty))
      (notify user event world) :=
  (notify_owns user event).disposes rfl

end Sync

end RegistryIo.Isolation
