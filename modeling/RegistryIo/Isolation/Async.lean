import RegistryIo.Foundations.Polling
import RegistryIo.Isolation.Report

/-!
# The asynchronous dispatch

The drivers follow `future_ext.rs` and `async_registry/mod.rs`: the await of a
single handler through `CatchUnwind`, the join of many handlers over `Slot`s
with a counter of running ones, and the sequential await.

Handlers, futures, the callback and all destructors are code from outside.
They act on the world, which contains whatever they share, the registry
included.
-/

namespace RegistryIo.Isolation.Async

open RegistryIo.Unwinding

/-- Code from outside, and the state of the cell.  A poll of a future gives
its next state, or `none` when it is ready.  `protects` says that
`hazard::pin` finds a free slot; `reclaimed` are the destructors of handlers
that are freed when the load of the list is released, `lastOwner` those of
handlers that are freed with the list itself. -/
structure User (E H F Payload Callback σ : Type) where
  handlers : σ → List (HandlerEntry H)
  call : H → E → σ → Except Payload F × σ
  poll : F → σ → Except Payload (Option F) × σ
  installed : σ → Option Callback
  callback : Callback → PanicInfo Payload → Outside σ Payload
  dropFuture : F → Outside σ Payload
  dropPayload : Payload → Outside σ Payload
  dropHolder : Callback → Outside σ Payload
  protects : σ → Bool
  reclaimed : σ → List (Outside σ Payload)
  lastOwner : σ → List (Outside σ Payload)

abbrev AsyncCode (σ H Payload α : Type) :=
  Code σ (Event H Payload) Payload α

section Futures

variable {E H F Payload Callback σ : Type}
variable (user : User E H F Payload Callback σ)

/-- `start`. -/
def start (event : E) (entry : HandlerEntry H) :
    AsyncCode σ H Payload (Except Payload F) := do
  Code.log (.invoked entry)
  match ← Code.catchUnwind (Code.callFor (user.call entry.handler event)) with
  | .ok future => return .ok future
  | .error payload =>
      Code.log (.ended entry (some payload))
      return .error payload

/-- `Poll<Result<(), Payload>>`. -/
inductive Polled (F Payload : Type) where
  | pending (future : F)
  | ready (panic : Option Payload)

/-- `poll_caught`. -/
def pollCaught (entry : HandlerEntry H) (future : F) :
    AsyncCode σ H Payload (Polled F Payload) := do
  Code.log (.polled entry)
  match ← Code.catchUnwind (Code.callFor (user.poll future)) with
  | .ok (some next) => return .pending next
  | .ok none =>
      Code.log (.ended entry none)
      return .ready none
  | .error payload =>
      Code.log (.ended entry (some payload))
      return .ready (some payload)

def dropFuture (future : F) : AsyncCode σ H Payload Unit :=
  Code.call (user.dropFuture future)

def dropPayload (payload : Payload) : AsyncCode σ H Payload Unit :=
  Code.call (user.dropPayload payload)

/-- Drop of an outcome, which may carry the payload of a panic. -/
def dropOutcome : Option Payload → AsyncCode σ H Payload Unit
  | none => return ()
  | some payload => dropPayload user payload

/-- `CatchUnwind::poll`: the future is dropped as soon as it has ended, and the
outcome is dropped when that unwinds. -/
def catchUnwindPoll (entry : HandlerEntry H) (future : F) :
    AsyncCode σ H Payload (Polled F Payload) := do
  match ← pollCaught user entry future with
  | .pending next => return .pending next
  | .ready panic =>
      (dropFuture user future).onUnwind (dropOutcome user panic)
      return .ready panic

/-- `Slot`. -/
inductive Slot (F Payload : Type) where
  | running (future : F)
  | done
  | panicked (payload : Payload)

namespace Slot

/-- `Slot::new`. -/
def new : Except Payload F → Slot F Payload
  | .ok future => .running future
  | .error payload => .panicked payload

def isRunning : Slot F Payload → Bool
  | .running _ => true
  | _ => false

/-- The state of a slot after its future has ended. -/
def ended : Option Payload → Slot F Payload
  | none => .done
  | some payload => .panicked payload

def drop : Slot F Payload → AsyncCode σ H Payload Unit
  | .running future => dropFuture user future
  | .done => return ()
  | .panicked payload => dropPayload user payload

/-- `Slot::poll`, with the new state of the slot.  The assignment to the slot
drops the future.  When that unwinds, the slot has its new state all the same,
and `abandon` drops what the caller owns, this slot included. -/
def poll (entry : HandlerEntry H)
    (abandon : Slot F Payload → AsyncCode σ H Payload Unit) :
    Slot F Payload → AsyncCode σ H Payload (Slot F Payload × Bool)
  | .running future => do
      match ← pollCaught user entry future with
      | .pending next => return (.running next, false)
      | .ready panic =>
          (dropFuture user future).onUnwind (abandon (ended panic))
          return (ended panic, true)
  | slot => return (slot, true)

end Slot

end Futures

section Drivers

variable {E H F Payload Callback σ : Type}
variable (user : User E H F Payload Callback σ) (event : E)

def User.reporting : Reporting σ Payload Callback where
  installed := user.installed
  invoke := user.callback
  dropPayload := user.dropPayload
  dropHolder := user.dropHolder

/-- `AsyncRegistry::handle_panic`. -/
def handlePanic (handlerId : HandlerId) (payload : Payload) :
    AsyncCode σ H Payload Unit :=
  reportPanic user.reporting handlerId payload

/-- `SnapCell::release`. -/
def release : AsyncCode σ H Payload Unit := do
  let world ← Code.get
  Code.dropAll Code.call (user.reclaimed world)

/-- Drop of the list. -/
def dropList : AsyncCode σ H Payload Unit := do
  let world ← Code.get
  Code.dropAll Code.call (user.lastOwner world)

/-- `load_arc_if(|l| !l.is_empty())`. -/
def loadArcIf : AsyncCode σ H Payload (Option (List (HandlerEntry H))) := do
  let world ← Code.get
  let handlers := user.handlers world
  if user.protects world then
    if handlers.isEmpty then
      do
        release user
        return none
    else
      do
        (release user).onUnwind (dropList user)
        return some handlers
  else if handlers.isEmpty then
    do
      dropList user
      return none
  else
    return some handlers

abbrev Slots (H F Payload : Type) := List (HandlerEntry H × Slot F Payload)

def dropSlots (slots : Slots H F Payload) : AsyncCode σ H Payload Unit :=
  Code.dropAll (fun slot => slot.2.drop user) slots

/-- Start all handlers, in order. -/
def startAll :
    List (HandlerEntry H) → AsyncCode σ H Payload (Slots H F Payload)
  | [] => return []
  | entry :: rest => do
      let started ← start user event entry
      let slots ← startAll rest
      return (entry, .new started) :: slots

/-- `if matches!(slot, Running(_)) && slot.poll(cx) { running -= 1 }`. -/
def pollRunning (entry : HandlerEntry H)
    (abandon : Slot F Payload → AsyncCode σ H Payload Unit)
    (slot : Slot F Payload) (running : Nat) :
    AsyncCode σ H Payload (Slot F Payload × Nat) :=
  if slot.isRunning then
    do
      let (next, isOver) ← slot.poll user entry abandon
      return (next, if isOver then running - 1 else running)
  else
    return (slot, running)

/-- One pass over the slots, `polled` being those it has handled.  When it
unwinds, the vector is dropped from its first slot to its last. -/
def pollSlots (polled : Slots H F Payload) : Slots H F Payload → Nat →
    AsyncCode σ H Payload (Slots H F Payload × Nat)
  | [], running => return (polled, running)
  | (entry, slot) :: rest, running => do
      let (next, running') ← pollRunning user entry
        (fun next => dropSlots user (polled ++ (entry, next) :: rest))
        slot running
      pollSlots (polled ++ [(entry, next)]) rest running'

/-- The loop over `many.iter().zip(slots)`. -/
def reportSlots : Slots H F Payload → AsyncCode σ H Payload Unit
  | [] => return ()
  | (entry, .panicked payload) :: rest => do
      (handlePanic user entry.id payload).onUnwind (dropSlots user rest)
      reportSlots rest
  | (_, slot) :: rest => do
      (slot.drop user).onUnwind (dropSlots user rest)
      reportSlots rest

/-- Where `notify` can be suspended. -/
inductive Notify (H F Payload : Type) where
  | unresumed
  | single (entry : HandlerEntry H) (future : F)
  | joining (slots : Slots H F Payload) (running : Nat)

/-- `if let Err(payload) = outcome { self.handle_panic(..) }`. -/
def report (entry : HandlerEntry H) :
    Option Payload → AsyncCode σ H Payload Unit
  | none => return ()
  | some payload => handlePanic user entry.id payload

/-- The await of the only handler. -/
def awaitSingle (entry : HandlerEntry H) (future : F) :
    AsyncCode σ H Payload (Option (Notify H F Payload)) := do
  match ← catchUnwindPoll user entry future with
  | .pending next => return some (.single entry next)
  | .ready panic =>
      report user entry panic
      return none

/-- A poll of the join: `poll_fn`, and the reports once nothing is running. -/
def awaitJoin (slots : Slots H F Payload) (running : Nat) :
    AsyncCode σ H Payload (Option (Notify H F Payload)) := do
  let (next, running') ← pollSlots user [] slots running
  if running' = 0 then
    do
      reportSlots user next
      return none
  else
    return some (.joining next running')

/-- The body of `AsyncRegistry::notify` once it has a list. -/
def notifyList : List (HandlerEntry H) →
    AsyncCode σ H Payload (Option (Notify H F Payload))
  | [] => return none
  | [only] => do
      match ← start user event only with
      | .ok future => awaitSingle user only future
      | .error payload =>
          handlePanic user only.id payload
          return none
  | many => do
      let slots ← startAll user event many
      awaitJoin user slots (slots.countP fun slot => slot.2.isRunning)

/-- A poll of the future of `AsyncRegistry::notify`. -/
def pollNotify : Notify H F Payload →
    AsyncCode σ H Payload (Option (Notify H F Payload))
  | .unresumed => do
      match ← loadArcIf user with
      | none => return none
      | some list => holding (dropList user) (notifyList user event list)
  | .single entry future =>
      holding (dropList user) (awaitSingle user entry future)
  | .joining slots running =>
      holding (dropList user) (awaitJoin user slots running)

/-- Where `notify_sequential` can be suspended. -/
inductive Sequential (H F : Type) where
  | unresumed
  | awaiting (entry : HandlerEntry H) (future : F)
      (rest : List (HandlerEntry H))

/-- The await of one handler inside the loop, which then goes on with
`rest`. -/
def awaitThen (entry : HandlerEntry H) (future : F)
    (rest : List (HandlerEntry H))
    (goOn : AsyncCode σ H Payload (Option (Sequential H F))) :
    AsyncCode σ H Payload (Option (Sequential H F)) := do
  match ← catchUnwindPoll user entry future with
  | .pending next => return some (.awaiting entry next rest)
  | .ready panic =>
      report user entry panic
      goOn

/-- The loop of `AsyncRegistry::notify_sequential`. -/
def sequentialLoop : List (HandlerEntry H) →
    AsyncCode σ H Payload (Option (Sequential H F))
  | [] => return none
  | entry :: rest => do
      match ← start user event entry with
      | .ok future => awaitThen user entry future rest (sequentialLoop rest)
      | .error payload =>
          handlePanic user entry.id payload
          sequentialLoop rest

/-- A poll of the future of `AsyncRegistry::notify_sequential`. -/
def pollSequential :
    Sequential H F → AsyncCode σ H Payload (Option (Sequential H F))
  | .unresumed => do
      match ← loadArcIf user with
      | none => return none
      | some list => holding (dropList user) (sequentialLoop user event list)
  | .awaiting entry future rest =>
      holding (dropList user)
        (awaitThen user entry future rest (sequentialLoop user event rest))

end Drivers

end RegistryIo.Isolation.Async
