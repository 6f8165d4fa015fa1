import RegistryIo.Isolation.Requests

/-!
# Scripted handlers

A script gives the outcomes of all code from outside.  Building the future of a
handler panics, or gives a future that is pending a number of times and then is
ready or panics; a script also says what every destructor does.  A dispatch
sees nothing of a handler but its outcomes, so that scripts stand for
independent handlers of any kind that end.

Futures are dropped on the state change of `CatchUnwind` or of a `Slot`, and
payloads are dropped by the reports; both happen outside of any unwind
boundary.  The lemmas of this module say for the parts of a dispatch when they
return, on which poll, and what they log.
-/

namespace RegistryIo.Isolation.Async

open RegistryIo.Unwinding

/-- A future: the polls that are pending, how the last poll ends, and the
outcome of its destructor. -/
structure Future (Payload : Type) where
  pending : Nat
  ending : Option Payload
  destructor : Option Payload
  deriving DecidableEq, Repr

/-- The synchronous part of a handler. -/
inductive Start (Payload : Type) where
  | future (future : Future Payload)
  | panics (payload : Payload)
  deriving DecidableEq, Repr

abbrev Entry (Payload : Type) := HandlerEntry (Start Payload)

abbrev ScriptCode (Payload α : Type) :=
  AsyncCode Unit (Start Payload) Payload α

/-- A registered list and the outcomes of everything else. -/
structure Script (Payload Callback : Type) where
  handlers : List (Entry Payload)
  installed : Option Callback
  callback : Callback → PanicInfo Payload → Option Payload
  dropPayload : Payload → Option Payload
  dropHolder : Callback → Option Payload
  protects : Bool
  reclaimed : List (Option Payload)
  lastOwner : List (Option Payload)

/-- A call whose outcome is known. -/
def fate {Payload : Type} (outcome : Option Payload) : Outside Unit Payload :=
  fun world => (outcome, world)

def Start.call {Payload : Type} :
    Start Payload → Except Payload (Future Payload)
  | .future made => .ok made
  | .panics payload => .error payload

def Future.poll {Payload : Type} (future : Future Payload) :
    Except Payload (Option (Future Payload)) :=
  match future.pending, future.ending with
  | pending + 1, _ => .ok (some { future with pending := pending })
  | 0, none => .ok none
  | 0, some payload => .error payload

section Conditions

variable {Payload Callback : Type} (script : Script Payload Callback)

def Script.user :
    User Unit (Start Payload) (Future Payload) Payload Callback Unit where
  handlers := fun _ => script.handlers
  call := fun start _ world => (start.call, world)
  poll := fun future world => (future.poll, world)
  installed := fun _ => script.installed
  callback := fun holder info => fate (script.callback holder info)
  dropFuture := fun future => fate future.destructor
  dropPayload := fun payload => fate (script.dropPayload payload)
  dropHolder := fun holder => fate (script.dropHolder holder)
  protects := fun _ => script.protects
  reclaimed := fun _ => script.reclaimed.map fate
  lastOwner := fun _ => script.lastOwner.map fate

/-- No destructor of a report panics: neither that of the payload, nor that of
the callback, nor that of the payload of the callback's own panic. -/
def ReportReturns (info : PanicInfo Payload) : Prop :=
  script.dropPayload info.payload = none ∧
    ∀ holder, script.installed = some holder →
      script.dropHolder holder = none ∧
        ∀ second, script.callback holder info = some second →
          script.dropPayload second = none

/-- The reports of a list of panics return. -/
def ReportsReturn (infos : List (PanicInfo Payload)) : Prop :=
  ∀ info ∈ infos, ReportReturns script info

/-- Nothing that is freed with the list panics. -/
def ListReturns : Prop :=
  ∀ outcome ∈ script.lastOwner, outcome = none

/-- How the work of a handler ends. -/
def Start.outcome : Start Payload → Option Payload
  | .future made => made.ending
  | .panics payload => some payload

/-- The number of polls at which a handler is pending. -/
def Start.pending : Start Payload → Nat
  | .future made => made.pending
  | .panics _ => 0

/-- The number of times the future of a handler is polled. -/
def Start.polls : Start Payload → Nat
  | .future made => made.pending + 1
  | .panics _ => 0

/-- No destructor of the future of a handler panics. -/
def Start.DropReturns : Start Payload → Prop
  | .future made => made.destructor = none
  | .panics _ => True

/-- The panic of a handler. -/
def panicOf (entry : Entry Payload) (panic : Option Payload) :
    Option (PanicInfo Payload) :=
  panic.map fun payload => ⟨entry.id, payload⟩

/-- The panics of a list of handlers, in order. -/
def panicsOf (handlers : List (Entry Payload)) : List (PanicInfo Payload) :=
  handlers.filterMap fun entry => panicOf entry entry.handler.outcome

/-- How the handlers of a list end. -/
def endingsOf (handlers : List (Entry Payload)) :
    List (Entry Payload × Option Payload) :=
  handlers.map fun entry => (entry, entry.handler.outcome)

/-- How often the handlers of a list are polled. -/
def pollsOf (handlers : List (Entry Payload)) : List (Entry Payload) :=
  handlers.flatMap fun entry => List.replicate entry.handler.polls entry

/-- The reports of panics that reach the callback. -/
def Script.calls (infos : List (PanicInfo Payload)) :
    List (PanicInfo Payload) :=
  if script.installed.isSome then infos else []

/-- No destructor of a started list panics. -/
def HandlersReturn (handlers : List (Entry Payload)) : Prop :=
  (∀ entry ∈ handlers, entry.handler.DropReturns) ∧
    ReportsReturn script (panicsOf handlers) ∧ ListReturns script

theorem reportsReturn_append (first second : List (PanicInfo Payload)) :
    ReportsReturn script (first ++ second) ↔
      ReportsReturn script first ∧ ReportsReturn script second := by
  simp [ReportsReturn, or_imp, forall_and]

theorem filterMap_cons_append {α β : Type} (f : α → Option β) (first : α)
    (rest : List α) :
    (first :: rest).filterMap f = (f first).toList ++ rest.filterMap f := by
  rw [List.filterMap_eq_flatMap_toList, List.flatMap_cons,
    ← List.filterMap_eq_flatMap_toList]

private theorem panicsOf_cons
    (entry : Entry Payload) (rest : List (Entry Payload)) :
    panicsOf (entry :: rest) =
      (panicOf entry entry.handler.outcome).toList ++ panicsOf rest :=
  filterMap_cons_append _ entry rest

private theorem handlersReturn_nil :
    HandlersReturn script [] ↔ ListReturns script := by
  simp [HandlersReturn, ReportsReturn, panicsOf]

private theorem handlersReturn_cons
    (entry : Entry Payload) (rest : List (Entry Payload)) :
    HandlersReturn script (entry :: rest) ↔
      entry.handler.DropReturns ∧
        ReportsReturn script (panicOf entry entry.handler.outcome).toList ∧
        HandlersReturn script rest := by
  unfold HandlersReturn
  rw [panicsOf_cons, reportsReturn_append, List.forall_mem_cons]
  constructor
  · rintro ⟨⟨drop, drops⟩, ⟨report, reports⟩, list⟩
    exact ⟨drop, report, drops, reports, list⟩
  · rintro ⟨drop, report, drops, reports, list⟩
    exact ⟨⟨drop, drops⟩, ⟨report, reports⟩, list⟩

theorem Script.calls_nil : script.calls [] = [] := by
  unfold Script.calls
  split
  · rfl
  · rfl

theorem Script.calls_append (first second : List (PanicInfo Payload)) :
    script.calls (first ++ second) =
      script.calls first ++ script.calls second := by
  unfold Script.calls
  split
  · rfl
  · rfl

end Conditions

section Logs

variable {Payload : Type}

/-- The handlers that a log starts, the endings and the polls it contains in
any order, and the calls of the callback. -/
structure Logs (events : List (Event (Start Payload) Payload))
    (started : List (Entry Payload))
    (ended : List (Entry Payload × Option Payload))
    (polled : List (Entry Payload))
    (reported : List (PanicInfo Payload)) : Prop where
  started : events.filterMap Event.invocation = started
  ended : (events.filterMap Event.ending).Perm ended
  polled : (events.filterMap Event.polling).Perm polled
  reported : events.filterMap Event.callbackCall = reported

variable {events events' : List (Event (Start Payload) Payload)}
variable {started started' : List (Entry Payload)}
variable {ended ended' : List (Entry Payload × Option Payload)}
variable {polled polled' : List (Entry Payload)}
variable {reported reported' : List (PanicInfo Payload)}

theorem Logs.append
    (first : Logs events started ended polled reported)
    (second : Logs events' started' ended' polled' reported') :
    Logs (events ++ events') (started ++ started') (ended ++ ended')
      (polled ++ polled') (reported ++ reported') where
  started := by
    rw [List.filterMap_append, first.started, second.started]
  ended := by
    rw [List.filterMap_append]
    exact first.ended.append second.ended
  polled := by
    rw [List.filterMap_append]
    exact first.polled.append second.polled
  reported := by
    rw [List.filterMap_append, first.reported, second.reported]

/-- The order of endings and polls does not count. -/
theorem Logs.perm
    (logs : Logs events started ended polled reported)
    (sameEnded : ended.Perm ended') (samePolled : polled.Perm polled') :
    Logs events started ended' polled' reported :=
  ⟨logs.started, logs.ended.trans sameEnded, logs.polled.trans samePolled,
    logs.reported⟩

/-- A log whose contents can be read off. -/
theorem Logs.read (events : List (Event (Start Payload) Payload)) :
    Logs events (events.filterMap Event.invocation)
      (events.filterMap Event.ending) (events.filterMap Event.polling)
      (events.filterMap Event.callbackCall) :=
  ⟨rfl, List.Perm.refl _, List.Perm.refl _, rfl⟩

end Logs

section Parts

variable {Payload Callback : Type} (script : Script Payload Callback)

theorem fate_ensures (outcome : Option Payload) :
    (Code.call (fate outcome) : ScriptCode Payload Unit).Ensures ()
      (outcome = none) fun _ _ events => events = [] := by
  cases outcome with
  | none => exact Code.ensures_of_run rfl rfl rfl
  | some payload =>
      constructor
      · intro returns
        cases returns
      · intro _ value same
        cases same

private theorem dropAll_ensures (outcomes : List (Option Payload)) :
    (Code.dropAll Code.call (outcomes.map fate) :
        ScriptCode Payload Unit).Ensures ()
      (∀ outcome ∈ outcomes, outcome = none) fun _ _ events =>
        events = [] := by
  induction outcomes with
  | nil => exact Code.ensures_of_run (by simp) rfl rfl
  | cons outcome rest inductionHypothesis =>
      refine Code.Ensures.congr List.forall_mem_cons ?_
      apply (fate_ensures outcome).onUnwind.bind
      intro _ _ events isEmpty
      apply inductionHypothesis.weaken Iff.rfl
      intro _ _ more isMore
      rw [isEmpty, isMore]
      rfl

theorem release_ensures :
    (release script.user : ScriptCode Payload Unit).Ensures ()
      (∀ outcome ∈ script.reclaimed, outcome = none) fun _ _ events =>
        events = [] :=
  Code.Ensures.after rfl (dropAll_ensures script.reclaimed)

theorem dropList_ensures :
    (dropList script.user : ScriptCode Payload Unit).Ensures ()
      (ListReturns script) fun _ _ events => events = [] :=
  Code.Ensures.after rfl (dropAll_ensures script.lastOwner)

private theorem intendedInvoke_harmless
    (holder : Callback) (info : PanicInfo Payload) :
    (intendedInvoke (H := Start Payload) script.user.reporting holder info
        ()).harmless = true ↔
      ∀ second, script.callback holder info = some second →
        script.dropPayload second = none := by
  simp only [intendedInvoke, Intended.harmless_bind, Intended.harmless_log,
    Intended.harmless_attempt, Bool.true_and, Intended.value_attempt]
  cases called : script.callback holder info with
  | none => simp [User.reporting, Script.user, fate, called]
  | some second => simp [User.reporting, Script.user, fate, called]

private theorem intendedReport_harmless (info : PanicInfo Payload) :
    (intendedReport (H := Start Payload) script.user.reporting
        info.handlerId info.payload ()).harmless = true ↔
      ReportReturns script info := by
  have payload : ∀ world, ((Intended.destroy
      (script.user.reporting.dropPayload info.payload) :
        Intended Unit (Event (Start Payload) Payload) Unit)
          world).harmless = true ↔
      script.dropPayload info.payload = none := by
    intro world
    rw [Intended.harmless_destroy]
    exact Option.isNone_iff_eq_none
  simp only [intendedReport, Intended.harmless_scope,
    Intended.harmless_bind, Intended.harmless_get, Intended.value_get,
    Intended.world_get, Bool.true_and, Bool.and_eq_true, payload,
    ReportReturns]
  have isInstalled : script.user.reporting.installed () =
      script.installed := rfl
  rw [isInstalled]
  cases script.installed with
  | none => simp
  | some holder =>
      simp only [Intended.harmless_scope, Bool.and_eq_true,
        intendedInvoke_harmless, Intended.harmless_destroy,
        Option.isNone_iff_eq_none, Option.some.injEq, forall_eq']
      constructor
      · rintro ⟨⟨invoked, held⟩, dropped⟩
        exact ⟨dropped, held, invoked⟩
      · rintro ⟨dropped, held, invoked⟩
        exact ⟨⟨invoked, held⟩, dropped⟩

private theorem handlePanic_ensures (info : PanicInfo Payload) :
    (handlePanic script.user info.handlerId info.payload :
        ScriptCode Payload Unit).Ensures ()
      (ReportReturns script info) fun _ _ events =>
        Logs events [] [] [] (script.calls [info]) := by
  have meets := (reportPanic_meets (H := Start Payload)
    script.user.reporting info.handlerId info.payload).ensures ()
  refine meets.weaken (intendedReport_harmless script info).symm ?_
  rintro _ _ events ⟨_, _, rfl⟩
  rw [intendedReport_events]
  change Logs [.ofPanic script.installed.isSome info] [] [] [] _
  unfold Script.calls
  cases script.installed.isSome with
  | true => exact Logs.read _
  | false => exact Logs.read _

theorem report_ensures (entry : Entry Payload) (panic : Option Payload) :
    (report script.user entry panic).Ensures ()
      (ReportsReturn script (panicOf entry panic).toList)
      fun _ _ events =>
        Logs events [] [] []
          (script.calls (panicOf entry panic).toList) := by
  cases panic with
  | none =>
      refine Code.ensures_of_run (by simp [ReportsReturn, panicOf]) rfl ?_
      simpa [panicOf, Script.calls_nil] using Logs.read []
  | some payload =>
      exact (handlePanic_ensures script ⟨entry.id, payload⟩).congr
        (by simp [ReportsReturn, panicOf])

theorem start_future
    {entry : Entry Payload} {future : Future Payload}
    (made : entry.handler = .future future) :
    start script.user () entry () =
      ⟨.returned (.ok future), (), [.invoked entry]⟩ := by
  obtain ⟨handlerId, priority, handler⟩ := entry
  cases made
  rfl

theorem start_panics
    {entry : Entry Payload} {payload : Payload}
    (made : entry.handler = .panics payload) :
    start script.user () entry () =
      ⟨.returned (.error payload), (),
        [.invoked entry, .ended entry (some payload)]⟩ := by
  obtain ⟨handlerId, priority, handler⟩ := entry
  cases made
  rfl

theorem pollCaught_ready
    (entry : Entry Payload) (ending destructor : Option Payload) :
    pollCaught script.user entry ⟨0, ending, destructor⟩ () =
      ⟨.returned (.ready ending), (),
        [.polled entry, .ended entry ending]⟩ := by
  cases ending with
  | none => rfl
  | some payload => rfl

private theorem catchUnwindPoll_pending
    (entry : Entry Payload) (pending : Nat)
    (ending destructor : Option Payload) :
    catchUnwindPoll script.user entry ⟨pending + 1, ending, destructor⟩ () =
      ⟨.returned (.pending ⟨pending, ending, destructor⟩), (),
        [.polled entry]⟩ :=
  rfl

/-- The future is dropped with the poll that ends it. -/
private theorem catchUnwindPoll_ready
    (entry : Entry Payload) (ending destructor : Option Payload) :
    (catchUnwindPoll script.user entry
        ⟨0, ending, destructor⟩).Ensures ()
      (destructor = none) fun value _ events =>
        value = .ready ending ∧
          Logs events [] [(entry, ending)] [entry] [] := by
  refine Code.Ensures.after
    (Code.bind_of_returned (pollCaught_ready script entry ending
      destructor)) ?_
  apply (fate_ensures destructor).onUnwind.bindPure
  rintro _ _ more rfl
  exact ⟨rfl, Logs.read _⟩

/-- A dispatch that is ready drops its list. -/
theorem ready_ensures
    {S : Type} (poll : S → ScriptCode Payload (Option S)) (fuel : Nat) :
    (driveFrom (dropList script.user) poll fuel (return none)).Ensures ()
      (ListReturns script) fun left _ events =>
        left = some fuel ∧ Logs events [] [] [] [] := by
  refine (dropList_ensures script).ready ?_
  rintro _ _ rfl
  exact ⟨rfl, Logs.read _⟩

end Parts

section Handlers

variable {Payload Callback : Type} (script : Script Payload Callback)

/-- What a dispatch of a list of handlers guarantees: it is ready with `left`
polls left, after each of them was started, polled and ended, and after the
panics were reported. -/
def Dispatches (handlers : List (Entry Payload)) (harmless : Prop)
    (left : Nat) (code : ScriptCode Payload (Option Nat)) : Prop :=
  code.Ensures () harmless fun result _ events => result = some left ∧
    Logs events handlers (endingsOf handlers) (pollsOf handlers)
      (script.calls (panicsOf handlers))

theorem Logs.nothing
    {events : List (Event (Start Payload) Payload)}
    (silent : Logs events [] [] [] []) :
    Logs events [] (endingsOf []) (pollsOf [])
      (script.calls (panicsOf [])) := by
  simpa [panicsOf, endingsOf, pollsOf, Script.calls_nil] using silent

theorem nothing_dispatches
    {S : Type} (poll : S → ScriptCode Payload (Option S)) (fuel : Nat) :
    Dispatches script [] (HandlersReturn script []) fuel
      (driveFrom (dropList script.user) poll fuel (return none)) := by
  refine (ready_ensures script _ fuel).weaken (handlersReturn_nil script) ?_
  rintro left _ events ⟨isReady, logs⟩
  exact ⟨isReady, logs.nothing script⟩

section Await

variable {script} {S : Type} {poll : S → ScriptCode Payload (Option S)}
variable {entry : Entry Payload} {suspended : Future Payload → S}
variable {goOn : ScriptCode Payload (Option S)}
variable {rest : List (Entry Payload)} {polls : Nat}

private theorem await_ensures
    (resumes : ∀ future, poll (suspended future) =
      holding (dropList script.user)
        (awaitWith script.user entry suspended goOn future))
    (others : ∀ fuel, polls ≤ fuel →
      Dispatches script rest (HandlersReturn script rest) (fuel - polls)
        (driveFrom (dropList script.user) poll fuel goOn))
    (ending destructor : Option Payload)
    (pending fuel : Nat) (enough : pending + polls ≤ fuel) :
    (driveFrom (dropList script.user) poll fuel
        (awaitWith script.user entry suspended goOn
          ⟨pending, ending, destructor⟩)).Ensures ()
      (destructor = none ∧
        ReportsReturn script (panicOf entry ending).toList ∧
        HandlersReturn script rest) fun left _ events =>
          left = some (fuel - (pending + polls)) ∧
            Logs events rest ((entry, ending) :: endingsOf rest)
              (List.replicate (pending + 1) entry ++ pollsOf rest)
              (script.calls ((panicOf entry ending).toList ++
                panicsOf rest)) := by
  induction pending generalizing fuel with
  | zero =>
      refine (catchUnwindPoll_ready script entry ending
        destructor).driveFrom ?_
      rintro value world events ⟨rfl, logs⟩
      refine (report_ensures script entry ending).driveFrom ?_
      intro _ _ more reported
      refine (others fuel (by omega)).weaken Iff.rfl ?_
      rintro left _ last ⟨isReady, later⟩
      rw [Nat.zero_add]
      refine ⟨isReady, ?_⟩
      rw [Script.calls_append]
      exact logs.append (reported.append later)
  | succ pending inductionHypothesis =>
      obtain ⟨fuel, rfl⟩ : ∃ less, fuel = less + 1 :=
        ⟨fuel - 1, by omega⟩
      have again : drive poll (fuel + 1)
          (suspended ⟨pending, ending, destructor⟩) =
            driveFrom (dropList script.user) poll fuel
              (awaitWith script.user entry suspended goOn
                ⟨pending, ending, destructor⟩) := by
        rw [drive, resumes]
        rfl
      refine Code.Ensures.after (driveFrom_bind_of_returned
        (catchUnwindPoll_pending script entry pending ending
          destructor)) ?_
      change (drive poll (fuel + 1) _).Ensures _ _ _
      rw [again]
      refine (inductionHypothesis fuel (by omega)).weaken Iff.rfl ?_
      rintro left _ events ⟨isReady, logs⟩
      have shifted : fuel + 1 - (pending + 1 + polls) =
          fuel - (pending + polls) := by omega
      rw [shifted]
      have polled : Logs [.polled entry] [] [] [entry]
          ([] : List (PanicInfo Payload)) := Logs.read _
      exact ⟨isReady, polled.append logs⟩

/-- One handler in front of the handlers that follow. -/
theorem handler_dispatches
    (resumes : ∀ future, poll (suspended future) =
      holding (dropList script.user)
        (awaitWith script.user entry suspended goOn future))
    (others : ∀ fuel, polls ≤ fuel →
      Dispatches script rest (HandlersReturn script rest) (fuel - polls)
        (driveFrom (dropList script.user) poll fuel goOn))
    (fuel : Nat) (enough : entry.handler.pending + polls ≤ fuel) :
    Dispatches script (entry :: rest) (HandlersReturn script (entry :: rest))
      (fuel - (entry.handler.pending + polls))
      (driveFrom (dropList script.user) poll fuel
        (handleWith script.user () entry suspended goOn)) := by
  have condition := handlersReturn_cons script entry rest
  unfold Dispatches endingsOf pollsOf
  rw [panicsOf_cons, List.map_cons, List.flatMap_cons]
  cases made : entry.handler with
  | future future =>
      obtain ⟨pending, ending, destructor⟩ := future
      rw [made] at enough condition
      refine Code.Ensures.after
        (driveFrom_bind_of_returned (start_future script made)) ?_
      refine (await_ensures resumes others ending destructor pending fuel
        enough).weaken condition ?_
      rintro left _ events ⟨isReady, logs⟩
      have first : Logs [.invoked entry] [entry] [] []
          ([] : List (PanicInfo Payload)) := Logs.read _
      exact ⟨isReady, first.append logs⟩
  | panics payload =>
      rw [made] at enough condition
      have both : HandlersReturn script (entry :: rest) ↔
          ReportReturns script ⟨entry.id, payload⟩ ∧
            HandlersReturn script rest := by
        rw [condition]
        simp [Start.DropReturns, Start.outcome, panicOf, ReportsReturn]
      refine Code.Ensures.after
        (driveFrom_bind_of_returned (start_panics script made)) ?_
      refine Code.Ensures.congr both ?_
      refine (handlePanic_ensures script ⟨entry.id, payload⟩).driveFrom ?_
      intro _ _ more calls
      refine (others fuel (le_trans (Nat.le_add_left _ _) enough)).weaken
        Iff.rfl ?_
      rintro left _ last ⟨isReady, later⟩
      have first : Logs [.invoked entry, .ended entry (some payload)]
          [entry] [(entry, some payload)] []
          ([] : List (PanicInfo Payload)) := Logs.read _
      have none : (Start.panics payload).pending + polls = polls :=
        Nat.zero_add polls
      rw [none]
      refine ⟨isReady, ?_⟩
      rw [Script.calls_append]
      exact first.append (calls.append later)

end Await

/-- The number of polls at which a list of handlers is pending, one after
another. -/
def pendingPolls (handlers : List (Entry Payload)) : Nat :=
  (handlers.map fun entry => entry.handler.pending).sum

theorem sequentialLoop_dispatches
    (handlers : List (Entry Payload)) (fuel : Nat)
    (enough : pendingPolls handlers ≤ fuel) :
    Dispatches script handlers (HandlersReturn script handlers)
      (fuel - pendingPolls handlers)
      (driveFrom (dropList script.user) (pollSequential script.user ()) fuel
        (sequentialLoop script.user () handlers)) := by
  induction handlers generalizing fuel with
  | nil => exact nothing_dispatches script _ fuel
  | cons entry rest inductionHypothesis =>
      have split : pendingPolls (entry :: rest) =
          entry.handler.pending + pendingPolls rest := by
        simp [pendingPolls]
      have resumes : ∀ future, pollSequential script.user ()
          (.awaiting entry future rest) = holding (dropList script.user)
            (awaitWith script.user entry (.awaiting entry · rest)
              (sequentialLoop script.user () rest) future) := fun _ => rfl
      rw [split] at enough ⊢
      exact handler_dispatches resumes inductionHypothesis fuel enough

end Handlers

end RegistryIo.Isolation.Async
