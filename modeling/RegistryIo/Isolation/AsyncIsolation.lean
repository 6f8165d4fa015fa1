import Mathlib.Algebra.BigOperators.Group.Multiset.Basic
import RegistryIo.Isolation.AsyncJoin

/-!
# Isolation of the asynchronous dispatches

`Work` is what a dispatch still has to do: handlers to call, futures to poll
until they end, and panics to report.  Each part of a dispatch turns some work
into other work, and a poll leaves the work of the state in which the dispatch
is suspended.  A dispatch that is polled often enough leaves nothing, unless a
destructor panics.

The code from outside is arbitrary and may change between the polls; the only
assumption is that every future ends.
-/

namespace RegistryIo.Isolation.Async

open RegistryIo.Unwinding

section Work

variable {E H F Payload Callback σ : Type}

namespace Request

/-- The handler that is called, and the event it gets. -/
def called : Request E H F Payload Callback → Option (H × E)
  | .call handler event _ => some (handler, event)
  | _ => none

/-- The future that is polled. -/
def polled : Request E H F Payload Callback → Option F
  | .poll future _ => some future
  | _ => none

/-- The future that an answer gives: that of a handler, or the next state of
a future that is pending. -/
def made : Request E H F Payload Callback → Option F
  | .call _ _ (.ok future) => some future
  | .poll _ (.ok (some next)) => some next
  | _ => none

/-- A poll that finds its future pending. -/
def pends : Request E H F Payload Callback → Bool
  | .poll _ (.ok (some _)) => true
  | _ => false

end Request

/-- Every future ends: it is pending at most as often as its rank says, and
that of a handler at most as often as the bound of the handler says. -/
structure Ends (user : User E H F Payload Callback σ) (event : E)
    (rank : F → Nat) (bound : H → Nat) : Prop where
  starts : ∀ handler world future,
    (user.call handler event world).1 = .ok future →
      rank future ≤ bound handler
  polls : ∀ future world next,
    (user.poll future world).1 = .ok (some next) → rank next < rank future

structure Work (H F Payload : Type) where
  entries : List (HandlerEntry H)
  futures : Multiset (HandlerEntry H × F)
  held : Multiset (PanicInfo Payload)

namespace Work

def done : Work H F Payload :=
  ⟨[], 0, 0⟩

/-- A bound on the polls that find a future pending. -/
def left (rank : F → Nat) (bound : H → Nat) (work : Work H F Payload) :
    Nat :=
  (work.entries.map fun entry => bound entry.handler).sum +
    (work.futures.map fun future => rank future.2).sum

/-- The work after the call of a handler. -/
def started (entry : HandlerEntry H) (work : Work H F Payload) :
    Except Payload F → Work H F Payload
  | .ok future =>
      ⟨work.entries, (entry, future) ::ₘ work.futures, work.held⟩
  | .error payload =>
      ⟨work.entries, work.futures, ⟨entry.id, payload⟩ ::ₘ work.held⟩

/-- The work after a poll of a future. -/
def polled (entry : HandlerEntry H) (work : Work H F Payload) :
    Polled F Payload → Work H F Payload
  | .pending next => ⟨work.entries, (entry, next) ::ₘ work.futures, work.held⟩
  | .ready none => work
  | .ready (some payload) =>
      ⟨work.entries, work.futures, ⟨entry.id, payload⟩ ::ₘ work.held⟩

end Work

/-- Part of a dispatch turns the work `before` into the work `after`.  What is
called, polled and reported, and what is logged about it, is the difference of
the two. -/
structure Advances (user : User E H F Payload Callback σ) (event : E)
    (before after : Work H F Payload)
    (requests : List (Request E H F Payload Callback))
    (events : List (Event H Payload)) : Prop where
  called : requests.filterMap Request.called ++
      after.entries.map (fun entry => (entry.handler, event)) =
    before.entries.map fun entry => (entry.handler, event)
  polled : (requests.filterMap Request.polled : Multiset F) +
      after.futures.map Prod.snd =
    before.futures.map Prod.snd + (requests.filterMap Request.made : Multiset F)
  started : events.filterMap Event.invocation ++ after.entries =
    before.entries
  ended : ((events.filterMap Event.ending).map Prod.fst :
      Multiset (HandlerEntry H)) +
        (after.futures.map Prod.fst +
          (after.entries : Multiset (HandlerEntry H))) =
    before.futures.map Prod.fst +
      (before.entries : Multiset (HandlerEntry H))
  reported : (events.filterMap Event.report :
      Multiset (PanicInfo Payload)) + after.held =
    before.held +
      (events.filterMap Event.panic : Multiset (PanicInfo Payload))
  told : Told requests events
  installed : (∀ world, (user.installed world).isSome = true) →
    events.filterMap Event.report = requests.filterMap Request.report
  spent : ∀ {rank bound}, Ends user event rank bound →
    (∀ request ∈ requests, request.Genuine user) →
      requests.countP Request.pends + after.left rank bound ≤
        before.left rank bound

end Work

section Steps

variable {E H F Payload Callback σ : Type}
variable {user : User E H F Payload Callback σ} {event : E}

theorem Advances.trans
    {first second third : Work H F Payload}
    {requests more : List (Request E H F Payload Callback)}
    {events log : List (Event H Payload)}
    (before : Advances user event first second requests events)
    (after : Advances user event second third more log) :
    Advances user event first third (requests ++ more) (events ++ log) where
  called := by
    rw [List.filterMap_append, List.append_assoc, after.called,
      before.called]
  polled := by
    rw [List.filterMap_append, List.filterMap_append, ← Multiset.coe_add,
      ← Multiset.coe_add, add_assoc, after.polled, ← add_assoc,
      before.polled, add_assoc]
  started := by
    rw [List.filterMap_append, List.append_assoc, after.started,
      before.started]
  ended := by
    rw [List.filterMap_append, List.map_append, ← Multiset.coe_add,
      add_assoc, after.ended, before.ended]
  reported := by
    rw [List.filterMap_append, List.filterMap_append, ← Multiset.coe_add,
      ← Multiset.coe_add, add_assoc, after.reported, ← add_assoc,
      before.reported, add_assoc]
  told := before.told.append after.told
  installed := by
    intro installed
    rw [List.filterMap_append, List.filterMap_append,
      before.installed installed, after.installed installed]
  spent := by
    intro rank bound ends genuine
    obtain ⟨genuine, genuine'⟩ := List.forall_mem_append.mp genuine
    have first := before.spent ends genuine
    have second := after.spent ends genuine'
    rw [List.countP_append]
    omega

private theorem advances_free
    (work : Work H F Payload)
    {requests : List (Request E H F Payload Callback)}
    (frees : Frees requests) :
    Advances user event work work requests [] := by
  have nothing : ∀ {α : Type}
      (select : Request E H F Payload Callback → Option α),
      select (.dropHandler none) = none →
        requests.filterMap select = [] := by
    intro α select silent
    apply List.filterMap_eq_nil_iff.mpr
    intro request member
    rw [frees request member]
    exact silent
  have pends : requests.countP Request.pends = 0 := by
    apply List.countP_eq_zero.mpr
    intro request member
    rw [frees request member]
    nofun
  constructor
  · rw [nothing Request.called rfl]
    rfl
  · rw [nothing Request.polled rfl, nothing Request.made rfl]
    exact add_comm _ _
  · rfl
  · exact zero_add _
  · exact add_comm _ _
  · exact frees.told
  · intro _
    rw [nothing Request.report rfl]
    rfl
  · intro rank bound _ _
    rw [pends, Nat.zero_add]

private theorem advances_start
    (entry : HandlerEntry H) (work : Work H F Payload)
    (started : Except Payload F) :
    Advances user event
      ⟨entry :: work.entries, work.futures, work.held⟩
      (work.started entry started)
      [.call entry.handler event started] (startEvents entry started) := by
  cases started with
  | ok future =>
      refine ⟨rfl, ?_, rfl, ?_, ?_, rfl, fun _ => rfl, ?_⟩
      · simp [List.filterMap_cons, Work.started, Request.polled,
          Request.made, add_comm _ {future}]
      · simp [List.filterMap_cons, Work.started, startEvents, Event.ending]
        rw [← Multiset.cons_coe, Multiset.add_cons]
      · simp [List.filterMap_cons, Work.started, startEvents, Event.report,
          Event.panic]
      · intro rank bound ends genuine
        obtain ⟨world, answered⟩ := List.forall_mem_singleton.mp genuine
        have bounded := ends.starts entry.handler world future answered
        simp only [Work.left, Work.started, List.map_cons, List.sum_cons,
          Multiset.map_cons, Multiset.sum_cons, List.countP_singleton,
          Request.pends, Bool.false_eq_true, reduceIte]
        omega
  | error payload =>
      refine ⟨rfl, ?_, rfl, ?_, ?_, rfl, fun _ => rfl, ?_⟩
      · simp [List.filterMap_cons, Work.started, Request.polled,
          Request.made]
      · simp [List.filterMap_cons, Work.started, startEvents, Event.ending]
        rw [← Multiset.cons_coe, Multiset.add_cons]
      · simp [List.filterMap_cons, Work.started, startEvents, Event.report,
          Event.panic, add_comm _ {PanicInfo.mk entry.id payload}]
      · intro rank bound _ _
        simp only [Work.left, Work.started, List.map_cons, List.sum_cons,
          List.countP_singleton, Request.pends, Bool.false_eq_true,
          reduceIte]
        omega

private theorem advances_poll
    (entry : HandlerEntry H) (future : F) (work : Work H F Payload)
    (polled : Polled F Payload) :
    Advances user event
      ⟨work.entries, (entry, future) ::ₘ work.futures, work.held⟩
      (work.polled entry polled) (pollRequests future polled)
      (pollEvents entry polled) := by
  match polled with
  | .pending next =>
      refine ⟨rfl, ?_, rfl, ?_, ?_, rfl, fun _ => rfl, ?_⟩
      · simp [Work.polled, pollRequests, Polled.answer, Request.polled,
          Request.made, add_comm _ {next}]
        exact Multiset.cons_swap _ _ _
      · simp [List.filterMap_cons, Work.polled, pollEvents, Event.ending]
      · simp [List.filterMap_cons, Work.polled, pollEvents, Event.report,
          Event.panic]
      · intro rank bound ends genuine
        obtain ⟨world, answered⟩ := List.forall_mem_singleton.mp genuine
        have closer := ends.polls future world next answered
        simp only [Work.left, Work.polled, pollRequests, Polled.answer,
          Multiset.map_cons, Multiset.sum_cons, List.countP_singleton,
          Request.pends, reduceIte]
        omega
  | .ready none =>
      refine ⟨rfl, ?_, rfl, ?_, ?_, rfl, fun _ => rfl, ?_⟩
      · simp [List.filterMap_cons, Work.polled, pollRequests,
          Polled.answer, Request.polled, Request.made]
      · simp [List.filterMap_cons, Work.polled, pollEvents, Event.ending]
      · simp [List.filterMap_cons, Work.polled, pollEvents, Event.report,
          Event.panic]
      · intro rank bound _ _
        simp [Work.left, Work.polled, pollRequests, Polled.answer,
          Request.pends]
  | .ready (some payload) =>
      refine ⟨rfl, ?_, rfl, ?_, ?_, rfl, fun _ => rfl, ?_⟩
      · simp [List.filterMap_cons, Work.polled, pollRequests,
          Polled.answer, Request.polled, Request.made]
      · simp [List.filterMap_cons, Work.polled, pollEvents, Event.ending]
      · simp [List.filterMap_cons, Work.polled, pollEvents, Event.report,
          Event.panic, add_comm _ {PanicInfo.mk entry.id payload}]
      · intro rank bound _ _
        simp [Work.left, Work.polled, pollRequests, Polled.answer,
          Request.pends]

private theorem advances_report
    {info : PanicInfo Payload} (work : Work H F Payload)
    {requests : List (Request E H F Payload Callback)}
    {events : List (Event H Payload)}
    (reports : Reports user info requests events) :
    Advances user event
      ⟨work.entries, work.futures, info ::ₘ work.held⟩ work requests
      events := by
  have spent : requests.countP Request.pends = 0 := by
    cases reports <;> rfl
  have asked : requests.filterMap Request.called = [] ∧
      requests.filterMap Request.polled = [] ∧
      requests.filterMap Request.made = [] := by
    cases reports <;> exact ⟨rfl, rfl, rfl⟩
  have logged : events.filterMap Event.invocation = [] ∧
      events.filterMap Event.ending = [] ∧
      events.filterMap Event.report = [info] ∧
      events.filterMap Event.panic = [] := by
    cases reports <;> exact ⟨rfl, rfl, rfl, rfl⟩
  obtain ⟨called, polled, made⟩ := asked
  obtain ⟨invoked, ended, reported, panicked⟩ := logged
  constructor
  · rw [called]
    rfl
  · simp [polled, made]
  · rw [invoked]
    rfl
  · simp [ended]
  · simp [reported, panicked]
  · cases reports <;> rfl
  · intro always
    cases reports with
    | @missing world installed =>
        have present := always world
        rw [installed] at present
        cases present
    | returns installed => rfl
    | panics second installed => rfl
  · intro rank bound _ _
    rw [spent, Nat.zero_add]
    exact Nat.le_refl _

end Steps

section Slots

variable {E H F Payload Callback σ : Type}
variable {user : User E H F Payload Callback σ} {event : E}

/-- The future that is running in a slot. -/
def runningFuture :
    HandlerEntry H × Slot F Payload → Option (HandlerEntry H × F)
  | (entry, .running future) => some (entry, future)
  | _ => none

/-- The panic that a slot holds. -/
def heldPanic :
    HandlerEntry H × Slot F Payload → Option (PanicInfo Payload)
  | (entry, .panicked payload) => some ⟨entry.id, payload⟩
  | _ => none

/-- The work of a join, added to other work. -/
def slotsWork (slots : Slots H F Payload) (work : Work H F Payload) :
    Work H F Payload :=
  ⟨work.entries, slots.filterMap runningFuture + work.futures,
    slots.filterMap heldPanic + work.held⟩

private theorem slotsWork_nil (work : Work H F Payload) :
    slotsWork [] work = work := by
  simp [slotsWork]

private theorem slotsWork_cons
    (slot : HandlerEntry H × Slot F Payload) (slots : Slots H F Payload)
    (work : Work H F Payload) :
    slotsWork (slot :: slots) work =
      slotsWork [slot] (slotsWork slots work) := by
  have split : ∀ {α : Type}
      (select : HandlerEntry H × Slot F Payload → Option α)
      (others : Multiset α),
      ((slot :: slots).filterMap select : Multiset α) + others =
        ([slot].filterMap select : Multiset α) +
          ((slots.filterMap select : Multiset α) + others) := by
    intro α select others
    rw [← List.singleton_append, List.filterMap_append, ← Multiset.coe_add,
      add_assoc]
  unfold slotsWork
  rw [split, split]

/-- The work of the slots can be done in any order. -/
private theorem slotsWork_comm
    (slots slots' : Slots H F Payload) (work : Work H F Payload) :
    slotsWork slots (slotsWork slots' work) =
      slotsWork slots' (slotsWork slots work) := by
  unfold slotsWork
  rw [add_left_comm, add_left_comm (slots.filterMap heldPanic :
    Multiset (PanicInfo Payload))]

private theorem slotsWork_new
    (entry : HandlerEntry H) (started : Except Payload F)
    (work : Work H F Payload) :
    slotsWork [(entry, .new started)] work = work.started entry started := by
  cases started with
  | ok future =>
      simp [slotsWork, Slot.new, runningFuture, heldPanic, Work.started,
        List.filterMap_cons]
  | error payload =>
      simp [slotsWork, Slot.new, runningFuture, heldPanic, Work.started,
        List.filterMap_cons]

private theorem slotsWork_running
    (entry : HandlerEntry H) (future : F) (work : Work H F Payload) :
    slotsWork [(entry, .running future)] work =
      ⟨work.entries, (entry, future) ::ₘ work.futures, work.held⟩ :=
  slotsWork_new entry (.ok future) work

private theorem slotsWork_done
    (entry : HandlerEntry H) (work : Work H F Payload) :
    slotsWork [(entry, .done)] work = work := by
  simp [slotsWork, runningFuture, heldPanic, List.filterMap_cons]

private theorem slotsWork_panicked
    (entry : HandlerEntry H) (payload : Payload) (work : Work H F Payload) :
    slotsWork [(entry, .panicked payload)] work =
      ⟨work.entries, work.futures, ⟨entry.id, payload⟩ ::ₘ work.held⟩ :=
  slotsWork_new entry (.error payload) work

private theorem advances_refl (work : Work H F Payload) :
    Advances user event work work [] [] :=
  advances_free work nofun

private theorem advances_starts
    {list : List (HandlerEntry H)} {slots : Slots H F Payload}
    {requests : List (Request E H F Payload Callback)}
    {events : List (Event H Payload)}
    (starts : Join.StartsAll event list slots requests events)
    (work : Work H F Payload) :
    Advances user event
      ⟨list ++ work.entries, work.futures, work.held⟩
      (slotsWork slots work) requests events := by
  induction starts generalizing work with
  | nil =>
      rw [slotsWork_nil]
      exact advances_refl work
  | @cons list slots _ _ entry started _ inductionHypothesis =>
      have first : Advances user event _ _ _ _ := advances_start entry
        ⟨list ++ work.entries, work.futures, work.held⟩ started
      have goesOn := inductionHypothesis (work.started entry started)
      have same : (⟨list ++ work.entries, work.futures, work.held⟩ :
          Work H F Payload).started entry started =
            ⟨list ++ (work.started entry started).entries,
              (work.started entry started).futures,
              (work.started entry started).held⟩ := by
        cases started <;> rfl
      rw [same] at first
      rw [← slotsWork_new, slotsWork_comm, ← slotsWork_cons] at goesOn
      rw [← slotsWork_new] at first
      exact first.trans goesOn

private theorem advances_slot
    {slot slot' : HandlerEntry H × Slot F Payload}
    {requests : List (Request E H F Payload Callback)}
    {events : List (Event H Payload)}
    (polls : Join.PollsSlot slot slot' requests events)
    (work : Work H F Payload) :
    Advances user event (slotsWork [slot] work) (slotsWork [slot'] work)
      requests events := by
  cases polls with
  | pending entry future next =>
      rw [slotsWork_running, slotsWork_running]
      exact advances_poll entry future work (.pending next)
  | ready entry future =>
      rw [slotsWork_running, slotsWork_done]
      exact advances_poll entry future work (.ready none)
  | panics entry future payload =>
      rw [slotsWork_running, slotsWork_panicked]
      exact advances_poll entry future work
        (.ready (some payload))
  | ended slot isEnded => exact advances_refl _

private theorem advances_slots
    {slots slots' : Slots H F Payload}
    {requests : List (Request E H F Payload Callback)}
    {events : List (Event H Payload)}
    (polls : Join.PollsSlots slots slots' requests events)
    (work : Work H F Payload) :
    Advances user event (slotsWork slots work) (slotsWork slots' work)
      requests events := by
  induction polls generalizing work with
  | nil => exact advances_refl _
  | @cons slot slot' slots slots' _ _ _ _ first _ inductionHypothesis =>
      have one : Advances user event _ _ _ _ :=
        advances_slot first (slotsWork slots work)
      have others := inductionHypothesis (slotsWork [slot'] work)
      rw [slotsWork_comm slots, slotsWork_comm slots'] at others
      rw [slotsWork_cons, slotsWork_cons slot' slots']
      exact one.trans others

/-- A pass that leaves a future running has found it pending. -/
private theorem pends_of_running
    {slots slots' : Slots H F Payload}
    {requests : List (Request E H F Payload Callback)}
    {events : List (Event H Payload)}
    (polls : Join.PollsSlots slots slots' requests events)
    (goesOn : Join.running slots' ≠ []) :
    0 < requests.countP Request.pends := by
  induction polls with
  | nil => exact absurd rfl goesOn
  | cons first _ inductionHypothesis =>
      rw [List.countP_append]
      cases first with
      | pending entry future next => exact Nat.add_pos_left Nat.one_pos _
      | ready entry future =>
          exact Nat.add_pos_right _ (inductionHypothesis goesOn)
      | panics entry future payload =>
          exact Nat.add_pos_right _ (inductionHypothesis goesOn)
      | ended slot isEnded =>
          refine Nat.add_pos_right _ (inductionHypothesis ?_)
          unfold Join.running at goesOn
          rw [List.filter_cons_of_neg (by simp [isEnded])] at goesOn
          exact goesOn

private theorem advances_reports
    {slots : Slots H F Payload}
    {requests : List (Request E H F Payload Callback)}
    {events : List (Event H Payload)}
    (reports : Join.ReportsSlots user slots requests events)
    (work : Work H F Payload) :
    Advances user event (slotsWork slots work) work requests events := by
  induction reports with
  | nil =>
      rw [slotsWork_nil]
      exact advances_refl work
  | done entry _ inductionHypothesis =>
      rw [slotsWork_cons, slotsWork_done]
      exact inductionHypothesis
  | panicked first _ inductionHypothesis =>
      rw [slotsWork_cons, slotsWork_panicked]
      exact (advances_report _ first).trans inductionHypothesis

end Slots

section Drivers

variable {E H F Payload Callback σ S : Type}
variable {user : User E H F Payload Callback σ} {event : E}

/-- A poll with the work `before` leaves nothing, or it finds a future pending
and leaves the work of a sound state. -/
def StepsTo (user : User E H F Payload Callback σ) (event : E)
    (work : S → Work H F Payload) (Sound : S → σ → Prop)
    (before : Work H F Payload) (next : Option S)
    (requests : List (Request E H F Payload Callback))
    (events : List (Event H Payload)) : Prop :=
  Advances user event before (next.elim .done work) requests events ∧
    ∀ later, next = some later →
      0 < requests.countP Request.pends ∧ ∀ world, Sound later world

variable {work : S → Work H F Payload} {Sound : S → σ → Prop}

theorem StepsTo.after
    {first second : Work H F Payload} {next : Option S}
    {requests more : List (Request E H F Payload Callback)}
    {events log : List (Event H Payload)}
    (advances : Advances user event first second requests events)
    (steps : StepsTo user event work Sound second next more log) :
    StepsTo user event work Sound first next (requests ++ more)
      (events ++ log) := by
  refine ⟨advances.trans steps.1, ?_⟩
  intro later isLater
  obtain ⟨pends, sound⟩ := steps.2 later isLater
  rw [List.countP_append]
  exact ⟨Nat.add_pos_right _ pends, sound⟩

private theorem stepsTo_none
    {before : Work H F Payload}
    {requests : List (Request E H F Payload Callback)}
    {events : List (Event H Payload)}
    (advances : Advances user event before .done requests events) :
    StepsTo user event work Sound before none requests events :=
  ⟨advances, nofun⟩

private theorem nothing_steps (world : σ) :
    Asks user (return none)
      (return none : AsyncCode σ H Payload (Option S)) world
      (StepsTo user event work Sound ⟨[], 0, 0⟩) :=
  Code.asks_pure (stepsTo_none (advances_refl _))

/-- A dispatch that is ready drops its list. -/
private theorem holding_steps
    {body' : AsyncCode (σ × List (Request E H F Payload Callback)) H Payload
      (Option S)}
    {body : AsyncCode σ H Payload (Option S)} {world : σ}
    {before : Work H F Payload}
    (asks : Asks user body' body world
      (StepsTo user event work Sound before)) :
    Asks user (holding (dropList user.recorded) body')
      (holding (dropList user) body) world
      (StepsTo user event work Sound before) := by
  refine asks.holding (dropList_asks user) ?_ ?_
  · rintro requests events more _ steps ⟨frees, rfl⟩
    exact stepsTo_none (steps.1.trans (advances_free _ frees))
  · exact fun _ _ _ steps => steps

/-- The first poll. -/
private theorem loadThen_steps
    {body' : List (HandlerEntry H) → AsyncCode
      (σ × List (Request E H F Payload Callback)) H Payload (Option S)}
    {body : List (HandlerEntry H) → AsyncCode σ H Payload (Option S)}
    (runs : ∀ handlers world, Asks user (body' handlers) (body handlers)
      world (StepsTo user event work Sound ⟨handlers, 0, 0⟩))
    (world : σ) :
    Asks user (loadThen user.recorded body') (loadThen user body) world
      (StepsTo user event work Sound ⟨user.handlers world, 0, 0⟩) := by
  apply (loadArcIf_asks user world).bind
  rintro _ last requests _ ⟨rfl, frees, rfl⟩
  have loaded : Advances user event _ _ requests [] :=
    advances_free ⟨user.handlers world, 0, 0⟩ frees
  by_cases isEmpty : user.handlers world = []
  · rw [if_pos isEmpty]
    refine Code.asks_pure (StepsTo.after loaded (stepsTo_none ?_))
    rw [isEmpty]
    exact advances_refl _
  · rw [if_neg isEmpty]
    apply (holding_steps (runs (user.handlers world) last)).weaken
    intro next more log _ steps
    exact StepsTo.after loaded steps

/-- A handler that is awaited in front of some entries. -/
private theorem awaitWith_steps
    (entry : HandlerEntry H) (suspended : F → S)
    {goOn' : AsyncCode (σ × List (Request E H F Payload Callback)) H Payload
      (Option S)}
    {goOn : AsyncCode σ H Payload (Option S)}
    {rest : List (HandlerEntry H)}
    (suspends : ∀ future, work (suspended future) =
      ⟨rest, {(entry, future)}, 0⟩)
    (sound : ∀ future world, Sound (suspended future) world)
    (goesOn : ∀ world, Asks user goOn' goOn world
      (StepsTo user event work Sound ⟨rest, 0, 0⟩))
    (future : F) (world : σ) :
    Asks user (awaitWith user.recorded entry suspended goOn' future)
      (awaitWith user entry suspended goOn future) world
      (StepsTo user event work Sound ⟨rest, {(entry, future)}, 0⟩) := by
  apply (catchUnwindPoll_asks user entry future world).bind
  rintro polled last _ _ ⟨rfl, rfl⟩
  have advances : Advances user event _ _ _ _ :=
    advances_poll entry future ⟨rest, 0, 0⟩ polled
  match polled with
  | .pending next =>
      refine Code.asks_pure ⟨?_, ?_⟩
      · rw [List.append_nil, List.append_nil]
        change Advances user event _ (work (suspended next)) _ _
        rw [suspends]
        exact advances
      · rintro _ ⟨⟩
        exact ⟨Nat.one_pos, sound next⟩
  | .ready none =>
      apply (goesOn last).weaken
      intro result more log _ steps
      exact StepsTo.after advances steps
  | .ready (some payload) =>
      apply (handlePanic_asks user entry.id payload last).bind
      intro _ final more log reports
      apply (goesOn final).weaken
      intro result others others' _ steps
      exact (StepsTo.after advances
        (StepsTo.after (advances_report _ reports) steps))

private theorem handleWith_steps
    (entry : HandlerEntry H) (suspended : F → S)
    {goOn' : AsyncCode (σ × List (Request E H F Payload Callback)) H Payload
      (Option S)}
    {goOn : AsyncCode σ H Payload (Option S)}
    {rest : List (HandlerEntry H)}
    (suspends : ∀ future, work (suspended future) =
      ⟨rest, {(entry, future)}, 0⟩)
    (sound : ∀ future world, Sound (suspended future) world)
    (goesOn : ∀ world, Asks user goOn' goOn world
      (StepsTo user event work Sound ⟨rest, 0, 0⟩))
    (world : σ) :
    Asks user (handleWith user.recorded event entry suspended goOn')
      (handleWith user event entry suspended goOn) world
      (StepsTo user event work Sound ⟨entry :: rest, 0, 0⟩) := by
  apply (start_asks user event entry world).bind
  rintro started last _ _ ⟨rfl, rfl⟩
  have advances : Advances user event _ _ _ _ :=
    advances_start entry ⟨rest, 0, 0⟩ started
  cases started with
  | ok future =>
      apply (awaitWith_steps entry suspended suspends sound goesOn future
        last).weaken
      intro result more log _ steps
      exact StepsTo.after advances steps
  | error payload =>
      apply (handlePanic_asks user entry.id payload last).bind
      intro _ final more log reports
      apply (goesOn final).weaken
      intro result others others' _ steps
      exact (StepsTo.after advances
        (StepsTo.after (advances_report _ reports) steps))

end Drivers

section Dispatches

variable {E H F Payload Callback σ : Type}
variable (user : User E H F Payload Callback σ) (event : E)
variable (list : List (HandlerEntry H))

/-- The work of a state of `notify` over `list`. -/
def Notify.work : Notify H F Payload → Work H F Payload
  | .unresumed => ⟨list, 0, 0⟩
  | .single entry future => ⟨[], {(entry, future)}, 0⟩
  | .joining slots _ => slotsWork slots .done

/-- `list` is what the first poll loads, and the counter of a join is
right. -/
def Notify.Sound : Notify H F Payload → σ → Prop
  | .unresumed, world => user.handlers world = list
  | .single _ _, _ => True
  | .joining slots running, _ => running = (Join.running slots).length

/-- A poll of `notify` with the work `before`. -/
abbrev NotifyStep (before : Work H F Payload) :=
  StepsTo user event (Notify.work list : Notify H F Payload → _)
    (Notify.Sound user list) before

variable {list}

private theorem PollsOnce.steps
    {slots : Slots H F Payload} {next : Option (Notify H F Payload)}
    {requests : List (Request E H F Payload Callback)}
    {events : List (Event H Payload)}
    (polls : Join.PollsOnce user slots (.returned next) requests events) :
    NotifyStep user event list (slotsWork slots .done) next requests
      events := by
  cases polls with
  | ready passed allEnded reported frees =>
      have polled : Advances user event _ _ _ _ :=
        advances_slots passed .done
      have finished := (polled.trans (advances_reports reported .done)).trans
        (advances_free _ frees)
      rw [List.append_nil] at finished
      exact stepsTo_none finished
  | pending passed goesOn =>
      refine ⟨advances_slots passed .done, ?_⟩
      rintro _ ⟨⟩
      exact ⟨pends_of_running passed goesOn, fun _ => rfl⟩

private theorem notifyList_steps
    (handlers : List (HandlerEntry H)) (world : σ) :
    Asks user (notifyList user.recorded event handlers)
      (notifyList user event handlers) world
      (NotifyStep user event list ⟨handlers, 0, 0⟩) := by
  match handlers with
  | [] => exact nothing_steps world
  | [only] =>
      exact handleWith_steps only (Notify.single only) (fun _ => rfl)
        (fun _ _ => trivial) nothing_steps world
  | first :: second :: rest =>
      apply (Join.notifyList_asks user event (first :: second :: rest)
        (Nat.le_add_left 2 rest.length) world).weaken
      rintro next _ _ _ ⟨frees, starts, polls⟩
      have started : Advances user event _ _ _ _ :=
        advances_starts starts .done
      rw [Work.done, List.append_nil] at started
      have begun := (advances_free ⟨first :: second :: rest, 0, 0⟩
        frees).trans started
      exact StepsTo.after begun (PollsOnce.steps user event polls)

theorem pollNotify_steps
    (state : Notify H F Payload) (world : σ)
    (sound : state.Sound user list world) :
    Asks user (pollNotify user.recorded event state)
      (pollNotify user event state) world
      (NotifyStep user event list (state.work list)) := by
  cases state with
  | unresumed =>
      change user.handlers world = list at sound
      subst sound
      exact loadThen_steps (notifyList_steps user event) world
  | single entry future =>
      exact holding_steps (awaitWith_steps entry (Notify.single entry)
        (fun _ => rfl) (fun _ _ => trivial) nothing_steps future world)
  | joining slots running =>
      change running = (Join.running slots).length at sound
      subst sound
      apply (Join.joining_asks user event slots world).weaken
      intro next requests events _ polls
      exact PollsOnce.steps user event polls

variable (list)

/-- The work of a state of `notify_sequential` over `list`. -/
def Sequential.work : Sequential H F → Work H F Payload
  | .unresumed => ⟨list, 0, 0⟩
  | .awaiting entry future rest => ⟨rest, {(entry, future)}, 0⟩

/-- `list` is what the first poll loads. -/
def Sequential.Sound : Sequential H F → σ → Prop
  | .unresumed, world => user.handlers world = list
  | .awaiting _ _ _, _ => True

/-- A poll of `notify_sequential` with the work `before`. -/
abbrev SequentialStep (before : Work H F Payload) :=
  StepsTo user event (Sequential.work list : Sequential H F → _)
    (Sequential.Sound user list) before

variable {list}

private theorem sequentialLoop_steps
    (handlers : List (HandlerEntry H)) (world : σ) :
    Asks user (sequentialLoop user.recorded event handlers)
      (sequentialLoop user event handlers) world
      (SequentialStep user event list ⟨handlers, 0, 0⟩) := by
  induction handlers generalizing world with
  | nil => exact nothing_steps world
  | cons entry rest inductionHypothesis =>
      exact handleWith_steps entry (Sequential.awaiting entry · rest)
        (fun _ => rfl) (fun _ _ => trivial) inductionHypothesis world

theorem pollSequential_steps
    (state : Sequential H F) (world : σ)
    (sound : state.Sound user list world) :
    Asks user (pollSequential user.recorded event state)
      (pollSequential user event state) world
      (SequentialStep user event list (state.work list)) := by
  cases state with
  | unresumed =>
      change user.handlers world = list at sound
      subst sound
      exact loadThen_steps (sequentialLoop_steps user event) world
  | awaiting entry future rest =>
      exact holding_steps (awaitWith_steps entry
        (Sequential.awaiting entry · rest) (fun _ => rfl)
        (fun _ _ => trivial) (sequentialLoop_steps user event rest) future
        world)

end Dispatches

section Runs

variable {E H F Payload Callback σ S : Type}
variable {user : User E H F Payload Callback σ} {event : E}
variable {work : S → Work H F Payload} {Sound : S → σ → Prop}
variable {poll' : S → AsyncCode
  (σ × List (Request E H F Payload Callback)) H Payload (Option S)}
variable {poll : S → AsyncCode σ H Payload (Option S)}

/-- What a run has done when it ended with `result`: everything, or every poll
has found a future pending. -/
def Runs (user : User E H F Payload Callback σ) (event : E)
    (before : Work H F Payload) (fuel : Nat) (result : Option Nat)
    (requests : List (Request E H F Payload Callback))
    (events : List (Event H Payload)) : Prop :=
  ∃ after, Advances user event before after requests events ∧
    match result with
    | some _ => after = .done
    | none => fuel ≤ requests.countP Request.pends

private theorem runs_of_driven
    {fuel : Nat} {state : S} {result : Option Nat}
    {requests : List (Request E H F Payload Callback)}
    {events : List (Event H Payload)}
    (driven : Driven
      (fun state => StepsTo user event work Sound (work state)) fuel state
      result requests events) :
    Runs user event (work state) fuel result requests events := by
  induction driven with
  | exhausted state => exact ⟨_, advances_refl _, Nat.zero_le _⟩
  | ready polled => exact ⟨_, polled.1, rfl⟩
  | @pending fuel state later result _ _ _ _ polled _
      inductionHypothesis =>
      obtain ⟨after, advances, ended⟩ := inductionHypothesis
      obtain ⟨pends, _⟩ := polled.2 later rfl
      refine ⟨after, polled.1.trans advances, ?_⟩
      cases result with
      | some rest => exact ended
      | none =>
          rw [List.countP_append]
          exact (Nat.add_le_add pends ended).trans' (Nat.add_comm _ _).le

theorem drive_asks
    (work : S → Work H F Payload) (Sound : S → σ → Prop)
    (polled : ∀ state world, Sound state world →
      Asks user (poll' state) (poll state) world
        (StepsTo user event work Sound (work state)))
    (fuel : Nat) (state : S) (world : σ) (sound : Sound state world) :
    Asks user (drive poll' fuel state) (drive poll fuel state) world
      (Runs user event (work state) fuel) := by
  have each : ∀ state world, Sound state world →
      Asks user (poll' state) (poll state) world
        fun next requests events =>
          StepsTo user event work Sound (work state) next requests events ∧
            ∀ later, next = some later → ∀ world, Sound later world := by
    intro state world sound
    apply (polled state world sound).weaken
    intro next requests events _ steps
    exact ⟨steps, fun later isLater => (steps.2 later isLater).2⟩
  apply (Code.asks_drive each fuel state world sound).weaken
  intro result requests events _ driven
  exact runs_of_driven driven

private theorem interrupted_steps
    {state : S} {world : σ} {before : Work H F Payload}
    (asks : Asks user (poll' state) (poll state) world
      (StepsTo user event work Sound before))
    (between : Nat → σ → σ) (number : Nat) :
    Asks user
      (interrupted (fun number => Prod.map (between number) id) poll'
        (number, state))
      (interrupted between poll (number, state)) world
      (StepsTo user event (fun state => work state.2)
        (fun state => Sound state.2) before) := by
  apply (asks.interrupted between number).weaken
  intro next requests events _ steps
  cases next with
  | none => exact stepsTo_none steps.1
  | some later =>
      refine ⟨steps.1, ?_⟩
      rintro _ ⟨⟩
      exact steps.2 later.2 rfl

/-- Complete panic isolation of a dispatch over `handlers`.  It returns, it
calls every handler once and in order, and it polls every future that it gets
until that has ended; every handler ends, and every panic is reported once,
to the callback if one is always installed.  The log tells the truth about
all this. -/
structure Isolates (user : User E H F Payload Callback σ) (event : E)
    (handlers : List (HandlerEntry H))
    (run : Run σ (Event H Payload) Payload (Option Nat))
    (requests : List (Request E H F Payload Callback)) : Prop where
  returns : ∃ left, run.exit = .returned (some left)
  called : requests.filterMap Request.called =
    handlers.map fun entry => (entry.handler, event)
  polled : (requests.filterMap Request.polled).Perm
    (requests.filterMap Request.made)
  started : run.events.filterMap Event.invocation = handlers
  completed : ((run.events.filterMap Event.ending).map Prod.fst).Perm handlers
  reported : (run.events.filterMap Event.report).Perm
    (run.events.filterMap Event.panic)
  installed : (∀ world, (user.installed world).isSome = true) →
    (requests.filterMap Request.report).Perm
      (run.events.filterMap Event.panic)
  told : Told requests run.events

theorem Advances.isolates
    {handlers : List (HandlerEntry H)}
    {run : Run σ (Event H Payload) Payload (Option Nat)}
    {requests : List (Request E H F Payload Callback)} {left : Nat}
    (advances : Advances user event ⟨handlers, 0, 0⟩ .done requests
      run.events)
    (returns : run.exit = .returned (some left)) :
    Isolates user event handlers run requests := by
  have reported : (run.events.filterMap Event.report).Perm
      (run.events.filterMap Event.panic) := by
    apply Multiset.coe_eq_coe.mp
    simpa [Work.done] using advances.reported
  refine ⟨⟨left, returns⟩, ?_, ?_, ?_, ?_, reported, ?_, advances.told⟩
  · simpa [Work.done] using advances.called
  · apply Multiset.coe_eq_coe.mp
    simpa [Work.done] using advances.polled
  · simpa [Work.done] using advances.started
  · apply Multiset.coe_eq_coe.mp
    simpa [Work.done] using advances.ended
  · intro always
    rw [← advances.installed always]
    exact reported

/-- A dispatch that is polled often enough isolates panics, unless a destructor
panics. -/
private theorem isolates_iff
    {rank : F → Nat} {bound : H → Nat} (ends : Ends user event rank bound)
    (polled : ∀ state world, Sound state world →
      Asks user (poll' state) (poll state) world
        (StepsTo user event work Sound (work state)))
    {origin : S} {world : σ} (sound : Sound origin world)
    (starts : work origin = ⟨user.handlers world, 0, 0⟩)
    (between : Nat → σ → σ) {polls : Nat}
    (enough : ((user.handlers world).map fun entry =>
      bound entry.handler).sum < polls) :
    let requests := (drive (interrupted
      (fun number => Prod.map (between number) id) poll') polls
        (0, origin)).requests world
    Isolates user event (user.handlers world)
        (drive (interrupted between poll) polls (0, origin) world)
        requests ↔
      ∀ request ∈ requests, request.harmful = false := by
  intro requests
  obtain ⟨genuine, answered⟩ := (drive_asks
    (fun state : Nat × S => work state.2)
    (fun state : Nat × S => Sound state.2)
    (fun state world sound =>
      interrupted_steps (polled state.2 world sound) between state.1)
    polls (0, origin) world sound).run
  have harmless : (∃ request ∈ requests, request.harmful = true) →
      ¬ ∀ request ∈ requests, request.harmful = false := by
    rintro ⟨request, member, harms⟩ returns
    rw [returns request member] at harms
    cases harms
  generalize ran : drive (interrupted between poll) polls (0, origin) world =
    run at answered ⊢
  obtain ⟨exit, last, events⟩ := run
  cases answered with
  | @returned result unharmed met =>
      refine ⟨fun _ => unharmed, fun _ => ?_⟩
      obtain ⟨after, advances, ended⟩ := met
      change Advances user event (work origin) _ _ _ at advances
      rw [starts] at advances
      cases result with
      | some left =>
          change after = .done at ended
          subst ended
          exact advances.isolates rfl
      | none =>
          have spent := advances.spent ends genuine
          change polls ≤ _ at ended
          simp only [Work.left, Multiset.map_zero, Multiset.sum_zero,
            Nat.add_zero] at spent
          omega
  | unwound harmed =>
      refine ⟨?_, fun returns => absurd returns (harmless harmed)⟩
      rintro ⟨⟨left, ⟨⟩⟩, _⟩
  | aborted harmed =>
      refine ⟨?_, fun returns => absurd returns (harmless harmed)⟩
      rintro ⟨⟨left, ⟨⟩⟩, _⟩

/-- `notify` under an executor that polls it at most `polls` times.  `between`
is what happens to the world from one poll to the next. -/
def runNotify (user : User E H F Payload Callback σ) (event : E)
    (between : Nat → σ → σ) (polls : Nat) :
    AsyncCode σ H Payload (Option Nat) :=
  drive (interrupted between (pollNotify user event)) polls (0, .unresumed)

/-- The same for `notify_sequential`. -/
def runSequential (user : User E H F Payload Callback σ) (event : E)
    (between : Nat → σ → σ) (polls : Nat) :
    AsyncCode σ H Payload (Option Nat) :=
  drive (interrupted between (pollSequential user event)) polls
    (0, .unresumed)

/-- What happens between the polls leaves the record alone. -/
def unrecorded (between : Nat → σ → σ) (number : Nat) :
    σ × List (Request E H F Payload Callback) →
      σ × List (Request E H F Payload Callback) :=
  Prod.map (between number) id

theorem notify_isolates_iff
    {rank : F → Nat} {bound : H → Nat} (ends : Ends user event rank bound)
    (between : Nat → σ → σ) (world : σ) {polls : Nat}
    (enough : ((user.handlers world).map fun entry =>
      bound entry.handler).sum < polls) :
    let requests := (runNotify user.recorded event (unrecorded between)
      polls).requests world
    Isolates user event (user.handlers world)
        (runNotify user event between polls world) requests ↔
      ∀ request ∈ requests, request.harmful = false := by
  have sound : Notify.Sound user (user.handlers world)
      (.unresumed : Notify H F Payload) world := rfl
  exact isolates_iff ends (pollNotify_steps user event) sound rfl between
    enough

theorem sequential_isolates_iff
    {rank : F → Nat} {bound : H → Nat} (ends : Ends user event rank bound)
    (between : Nat → σ → σ) (world : σ) {polls : Nat}
    (enough : ((user.handlers world).map fun entry =>
      bound entry.handler).sum < polls) :
    let requests := (runSequential user.recorded event (unrecorded between)
      polls).requests world
    Isolates user event (user.handlers world)
        (runSequential user event between polls world) requests ↔
      ∀ request ∈ requests, request.harmful = false := by
  have sound : Sequential.Sound user (user.handlers world)
      (.unresumed : Sequential H F) world := rfl
  exact isolates_iff ends (pollSequential_steps user event) sound rfl between
    enough

end Runs

end RegistryIo.Isolation.Async
