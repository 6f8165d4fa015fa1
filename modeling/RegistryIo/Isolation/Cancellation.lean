import RegistryIo.Isolation.Async
import RegistryIo.Isolation.Ownership

/-!
# Futures of handlers over the life of a dispatch

The future of a dispatch can be dropped at every point where it is suspended,
and every destructor that runs on the way can panic.  The code from outside is
instrumented with a ledger: a handler's future gets a tag when it is started,
it has to be live and unfinished when it is polled, and live when it is
dropped.
-/

namespace RegistryIo.Isolation.Async

open RegistryIo.Unwinding

section Cancellation

variable {E H F Payload Callback σ : Type}
variable (user : User E H F Payload Callback σ)

/-- Drop of the future of `AsyncRegistry::notify`: first what it awaits, then
the list. -/
def dropNotify : Notify H F Payload → AsyncCode σ H Payload Unit
  | .unresumed => return ()
  | .single _ future =>
      Code.scope (dropFuture user future) (dropList user)
  | .joining slots _ => Code.scope (dropSlots user slots) (dropList user)

/-- Drop of the future of `AsyncRegistry::notify_sequential`. -/
def dropSequential : Sequential H F → AsyncCode σ H Payload Unit
  | .unresumed => return ()
  | .awaiting _ future _ =>
      Code.scope (dropFuture user future) (dropList user)

end Cancellation

section Tracked

variable {E H F Payload Callback σ : Type}

def tracking : Tracking (σ × Ledger Kind) σ Kind where
  world := Prod.fst
  ledger := Prod.snd
  join := Prod.mk
  world_join _ _ := rfl
  ledger_join _ _ := rfl
  panic := .payload

variable (user : User E H F Payload Callback σ)

/-- The call of a handler brings a future to life. -/
def trackedCall (handler : H) (event : E) (world : σ × Ledger Kind) :
    Except (Tagged Payload) (Tagged F) × σ × Ledger Kind :=
  match user.call handler event world.1 with
  | (.ok future, plain) =>
      (.ok ⟨world.2.next, future⟩, plain, world.2.create .future)
  | (.error payload, plain) =>
      (.error ⟨world.2.next, payload⟩, plain, world.2.create .payload)

/-- A poll of a future, which has finished when it is ready or panics. -/
def trackedPoll (future : Tagged F) (world : σ × Ledger Kind) :
    Except (Tagged Payload) (Option (Tagged F)) × σ × Ledger Kind :=
  let used := world.2.use ⟨.future, future.tag⟩
  let finished := used.turn future.tag .finished
  match user.poll future.value world.1 with
  | (.ok (some next), plain) => (.ok (some ⟨future.tag, next⟩), plain, used)
  | (.ok none, plain) => (.ok none, plain, finished)
  | (.error payload, plain) =>
      (.error ⟨finished.next, payload⟩, plain, finished.create .payload)

/-- The code from outside with a ledger. -/
def User.tracked :
    User E H (Tagged F) (Tagged Payload) Callback (σ × Ledger Kind) where
  handlers world := user.handlers world.1
  call := trackedCall user
  poll := trackedPoll user
  installed world := user.installed world.1
  callback := (user.reporting.tracked tracking).invoke
  dropFuture future :=
    tracking.outside (fun ledger => ledger.destroy future.tag)
      (user.dropFuture future.value)
  dropPayload := (user.reporting.tracked tracking).dropPayload
  dropHolder := (user.reporting.tracked tracking).dropHolder
  protects world := user.protects world.1
  reclaimed world := (user.reclaimed world.1).map (tracking.outside id)
  lastOwner world := (user.lastOwner world.1).map (tracking.outside id)

/-! What the values of the drivers are without their tags, and what they
own. -/

def futureToken (future : Tagged F) : Token Kind :=
  ⟨.future, future.tag⟩

def outcomeTokens : Option (Tagged Payload) → List (Token Kind)
  | none => []
  | some payload => [⟨.payload, payload.tag⟩]

def startedTokens : Except (Tagged Payload) (Tagged F) → List (Token Kind)
  | .ok future => [futureToken future]
  | .error payload => [⟨.payload, payload.tag⟩]

def Polled.untag : Polled (Tagged F) (Tagged Payload) → Polled F Payload
  | .pending future => .pending future.value
  | .ready panic => .ready (panic.map Tagged.value)

/-- What is left after a poll, with the remains of a finished future. -/
def polledTokens (remains : List (Token Kind)) :
    Polled (Tagged F) (Tagged Payload) → List (Token Kind)
  | .pending future => [futureToken future]
  | .ready panic => remains ++ outcomeTokens panic

def Slot.untag : Slot (Tagged F) (Tagged Payload) → Slot F Payload
  | .running future => .running future.value
  | .done => .done
  | .panicked payload => .panicked payload.value

def Slot.tokens : Slot (Tagged F) (Tagged Payload) → List (Token Kind)
  | .running future => [futureToken future]
  | .done => []
  | .panicked payload => [⟨.payload, payload.tag⟩]

def untagSlots (slots : Slots H (Tagged F) (Tagged Payload)) :
    Slots H F Payload :=
  slots.map fun slot => (slot.1, slot.2.untag)

def slotsTokens (slots : Slots H (Tagged F) (Tagged Payload)) :
    List (Token Kind) :=
  slots.flatMap fun slot => slot.2.tokens

def Notify.untag : Notify H (Tagged F) (Tagged Payload) → Notify H F Payload
  | .unresumed => .unresumed
  | .single entry future => .single entry future.value
  | .joining slots running => .joining (untagSlots slots) running

def Notify.tokens :
    Notify H (Tagged F) (Tagged Payload) → List (Token Kind)
  | .unresumed => []
  | .single _ future => [futureToken future]
  | .joining slots _ => slotsTokens slots

def Sequential.untag : Sequential H (Tagged F) → Sequential H F
  | .unresumed => .unresumed
  | .awaiting entry future rest => .awaiting entry future.value rest

def Sequential.tokens : Sequential H (Tagged F) → List (Token Kind)
  | .unresumed => []
  | .awaiting _ future _ => [futureToken future]

private theorem isRunning_untag (slot : Slot (Tagged F) (Tagged Payload)) :
    slot.untag.isRunning = slot.isRunning := by
  cases slot <;> rfl

private theorem countP_untagSlots
    (slots : Slots H (Tagged F) (Tagged Payload)) :
    ((untagSlots slots).countP fun slot => slot.2.isRunning) =
      slots.countP fun slot => slot.2.isRunning := by
  simp [untagSlots, List.countP_map, Function.comp_def, isRunning_untag]

end Tracked

section Futures

variable {E H F Payload Callback σ : Type}
variable (user : User E H F Payload Callback σ)
variable {borrowed : List (Token Kind)} {quiet : Bool}

private theorem trackedCall_plain
    (handler : H) (event : E) (world : σ × Ledger Kind) :
    user.call handler event world.1 =
      (eraseOutcome Tagged.value (trackedCall user handler event world).1,
        (trackedCall user handler event world).2.1) := by
  unfold trackedCall
  obtain ⟨outcome, plain⟩ := user.call handler event world.1
  cases outcome with
  | ok future => rfl
  | error payload => rfl

private theorem trackedCall_accounts
    {handler : H} {event : E} {world : σ × Ledger Kind}
    {frame : List (Token Kind)} (accounts : world.2.Accounts frame) :
    (trackedCall user handler event world).2.2.Accounts
      (startedTokens (trackedCall user handler event world).1 ++ frame) := by
  unfold trackedCall
  obtain ⟨outcome, plain⟩ := user.call handler event world.1
  cases outcome with
  | ok future => exact accounts.create .future
  | error payload => exact accounts.create .payload

private theorem start_owns (event : E) (entry : HandlerEntry H) :
    Code.Tracks tracking Event.untag quiet borrowed []
      (start user.tracked event entry) (start user event entry)
      (eraseOutcome Tagged.value) startedTokens := by
  apply (Code.tracks_log _).bind
  intro _
  apply (Code.tracks_attempt (trackedCall_plain user entry.handler event)
    (fun _ _ _ accounts => trackedCall_accounts user accounts)).bind
  intro outcome
  cases outcome with
  | ok future => exact Code.tracks_pure rfl (List.Perm.refl _)
  | error payload =>
      apply (Code.tracks_log _).bind
      intro _
      exact Code.tracks_pure rfl (List.Perm.refl _)

private theorem trackedPoll_plain
    (future : Tagged F) (world : σ × Ledger Kind) :
    user.poll future.value world.1 =
      (eraseOutcome (Option.map Tagged.value)
          (trackedPoll user future world).1,
        (trackedPoll user future world).2.1) := by
  unfold trackedPoll
  obtain ⟨outcome, plain⟩ := user.poll future.value world.1
  cases outcome with
  | ok next =>
      cases next with
      | none => rfl
      | some next => rfl
  | error payload => rfl

/-- What a poll leaves, if its future may be polled. -/
def attemptTokens (future : Tagged F) :
    Except (Tagged Payload) (Option (Tagged F)) → List (Token Kind)
  | .ok (some next) => [futureToken next]
  | .ok none => [⟨.finished, future.tag⟩]
  | .error payload => [⟨.finished, future.tag⟩, ⟨.payload, payload.tag⟩]

private theorem trackedPoll_accounts
    {future : Tagged F} {world : σ × Ledger Kind}
    {frame : List (Token Kind)}
    (accounts : world.2.Accounts ([futureToken future] ++ frame)) :
    (trackedPoll user future world).2.2.Accounts
      (attemptTokens future (trackedPoll user future world).1 ++ frame) := by
  have used := accounts.use List.mem_cons_self
  have finished := used.turn .finished
  unfold trackedPoll
  obtain ⟨outcome, plain⟩ := user.poll future.value world.1
  cases outcome with
  | ok next =>
      cases next with
      | none => exact finished
      | some next => exact used
  | error payload =>
      exact (finished.create .payload).perm (List.Perm.swap _ _ _)

private theorem pollCaught_owns (entry : HandlerEntry H) (future : Tagged F) :
    Code.Tracks tracking Event.untag quiet borrowed [futureToken future]
      (pollCaught user.tracked entry future)
      (pollCaught user entry future.value) Polled.untag
      (polledTokens [⟨.finished, future.tag⟩]) := by
  apply (Code.tracks_log _).bind
  intro _
  apply (Code.tracks_attempt (trackedPoll_plain user future)
    (fun _ _ _ accounts => trackedPoll_accounts user accounts)).bind
  intro outcome
  cases outcome with
  | ok next =>
      cases next with
      | none =>
          apply (Code.tracks_log _).bind
          intro _
          exact Code.tracks_pure rfl (List.Perm.refl _)
      | some next => exact Code.tracks_pure rfl (List.Perm.refl _)
  | error payload =>
      apply (Code.tracks_log _).bind
      intro _
      exact Code.tracks_pure rfl (List.Perm.refl _)

private theorem dropFuture_owns (kind : Kind) (future : Tagged F) :
    Owns (H := H) tracking borrowed [⟨kind, future.tag⟩]
      (dropFuture user.tracked future) (dropFuture user future.value) id
      fun _ => [] :=
  Code.tracks_destroy ⟨kind, future.tag⟩

private theorem dropOutcome_owns (panic : Option (Tagged Payload)) :
    Owns (H := H) tracking borrowed (outcomeTokens panic)
      (dropOutcome user.tracked panic)
      (dropOutcome user (panic.map Tagged.value)) id fun _ => [] := by
  cases panic with
  | none => exact Code.tracks_pure rfl (List.Perm.refl _)
  | some payload => exact dropPayload_owns tracking user.reporting payload

/-- The finished future is dropped, and everything else is kept unless that
unwinds. -/
private theorem dropFinished_owns
    (future : Tagged F) {kept : List (Token Kind)}
    {abandon' : AsyncCode (σ × Ledger Kind) H (Tagged Payload) Unit}
    {abandon : AsyncCode σ H Payload Unit}
    (abandons : Owns tracking [] kept abandon' abandon id fun _ => []) :
    Owns tracking [] ([⟨.finished, future.tag⟩] ++ kept)
      ((dropFuture user.tracked future).onUnwind abandon')
      ((dropFuture user future.value).onUnwind abandon) id
      fun _ => kept :=
  (dropFuture_owns user .finished future).onUnwind abandons
    (List.nil_subset _)

private theorem catchUnwindPoll_owns
    (entry : HandlerEntry H) (future : Tagged F) :
    Owns tracking [] [futureToken future]
      (catchUnwindPoll user.tracked entry future)
      (catchUnwindPoll user entry future.value) Polled.untag
      (polledTokens []) := by
  apply (pollCaught_owns user entry future).bind
  intro polled
  cases polled with
  | pending next => exact Code.tracks_pure rfl (List.Perm.refl _)
  | ready panic =>
      apply (dropFinished_owns user future (dropOutcome_owns user panic)).bind
      intro _
      exact Code.tracks_pure rfl (List.Perm.refl _)

private theorem Slot.drop_owns (slot : Slot (Tagged F) (Tagged Payload)) :
    Owns (H := H) tracking borrowed slot.tokens (slot.drop user.tracked)
      (slot.untag.drop user) id fun _ => [] := by
  cases slot with
  | running future => exact dropFuture_owns user .future future
  | done => exact Code.tracks_pure rfl (List.Perm.refl _)
  | panicked payload => exact dropPayload_owns tracking user.reporting payload

private theorem Slot.untag_ended (panic : Option (Tagged Payload)) :
    (Slot.ended panic : Slot (Tagged F) (Tagged Payload)).untag =
      Slot.ended (panic.map Tagged.value) := by
  cases panic <;> rfl

private theorem Slot.tokens_ended (panic : Option (Tagged Payload)) :
    (Slot.ended panic : Slot (Tagged F) (Tagged Payload)).tokens =
      outcomeTokens panic := by
  cases panic <;> rfl

section Abandon

variable {others : List (Token Kind)}
variable {abandon' : Slot (Tagged F) (Tagged Payload) →
  AsyncCode (σ × Ledger Kind) H (Tagged Payload) Unit}
variable {abandon : Slot F Payload → AsyncCode σ H Payload Unit}

/-- A slot that is polled beside other values, which are abandoned with it. -/
private theorem Slot.poll_owns
    (abandons : ∀ slot, Owns tracking [] (slot.tokens ++ others)
      (abandon' slot) (abandon slot.untag) id fun _ => [])
    (entry : HandlerEntry H) (slot : Slot (Tagged F) (Tagged Payload)) :
    Owns tracking [] (slot.tokens ++ others)
      (slot.poll user.tracked entry abandon')
      (slot.untag.poll user entry abandon) (Prod.map Slot.untag id)
      fun result => result.1.tokens ++ others := by
  cases slot with
  | running future =>
      apply ((pollCaught_owns user entry future).framed
        (List.nil_subset _)).bind
      intro polled
      cases polled with
      | pending next => exact Code.tracks_pure rfl (List.Perm.refl _)
      | ready panic =>
          have dropped :=
            dropFinished_owns user future (abandons (.ended panic))
          rw [Slot.tokens_ended, Slot.untag_ended,
            ← List.append_assoc] at dropped
          apply dropped.bind
          intro _
          refine Code.tracks_pure ?_ ?_
          · exact congrArg (·, true) (Slot.untag_ended panic)
          · rw [Slot.tokens_ended]
  | done => exact Code.tracks_pure rfl (List.Perm.refl _)
  | panicked payload => exact Code.tracks_pure rfl (List.Perm.refl _)

private theorem pollRunning_owns
    (abandons : ∀ slot, Owns tracking [] (slot.tokens ++ others)
      (abandon' slot) (abandon slot.untag) id fun _ => [])
    (entry : HandlerEntry H) (slot : Slot (Tagged F) (Tagged Payload))
    (running : Nat) :
    Owns tracking [] (slot.tokens ++ others)
      (pollRunning user.tracked entry abandon' slot running)
      (pollRunning user entry abandon slot.untag running)
      (Prod.map Slot.untag id) fun result => result.1.tokens ++ others := by
  unfold pollRunning
  rw [isRunning_untag]
  apply Code.Tracks.ite
  · apply (Slot.poll_owns user abandons entry slot).bind
    intro result
    exact Code.tracks_pure rfl (List.Perm.refl _)
  · exact Code.tracks_pure rfl (List.Perm.refl _)

end Abandon

end Futures

section Drivers

variable {E H F Payload Callback σ : Type}
variable (user : User E H F Payload Callback σ)
variable {borrowed : List (Token Kind)}

theorem handlePanic_owns
    (handlerId : HandlerId) (payload : Tagged Payload) :
    Owns (H := H) tracking [] [⟨.payload, payload.tag⟩]
      (handlePanic user.tracked handlerId payload)
      (handlePanic user handlerId payload.value) id fun _ => [] :=
  reportPanic_owns tracking user.reporting handlerId payload

private theorem report_owns
    (entry : HandlerEntry H) (panic : Option (Tagged Payload)) :
    Owns tracking [] (outcomeTokens panic) (report user.tracked entry panic)
      (report user entry (panic.map Tagged.value)) id fun _ => [] := by
  cases panic with
  | none => exact Code.tracks_pure rfl (List.Perm.refl _)
  | some payload => exact handlePanic_owns user entry.id payload

private theorem dropOutsides_owns (outsides : List (Outside σ Payload)) :
    Owns (H := H) tracking borrowed []
      (Code.dropAll Code.call (outsides.map (tracking.outside id)))
      (Code.dropAll Code.call outsides) id fun _ => [] := by
  rw [Code.dropAll_map]
  exact Code.tracks_dropPlain id outsides

private theorem release_owns :
    Owns (H := H) tracking borrowed [] (release user.tracked) (release user)
      id fun _ => [] := by
  apply Code.tracks_get.bind
  intro world
  exact dropOutsides_owns (user.reclaimed world.1)

private theorem dropList_owns :
    Owns (H := H) tracking borrowed [] (dropList user.tracked)
      (dropList user) id fun _ => [] := by
  apply Code.tracks_get.bind
  intro world
  exact dropOutsides_owns (user.lastOwner world.1)

private theorem loadArcIf_owns :
    Owns tracking [] [] (loadArcIf user.tracked) (loadArcIf user) id
      fun _ => [] := by
  apply Code.tracks_get.bind
  intro world
  apply Code.Tracks.ite
  · apply Code.Tracks.ite
    · apply (release_owns user).bind
      intro _
      exact Code.tracks_pure rfl (List.Perm.refl _)
    · apply ((release_owns user).onUnwind (dropList_owns user)
        (List.nil_subset _)).bind
      intro _
      exact Code.tracks_pure rfl (List.Perm.refl _)
  · apply Code.Tracks.ite
    · apply (dropList_owns user).bind
      intro _
      exact Code.tracks_pure rfl (List.Perm.refl _)
    · exact Code.tracks_pure rfl (List.Perm.refl _)

private theorem dropSlots_owns (slots : Slots H (Tagged F) (Tagged Payload)) :
    Owns tracking borrowed (slotsTokens slots)
      (dropSlots user.tracked slots) (dropSlots user (untagSlots slots)) id
      fun _ => [] := by
  unfold dropSlots untagSlots
  rw [Code.dropAll_map]
  exact Code.Tracks.dropAll (fun slot => Slot.drop_owns user slot.2) slots

private theorem tokens_new (started : Except (Tagged Payload) (Tagged F)) :
    (Slot.new started).tokens = startedTokens started := by
  cases started <;> rfl

private theorem untag_new (started : Except (Tagged Payload) (Tagged F)) :
    (Slot.new started).untag =
      Slot.new (eraseOutcome Tagged.value started) := by
  cases started <;> rfl

private theorem startAll_owns
    {quiet : Bool} (event : E) (entries : List (HandlerEntry H)) :
    Code.Tracks tracking Event.untag quiet borrowed []
      (startAll user.tracked event entries) (startAll user event entries)
      untagSlots slotsTokens := by
  induction entries generalizing quiet borrowed with
  | nil => exact Code.tracks_pure rfl (List.Perm.refl _)
  | cons entry rest inductionHypothesis =>
      apply (start_owns user event entry).bind
      intro started
      -- The rest cannot unwind, so the future that is started may wait.
      have others : Code.Tracks tracking Event.untag quiet borrowed
          ([] ++ startedTokens started)
          (startAll user.tracked event rest) (startAll user event rest)
          untagSlots fun slots => slotsTokens slots ++ startedTokens started :=
        inductionHypothesis.framed (List.nil_subset _)
      apply others.bind
      intro slots
      apply Code.tracks_pure
      · simp [untagSlots, untag_new]
      · simp only [slotsTokens, List.flatMap_cons, tokens_new]
        exact List.perm_append_comm

private theorem untagSlots_append
    (first second : Slots H (Tagged F) (Tagged Payload)) :
    untagSlots (first ++ second) = untagSlots first ++ untagSlots second :=
  List.map_append

private theorem slotsTokens_append
    (first second : Slots H (Tagged F) (Tagged Payload)) :
    slotsTokens (first ++ second) =
      slotsTokens first ++ slotsTokens second :=
  List.flatMap_append

/-- What a slot of a vector owns, and what the others own. -/
private theorem slotsTokens_split
    (before after : Slots H (Tagged F) (Tagged Payload))
    (entry : HandlerEntry H) (slot : Slot (Tagged F) (Tagged Payload)) :
    (slotsTokens (before ++ (entry, slot) :: after)).Perm
      (slot.tokens ++ (slotsTokens before ++ slotsTokens after)) := by
  rw [slotsTokens_append]
  exact List.perm_append_comm_assoc _ _ _

private theorem pollSlots_owns
    (polled slots : Slots H (Tagged F) (Tagged Payload)) (running : Nat) :
    Owns tracking [] (slotsTokens (polled ++ slots))
      (pollSlots user.tracked polled slots running)
      (pollSlots user (untagSlots polled) (untagSlots slots) running)
      (Prod.map untagSlots id) fun result => slotsTokens result.1 := by
  induction slots generalizing polled running with
  | nil =>
      refine Code.tracks_pure rfl ?_
      rw [List.append_nil]
  | cons slot rest inductionHypothesis =>
      obtain ⟨entry, slot⟩ := slot
      have split := slotsTokens_split polled rest entry
      have abandons : ∀ next : Slot (Tagged F) (Tagged Payload),
          Owns tracking []
            (next.tokens ++ (slotsTokens polled ++ slotsTokens rest))
            (dropSlots user.tracked (polled ++ (entry, next) :: rest))
            (dropSlots user
              (untagSlots polled ++ (entry, next.untag) :: untagSlots rest))
            id fun _ => [] := by
        intro next
        have dropped : Owns tracking [] _ _ _ id fun _ => [] :=
          dropSlots_owns user (polled ++ (entry, next) :: rest)
        rw [untagSlots_append] at dropped
        exact dropped.reorder (split next).symm fun _ => List.Perm.refl _
      apply ((pollRunning_owns user abandons entry slot running).reorder
        (split slot) fun result => (split result.1).symm).bind
      intro next
      have goesOn := inductionHypothesis (polled ++ [(entry, next.1)]) next.2
      rw [List.append_assoc, untagSlots_append] at goesOn
      exact goesOn

private theorem reportSlots_owns (slots : Slots H (Tagged F) (Tagged Payload)) :
    Owns tracking [] (slotsTokens slots) (reportSlots user.tracked slots)
      (reportSlots user (untagSlots slots)) id fun _ => [] := by
  induction slots with
  | nil => exact Code.tracks_pure rfl (List.Perm.refl _)
  | cons slot rest inductionHypothesis =>
      obtain ⟨entry, slot⟩ := slot
      cases slot with
      | panicked payload =>
          apply ((handlePanic_owns user entry.id payload).onUnwind
            (dropSlots_owns user rest) (List.nil_subset _)).bind
          exact fun _ => inductionHypothesis
      | running future =>
          apply ((Slot.drop_owns user (.running future)).onUnwind
            (dropSlots_owns user rest) (List.nil_subset _)).bind
          exact fun _ => inductionHypothesis
      | done =>
          apply ((Slot.drop_owns user .done).onUnwind
            (dropSlots_owns user rest) (List.nil_subset _)).bind
          exact fun _ => inductionHypothesis

private theorem awaitSingle_owns (entry : HandlerEntry H) (future : Tagged F) :
    Owns tracking [] [futureToken future]
      (awaitSingle user.tracked entry future)
      (awaitSingle user entry future.value) (Option.map Notify.untag)
      (pendingTokens Notify.tokens) := by
  apply (catchUnwindPoll_owns user entry future).bind
  intro polled
  cases polled with
  | pending next => exact Code.tracks_pure rfl (List.Perm.refl _)
  | ready panic =>
      apply (report_owns user entry panic).bind
      intro _
      exact Code.tracks_pure rfl (List.Perm.refl _)

private theorem awaitJoin_owns
    (slots : Slots H (Tagged F) (Tagged Payload)) (running : Nat) :
    Owns tracking [] (slotsTokens slots)
      (awaitJoin user.tracked slots running)
      (awaitJoin user (untagSlots slots) running) (Option.map Notify.untag)
      (pendingTokens Notify.tokens) := by
  apply (pollSlots_owns user [] slots running).bind
  intro result
  apply Code.Tracks.ite
  · apply (reportSlots_owns user result.1).bind
    intro _
    exact Code.tracks_pure rfl (List.Perm.refl _)
  · exact Code.tracks_pure rfl (List.Perm.refl _)

private theorem notifyList_owns (event : E) (list : List (HandlerEntry H)) :
    Owns tracking [] [] (notifyList user.tracked event list)
      (notifyList user event list) (Option.map Notify.untag)
      (pendingTokens Notify.tokens) := by
  match list with
  | [] => exact Code.tracks_pure rfl (List.Perm.refl _)
  | [only] =>
      apply (start_owns user event only).bind
      intro started
      cases started with
      | ok future => exact awaitSingle_owns user only future
      | error payload =>
          apply (handlePanic_owns user only.id payload).bind
          intro _
          exact Code.tracks_pure rfl (List.Perm.refl _)
  | first :: second :: rest =>
      apply (startAll_owns user event (first :: second :: rest)).bind
      intro slots
      rw [countP_untagSlots]
      exact awaitJoin_owns user slots _

private theorem pollNotify_owns
    (event : E) (state : Notify H (Tagged F) (Tagged Payload)) :
    Owns tracking [] state.tokens (pollNotify user.tracked event state)
      (pollNotify user event state.untag) (Option.map Notify.untag)
      (pendingTokens Notify.tokens) := by
  cases state with
  | unresumed =>
      apply (loadArcIf_owns user).bind
      intro loaded
      cases loaded with
      | none => exact Code.tracks_pure rfl (List.Perm.refl _)
      | some list =>
          exact (notifyList_owns user event list).holding
            (dropList_owns user)
  | single entry future =>
      exact (awaitSingle_owns user entry future).holding (dropList_owns user)
  | joining slots running =>
      exact (awaitJoin_owns user slots running).holding (dropList_owns user)

private theorem dropNotify_owns (state : Notify H (Tagged F) (Tagged Payload)) :
    Owns tracking [] state.tokens (dropNotify user.tracked state)
      (dropNotify user state.untag) id fun _ => [] := by
  cases state with
  | unresumed => exact Code.tracks_pure rfl (List.Perm.refl _)
  | single entry future =>
      exact (dropFuture_owns user .future future).scope (dropList_owns user)
        (List.nil_subset _)
  | joining slots running =>
      apply ((dropSlots_owns user slots).scope (dropList_owns user)
        (List.nil_subset _)).reorder
      · rw [List.append_nil]
        exact List.Perm.refl _
      · exact fun _ => List.Perm.refl _

private theorem awaitThen_owns
    (entry : HandlerEntry H) (future : Tagged F)
    (rest : List (HandlerEntry H))
    {goOn' : AsyncCode (σ × Ledger Kind) H (Tagged Payload)
      (Option (Sequential H (Tagged F)))}
    {goOn : AsyncCode σ H Payload (Option (Sequential H F))}
    (goesOn : Owns tracking [] [] goOn' goOn (Option.map Sequential.untag)
      (pendingTokens Sequential.tokens)) :
    Owns tracking [] [futureToken future]
      (awaitThen user.tracked entry future rest goOn')
      (awaitThen user entry future.value rest goOn)
      (Option.map Sequential.untag) (pendingTokens Sequential.tokens) := by
  apply (catchUnwindPoll_owns user entry future).bind
  intro polled
  cases polled with
  | pending next => exact Code.tracks_pure rfl (List.Perm.refl _)
  | ready panic => exact (report_owns user entry panic).bind fun _ => goesOn

private theorem sequentialLoop_owns (event : E) (list : List (HandlerEntry H)) :
    Owns tracking [] [] (sequentialLoop user.tracked event list)
      (sequentialLoop user event list) (Option.map Sequential.untag)
      (pendingTokens Sequential.tokens) := by
  induction list with
  | nil => exact Code.tracks_pure rfl (List.Perm.refl _)
  | cons entry rest inductionHypothesis =>
      apply (start_owns user event entry).bind
      intro started
      cases started with
      | ok future =>
          exact awaitThen_owns user entry future rest inductionHypothesis
      | error payload =>
          apply (handlePanic_owns user entry.id payload).bind
          exact fun _ => inductionHypothesis

private theorem pollSequential_owns
    (event : E) (state : Sequential H (Tagged F)) :
    Owns tracking [] state.tokens (pollSequential user.tracked event state)
      (pollSequential user event state.untag)
      (Option.map Sequential.untag) (pendingTokens Sequential.tokens) := by
  cases state with
  | unresumed =>
      apply (loadArcIf_owns user).bind
      intro loaded
      cases loaded with
      | none => exact Code.tracks_pure rfl (List.Perm.refl _)
      | some list =>
          exact (sequentialLoop_owns user event list).holding
            (dropList_owns user)
  | awaiting entry future rest =>
      exact (awaitThen_owns user entry future rest
        (sequentialLoop_owns user event rest)).holding (dropList_owns user)

private theorem dropSequential_owns (state : Sequential H (Tagged F)) :
    Owns tracking [] state.tokens (dropSequential user.tracked state)
      (dropSequential user state.untag) id fun _ => [] := by
  cases state with
  | unresumed => exact Code.tracks_pure rfl (List.Perm.refl _)
  | awaiting entry future rest =>
      exact (dropFuture_owns user .future future).scope (dropList_owns user)
        (List.nil_subset _)

/-- Over the life of the future of `notify`, polled any number of times and
dropped if it is still pending, whatever the outside does between the polls
and in them: no handler's future is polled after it finished or was dropped,
every one that was started is dropped exactly once, and so is the payload of
every panic that does not go on to the caller. -/
theorem notify_disposes
    (event : E) (between : Nat → σ → σ) (polls : Nat) (world : σ) :
    Disposes tracking Event.untag id
      (lifetime (pollNotify user.tracked event) (dropNotify user.tracked)
        (fun left => tracking.change (between left)) polls .unresumed
        (world, Ledger.empty))
      (lifetime (pollNotify user event) (dropNotify user) between polls
        .unresumed world) :=
  Code.Tracks.disposes
    (Code.Tracks.lifetime (pollNotify_owns user event) (dropNotify_owns user)
      between polls .unresumed) rfl

/-- The same for the future of `notify_sequential`. -/
theorem sequential_disposes
    (event : E) (between : Nat → σ → σ) (polls : Nat) (world : σ) :
    Disposes tracking Event.untag id
      (lifetime (pollSequential user.tracked event)
        (dropSequential user.tracked)
        (fun left => tracking.change (between left)) polls .unresumed
        (world, Ledger.empty))
      (lifetime (pollSequential user event) (dropSequential user) between
        polls .unresumed world) :=
  Code.Tracks.disposes
    (Code.Tracks.lifetime (pollSequential_owns user event)
      (dropSequential_owns user) between polls .unresumed) rfl

end Drivers

end RegistryIo.Isolation.Async
