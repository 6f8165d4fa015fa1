import RegistryIo.Foundations.Recording
import RegistryIo.Isolation.Async

/-!
# What a dispatch asks of the outside

The code from outside is wrapped so that it writes down every call of a
handler, every poll of a future and every call of the callback with its
answer, and every destructor that runs.  The record does not come from the
dispatch, which only writes its log; the lemmas of this module say which
requests the parts of a dispatch make and that the log tells the same.
-/

namespace RegistryIo.Isolation.Async

open RegistryIo.Unwinding

/-- A request to the outside, with the answer to it. -/
inductive Request (E H F Payload Callback : Type) where
  | call (handler : H) (event : E) (answer : Except Payload F)
  | poll (future : F) (answer : Except Payload (Option F))
  | callback (holder : Callback) (info : PanicInfo Payload)
      (panic : Option Payload)
  | dropFuture (future : F) (panic : Option Payload)
  | dropPayload (payload : Payload) (panic : Option Payload)
  | dropHolder (holder : Callback) (panic : Option Payload)
  | dropHandler (panic : Option Payload)

/-- What both the log of a dispatch and the record of requests tell. -/
inductive Deed (H Payload : Type) where
  | started (handler : H)
  | polled
  | ended (panic : Option Payload)
  | called (info : PanicInfo Payload)

def Deed.report {H Payload : Type} :
    Deed H Payload → Option (PanicInfo Payload)
  | .called info => some info
  | _ => none

def Event.deeds {H Payload : Type} : Event H Payload → List (Deed H Payload)
  | .invoked entry => [.started entry.handler]
  | .polled _ => [.polled]
  | .ended _ panic => [.ended panic]
  | .reported info => [.called info]
  | .unreported _ => []

section Record

variable {E H F Payload Callback σ : Type}

namespace Request

/-- A destructor that panicked. -/
def harmful : Request E H F Payload Callback → Bool
  | .dropFuture _ panic => panic.isSome
  | .dropPayload _ panic => panic.isSome
  | .dropHolder _ panic => panic.isSome
  | .dropHandler panic => panic.isSome
  | _ => false

def deeds : Request E H F Payload Callback → List (Deed H Payload)
  | .call handler _ (.ok _) => [.started handler]
  | .call handler _ (.error payload) =>
      [.started handler, .ended (some payload)]
  | .poll _ (.ok (some _)) => [.polled]
  | .poll _ (.ok none) => [.polled, .ended none]
  | .poll _ (.error payload) => [.polled, .ended (some payload)]
  | .callback _ info _ => [.called info]
  | _ => []

/-- The answer is one that the code from outside gives. -/
def Genuine (user : User E H F Payload Callback σ) :
    Request E H F Payload Callback → Prop
  | .call handler event answer =>
      ∃ world, (user.call handler event world).1 = answer
  | .poll future answer => ∃ world, (user.poll future world).1 = answer
  | .callback holder info panic =>
      ∃ world, (user.callback holder info world).1 = panic
  | .dropFuture future panic =>
      ∃ world, (user.dropFuture future world).1 = panic
  | .dropPayload payload panic =>
      ∃ world, (user.dropPayload payload world).1 = panic
  | .dropHolder holder panic =>
      ∃ world, (user.dropHolder holder world).1 = panic
  | .dropHandler panic => ∃ before world, ∃ destructor,
      (destructor ∈ user.reclaimed before ∨
        destructor ∈ user.lastOwner before) ∧ (destructor world).1 = panic

end Request

/-- The same code from outside with a record. -/
def User.recorded (user : User E H F Payload Callback σ) :
    User E H F Payload Callback
      (σ × List (Request E H F Payload Callback)) where
  handlers world := user.handlers world.1
  call handler event :=
    record (Request.call handler event) (user.call handler event)
  poll future := record (Request.poll future) (user.poll future)
  installed world := user.installed world.1
  callback holder info :=
    record (Request.callback holder info) (user.callback holder info)
  dropFuture future :=
    record (Request.dropFuture future) (user.dropFuture future)
  dropPayload payload :=
    record (Request.dropPayload payload) (user.dropPayload payload)
  dropHolder holder :=
    record (Request.dropHolder holder) (user.dropHolder holder)
  protects world := user.protects world.1
  reclaimed world := (user.reclaimed world.1).map (record .dropHandler)
  lastOwner world := (user.lastOwner world.1).map (record .dropHandler)

/-- What code of a dispatch asks of the outside. -/
abbrev Asks {α : Type} (user : User E H F Payload Callback σ)
    (code' : AsyncCode (σ × List (Request E H F Payload Callback)) H
      Payload α)
    (code : AsyncCode σ H Payload α) (world : σ)
    (post : α → List (Request E H F Payload Callback) →
      List (Event H Payload) → Prop) : Prop :=
  Code.Asks Request.harmful (Request.Genuine user) code' code world post

/-- The log tells what the outside was asked. -/
def Told (requests : List (Request E H F Payload Callback))
    (events : List (Event H Payload)) : Prop :=
  events.flatMap Event.deeds = requests.flatMap Request.deeds

theorem Told.append
    {requests more : List (Request E H F Payload Callback)}
    {events log : List (Event H Payload)}
    (first : Told requests events) (second : Told more log) :
    Told (requests ++ more) (events ++ log) := by
  unfold Told at first second ⊢
  rw [List.flatMap_append, List.flatMap_append, first, second]

/-- What the callback is told. -/
def Request.report :
    Request E H F Payload Callback → Option (PanicInfo Payload)
  | .callback _ info _ => some info
  | _ => none

/-- The callback gets the reports that are logged. -/
theorem Told.reports
    {requests : List (Request E H F Payload Callback)}
    {events : List (Event H Payload)} (told : Told requests events) :
    requests.filterMap Request.report =
      events.filterMap Event.callbackCall := by
  have asked : ∀ request : Request E H F Payload Callback,
      request.deeds.filterMap Deed.report = request.report.toList := by
    rintro (⟨_, _, _ | _⟩ | ⟨_, _ | (_ | _)⟩ | _ | _ | _ | _ | _) <;> rfl
  have logged : ∀ event : Event H Payload,
      (Event.deeds event).filterMap Deed.report =
        event.callbackCall.toList := by
    rintro (_ | _ | _ | _ | _) <;> rfl
  have same := congrArg (List.filterMap Deed.report) told
  simp only [List.filterMap_flatMap, asked, logged] at same
  rw [List.filterMap_eq_flatMap_toList, List.filterMap_eq_flatMap_toList]
  exact same.symm

/-- Only destructors of handlers run. -/
def Frees (requests : List (Request E H F Payload Callback)) : Prop :=
  ∀ request ∈ requests, request = .dropHandler none

theorem Frees.told
    {requests : List (Request E H F Payload Callback)}
    (frees : Frees requests) : Told requests [] := by
  have silent : requests.flatMap Request.deeds = [] := by
    apply List.flatMap_eq_nil_iff.mpr
    intro request member
    rw [frees request member]
    rfl
  exact silent.symm

/-- What the start of a handler logs. -/
def startEvents (entry : HandlerEntry H) :
    Except Payload F → List (Event H Payload)
  | .ok _ => [.invoked entry]
  | .error payload => [.invoked entry, .ended entry (some payload)]

/-- What one poll of a handler's future logs. -/
def pollEvents (entry : HandlerEntry H) :
    Polled F Payload → List (Event H Payload)
  | .pending _ => [.polled entry]
  | .ready panic => [.polled entry, .ended entry panic]

/-- The answer to a poll. -/
def Polled.answer : Polled F Payload → Except Payload (Option F)
  | .pending next => .ok (some next)
  | .ready none => .ok none
  | .ready (some payload) => .error payload

/-- What one poll of a handler's future asks: a future that has ended is
dropped at once. -/
def pollRequests (future : F) :
    Polled F Payload → List (Request E H F Payload Callback)
  | .pending next => [.poll future (Polled.pending next).answer]
  | .ready panic =>
      [.poll future (Polled.ready panic).answer, .dropFuture future none]

/-- A panic is reported to the callback that is installed at that moment, or
to none.  The payloads and the clone of the `Arc` are dropped. -/
inductive Reports (user : User E H F Payload Callback σ)
    (info : PanicInfo Payload) :
    List (Request E H F Payload Callback) → List (Event H Payload) →
      Prop where
  | missing {world : σ} (installed : user.installed world = none) :
      Reports user info [.dropPayload info.payload none] [.unreported info]
  | returns {world : σ} {holder : Callback}
      (installed : user.installed world = some holder) :
      Reports user info
        [.callback holder info none, .dropHolder holder none,
          .dropPayload info.payload none]
        [.reported info]
  | panics {world : σ} {holder : Callback} (second : Payload)
      (installed : user.installed world = some holder) :
      Reports user info
        [.callback holder info (some second), .dropPayload second none,
          .dropHolder holder none, .dropPayload info.payload none]
        [.reported info]

end Record

section Parts

variable {E H F Payload Callback σ : Type}
variable (user : User E H F Payload Callback σ)

theorem start_asks (event : E) (entry : HandlerEntry H) (world : σ) :
    Asks user (start user.recorded event entry) (start user event entry)
      world fun started requests events =>
        requests = [.call entry.handler event started] ∧
          events = startEvents entry started := by
  apply (Code.asks_log _).bind
  rintro _ _ _ _ ⟨rfl, rfl⟩
  apply (Code.asks_attempt (fun world => ⟨world, rfl⟩) fun _ => rfl).bind
  rintro answer _ _ _ ⟨rfl, rfl⟩
  cases answer with
  | ok future => exact Code.asks_pure ⟨rfl, rfl⟩
  | error payload =>
      apply (Code.asks_log _).bindPure
      rintro _ _ _ ⟨rfl, rfl⟩
      exact ⟨rfl, rfl⟩

private theorem pollCaught_asks
    (entry : HandlerEntry H) (future : F) (world : σ) :
    Asks user (pollCaught user.recorded entry future)
      (pollCaught user entry future) world
      fun polled requests events =>
        requests = [.poll future polled.answer] ∧
          events = pollEvents entry polled := by
  apply (Code.asks_log _).bind
  rintro _ _ _ _ ⟨rfl, rfl⟩
  apply (Code.asks_attempt (fun world => ⟨world, rfl⟩) fun _ => rfl).bind
  rintro answer _ _ _ ⟨rfl, rfl⟩
  match answer with
  | .ok (some next) => exact Code.asks_pure ⟨rfl, rfl⟩
  | .ok none =>
      apply (Code.asks_log _).bindPure
      rintro _ _ _ ⟨rfl, rfl⟩
      exact ⟨rfl, rfl⟩
  | .error payload =>
      apply (Code.asks_log _).bindPure
      rintro _ _ _ ⟨rfl, rfl⟩
      exact ⟨rfl, rfl⟩

private theorem dropFuture_asks (future : F) (world : σ) :
    Asks user (dropFuture user.recorded future : AsyncCode _ H Payload Unit)
      (dropFuture user future) world fun _ requests events =>
        requests = [.dropFuture future none] ∧ events = [] :=
  Code.asks_destroy (fun world => ⟨world, rfl⟩) fun _ => rfl

private theorem dropPayload_asks (payload : Payload) (world : σ) :
    Asks user
      (dropPayload user.recorded payload : AsyncCode _ H Payload Unit)
      (dropPayload user payload) world fun _ requests events =>
        requests = [.dropPayload payload none] ∧ events = [] :=
  Code.asks_destroy (fun world => ⟨world, rfl⟩) fun _ => rfl

private theorem dropOutcome_asks (panic : Option Payload) (world : σ) :
    Asks user
      (dropOutcome user.recorded panic : AsyncCode _ H Payload Unit)
      (dropOutcome user panic) world fun _ _ events => events = [] := by
  cases panic with
  | none => exact Code.asks_pure rfl
  | some payload =>
      exact (dropPayload_asks user payload world).weaken
        fun _ _ _ _ dropped => dropped.2

/-- A poll of a future that is dropped as soon as it has ended.  `abandon` runs
only if its destructor panics. -/
theorem pollThenDrop_asks
    {abandon' : Option Payload → AsyncCode
      (σ × List (Request E H F Payload Callback)) H Payload Unit}
    {abandon : Option Payload → AsyncCode σ H Payload Unit} {α : Type}
    {abandoned : Option Payload → List (Request E H F Payload Callback) →
      List (Event H Payload) → Prop}
    (abandons : ∀ panic world, Asks user (abandon' panic) (abandon panic)
      world fun _ => abandoned panic)
    (result : Polled F Payload → α) (entry : HandlerEntry H) (future : F)
    (world : σ) :
    Asks user
      (do
        match ← pollCaught user.recorded entry future with
        | .pending next => return result (.pending next)
        | .ready panic =>
            (dropFuture user.recorded future).onUnwind (abandon' panic)
            return result (.ready panic))
      (do
        match ← pollCaught user entry future with
        | .pending next => return result (.pending next)
        | .ready panic =>
            (dropFuture user future).onUnwind (abandon panic)
            return result (.ready panic))
      world fun value requests events => ∃ polled, value = result polled ∧
        requests = pollRequests future polled ∧
        events = pollEvents entry polled := by
  apply (pollCaught_asks user entry future world).bind
  rintro polled last _ _ ⟨rfl, rfl⟩
  cases polled with
  | pending next => exact Code.asks_pure ⟨_, rfl, rfl, rfl⟩
  | ready panic =>
      apply ((dropFuture_asks user future last).onUnwind
        (abandons panic)).bindPure
      rintro _ _ _ ⟨rfl, rfl⟩
      exact ⟨_, rfl, rfl, by rw [List.append_nil]⟩

theorem catchUnwindPoll_asks
    (entry : HandlerEntry H) (future : F) (world : σ) :
    Asks user (catchUnwindPoll user.recorded entry future)
      (catchUnwindPoll user entry future) world
      fun polled requests events =>
        requests = pollRequests future polled ∧
          events = pollEvents entry polled := by
  apply (pollThenDrop_asks user (dropOutcome_asks user) id entry future
    world).weaken
  rintro _ _ _ _ ⟨polled, rfl, polls⟩
  exact polls

/-- The requests that the drop of a slot makes. -/
def Slot.dropRequests :
    Slot F Payload → List (Request E H F Payload Callback)
  | .running future => [.dropFuture future none]
  | .done => []
  | .panicked payload => [.dropPayload payload none]

theorem Slot.drop_asks (slot : Slot F Payload) (world : σ) :
    Asks user (slot.drop user.recorded : AsyncCode _ H Payload Unit)
      (slot.drop user) world fun _ requests events =>
        requests = slot.dropRequests ∧ events = [] := by
  cases slot with
  | running future => exact dropFuture_asks user future world
  | done => exact Code.asks_pure ⟨rfl, rfl⟩
  | panicked payload => exact dropPayload_asks user payload world

theorem dropSlots_asks (slots : Slots H F Payload) (world : σ) :
    Asks user (dropSlots user.recorded slots) (dropSlots user slots) world
      fun _ requests events =>
        requests = (slots.flatMap fun slot => slot.2.dropRequests) ∧
          events = [] :=
  Code.Asks.dropAll slots (fun slot _ => slot.2.drop_asks user) world

/-- The call of the callback, whose own panic is dropped. -/
private theorem invokeHolder_asks
    (holder : Callback) (info : PanicInfo Payload) (world : σ) :
    Asks user (invokeHolder (H := H) user.recorded.reporting holder info)
      (invokeHolder user.reporting holder info) world
      fun _ requests events => events = [.reported info] ∧
        ∃ panic, requests = .callback holder info panic ::
          panic.toList.map fun second => .dropPayload second none := by
  apply (Code.asks_log _).bind
  rintro _ _ _ _ ⟨rfl, rfl⟩
  apply (Code.asks_invoke (fun world => ⟨world, rfl⟩) fun _ => rfl).bind
  rintro outcome last _ _ ⟨rfl, rfl⟩
  cases outcome with
  | ok value => exact Code.asks_pure ⟨rfl, none, rfl⟩
  | error second =>
      apply (dropPayload_asks user second last).weaken
      rintro _ _ _ _ ⟨rfl, rfl⟩
      exact ⟨rfl, some second, rfl⟩

theorem handlePanic_asks
    (handlerId : HandlerId) (payload : Payload) (world : σ) :
    Asks user (handlePanic user.recorded handlerId payload)
      (handlePanic (H := H) user handlerId payload) world
      fun _ => Reports user ⟨handlerId, payload⟩ := by
  refine Code.Asks.scope (?called : Asks user _ _ world
    fun _ requests events => Reports user ⟨handlerId, payload⟩
      (requests ++ [.dropPayload payload none]) events)
    (dropPayload_asks user payload) ?_
  case called =>
    apply Code.asks_get
    intro past
    have recorded : user.recorded.reporting.installed (world, past) =
        user.installed world := rfl
    have plain : user.reporting.installed world = user.installed world := rfl
    rw [recorded, plain]
    cases installed : user.installed world with
    | none =>
        apply (Code.asks_log _).weaken
        rintro _ _ _ _ ⟨rfl, rfl⟩
        exact .missing installed
    | some holder =>
        refine (invokeHolder_asks user holder ⟨handlerId, payload⟩
          world).scope (fun _ => Code.asks_destroy
            (fun world => ⟨world, rfl⟩) fun _ => rfl) ?_
        rintro _ _ _ _ _ ⟨rfl, panic, rfl⟩ ⟨rfl, rfl⟩
        cases panic with
        | none => exact .returns installed
        | some second => exact .panics second installed
  rintro _ _ events _ _ reports ⟨rfl, rfl⟩
  rw [List.append_nil]
  exact reports

/-- Destructors of handlers. -/
private theorem dropOutsides_asks
    (before : σ) (outsides : List (Outside σ Payload))
    (owned : ∀ outside ∈ outsides,
      outside ∈ user.reclaimed before ∨ outside ∈ user.lastOwner before)
    (world : σ) :
    Asks user (Code.dropAll Code.call (outsides.map (record .dropHandler)))
      (Code.dropAll Code.call outsides : AsyncCode σ H Payload Unit) world
      fun _ requests events => Frees requests ∧ events = [] := by
  rw [Code.dropAll_map]
  have dropped : ∀ outside ∈ outsides, ∀ last,
      Asks user (Code.call (record .dropHandler outside))
        (Code.call outside : AsyncCode σ H Payload Unit) last
        fun _ requests events =>
          requests = [.dropHandler none] ∧ events = [] :=
    fun outside member _ => Code.asks_destroy
      (fun world => ⟨before, world, outside, owned outside member, rfl⟩)
      fun _ => rfl
  apply (Code.Asks.dropAll outsides dropped world).weaken
  rintro _ _ _ _ ⟨rfl, rfl⟩
  refine ⟨?_, rfl⟩
  intro request member
  obtain ⟨_, _, isRequest⟩ := List.mem_flatMap.mp member
  exact List.mem_singleton.mp isRequest

private theorem release_asks (world : σ) :
    Asks user (release user.recorded : AsyncCode _ H Payload Unit)
      (release user) world fun _ requests events =>
        Frees requests ∧ events = [] :=
  Code.asks_get fun _ => dropOutsides_asks user world
    (user.reclaimed world) (fun _ => .inl) world

theorem dropList_asks (world : σ) :
    Asks user (dropList user.recorded : AsyncCode _ H Payload Unit)
      (dropList user) world fun _ requests events =>
        Frees requests ∧ events = [] :=
  Code.asks_get fun _ => dropOutsides_asks user world
    (user.lastOwner world) (fun _ => .inr) world

/-- The load gives the list that is registered now, unless that is empty. -/
theorem loadArcIf_asks (world : σ) :
    Asks user (loadArcIf user.recorded) (loadArcIf user) world
      fun loaded requests events =>
        loaded = (if user.handlers world = [] then none
          else some (user.handlers world)) ∧
          Frees requests ∧ events = [] := by
  apply Code.asks_get
  intro past
  change Asks user
    (if user.protects world = true then
      if (user.handlers world).isEmpty = true then _ else _
    else if (user.handlers world).isEmpty = true then _ else _)
    (if user.protects world = true then
      if (user.handlers world).isEmpty = true then _ else _
    else if (user.handlers world).isEmpty = true then _ else _) world _
  simp only [List.isEmpty_iff]
  by_cases isEmpty : user.handlers world = []
  · simp only [if_pos isEmpty]
    split
    · apply (release_asks user world).bindPure
      intro _ requests events freed
      exact ⟨rfl, freed⟩
    · apply (dropList_asks user world).bindPure
      intro _ requests events freed
      exact ⟨rfl, freed⟩
  · simp only [if_neg isEmpty]
    split
    · apply ((release_asks user world).onUnwind
        (dropList_asks user)).bindPure
      intro _ requests events freed
      exact ⟨rfl, freed⟩
    · exact Code.asks_pure ⟨rfl, nofun, rfl⟩

end Parts

/-- The first poll of a dispatch: nothing to do, or a body that owns the
list. -/
def loadThen {E H F Payload Callback σ S : Type}
    (user : User E H F Payload Callback σ)
    (body : List (HandlerEntry H) → AsyncCode σ H Payload (Option S)) :
    AsyncCode σ H Payload (Option S) := do
  match ← loadArcIf user with
  | none => return none
  | some list => holding (dropList user) (body list)

/-- The await of one handler, suspended in the states `suspended`, after which
a dispatch goes on as `goOn`.  Both drivers await a handler in this way. -/
def awaitWith {E H F Payload Callback σ S : Type}
    (user : User E H F Payload Callback σ) (entry : HandlerEntry H)
    (suspended : F → S) (goOn : AsyncCode σ H Payload (Option S))
    (future : F) : AsyncCode σ H Payload (Option S) := do
  match ← catchUnwindPoll user entry future with
  | .pending next => return some (suspended next)
  | .ready panic =>
      report user entry panic
      goOn

/-- Start, await and report of one handler. -/
def handleWith {E H F Payload Callback σ S : Type}
    (user : User E H F Payload Callback σ) (event : E)
    (entry : HandlerEntry H) (suspended : F → S)
    (goOn : AsyncCode σ H Payload (Option S)) :
    AsyncCode σ H Payload (Option S) := do
  match ← start user event entry with
  | .ok future => awaitWith user entry suspended goOn future
  | .error payload =>
      handlePanic user entry.id payload
      goOn

end RegistryIo.Isolation.Async
