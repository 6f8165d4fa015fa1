import RegistryIo.Isolation.AsyncIsolation
import RegistryIo.Isolation.ScriptedJoin

/-!
# Isolation and agreement of the asynchronous dispatches

`notify` and `notify_sequential` load the list in their first poll and then
run over it.  A dispatch that is polled often enough isolates panics exactly
when no destructor that falls due panics, and then the concurrent and the
sequential dispatch do the same to every handler.
-/

namespace RegistryIo.Isolation.Async

open RegistryIo.Unwinding

section Load

variable {Payload Callback : Type} (script : Script Payload Callback)

/-- No destructor that falls due in a dispatch panics. -/
structure DestructorsReturn : Prop where
  released : script.protects = true →
    ∀ outcome ∈ script.reclaimed, outcome = none
  list : script.handlers ≠ [] ∨ script.protects = false →
    ∀ outcome ∈ script.lastOwner, outcome = none
  futures : ∀ entry ∈ script.handlers, entry.handler.DropReturns
  reports : ∀ entry ∈ script.handlers, ∀ payload,
    entry.handler.outcome = some payload →
      ReportReturns script ⟨entry.id, payload⟩

/-- The destructors that the load of the list runs return. -/
def LoadReturns : Prop :=
  (script.protects = true → ∀ outcome ∈ script.reclaimed, outcome = none) ∧
    (script.handlers = [] → script.protects = false → ListReturns script)

private theorem loadArcIf_ensures :
    (loadArcIf script.user).Ensures () (LoadReturns script)
      fun value _ events =>
        value = (if script.handlers = [] then none
          else some script.handlers) ∧ events = [] := by
  have released := release_ensures script
  have dropped := dropList_ensures script
  obtain ⟨handlers, installed, callback, dropPayload, dropHolder, protects,
    reclaimed, lastOwner⟩ := script
  unfold LoadReturns
  cases protects with
  | true =>
      cases handlers with
      | nil =>
          refine Code.Ensures.congr (by simp) (Code.Ensures.after rfl
            (released.bindPure _ ?_))
          intro _ _ events isEmpty
          exact ⟨rfl, isEmpty⟩
      | cons first rest =>
          refine Code.Ensures.congr (by simp) (Code.Ensures.after rfl
            (released.onUnwind.bindPure _ ?_))
          intro _ _ events isEmpty
          exact ⟨rfl, isEmpty⟩
  | false =>
      cases handlers with
      | nil =>
          refine Code.Ensures.congr (by simp [ListReturns])
            (Code.Ensures.after rfl (dropped.bindPure _ ?_))
          intro _ _ events isEmpty
          exact ⟨rfl, isEmpty⟩
      | cons first rest =>
          exact Code.ensures_of_run (by simp) rfl ⟨rfl, rfl⟩

private theorem reportsReturn_iff (handlers : List (Entry Payload)) :
    ReportsReturn script (panicsOf handlers) ↔
      ∀ entry ∈ handlers, ∀ payload, entry.handler.outcome = some payload →
        ReportReturns script ⟨entry.id, payload⟩ := by
  constructor
  · intro reports entry mem payload outcome
    apply reports
    exact List.mem_filterMap.mpr ⟨entry, mem, by simp [panicOf, outcome]⟩
  · intro reports info mem
    obtain ⟨entry, isEntry, panicked⟩ := List.mem_filterMap.mp mem
    obtain ⟨payload, outcome, rfl⟩ := Option.map_eq_some_iff.mp panicked
    exact reports entry isEntry payload outcome

private theorem destructorsReturn_iff :
    DestructorsReturn script ↔ LoadReturns script ∧
      (script.handlers ≠ [] → HandlersReturn script script.handlers) := by
  have reports := reportsReturn_iff script script.handlers
  constructor
  · intro returns
    refine ⟨⟨returns.released, ?_⟩, ?_⟩
    · intro _ unprotected
      exact returns.list (.inr unprotected)
    · intro nonempty
      exact ⟨returns.futures, reports.mpr returns.reports,
        returns.list (.inl nonempty)⟩
  · rintro ⟨⟨released, list⟩, handled⟩
    by_cases isEmpty : script.handlers = []
    · refine ⟨released, ?_, by simp [isEmpty], by simp [isEmpty]⟩
      rintro (nonempty | unprotected)
      · exact absurd isEmpty nonempty
      · exact list isEmpty unprotected
    · obtain ⟨futures, reported, freed⟩ := handled isEmpty
      exact ⟨released, fun _ => freed, futures, reports.mp reported⟩

private theorem loaded_dispatches
    {S : Type} (poll : S → ScriptCode Payload (Option S)) (origin : S)
    (body : List (Entry Payload) → ScriptCode Payload (Option S))
    (fuel left : Nat)
    (loads : poll origin = loadThen script.user body)
    (runs : Dispatches script script.handlers
      (HandlersReturn script script.handlers) left
      (driveFrom (dropList script.user) poll fuel (body script.handlers)))
    (nothing : script.handlers = [] → left = fuel) :
    Dispatches script script.handlers (DestructorsReturn script) left
      (drive poll (fuel + 1) origin) := by
  refine Code.Ensures.congr (destructorsReturn_iff script) ?_
  rw [drive, loads]
  apply (loadArcIf_ensures script).bindBind
  rintro _ _ _ ⟨rfl, rfl⟩
  by_cases isEmpty : script.handlers = []
  · rw [if_pos isEmpty, isEmpty, nothing isEmpty]
    exact Code.ensures_of_run (fun nonempty => absurd rfl nonempty) rfl
      ⟨rfl, (Logs.read []).nothing script⟩
  · rw [if_neg isEmpty]
    exact runs.congr (forall_prop_of_true isEmpty)

private theorem notify_dispatches (fuel : Nat)
    (enough : slowest script.handlers ≤ fuel) :
    Dispatches script script.handlers (DestructorsReturn script)
      (fuel - slowest script.handlers)
      (drive (pollNotify script.user ()) (fuel + 1) .unresumed) := by
  refine loaded_dispatches script (pollNotify script.user ()) .unresumed
    (notifyList script.user ()) fuel _ rfl
    (notifyList_dispatches script script.handlers fuel enough) ?_
  intro isEmpty
  rw [isEmpty]
  rfl

private theorem notifySequential_dispatches (fuel : Nat)
    (enough : pendingPolls script.handlers ≤ fuel) :
    Dispatches script script.handlers (DestructorsReturn script)
      (fuel - pendingPolls script.handlers)
      (drive (pollSequential script.user ()) (fuel + 1) .unresumed) := by
  refine loaded_dispatches script (pollSequential script.user ()) .unresumed
    (sequentialLoop script.user ()) fuel _ rfl
    (sequentialLoop_dispatches script script.handlers fuel enough) ?_
  intro isEmpty
  rw [isEmpty]
  rfl

end Load

section Isolation

variable {Payload Callback : Type} (script : Script Payload Callback)

/-- Complete panic isolation of a dispatch that is driven to its end: it
returns, every handler is started in order and ends as its script says, and
the callback runs exactly once for every handler that panicked. -/
structure Isolated
    (run : Run Unit (Event (Start Payload) Payload) Payload (Option Nat)) :
    Prop where
  returns : ∃ left, run.exit = .returned (some left)
  started : run.events.filterMap Event.invocation = script.handlers
  completed : (run.events.filterMap Event.ending).Perm
    (endingsOf script.handlers)
  reported : run.events.filterMap Event.callbackCall =
    script.calls (panicsOf script.handlers)

private theorem Dispatches.isolated_iff
    {script : Script Payload Callback} {harmless : Prop} {left : Nat}
    {code : ScriptCode Payload (Option Nat)}
    (dispatches : Dispatches script script.handlers harmless left code) :
    Isolated script (code ()) ↔ harmless := by
  constructor
  · intro isolated
    by_contra harmful
    obtain ⟨left, returns⟩ := isolated.returns
    exact dispatches.escapes harmful (some left) returns
  · intro holds
    obtain ⟨_, _, events, run, rfl, logs⟩ := dispatches.returns holds
    rw [run]
    exact ⟨⟨left, rfl⟩, logs.started, logs.ended, logs.reported⟩

private theorem slowest_le (handlers : List (Entry Payload)) :
    slowest handlers ≤ pendingPolls handlers := by
  induction handlers with
  | nil => exact Nat.le_refl 0
  | cons entry rest inductionHypothesis =>
      simp only [slowest, pendingPolls, List.map_cons, List.foldr_cons,
        List.sum_cons] at inductionHypothesis ⊢
      omega

private theorem script_isolated_iff
    (polls : Nat) (enough : pendingPolls script.handlers < polls) :
    (Isolated script
        (drive (pollNotify script.user ()) polls .unresumed ()) ↔
      DestructorsReturn script) ∧
    (Isolated script
        (drive (pollSequential script.user ()) polls .unresumed ()) ↔
      DestructorsReturn script) := by
  obtain ⟨fuel, rfl⟩ : ∃ fuel, polls = fuel + 1 := ⟨polls - 1, by omega⟩
  have bound : pendingPolls script.handlers ≤ fuel :=
    Nat.lt_succ_iff.mp enough
  have fast := (slowest_le script.handlers).trans bound
  exact ⟨(notify_dispatches script fuel fast).isolated_iff,
    (notifySequential_dispatches script fuel bound).isolated_iff⟩

/-- Both dispatches isolate panics, when they are polled often enough, exactly
if no destructor panics that runs on the way.  For scripted handlers the
destructors that fall due are known beforehand. -/
theorem dispatch_isolated_iff
    {E H F Payload Callback σ : Type}
    (user : User E H F Payload Callback σ) (event : E)
    (script : Script Payload Callback) (polls : Nat) :
    (∀ (rank : F → Nat) (bound : H → Nat) (between : Nat → σ → σ)
      (world : σ), Ends user event rank bound →
      ((user.handlers world).map fun entry =>
        bound entry.handler).sum < polls →
      let joined := (runNotify user.recorded event (unrecorded between)
        polls).requests world
      let chained := (runSequential user.recorded event (unrecorded between)
        polls).requests world
      (Isolates user event (user.handlers world)
          (runNotify user event between polls world) joined ↔
        ∀ request ∈ joined, request.harmful = false) ∧
      (Isolates user event (user.handlers world)
          (runSequential user event between polls world) chained ↔
        ∀ request ∈ chained, request.harmful = false)) ∧
    (pendingPolls script.handlers < polls →
      (Isolated script
          (drive (pollNotify script.user ()) polls .unresumed ()) ↔
        DestructorsReturn script) ∧
      (Isolated script
          (drive (pollSequential script.user ()) polls .unresumed ()) ↔
        DestructorsReturn script)) := by
  refine ⟨?_, script_isolated_iff script polls⟩
  intro rank bound between world ends enough
  exact ⟨notify_isolates_iff ends between world enough,
    sequential_isolates_iff ends between world enough⟩

/-- The future of the first of two handlers is ready at once, and its
destructor panics. -/
def explodingFuture : Script Bool Unit where
  handlers := [⟨⟨1⟩, 0, .future ⟨0, none, some true⟩⟩,
    ⟨⟨2⟩, 0, .future ⟨0, none, none⟩⟩]
  installed := some ()
  callback := fun _ _ => none
  dropPayload := fun _ => none
  dropHolder := fun _ => none
  protects := true
  reclaimed := []
  lastOwner := []

/-- Both dispatches unwind into the task that awaits them: `notify` never polls
the second handler, `notify_sequential` does not even start it. -/
theorem future_drop_escapes :
    let joined :=
      drive (pollNotify explodingFuture.user ()) 1 .unresumed ()
    let chained :=
      drive (pollSequential explodingFuture.user ()) 1 .unresumed ()
    joined.exit = .unwound true ∧ chained.exit = .unwound true ∧
      (joined.events.filterMap Event.polling).map HandlerEntry.id = [⟨1⟩] ∧
      (chained.events.filterMap Event.invocation).map HandlerEntry.id =
        [⟨1⟩] ∧
      ¬ Isolated explodingFuture joined ∧
      ¬ Isolated explodingFuture chained := by
  refine ⟨rfl, rfl, rfl, rfl, ?_, ?_⟩
  · intro isolated
    obtain ⟨left, returns⟩ := isolated.returns
    cases returns
  · intro isolated
    obtain ⟨left, returns⟩ := isolated.returns
    cases returns

/-- One handler panics when it is started, one after two polls. -/
def twoPanics : Script Nat Unit where
  handlers := [⟨⟨1⟩, 5, .panics 10⟩, ⟨⟨2⟩, 0, .future ⟨1, none, none⟩⟩,
    ⟨⟨3⟩, 0, .future ⟨2, some 30, none⟩⟩]
  installed := some ()
  callback := fun _ _ => none
  dropPayload := fun _ => none
  dropHolder := fun _ => none
  protects := true
  reclaimed := []
  lastOwner := []

private theorem twoPanics_returns : DestructorsReturn twoPanics := by
  refine ⟨by simp [twoPanics], by simp [twoPanics], ?_, ?_⟩
  · simp [twoPanics, Start.DropReturns]
  · intro entry _ payload _
    exact ⟨rfl, fun _ _ => ⟨rfl, fun _ _ => rfl⟩⟩

private theorem twoPanics_ends :
    Ends twoPanics.user () Future.pending Start.pending where
  starts := by
    rintro handler _ future made
    cases handler with
    | future own =>
        cases made
        exact Nat.le_refl _
    | panics payload => cases made
  polls := by
    rintro ⟨pending, ending, destructor⟩ _ next polled
    match pending, ending with
    | pending + 1, _ =>
        cases polled
        exact Nat.lt_succ_self pending
    | 0, none => cases polled
    | 0, some payload => cases polled

/-- Four polls are enough for both dispatches. -/
theorem twoPanics_isolated :
    Isolates twoPanics.user () twoPanics.handlers
        (runNotify twoPanics.user () (fun _ => id) 4 ())
        ((runNotify twoPanics.user.recorded () (unrecorded fun _ => id)
          4).requests ()) ∧
      Isolates twoPanics.user () twoPanics.handlers
        (runSequential twoPanics.user () (fun _ => id) 4 ())
        ((runSequential twoPanics.user.recorded () (unrecorded fun _ => id)
          4).requests ()) ∧
      Isolated twoPanics
        (drive (pollNotify twoPanics.user ()) 4 .unresumed ()) ∧
      Isolated twoPanics
        (drive (pollSequential twoPanics.user ()) 4 .unresumed ()) := by
  obtain ⟨general, scripted⟩ :=
    dispatch_isolated_iff twoPanics.user () twoPanics 4
  obtain ⟨joins, chains⟩ := general Future.pending Start.pending
    (fun _ => id) () twoPanics_ends (by decide)
  obtain ⟨joined, chained⟩ := scripted (by decide)
  refine ⟨joins.mpr ?_, chains.mpr ?_, joined.mpr twoPanics_returns,
    chained.mpr twoPanics_returns⟩
  · decide
  · decide

end Isolation

section Agreement

variable {Payload Callback : Type}

/-- A dispatch as a function of the number of polls it gets at most. -/
abbrev ScriptRun (Payload : Type) :=
  Nat → Run Unit (Event (Start Payload) Payload) Payload (Option Nat)

/-- What a dispatch asks of the outside, likewise. -/
abbrev ScriptRequests (Payload Callback : Type) :=
  Nat → List (Request Unit (Start Payload) (Future Payload) Payload Callback)

/-- A dispatch is ready on poll number `polls` and not before.  Until then
every handler was started once and in order, ended as its script says and was
polled as often as its script says, and the callback got the panics in list
order.  The requests to the outside agree with that. -/
structure Completes (script : Script Payload Callback)
    (dispatch : ScriptRun Payload)
    (asked : ScriptRequests Payload Callback) (polls : Nat) : Prop where
  ready : (dispatch polls).exit = .returned (some 0)
  pending : ∀ fewer < polls, (dispatch fewer).exit = .returned none
  started : (dispatch polls).events.filterMap Event.invocation =
    script.handlers
  outcomes : ((dispatch polls).events.filterMap Event.ending).Perm
    (script.handlers.map fun entry => (entry, entry.handler.outcome))
  polled : ((dispatch polls).events.filterMap Event.polling).Perm
    (script.handlers.flatMap fun entry =>
      List.replicate entry.handler.polls entry)
  reported : (dispatch polls).events.filterMap Event.callbackCall =
    if script.installed.isSome then
      script.handlers.filterMap fun entry =>
        entry.handler.outcome.map fun payload => ⟨entry.id, payload⟩
    else []
  isolates : Isolates script.user () script.handlers (dispatch polls)
    (asked polls)
  callbacks : (asked polls).filterMap Request.report =
    if script.installed.isSome then
      script.handlers.filterMap fun entry =>
        entry.handler.outcome.map fun payload => ⟨entry.id, payload⟩
    else []

private theorem Dispatches.completes
    {script : Script Payload Callback} {harmless : Prop} {needed : Nat}
    {S : Type} {poll : S → ScriptCode Payload (Option S)} {origin : S}
    {poll' : S → AsyncCode (Unit × List (Request Unit (Start Payload)
      (Future Payload) Payload Callback)) (Start Payload) Payload (Option S)}
    (dispatches : Dispatches script script.handlers harmless
      (needed - needed) (drive poll (needed + 1) origin))
    (asks : Asks script.user (drive poll' (needed + 1) origin)
      (drive poll (needed + 1) origin) ()
      (Runs script.user () ⟨script.handlers, 0, 0⟩ (needed + 1)))
    (holds : harmless) :
    Completes script (fun polls => drive poll polls origin ())
      (fun polls => (drive poll' polls origin).requests ())
      (1 + needed) := by
  obtain ⟨_, _, events, run, rfl, logs⟩ := dispatches.returns holds
  rw [Nat.sub_self] at run
  rw [Nat.add_comm 1 needed]
  have ready : (drive poll (needed + 1) origin ()).exit =
      .returned (some 0) := by rw [run]
  have logged : (drive poll (needed + 1) origin ()).events = events := by
    rw [run]
  have isolates : Isolates script.user () script.handlers
      (drive poll (needed + 1) origin ())
      ((drive poll' (needed + 1) origin).requests ()) := by
    obtain ⟨_, answered⟩ := asks.run
    have finished := answered
    rw [ready] at finished
    cases finished with
    | returned _ met =>
        obtain ⟨_, advances, rfl⟩ := met
        exact advances.isolates ready
  have callbacks := isolates.told.reports
  rw [logged, logs.reported] at callbacks
  refine ⟨ready, ?_, ?_, ?_, ?_, ?_, isolates, callbacks⟩
  · intro fewer less
    exact drive_fewer ready less
  · rw [logged]
    exact logs.started
  · rw [logged]
    exact logs.ended
  · rw [logged]
    exact logs.polled
  · rw [logged]
    exact logs.reported

/-- The concurrent and the sequential dispatch do the same to every handler;
the first takes as many polls as the slowest handler, the second as many as
all of them together. -/
theorem dispatches_agree
    (script : Script Payload Callback) (returns : DestructorsReturn script) :
    Completes script
        (fun polls => drive (pollNotify script.user ()) polls .unresumed ())
        (fun polls => (drive (pollNotify script.user.recorded ()) polls
          .unresumed).requests ())
        (1 + (script.handlers.map fun entry =>
          entry.handler.pending).foldr max 0) ∧
      Completes script
        (fun polls =>
          drive (pollSequential script.user ()) polls .unresumed ())
        (fun polls => (drive (pollSequential script.user.recorded ()) polls
          .unresumed).requests ())
        (1 + (script.handlers.map fun entry =>
          entry.handler.pending).sum) := by
  have joins := drive_asks _ _ (pollNotify_steps script.user ())
    (slowest script.handlers + 1) .unresumed () rfl
  have chains := drive_asks _ _ (pollSequential_steps script.user ())
    (pendingPolls script.handlers + 1) .unresumed () rfl
  exact ⟨(notify_dispatches script _ (Nat.le_refl _)).completes joins returns,
    (notifySequential_dispatches script _ (Nat.le_refl _)).completes chains
      returns⟩

theorem twoPanics_agree :
    Completes twoPanics
        (fun polls =>
          drive (pollNotify twoPanics.user ()) polls .unresumed ())
        (fun polls => (drive (pollNotify twoPanics.user.recorded ()) polls
          .unresumed).requests ()) 3 ∧
      Completes twoPanics
        (fun polls =>
          drive (pollSequential twoPanics.user ()) polls .unresumed ())
        (fun polls => (drive (pollSequential twoPanics.user.recorded ())
          polls .unresumed).requests ()) 4 :=
  dispatches_agree twoPanics twoPanics_returns

end Agreement

end RegistryIo.Isolation.Async
