import RegistryIo.Snapshot.Waiting

/-!
# Dispatches over runs

Which list a dispatch walks, and which handlers it invokes: every dispatch
walks one list that was current after the dispatch started and before its
first handler, in order and once each.
-/

namespace RegistryIo.Snapshot

open RegistryIo.Interleaving

section Bodies

variable {body body' : Body} {act : Act} {call : CallId}

/-- The entries that a call invoked. -/
def invokedBy (call : CallId) (events : List Event) : List Entry :=
  events.filterMap fun
    | .invoked caller _ entry => if caller = call then some entry else none
    | _ => none

theorem invokedBy_append (first second : List Event) :
    invokedBy call (first ++ second) =
      invokedBy call first ++ invokedBy call second :=
  List.filterMap_append

theorem invokedBy_of_quiet
    {event : Option Event}
    (quiet : ∀ emitted, event = some emitted → emitted.call ≠ call) :
    invokedBy call event.toList = [] := by
  cases event with
  | none => rfl
  | some emitted =>
      have other := quiet emitted rfl
      cases emitted with
      | invoked caller cell entry =>
          simp only [Event.call] at other
          simp [invokedBy, other]
      | _ => rfl

/-- A closure invokes the entries ahead of it in order. -/
theorem bodyStep_event
    (call : CallId) (claim : Claim)
    (moved : bodyStep body act = some body') :
    (body'.pending = body.pending ∧
        (Stage.inside claim body).event call act = none) ∨
      ∃ entry, body.pending = entry :: body'.pending ∧
        (Stage.inside claim body).event call act =
          some (.invoked call claim.cell entry) := by
  cases body with
  | closure => cases act <;> cases moved
  | dispatch pending =>
      cases pending with
      | nil => cases act <;> cases moved
      | cons entry pending =>
          cases act with
          | invoke =>
              cases moved
              exact Or.inr ⟨entry, rfl, rfl⟩
          | _ => cases moved
  | handler entry pending =>
      cases act with
      | handlerReturns =>
          cases moved
          exact Or.inl ⟨rfl, rfl⟩
      | handlerPanics =>
          cases moved
          exact Or.inl ⟨rfl, rfl⟩
      | _ => cases moved
  | callback entry pending =>
      cases act with
      | callbackReturns =>
          cases moved
          exact Or.inl ⟨rfl, rfl⟩
      | _ => cases moved

private theorem bodyStep_pending
    (moved : bodyStep body act = some body') :
    body'.pending <:+ body.pending := by
  rcases bodyStep_event ⟨0, 0⟩ ⟨0, 0⟩ moved with
    ⟨same, _⟩ | ⟨entry, split, _⟩
  · exact same ▸ List.suffix_rfl
  · rw [split]
    exact List.suffix_cons entry _

theorem pending_of_finishes
    (isOver : body.finishes = true) : body.pending = [] := by
  cases body with
  | closure => rfl
  | dispatch pending => exact List.isEmpty_iff.mp isOver
  | _ => cases isOver

/-- The entries that a dispatch walks; another closure invokes none. -/
theorem pending_start (notify : Bool) (list : List Entry) :
    (Body.start notify list).pending = if notify then list else [] := by
  cases notify <;> rfl

end Bodies

section OwnFrames

variable {state : State} {waiter call : CallId} {cell : CellId}
variable {onFallback : Bool} {removed : List Nat} {handler : Nat}

/-- A dispatch of the cell on the thread has an entry of the handler ahead of
it. -/
def PendingOn (state : State) (cell : CellId) (thread : Tid)
    (handler : Nat) : Prop :=
  ∃ call claim body, call.thread = thread ∧ claim.cell = cell ∧
    stageOf state call = some (.inside claim body) ∧
    handler ∈ handlersOf body.pending

/-- The thread does not unwind. -/
def returnsNormally (thread : Tid) (_ : State) (actor : Tid)
    (act : Act) : Bool :=
  decide (actor ≠ thread ∨ act ≠ .unwind)

/-- An entry that is ahead of a dispatch stays ahead of it until it is
invoked, unless the dispatch unwinds. -/
private theorem pending_step
    {next : State} {thread : Tid} {act : Act} {claim : Claim}
    (holds : Invariant state)
    (stepped : program.step state thread act = some next)
    (normal : returnsNormally call.thread state thread act = true)
    (pending : ∃ body, stageOf state call = some (.inside claim body) ∧
      handler ∈ handlersOf body.pending) :
    (∃ body, stageOf next call = some (.inside claim body) ∧
        handler ∈ handlersOf body.pending) ∨
      ∃ entry, observe state thread act =
        some (.invoked call claim.cell entry) ∧ entry.handler = handler := by
  obtain ⟨body, inside, member⟩ := pending
  rcases stageOf_step holds stepped call with
    ⟨same, _⟩ | ⟨isThread, stage, before, moved, emits⟩ | ⟨vacant, _⟩
  · exact Or.inl ⟨body, same.trans inside, member⟩
  · rw [inside] at before
    cases before
    cases after : stageOf next call with
    | none =>
        rw [after] at moved
        cases moved
    | some stage =>
        rw [after] at moved
        cases moved with
        | walks _ moved =>
            rcases bodyStep_event call claim moved with
              ⟨same, _⟩ | ⟨entry, split, event⟩
            · rw [← same] at member
              exact Or.inl ⟨_, rfl, member⟩
            · rw [split] at member
              rcases List.mem_cons.mp member with first | later
              · exact Or.inr ⟨entry, emits.trans event, first.symm⟩
              · exact Or.inl ⟨_, rfl, later⟩
        | finishes _ _ isOver =>
            rw [pending_of_finishes isOver] at member
            cases member
        | unwinds _ isUnwind =>
            simp [returnsNormally, isThread, isUnwind] at normal
  · rw [inside] at vacant
    cases vacant

private theorem not_invoked_of_not_pending
    (holds : Invariant state)
    (isRemoved :
      (state.memory.store.cells cell).status handler = .removed)
    {thread : Tid} (clear : ¬ PendingOn state cell thread handler)
    {schedule : List (Tid × Act)} {entry : Entry}
    (isThread : call.thread = thread)
    (invoked : .invoked call cell entry ∈
      program.events observe state schedule) :
    entry.handler ≠ handler := by
  have shielded : Shielded cell handler (· = thread)
      (fun _ body => handler ∉ handlersOf body.pending) state := by
    refine ⟨holds, isRemoved, ?_⟩
    intro call claim body isThread isCell inside pending
    exact clear ⟨call, claim, body, isThread, isCell, inside, pending⟩
  have starts : ∀ notify list, handler ∉ handlersOf list →
      handler ∉ handlersOf (Body.start notify list).pending := by
    intro notify list absent
    rw [pending_start]
    split
    · exact absent
    · exact List.not_mem_nil
  obtain ⟨list, pending, absent, _⟩ := shielded.invoked starts
    (fun _ _ _ _ moved absent present =>
      absent (((bodyStep_pending moved).map _).subset present))
    invoked isThread
  rintro rfl
  exact absent List.mem_cons_self

private theorem invoked_of_pending
    {claim : Claim} {schedule : List (Tid × Act)} {last : State}
    (holds : Invariant state)
    (executed :
      program.execWhere (returnsNormally call.thread) state schedule =
        some last)
    (finished : (last.threads call.thread).stack = [])
    (pending : ∃ body, stageOf state call = some (.inside claim body) ∧
      handler ∈ handlersOf body.pending) :
    ∃ entry, .invoked call claim.cell entry ∈
        program.events observe state schedule ∧
      entry.handler = handler := by
  have kept : ∀ (state : State) thread act next,
      program.step state thread act = some next →
        returnsNormally call.thread state thread act = true →
        (Invariant state ∧
          ∃ body, stageOf state call = some (.inside claim body) ∧
            handler ∈ handlersOf body.pending) →
        (Invariant next ∧
          ∃ body, stageOf next call = some (.inside claim body) ∧
            handler ∈ handlersOf body.pending) ∨
          ∃ event, observe state thread act = some event ∧
            ∃ entry, event = .invoked call claim.cell entry ∧
              entry.handler = handler := by
    intro state thread act next stepped normal current
    rcases pending_step current.1 stepped normal current.2 with
      still | ⟨entry, emitted, isHandler⟩
    · exact Or.inl ⟨invariant_step stepped current.1, still⟩
    · exact Or.inr ⟨_, emitted, entry, rfl, isHandler⟩
  have left : ¬ (Invariant last ∧
      ∃ body, stageOf last call = some (.inside claim body) ∧
        handler ∈ handlersOf body.pending) := by
    rintro ⟨_, body, inside, _⟩
    unfold stageOf frameOf at inside
    rw [finished] at inside
    cases inside
  obtain ⟨event, emitted, entry, rfl, isHandler⟩ :=
    exists_event_of_left kept executed ⟨holds, pending⟩ left
  exact ⟨entry, emitted, isHandler⟩

/-- `unregister_and_wait` and the dispatches of the calling thread.  When the
wait returns, the thread will not invoke the removed handler provided that
none of its dispatches has the entry ahead of it; if one has, every run in
which the thread does not unwind and in the end leaves all its dispatches
invokes the handler. -/
theorem own_dispatch_after_wait
    (reachable : program.Reachable initial state)
    (returns : frameOf state waiter =
      some (.returned cell (.waited onFallback removed)))
    (member : handler ∈ removed) :
    (¬ PendingOn state cell waiter.thread handler →
      ∀ schedule call entry, call.thread = waiter.thread →
        .invoked call cell entry ∈ program.events observe state schedule →
          entry.handler ≠ handler) ∧
    ∀ schedule last,
      program.execWhere (returnsNormally waiter.thread) state schedule =
          some last →
        (last.threads waiter.thread).stack = [] →
        (∀ call entry, call.thread = waiter.thread →
          .invoked call cell entry ∈ program.events observe state schedule →
            entry.handler ≠ handler) →
          ¬ PendingOn state cell waiter.thread handler := by
  have holds := invariant_reachable reachable
  have isRemoved := (holds.outcomeOk returns).1 handler member
  constructor
  · intro clear schedule call entry isThread invoked
    exact not_invoked_of_not_pending holds isRemoved clear isThread invoked
  · rintro schedule last executed finished silent
      ⟨call, claim, body, isThread, rfl, inside, pending⟩
    rw [← isThread] at executed finished
    obtain ⟨entry, emitted, isHandler⟩ :=
      invoked_of_pending holds executed finished ⟨body, inside, pending⟩
    exact silent call entry isThread emitted isHandler

end OwnFrames

/-- A handler removes a handler and waits.  The list has two handlers, with
ids `1` and `2`, and the first one is running. -/
def removesAndWaits (id : HandlerId) : List (Tid × Act) :=
  (0, .newCell 0 100) :: registration 0 0 1 101 9 ++
    registration 0 0 0 102 9 ++ dispatching 0 0 8 ++
    (0, .call 0 (.unregister id true)) :: nexts 0 1 ++
    (0, .alloc 103) :: nexts 0 24

/-- The handler returns, and the dispatch goes on to its end. -/
def dispatchGoesOn : List (Tid × Act) :=
  [(0, .next), (0, .handlerReturns), (0, .invoke), (0, .handlerReturns),
    (0, .finish)] ++ nexts 0 18

/-- A handler removes the next one of its dispatch; the wait returns, and the
dispatch still invokes the removed handler. -/
theorem own_dispatch_invokes_removed :
    ∃ state last,
      program.exec initial (removesAndWaits ⟨2⟩) = some state ∧
      frameOf state ⟨0, 1⟩ = some (.returned 0 (.waited false [1])) ∧
      program.exec state dispatchGoesOn = some last ∧
      .invoked ⟨0, 0⟩ 0 ⟨⟨2⟩, 0, 1⟩ ∈
        program.events observe state dispatchGoesOn := by
  have evaluated :
      (program.exec initial (removesAndWaits ⟨2⟩)).map
          (fun state => (frameOf state ⟨0, 1⟩,
            (program.exec state dispatchGoesOn).isSome,
            program.events observe state dispatchGoesOn)) =
        some (some (.returned 0 (.waited false [1])), true,
          [.invoked ⟨0, 0⟩ 0 ⟨⟨2⟩, 0, 1⟩, .finished ⟨0, 0⟩ 0]) := by
    decide +kernel
  obtain ⟨state, reached, view⟩ := Option.map_eq_some_iff.mp evaluated
  simp only [Prod.mk.injEq] at view
  obtain ⟨returns, continues, events⟩ := view
  obtain ⟨last, executed⟩ := Option.isSome_iff_exists.mp continues
  refine ⟨state, last, reached, returns, executed, ?_⟩
  rw [events]
  exact List.mem_cons_self

/-- A handler removes itself; the rest of its dispatch does not contain it. -/
theorem own_dispatch_after_wait_self :
    ∃ state,
      program.exec initial (removesAndWaits ⟨1⟩) = some state ∧
      frameOf state ⟨0, 1⟩ = some (.returned 0 (.waited false [0])) ∧
      ∀ schedule call entry, call.thread = 0 →
        .invoked call 0 entry ∈ program.events observe state schedule →
          entry.handler ≠ 0 := by
  have evaluated :
      (program.exec initial (removesAndWaits ⟨1⟩)).map
          (fun state => (state.threads 0).stack) =
        some [.returned 0 (.waited false [0]),
          .reading 0 102 2 ⟨0, 0⟩
            (.handler ⟨⟨1⟩, 1, 0⟩ [⟨⟨2⟩, 0, 1⟩])] := by
    decide +kernel
  obtain ⟨state, reached, stack⟩ := Option.map_eq_some_iff.mp evaluated
  have returns : frameOf state ⟨0, 1⟩ =
      some (.returned 0 (.waited false [0])) := by
    unfold frameOf
    rw [stack]
    rfl
  refine ⟨state, reached, returns,
    (own_dispatch_after_wait ⟨_, reached⟩ returns List.mem_cons_self).1 ?_⟩
  rintro ⟨⟨thread, depth⟩, claim, body, rfl, _, inside, pending⟩
  unfold stageOf frameOf at inside
  rw [stack] at inside
  simp only [frameAt, List.length_cons, List.length_nil] at inside
  split at inside
  · cases inside
  · split at inside
    · cases inside
      simp [handlersOf, Body.pending] at pending
    · cases inside

end RegistryIo.Snapshot
