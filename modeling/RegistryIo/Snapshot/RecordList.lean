import RegistryIo.Snapshot.ControlFlow
import RegistryIo.Snapshot.RecordBound

/-!
# The list of records

The list that starts at `HEAD` holds the records in the reverse order of their
publication, over every run.  `for_each_record` is run by `acquire_record`, by
`announced` and by `others_protect`; whoever runs it visits exactly the records
that were published before its load of `HEAD`.

The events of a run say what its steps do with the list.  A thread that is
inside a traversal or inside `acquire_record` has started it with an event, and
the events since then say how far it has come.
-/

namespace RegistryIo.Snapshot

open RegistryIo.Interleaving

/-- What a step does with the list of records.  A traversal starts with its
load of `HEAD`, `acquiring` when it is the one of `acquire_record`.  A record
is visited when the closure has returned and its `next` is loaded.
`acquire_record` claims a record by an exchange of `in_use`, or allocates one
after its traversal; it returns a claimed record at the end of its traversal
and a new one when it publishes it. -/
inductive RecordEvent where
  | starts (thread : Tid) (acquiring : Bool)
  | visits (thread : Tid) (record : RecordId)
  | claims (thread : Tid) (record : RecordId)
  | reuses (thread : Tid) (record : RecordId)
  | allocates (thread : Tid) (record : RecordId)
  | publishes (thread : Tid) (record : RecordId)
  | ends (thread : Tid)
  deriving DecidableEq, Repr

namespace RecordEvent

def thread : RecordEvent → Tid
  | .starts thread _ => thread
  | .visits thread _ => thread
  | .claims thread _ => thread
  | .reuses thread _ => thread
  | .allocates thread _ => thread
  | .publishes thread _ => thread
  | .ends thread => thread

/-- The record that is linked into the list. -/
def published : RecordEvent → Option RecordId
  | .publishes _ record => some record
  | _ => none

/-- The record that a thread visits. -/
def visited (thread : Tid) : RecordEvent → Option RecordId
  | .visits actor record => if actor = thread then some record else none
  | _ => none

/-- The record that a thread gets hold of. -/
def gained (thread : Tid) : RecordEvent → Option RecordId
  | .claims actor record => if actor = thread then some record else none
  | .allocates actor record => if actor = thread then some record else none
  | _ => none

/-- `acquire_record` returns. -/
def returned : RecordEvent → Option (Tid × RecordId)
  | .reuses thread record => some (thread, record)
  | .publishes thread record => some (thread, record)
  | _ => none

/-- `for_each_record` returns. -/
def ended : RecordEvent → Option Tid
  | .reuses thread _ => some thread
  | .allocates thread _ => some thread
  | .ends thread => some thread
  | _ => none

end RecordEvent

/-- The event of a step of the top frame. -/
def Frame.recordEvent (memory : Memory) (tls : Tls) (thread : Tid) :
    Frame → Act → Option RecordEvent
  | .pinning _ _ _ .findSlot, .next =>
      if tls.localGone = false ∧ tls.record = none then
        some (.starts thread true)
      else none
  | .pinning _ _ _ (.tryClaim (some record) none), .next =>
      if (memory.domain.records record).inUse then none
      else some (.claims thread record)
  | .pinning _ _ _ (.tryClaim (some record) (some _)), .next =>
      some (.visits thread record)
  | .pinning _ _ _ (.advance record _), .next =>
      some (.visits thread record)
  | .pinning _ _ _ (.tryClaim none (some reused)), .next =>
      some (.reuses thread reused)
  | .pinning _ _ _ (.tryClaim none none), .next =>
      some (.allocates thread memory.domain.allocated)
  | .pinning _ _ _ (.exchangeHead record head), .next =>
      if memory.domain.head = head then some (.publishes thread record)
      else none
  | .collect cell _ .start, .next =>
      if (memory.store.cells cell).retired.isEmpty then none
      else some (.starts thread false)
  | .collect _ _ (.scan (some record) index _), .next =>
      if index < SLOTS then none else some (.visits thread record)
  | .collect _ _ (.scan none _ _), .next => some (.ends thread)
  | .waiting _ _ (.each _ (_ :: _)), .next => some (.starts thread false)
  | .waiting _ _ (.scan _ _ _ (some record) index _), .next =>
      if tls.record = some record ∨ SLOTS ≤ index then
        some (.visits thread record)
      else none
  | .waiting _ _ (.scan _ _ _ none _ _), .next => some (.ends thread)
  | _, _ => none

def observeRecords (state : State) (thread : Tid) (act : Act) :
    Option RecordEvent :=
  match (state.threads thread).stack with
  | [] => none
  | frame :: _ =>
      frame.recordEvent state.memory (state.threads thread).tls thread act

/-- The cursor of a traversal, and inside `acquire_record` the record it is
going to return, once it has one. -/
structure RecordStage where
  cursor : Option (Option RecordId)
  acquired : Option (Option RecordId)
  deriving DecidableEq, Repr

/-- Neither in a traversal nor in `acquire_record`. -/
def RecordStage.outside : RecordStage := ⟨none, none⟩

def Frame.recordStage : Frame → RecordStage
  | .pinning _ _ _ .findSlot => .outside
  | .pinning _ _ _ (.tryClaim cursor reused) => ⟨some cursor, some reused⟩
  | .pinning _ _ _ (.advance record reused) =>
      ⟨some (some record), some reused⟩
  | .pinning _ _ _ step => ⟨none, some step.prepending⟩
  | .collect _ _ (.scan cursor _ _) => ⟨some cursor, none⟩
  | .waiting _ _ (.scan _ _ _ cursor _ _) => ⟨some cursor, none⟩
  | _ => .outside

def Thread.recordStage (locals : Thread) : RecordStage :=
  (locals.stack.head?.map Frame.recordStage).getD .outside

/-- A step of a thread, as far as the list is concerned. -/
inductive ListStep (domain domain' : Domain) (thread : Tid) :
    RecordStage → Option RecordEvent → RecordStage → Prop where
  | stays {stage} (same : domain'.published = domain.published) :
      ListStep domain domain' thread stage none stage
  | starts (acquiring : Bool)
      (same : domain'.published = domain.published) :
      ListStep domain domain' thread .outside
        (some (.starts thread acquiring))
        ⟨some domain.head, if acquiring then some none else none⟩
  | visits {record acquired}
      (same : domain'.published = domain.published) :
      ListStep domain domain' thread ⟨some (some record), acquired⟩
        (some (.visits thread record))
        ⟨some (domain.records record).next, acquired⟩
  | claims {cursor record} (same : domain'.published = domain.published) :
      ListStep domain domain' thread ⟨some cursor, some none⟩
        (some (.claims thread record)) ⟨some cursor, some (some record)⟩
  | reuses {record} (same : domain'.published = domain.published) :
      ListStep domain domain' thread ⟨some none, some (some record)⟩
        (some (.reuses thread record)) .outside
  | allocates {record} (same : domain'.published = domain.published) :
      ListStep domain domain' thread ⟨some none, some none⟩
        (some (.allocates thread record)) ⟨none, some (some record)⟩
  | publishes {record}
      (grown : domain'.published = record :: domain.published) :
      ListStep domain domain' thread ⟨none, some (some record)⟩
        (some (.publishes thread record)) .outside
  | ends (same : domain'.published = domain.published) :
      ListStep domain domain' thread ⟨some none, none⟩
        (some (.ends thread)) .outside

section Steps

variable {memory memory' : Memory} {call : CallId} {tls tls' : Tls}
variable {cell : CellId} {act : Act} {frame : Frame} {next : Option Frame}

theorem Pushed.outside
    {stack : List Frame} (pushed : Pushed stack frame) :
    frame.recordStage = .outside := by
  rcases pushed with ⟨cell, call, rfl⟩ | ⟨cell, freed, rfl⟩ |
    ⟨_, record, rfl⟩
  · cases call <;> rfl
  · rfl
  · rfl

private theorem slowPath_outside (reader : Reader) :
    (slowPath cell reader).recordStage = .outside := by
  cases reader <;> rfl

private theorem afterRelease_outside (result : Option Addr) :
    (afterRelease cell result).recordStage = .outside := by
  cases result <;> rfl

private theorem frameStep_list
    (stepped : frameStep memory call tls frame act =
      some (memory', tls', next)) :
    ListStep memory.domain memory'.domain call.thread frame.recordStage
      (frame.recordEvent memory tls call.thread act)
      ((next.map Frame.recordStage).getD .outside) := by
  cases frameStep_rule stepped with
  | pinGone gone =>
      simp only [Frame.recordEvent, gone]
      rw [Option.map_some, Option.getD_some, slowPath_outside]
      exact .stays rfl
  | pinFirst present unclaimed =>
      simp only [Frame.recordEvent, present, unclaimed]
      exact .starts true rfl
  | pinFull record _ isRecord =>
      simp only [Frame.recordEvent, isRecord, reduceCtorEq, and_false,
        if_false]
      rw [Option.map_some, Option.getD_some, slowPath_outside]
      exact .stays rfl
  | pinSlot record index _ isRecord =>
      simp only [Frame.recordEvent, isRecord, reduceCtorEq, and_false,
        if_false]
      exact .stays rfl
  | claimBusy busy =>
      simp only [Frame.recordEvent, busy]
      exact .stays rfl
  | claimFree free =>
      simp only [Frame.recordEvent, free]
      exact .claims rfl
  | claimSkip | claimAdvance => exact .visits rfl
  | claimReturn => exact .reuses rfl
  | claimAllocate => exact .allocates rfl
  | publish same =>
      simp only [Frame.recordEvent, same, if_true]
      exact .publishes rfl
  | publishLost moved =>
      simp only [Frame.recordEvent, moved, if_false]
      exact .stays rfl
  | collectNothing empty =>
      simp only [Frame.recordEvent, empty, List.isEmpty_nil, if_true]
      exact .stays rfl
  | collectStart nonempty =>
      simp only [Frame.recordEvent, List.isEmpty_iff, nonempty, if_false]
      exact .starts false rfl
  | collectSlot inside =>
      simp only [Frame.recordEvent, inside, if_true]
      exact .stays rfl
  | collectRecord beyond =>
      simp only [Frame.recordEvent, beyond, if_false]
      exact .visits rfl
  | collectEnd | waitAgain | waitNext => exact .ends rfl
  | waitEach => exact .starts false rfl
  | waitRecord done =>
      simp only [Frame.recordEvent, done, if_true]
      exact .visits rfl
  | waitFound other | waitSlot other =>
      simp only [Frame.recordEvent, other, if_false]
      exact .stays rfl
  | nothingRetired | tryLockBusy | dropReclaimed =>
      rw [Option.map_some, Option.getD_some, afterRelease_outside]
      exact .stays rfl
  | _ => exact .stays rfl

private theorem Frame.outside_of_isUser
    (isUser : frame.isUser = true) : frame.recordStage = .outside := by
  cases frame with
  | pinning => cases isUser
  | collect => cases isUser
  | waiting => cases isUser
  | _ => rfl

private theorem Frame.recordEvent_of_isUser
    {thread : Tid} (isUser : frame.isUser = true) :
    frame.recordEvent memory tls thread act = none := by
  cases frame with
  | pinning => cases isUser
  | collect => cases isUser
  | waiting => cases isUser
  | _ => rfl

end Steps

section Threads

variable {state next : State} {thread : Tid} {act : Act}

private theorem Thread.outside_of_userPoint
    {locals : Thread} (userPoint : locals.atUserPoint = true) :
    locals.recordStage = .outside := by
  unfold Thread.atUserPoint at userPoint
  unfold Thread.recordStage
  cases shape : locals.stack with
  | nil => rfl
  | cons top rest =>
      rw [shape] at userPoint
      exact Frame.outside_of_isUser userPoint

/-- The frames below the top are suspended and have nothing to do with the
list. -/
private theorem Thread.recordStage_after
    {tls : Tls} {next : Option Frame} {rest : List Frame}
    (suspended : ∀ frame ∈ rest, frame.isUser) :
    (⟨tls, next.toList ++ rest⟩ : Thread).recordStage =
      (next.map Frame.recordStage).getD .outside := by
  cases next with
  | some frame => rfl
  | none =>
      cases rest with
      | nil => rfl
      | cons below rest =>
          exact Frame.outside_of_isUser (suspended below List.mem_cons_self)

private theorem Thread.recordStage_top
    {locals : Thread} {frame : Frame} {rest : List Frame}
    (shape : locals.stack = frame :: rest) :
    locals.recordStage = frame.recordStage := by
  unfold Thread.recordStage
  rw [shape]
  rfl

private theorem observeRecords_of_userPoint
    (userPoint : (state.threads thread).atUserPoint = true) :
    observeRecords state thread act = none := by
  unfold Thread.atUserPoint at userPoint
  unfold observeRecords
  cases shape : (state.threads thread).stack with
  | nil => rfl
  | cons top rest =>
      rw [shape] at userPoint
      exact Frame.recordEvent_of_isUser userPoint

private theorem step_list
    (holds : Invariant state)
    (stepped : program.step state thread act = some next) :
    ListStep state.memory.domain next.memory.domain thread
      (state.threads thread).recordStage (observeRecords state thread act)
      (next.threads thread).recordStage := by
  obtain ⟨memory', locals', performed, rfl⟩ := step_eq_some stepped
  have suspended := (holds.2 thread).suspended
  show ListStep _ memory'.domain thread _ _
    (Function.update state.threads thread locals' thread).recordStage
  rw [Function.update_self]
  rcases program_cases performed with
    ⟨userPoint, user⟩ | ⟨frame, rest, tls', next, shape, moved, rfl⟩
  · rw [observeRecords_of_userPoint userPoint,
      Thread.outside_of_userPoint userPoint]
    have after : locals'.recordStage = .outside := by
      obtain ⟨_, _, stack⟩ := userStep_stack user
      rcases stack with same | ⟨frame, grown, pushed⟩
      · unfold Thread.recordStage
        rw [same]
        exact Thread.outside_of_userPoint userPoint
      · unfold Thread.recordStage
        rw [grown]
        exact pushed.outside
    rw [after, userStep_domain user]
    exact .stays rfl
  · have observed : observeRecords state thread act =
        frame.recordEvent state.memory (state.threads thread).tls thread
          act := by
      unfold observeRecords
      rw [shape]
    rw [shape, List.tail_cons] at suspended
    rw [Thread.recordStage_top shape, observed,
      Thread.recordStage_after suspended]
    exact frameStep_list moved

/-- A traversal stands on a record of the list. -/
theorem ThreadInv.cursorOk
    {memory : Memory} {locals : Thread} {cursor : Option RecordId}
    (ok : ThreadInv memory thread locals)
    (traversing : locals.recordStage.cursor = some cursor) :
    CursorOk memory cursor := by
  have stack := ok.stack
  unfold Thread.recordStage at traversing
  cases shape : locals.stack with
  | nil =>
      rw [shape] at traversing
      cases traversing
  | cons top rest =>
      rw [shape] at traversing stack
      have facts := stack.1.facts
      cases top with
      | pinning cell reader address step =>
          cases step with
          | tryClaim here reused =>
              cases traversing
              exact facts.1
          | advance record reused =>
              cases traversing
              rintro _ ⟨⟩
              exact facts.1
          | _ => cases traversing
      | collect cell collector step =>
          cases step with
          | scan here index announced =>
              cases traversing
              exact facts.2.cursor_ok
          | _ => cases traversing
      | waiting cell removed step =>
          cases step with
          | scan onFallback address retired here index found =>
              cases traversing
              exact facts.2.2.1
          | _ => cases traversing
      | _ => cases traversing

end Threads

/-! ### The events of a run -/

/-- The records that are published, the oldest first. -/
def publishedIn (trace : List RecordEvent) : List RecordId :=
  trace.filterMap RecordEvent.published

def visitedBy (thread : Tid) (trace : List RecordEvent) : List RecordId :=
  trace.filterMap (RecordEvent.visited thread)

def gainedBy (thread : Tid) (trace : List RecordEvent) : List RecordId :=
  trace.filterMap (RecordEvent.gained thread)

/-- The last start of a traversal by a thread, with the events before and
after it. -/
structure LastStart (thread : Tid) (trace : List RecordEvent)
    (acquiring : Bool) (earlier during : List RecordEvent) : Prop where
  split : trace = earlier ++ .starts thread acquiring :: during
  last : ∀ flag, .starts thread flag ∉ during

/-- What a traversal has visited since it started and what is left are the
records that were published before. -/
def CursorTraced (domain : Domain) (thread : Tid)
    (trace : List RecordEvent) (cursor : Option RecordId) : Prop :=
  ∃ acquiring earlier during,
    LastStart thread trace acquiring earlier during ∧
      visitedBy thread during ++ toVisit domain.published cursor =
        (publishedIn earlier).reverse

/-- What `acquire_record` has got hold of since it started. -/
def GainTraced (thread : Tid) (trace : List RecordEvent)
    (acquired : Option RecordId) : Prop :=
  ∃ earlier during, LastStart thread trace true earlier during ∧
    gainedBy thread during = acquired.toList

structure RecordStageOk (domain : Domain) (thread : Tid)
    (stage : RecordStage) (trace : List RecordEvent) : Prop where
  traversing : ∀ cursor, stage.cursor = some cursor →
    CursorTraced domain thread trace cursor
  acquiring : ∀ acquired, stage.acquired = some acquired →
    GainTraced thread trace acquired

section Traces

variable {domain domain' : Domain} {thread actor : Tid}
variable {stage stage' : RecordStage} {trace : List RecordEvent}
variable {event : Option RecordEvent} {acquiring : Bool}
variable {earlier during : List RecordEvent}

private theorem publishedIn_append (first second : List RecordEvent) :
    publishedIn (first ++ second) =
      publishedIn first ++ publishedIn second :=
  List.filterMap_append

private theorem visitedBy_append (first second : List RecordEvent) :
    visitedBy thread (first ++ second) =
      visitedBy thread first ++ visitedBy thread second :=
  List.filterMap_append

private theorem gainedBy_append (first second : List RecordEvent) :
    gainedBy thread (first ++ second) =
      gainedBy thread first ++ gainedBy thread second :=
  List.filterMap_append

theorem LastStart.start (thread : Tid) (acquiring : Bool)
    (trace : List RecordEvent) :
    LastStart thread (trace ++ [.starts thread acquiring]) acquiring
      trace [] :=
  ⟨rfl, fun _ member => by cases member⟩

theorem LastStart.extend
    (start : LastStart thread trace acquiring earlier during)
    (event : Option RecordEvent)
    (other : ∀ flag, event ≠ some (.starts thread flag)) :
    LastStart thread (trace ++ event.toList) acquiring earlier
      (during ++ event.toList) := by
  constructor
  · rw [start.split, List.append_assoc, List.cons_append]
  · intro flag member
    rcases List.mem_append.mp member with old | new
    · exact start.last flag old
    · exact other flag (Option.mem_toList.mp new)

theorem CursorTraced.extend
    {cursor : Option RecordId}
    (traced : CursorTraced domain thread trace cursor)
    (other : ∀ flag, event ≠ some (.starts thread flag))
    (noVisit : visitedBy thread event.toList = [])
    (same : toVisit domain'.published cursor =
      toVisit domain.published cursor) :
    CursorTraced domain' thread (trace ++ event.toList) cursor := by
  obtain ⟨acquiring, earlier, during, start, visited⟩ := traced
  refine ⟨acquiring, earlier, _, start.extend event other, ?_⟩
  rw [same, ← visited, visitedBy_append, noVisit, List.append_nil]

private theorem CursorTraced.visit
    {record : RecordId} {successor : Option RecordId}
    (traced : CursorTraced domain thread trace (some record))
    (next : record :: toVisit domain'.published successor =
      toVisit domain.published (some record)) :
    CursorTraced domain' thread (trace ++ [.visits thread record])
      successor := by
  obtain ⟨acquiring, earlier, during, start, visited⟩ := traced
  refine ⟨acquiring, earlier, _,
    start.extend (some (.visits thread record)) nofun, ?_⟩
  rw [← visited, ← next, visitedBy_append, List.append_assoc]
  simp [visitedBy, RecordEvent.visited]

theorem GainTraced.extend
    {acquired : Option RecordId}
    (traced : GainTraced thread trace acquired)
    (other : ∀ flag, event ≠ some (.starts thread flag))
    (noGain : gainedBy thread event.toList = []) :
    GainTraced thread (trace ++ event.toList) acquired := by
  obtain ⟨earlier, during, start, gained⟩ := traced
  refine ⟨earlier, _, start.extend event other, ?_⟩
  rw [← gained, gainedBy_append, noGain, List.append_nil]

theorem GainTraced.gain
    {record : RecordId}
    (traced : GainTraced thread trace none)
    (other : ∀ flag, event ≠ some (.starts thread flag))
    (gains : gainedBy thread event.toList = [record]) :
    GainTraced thread (trace ++ event.toList) (some record) := by
  obtain ⟨earlier, during, start, gained⟩ := traced
  refine ⟨earlier, _, start.extend event other, ?_⟩
  rw [gainedBy_append, gained, gains]
  rfl

theorem RecordStageOk.outside (trace : List RecordEvent) :
    RecordStageOk domain thread .outside trace where
  traversing := by
    intro cursor isCursor
    cases isCursor
  acquiring := by
    intro acquired isAcquired
    cases isAcquired

/-- Nothing that concerns the thread has happened. -/
theorem RecordStageOk.extend
    (ok : RecordStageOk domain thread stage trace)
    (other : ∀ flag, event ≠ some (.starts thread flag))
    (noVisit : visitedBy thread event.toList = [])
    (noGain : gainedBy thread event.toList = [])
    (same : ∀ cursor, stage.cursor = some cursor →
      toVisit domain'.published cursor = toVisit domain.published cursor) :
    RecordStageOk domain' thread stage (trace ++ event.toList) where
  traversing := fun cursor isCursor =>
    (ok.traversing cursor isCursor).extend other noVisit
      (same cursor isCursor)
  acquiring := fun acquired isAcquired =>
    (ok.acquiring acquired isAcquired).extend other noGain

/-- A step of another thread. -/
theorem RecordStageOk.others
    (ok : RecordStageOk domain thread stage trace)
    (foreign : ∀ emitted, event = some emitted → emitted.thread ≠ thread)
    (same : ∀ cursor, stage.cursor = some cursor →
      toVisit domain'.published cursor = toVisit domain.published cursor) :
    RecordStageOk domain' thread stage (trace ++ event.toList) := by
  cases event with
  | none => exact ok.extend nofun rfl rfl same
  | some emitted =>
      have different := foreign emitted rfl
      refine ok.extend ?_ ?_ ?_ same
      · rintro flag ⟨⟩
        exact different rfl
      · cases emitted with
        | visits actor record =>
            have apart : actor ≠ thread := different
            simp [visitedBy, RecordEvent.visited, apart]
        | _ => rfl
      · cases emitted with
        | claims actor record =>
            have apart : actor ≠ thread := different
            simp [gainedBy, RecordEvent.gained, apart]
        | allocates actor record =>
            have apart : actor ≠ thread := different
            simp [gainedBy, RecordEvent.gained, apart]
        | _ => rfl

/-- A step of the thread itself. -/
private theorem ListStep.stageOk
    (step : ListStep domain domain' thread stage event stage')
    (inv : DomainInv domain)
    (listed : ∀ record, stage.cursor = some (some record) →
      record ∈ domain.published)
    (published : domain.published = (publishedIn trace).reverse)
    (ok : RecordStageOk domain thread stage trace) :
    RecordStageOk domain' thread stage' (trace ++ event.toList) := by
  cases step with
  | stays same =>
      exact ok.extend nofun rfl rfl fun _ _ => by rw [same]
  | starts acquiring same =>
      constructor
      · rintro _ ⟨⟩
        refine ⟨acquiring, trace, [], .start thread acquiring trace, ?_⟩
        rw [same, inv.linked.start_eq, toVisit_head, ← published]
        rfl
      · intro acquired isAcquired
        cases acquiring with
        | false => cases isAcquired
        | true =>
            cases isAcquired
            exact ⟨trace, [], .start thread true trace, rfl⟩
  | @visits record acquired same =>
      have next := toVisit_next inv.nodup
        (inv.linked.next_eq (listed record rfl))
      constructor
      · rintro _ ⟨⟩
        exact (ok.traversing _ rfl).visit (by rw [same, next])
      · intro own isAcquired
        exact (ok.acquiring own isAcquired).extend nofun rfl
  | claims same =>
      constructor
      · rintro _ ⟨⟩
        exact (ok.traversing _ rfl).extend nofun rfl (by rw [same])
      · rintro _ ⟨⟩
        exact (ok.acquiring _ rfl).gain nofun
          (by simp [gainedBy, RecordEvent.gained])
  | allocates same =>
      constructor
      · intro cursor isCursor
        cases isCursor
      · rintro _ ⟨⟩
        exact (ok.acquiring _ rfl).gain nofun
          (by simp [gainedBy, RecordEvent.gained])
  | reuses same => exact .outside _
  | publishes grown => exact .outside _
  | ends same => exact .outside _

theorem ListStep.published
    (step : ListStep domain domain' thread stage event stage')
    (published : domain.published = (publishedIn trace).reverse) :
    domain'.published = (publishedIn (trace ++ event.toList)).reverse := by
  rw [publishedIn_append, List.reverse_append, ← published]
  cases step with
  | publishes grown => exact grown
  | stays same => exact same
  | starts acquiring same => exact same
  | visits same => exact same
  | claims same => exact same
  | reuses same => exact same
  | allocates same => exact same
  | ends same => exact same

private theorem ListStep.thread_eq
    {emitted : RecordEvent}
    (step : ListStep domain domain' thread stage (some emitted) stage') :
    emitted.thread = thread := by
  cases step <;> rfl

theorem ListStep.ended
    {emitted : RecordEvent}
    (step : ListStep domain domain' thread stage (some emitted) stage')
    (ends : emitted.ended = some actor) :
    actor = thread ∧ stage.cursor = some none := by
  cases step with
  | reuses | allocates | ends =>
      cases ends
      exact ⟨rfl, rfl⟩
  | _ => cases ends

theorem ListStep.returned
    {emitted : RecordEvent} {record : RecordId}
    (step : ListStep domain domain' thread stage (some emitted) stage')
    (returns : emitted.returned = some (actor, record)) :
    actor = thread ∧ stage.acquired = some (some record) := by
  cases step with
  | reuses | publishes =>
      cases returns
      exact ⟨rfl, rfl⟩
  | _ => cases returns

theorem ListStep.grown
    (step : ListStep domain domain' thread stage event stage') :
    ∃ added, domain'.published = added ++ domain.published := by
  cases step with
  | publishes grown => exact ⟨[_], grown⟩
  | stays same => exact ⟨[], same⟩
  | starts acquiring same => exact ⟨[], same⟩
  | visits same => exact ⟨[], same⟩
  | claims same => exact ⟨[], same⟩
  | reuses same => exact ⟨[], same⟩
  | allocates same => exact ⟨[], same⟩
  | ends same => exact ⟨[], same⟩

end Traces

/-- What the events of a run say about the list and about its threads. -/
structure RecordsOk (state : State) (trace : List RecordEvent) : Prop where
  published : state.memory.domain.published = (publishedIn trace).reverse
  stages : ∀ thread, RecordStageOk state.memory.domain thread
    (state.threads thread).recordStage trace

section Runs

variable {state next : State} {thread : Tid} {act : Act}
variable {trace : List RecordEvent}

private theorem recordsOk_initial : RecordsOk initial [] where
  published := rfl
  stages := fun _ => .outside _

private theorem recordsOk_step
    (holds : Invariant state)
    (stepped : program.step state thread act = some next)
    (ok : RecordsOk state trace) :
    RecordsOk next (trace ++ (observeRecords state thread act).toList) := by
  have step := step_list holds stepped
  have after := invariant_step stepped holds
  refine ⟨step.published ok.published, fun other => ?_⟩
  by_cases same : other = thread
  · subst same
    refine step.stageOk holds.1.domain ?_ ok.published (ok.stages other)
    intro record isCursor
    exact (holds.2 other).cursorOk isCursor record rfl
  · have unchanged : next.threads other = state.threads other := by
      obtain ⟨memory', locals', _, rfl⟩ := step_eq_some stepped
      exact Function.update_of_ne same locals' state.threads
    rw [unchanged]
    refine (ok.stages other).others ?_ ?_
    · intro emitted isEvent
      rw [isEvent] at step
      rw [step.thread_eq]
      exact Ne.symm same
    · intro cursor isCursor
      obtain ⟨added, grown⟩ := step.grown
      have nodup := after.1.domain.nodup
      rw [grown] at nodup ⊢
      refine toVisit_append fun here isHere new => ?_
      have old := (holds.2 other).cursorOk isCursor here isHere
      exact (List.nodup_append.mp nodup).2.2 here new here old rfl

private theorem recordsOk_run
    {schedule : List (Tid × Act)}
    (executed : program.exec initial schedule = some state) :
    RecordsOk state (program.events observeRecords initial schedule) := by
  refine exec_induction
    (P := fun done state =>
      RecordsOk state (program.events observeRecords initial done))
    ?_ executed recordsOk_initial
  intro done middle thread act next reached stepped ok
  rw [events_snoc reached stepped]
  exact recordsOk_step (invariant_reachable ⟨done, reached⟩) stepped ok

end Runs

/-! ### Threads that run alone -/

/-- At most so many steps are left of a traversal that looks at the slots of
every record. -/
def scanWork (published : List RecordId) (cursor : Option RecordId)
    (index : Nat) : Nat :=
  match cursor with
  | none => 1
  | some record =>
      (SLOTS + 1) * (remaining published (some record) - 1) +
        (SLOTS - index) + 2

/-- At most so many steps are left of a traversal or of `acquire_record` if
nobody else publishes a record. -/
def Frame.recordWork (domain : Domain) : Frame → Nat
  | .pinning _ _ _ (.tryClaim cursor _) =>
      2 * remaining domain.published cursor + 4
  | .pinning _ _ _ (.advance record _) =>
      2 * remaining domain.published (some record) + 3
  | .pinning _ _ _ (.loadHead _) => 3
  | .pinning _ _ _ (.storeNext _ head) => if domain.head = head then 2 else 4
  | .pinning _ _ _ (.exchangeHead _ head) =>
      if domain.head = head then 1 else 3
  | .collect _ _ (.scan cursor index _) =>
      scanWork domain.published cursor index
  | .waiting _ _ (.scan _ _ _ cursor index _) =>
      scanWork domain.published cursor index
  | _ => 0

/-- The frame can move on, and either it leaves the list alone after that or
less is left to do. -/
def MovesOn (memory : Memory) (call : CallId) (tls : Tls)
    (frame : Frame) : Prop :=
  ∃ memory' tls' next,
    frameStep memory call tls frame .next = some (memory', tls', next) ∧
      ∀ frame', next = some frame' → frame'.recordStage ≠ .outside →
        frame'.recordWork memory'.domain < frame.recordWork memory.domain

section Alone

variable {memory : Memory} {call : CallId} {tls : Tls} {frame : Frame}
variable {record : RecordId} {index : Nat}

theorem scanWork_next
    (inv : DomainInv memory.domain)
    (listed : record ∈ memory.domain.published) :
    scanWork memory.domain.published (memory.domain.records record).next 0 <
      scanWork memory.domain.published (some record) index := by
  have fewer := inv.remaining_next listed
  cases successor : (memory.domain.records record).next with
  | none =>
      simp only [scanWork]
      omega
  | some other =>
      rw [successor] at fewer
      have positive : 0 < remaining memory.domain.published (some other) := by
        simp [remaining]
      simp only [scanWork, SLOTS] at fewer ⊢
      omega

theorem scanWork_slot
    {published : List RecordId} {index' : Nat} (inside : index < SLOTS)
    (further : index < index') :
    scanWork published (some record) index' <
      scanWork published (some record) index := by
  simp only [scanWork, SLOTS] at inside ⊢
  omega

private theorem pinning_movesOn
    {cell : CellId} {reader : Reader} {address : Addr} {step : PinStep}
    (inv : DomainInv memory.domain)
    (ok : PinStepOk memory call.thread step)
    (busy : (Frame.pinning cell reader address step).recordStage ≠
      .outside) :
    MovesOn memory call tls (.pinning cell reader address step) := by
  cases step with
  | findSlot => exact absurd rfl busy
  | tryClaim cursor reused =>
      cases cursor with
      | none =>
          cases reused with
          | none =>
              refine ⟨_, _, _, rfl, ?_⟩
              rintro _ ⟨⟩ _
              simp [Frame.recordWork, remaining]
          | some reused =>
              refine ⟨_, _, _, rfl, ?_⟩
              rintro _ ⟨⟩ outside
              exact absurd rfl outside
      | some record =>
          have fewer := inv.remaining_next (ok.1 record rfl)
          cases reused with
          | some reused =>
              refine ⟨_, _, _, rfl, ?_⟩
              rintro _ ⟨⟩ _
              simp only [Frame.recordWork]
              omega
          | none =>
              unfold MovesOn
              simp only [frameStep, pinStep]
              split
              · refine ⟨_, _, _, rfl, ?_⟩
                rintro _ ⟨⟩ _
                simp only [Frame.recordWork]
                omega
              · refine ⟨_, _, _, rfl, ?_⟩
                rintro _ ⟨⟩ _
                show 2 * remaining memory.domain.published _ + 3 < _
                simp only [Frame.recordWork]
                omega
  | advance record reused =>
      have fewer := inv.remaining_next ok.1
      refine ⟨_, _, _, rfl, ?_⟩
      rintro _ ⟨⟩ _
      simp only [Frame.recordWork]
      omega
  | loadHead record =>
      refine ⟨_, _, _, rfl, ?_⟩
      rintro _ ⟨⟩ _
      simp [Frame.recordWork]
  | storeNext record head =>
      refine ⟨_, _, _, rfl, ?_⟩
      rintro _ ⟨⟩ _
      show (if memory.domain.head = head then 1 else 3) < _
      simp only [Frame.recordWork]
      split <;> omega
  | exchangeHead record head =>
      unfold MovesOn
      simp only [frameStep, pinStep]
      split
      · refine ⟨_, _, _, rfl, ?_⟩
        rintro _ ⟨⟩ outside
        exact absurd rfl outside
      · rename_i stale
        refine ⟨_, _, _, rfl, ?_⟩
        rintro _ ⟨⟩ _
        simp [Frame.recordWork, stale]

private theorem collect_movesOn
    {cell : CellId} {collector : Collector} {step : CollectStep}
    (inv : DomainInv memory.domain)
    (ok : CollectStepOk memory cell step)
    (busy : (Frame.collect cell collector step).recordStage ≠ .outside) :
    MovesOn memory call tls (.collect cell collector step) := by
  cases step with
  | scan cursor index announced =>
      cases cursor with
      | none =>
          refine ⟨_, _, _, rfl, ?_⟩
          rintro _ ⟨⟩ outside
          exact absurd rfl outside
      | some record =>
          unfold MovesOn
          simp only [frameStep, collectStep]
          split
          · rename_i inside
            refine ⟨_, _, _, rfl, ?_⟩
            rintro _ ⟨⟩ _
            exact scanWork_slot inside (Nat.lt_succ_self index)
          · refine ⟨_, _, _, rfl, ?_⟩
            rintro _ ⟨⟩ _
            exact scanWork_next inv (ok.cursor_ok record rfl)
  | _ => exact absurd rfl busy

private theorem waiting_movesOn
    {cell : CellId} {removed : List Nat} {step : WaitStep}
    (inv : DomainInv memory.domain)
    (ok : WaitStepOk memory cell call.thread removed step)
    (busy : (Frame.waiting cell removed step).recordStage ≠ .outside) :
    MovesOn memory call tls (.waiting cell removed step) := by
  cases step with
  | scan onFallback address retired cursor index found =>
      cases cursor with
      | none =>
          unfold MovesOn
          simp only [frameStep, waitStep]
          split
          · refine ⟨_, _, _, rfl, ?_⟩
            rintro _ ⟨⟩ outside
            exact absurd rfl outside
          · refine ⟨_, _, _, rfl, ?_⟩
            rintro _ ⟨⟩ outside
            exact absurd rfl outside
      | some record =>
          unfold MovesOn
          simp only [frameStep, waitStep]
          split
          · refine ⟨_, _, _, rfl, ?_⟩
            rintro _ ⟨⟩ _
            exact scanWork_next inv (ok.2.1 record rfl)
          · rename_i inside
            have bound : index < SLOTS := by
              simp only [not_or, Nat.not_le] at inside
              exact inside.2
            split
            · refine ⟨_, _, _, rfl, ?_⟩
              rintro _ ⟨⟩ _
              exact scanWork_slot bound bound
            · refine ⟨_, _, _, rfl, ?_⟩
              rintro _ ⟨⟩ _
              exact scanWork_slot bound (Nat.lt_succ_self index)
  | _ => exact absurd rfl busy

private theorem FrameOk.movesOn
    (inv : DomainInv memory.domain) (ok : FrameOk memory call frame)
    (busy : frame.recordStage ≠ .outside) :
    MovesOn memory call tls frame := by
  have facts := ok.facts
  cases frame with
  | pinning cell reader address step => exact pinning_movesOn inv facts busy
  | collect cell collector step => exact collect_movesOn inv facts.2 busy
  | waiting cell removed step => exact waiting_movesOn inv facts.2 busy
  | _ => exact absurd rfl busy

end Alone

/-- The thread, run alone, gets to an event of the given kind. -/
def RunsTo (state : State) (thread : Tid) (wanted : RecordEvent → Prop) :
    Prop :=
  ∃ count next,
    program.exec state (nexts thread count) = some next ∧
      ∃ event ∈ program.events observeRecords state (nexts thread count),
        wanted event

section Completion

variable {state next : State} {thread : Tid}
variable {wanted : RecordEvent → Prop}

theorem RunsTo.now
    {event : RecordEvent}
    (stepped : program.step state thread .next = some next)
    (observed : observeRecords state thread .next = some event)
    (isWanted : wanted event) : RunsTo state thread wanted := by
  refine ⟨1, next, exec_cons stepped rfl, event, ?_, isWanted⟩
  simp [nexts, Program.events, stepped, observed]

theorem RunsTo.later
    (stepped : program.step state thread .next = some next)
    (runs : RunsTo next thread wanted) : RunsTo state thread wanted := by
  obtain ⟨count, last, executed, event, member, isWanted⟩ := runs
  refine ⟨count + 1, last, exec_cons stepped executed, event, ?_, isWanted⟩
  simp only [nexts, List.replicate_succ, Program.events, stepped]
  exact List.mem_append_right _ member

/-- A thread that runs alone leaves a part of its work with the list only by
an event that says so. -/
private theorem runsTo_of_inside
    {P : RecordStage → Prop} (outside : ¬ P .outside)
    (kept : ∀ domain domain' stage event stage',
      ListStep domain domain' thread stage event stage' → P stage →
        P stage' ∨ ∃ emitted, event = some emitted ∧ wanted emitted)
    (left : Nat) (holds : Invariant state) {frame : Frame}
    {rest : List Frame}
    (shape : (state.threads thread).stack = frame :: rest)
    (measured : frame.recordWork state.memory.domain = left)
    (inside : P (state.threads thread).recordStage) :
    RunsTo state thread wanted := by
  induction left using Nat.strong_induction_on
      generalizing state frame rest with
  | _ left inductionHypothesis =>
      have busy : ∀ stage, P stage → stage ≠ .outside := by
        rintro _ here rfl
        exact outside here
      have stack := (holds.2 thread).stack
      have suspended := (holds.2 thread).suspended
      have isBusy := busy _ inside
      rw [shape] at stack
      rw [shape, List.tail_cons] at suspended
      rw [Thread.recordStage_top shape] at isBusy
      obtain ⟨memory', tls', next, moved, fewer⟩ :=
        stack.1.movesOn holds.1.domain isBusy
      have stepped := step_of_frameStep shape moved
      rcases kept _ _ _ _ _ (step_list holds stepped) inside with
        still | ⟨emitted, observed, isWanted⟩
      · refine .later stepped ?_
        have after := invariant_step stepped holds
        have locals : Function.update state.threads thread
            ⟨tls', next.toList ++ rest⟩ thread =
              ⟨tls', next.toList ++ rest⟩ :=
          Function.update_self ..
        have stillBusy := busy _ still
        dsimp only at stillBusy
        rw [locals, Thread.recordStage_after suspended] at stillBusy
        cases next with
        | none => exact absurd rfl stillBusy
        | some frame' =>
            refine inductionHypothesis _ ?_ after
              (congrArg Thread.stack locals) rfl still
            rw [← measured]
            exact fewer frame' rfl stillBusy
      · exact .now stepped observed isWanted

/-- Run alone, a thread inside `acquire_record` returns with a record. -/
private theorem runsTo_returned
    {acquired : Option RecordId} (holds : Invariant state)
    (inside : (state.threads thread).recordStage.acquired = some acquired) :
    RunsTo state thread fun event =>
      ∃ record, event.returned = some (thread, record) := by
  cases shape : (state.threads thread).stack with
  | nil =>
      rw [Thread.recordStage, shape] at inside
      cases inside
  | cons frame rest =>
      refine runsTo_of_inside (P := fun stage => stage.acquired.isSome)
        (by simp [RecordStage.outside]) ?_ _ holds shape rfl
        (by rw [inside]; rfl)
      intro domain domain' stage event stage' step here
      cases step with
      | reuses | publishes => exact Or.inr ⟨_, rfl, _, rfl⟩
      | ends => cases here
      | starts => cases here
      | stays => exact Or.inl here
      | visits => exact Or.inl here
      | claims => exact Or.inl rfl
      | allocates => exact Or.inl rfl

/-- Run alone, a thread inside a traversal gets to its end. -/
private theorem runsTo_ended
    {cursor : Option RecordId} (holds : Invariant state)
    (inside : (state.threads thread).recordStage.cursor = some cursor) :
    RunsTo state thread fun event => event.ended = some thread := by
  cases shape : (state.threads thread).stack with
  | nil =>
      rw [Thread.recordStage, shape] at inside
      cases inside
  | cons frame rest =>
      refine runsTo_of_inside (P := fun stage => stage.cursor.isSome)
        (by simp [RecordStage.outside]) ?_ _ holds shape rfl
        (by rw [inside]; rfl)
      intro domain domain' stage event stage' step here
      cases step with
      | reuses | allocates | ends => exact Or.inr ⟨_, rfl, rfl⟩
      | publishes => cases here
      | starts => cases here
      | stays => exact Or.inl here
      | visits => exact Or.inl rfl
      | claims => exact Or.inl rfl

end Completion

/-! ### The law of the list -/

/-- The record is in `LOCAL` of the thread, or in a local variable of its
`acquire_record`. -/
def OwnsRecord (state : State) (thread : Tid) (record : RecordId) : Prop :=
  (state.threads thread).tls.record = some record ∨
    ∃ frame ∈ (state.threads thread).stack, frame.claimed = some record

/-- The list from `HEAD` and the threads that use it, after a run with the
given events. -/
structure RecordListLaw (state : State) (trace : List RecordEvent) :
    Prop where
  listed : Linked (fun record => (state.memory.domain.records record).next)
    state.memory.domain.head (publishedIn trace).reverse
  once : (publishedIn trace).Nodup
  traversals : ∀ before event after thread,
    trace = before ++ event :: after → event.ended = some thread →
      ∃ acquiring earlier during,
        LastStart thread before acquiring earlier during ∧
          visitedBy thread during = (publishedIn earlier).reverse
  acquisitions : ∀ before event after thread record,
    trace = before ++ event :: after →
      event.returned = some (thread, record) →
        record ∈ publishedIn (before ++ [event]) ∧
          ∃ earlier during, LastStart thread before true earlier during ∧
            gainedBy thread during = [record]
  ends : ∀ thread cursor,
    (state.threads thread).recordStage.cursor = some cursor →
      RunsTo state thread fun event => event.ended = some thread
  returns : ∀ thread acquired,
    (state.threads thread).recordStage.acquired = some acquired →
      RunsTo state thread fun event =>
        ∃ record, event.returned = some (thread, record)
  owners : ∀ record first second, OwnsRecord state first record →
    OwnsRecord state second record → first = second
  inUse : ∀ record, (state.memory.domain.records record).inUse = true ↔
    ∃ thread, OwnsRecord state thread record
  null : ∀ record index, (state.memory.domain.records record).inUse = false →
    state.memory.domain.slot record index = none

section Law

variable {state : State} {thread : Tid} {record : RecordId}

private theorem ownsRecord_iff
    (reachable : program.Reachable initial state) :
    OwnsRecord state thread record ↔
      (state.memory.domain.records record).owner = some thread := by
  have tlsOk := tlsOk_reachable reachable thread
  have suspended := ((invariant_reachable reachable).2 thread).suspended
  rw [(ownersOk_reachable reachable).knows thread record]
  unfold OwnsRecord Thread.claimed
  constructor
  · rintro (isLocal | ⟨frame, member, claimed⟩)
    · simp [isLocal]
    · have acquiring : frame.acquiring = true := by
        by_contra idle
        rw [Frame.claimed_of_not_acquiring (Bool.eq_false_iff.mpr idle)]
          at claimed
        cases claimed
      cases shape : (state.threads thread).stack with
      | nil =>
          rw [shape] at member
          cases member
      | cons top rest =>
          rw [shape] at member suspended
          rcases List.mem_cons.mp member with isTop | below
          · have unclaimed := tlsOk.acquiring frame
              (by rw [shape, isTop]; rfl) acquiring
            rw [unclaimed, ← isTop]
            exact claimed
          · rw [Frame.not_acquiring_of_isUser (suspended frame below)]
              at acquiring
            cases acquiring
  · intro claimed
    rcases Option.or_eq_some_iff.mp claimed with isLocal | ⟨_, onTop⟩
    · exact Or.inl isLocal
    · obtain ⟨frame, isTop, claims⟩ := Option.bind_eq_some_iff.mp onTop
      exact Or.inr ⟨frame, List.mem_of_mem_head? isTop, claims⟩

private theorem ListStep.returned_listed
    {domain domain' : Domain} {stage stage' : RecordStage}
    {event : RecordEvent} {trace : List RecordEvent} {actor : Tid}
    (step : ListStep domain domain' thread stage (some event) stage')
    (claimed : ∀ cursor, stage = ⟨some cursor, some (some record)⟩ →
      record ∈ domain.published)
    (published : domain.published = (publishedIn trace).reverse)
    (returns : event.returned = some (actor, record)) :
    record ∈ publishedIn (trace ++ [event]) := by
  have after : domain'.published =
      (publishedIn (trace ++ [event])).reverse :=
    step.published published
  rw [← List.mem_reverse, ← after]
  cases step with
  | reuses same =>
      cases returns
      rw [same]
      exact claimed none rfl
  | publishes grown =>
      cases returns
      rw [grown]
      exact List.mem_cons_self
  | _ => cases returns

private theorem ThreadInv.claimed_listed
    {memory : Memory} {locals : Thread} {cursor : Option RecordId}
    (ok : ThreadInv memory thread locals)
    (inside : locals.recordStage = ⟨some cursor, some (some record)⟩) :
    record ∈ memory.domain.published := by
  have stack := ok.stack
  cases shape : locals.stack with
  | nil =>
      rw [Thread.recordStage, shape] at inside
      cases inside
  | cons top rest =>
      rw [shape] at stack
      rw [Thread.recordStage_top shape] at inside
      have facts := stack.1.facts
      cases top with
      | pinning cell reader address step =>
          cases step with
          | tryClaim here reused =>
              cases inside
              exact (facts.2 record rfl).published
          | advance here reused =>
              cases inside
              exact (facts.2 record rfl).published
          | _ => cases inside
      | collect cell collector step =>
          cases step with
          | scan => cases inside
          | _ => cases inside
      | waiting cell removed step =>
          cases step with
          | scan => cases inside
          | _ => cases inside
      | _ => cases inside

end Law

/-- Over every run the list from `HEAD` is finite and has every published
record exactly once, in the reverse order of the publications.  A traversal
that has ended visited exactly the records that were published before it
started, and an `acquire_record` that has returned got hold of exactly the
record it returned; both end when their thread runs alone.  No record is owned
by two threads, a record is in use exactly when it is owned, and its slots are
null when it is not. -/
theorem record_list_integrity
    {state : State} {schedule : List (Tid × Act)}
    (executed : program.exec initial schedule = some state) :
    RecordListLaw state
      (program.events observeRecords initial schedule) := by
  have reachable : program.Reachable initial state := ⟨schedule, executed⟩
  have holds := invariant_reachable reachable
  have ok := recordsOk_run executed
  have domain := holds.1.domain
  constructor
  · rw [← ok.published]
    exact domain.linked
  · rw [← List.nodup_reverse, ← ok.published]
    exact domain.nodup
  · intro before event after thread split ends
    obtain ⟨done, actor, act, rest, middle, next, _, reached, rfl, stepped,
      observed⟩ := events_split split
    have step := step_list (invariant_reachable ⟨done, reached⟩) stepped
    rw [observed] at step
    obtain ⟨rfl, atEnd⟩ := step.ended ends
    obtain ⟨acquiring, earlier, during, start, visited⟩ :=
      ((recordsOk_run reached).stages thread).traversing none atEnd
    refine ⟨acquiring, earlier, during, start, ?_⟩
    rw [← visited, toVisit, List.append_nil]
  · intro before event after thread record split returns
    obtain ⟨done, actor, act, rest, middle, next, _, reached, rfl, stepped,
      observed⟩ := events_split split
    have inner := invariant_reachable ⟨done, reached⟩
    have known := recordsOk_run reached
    have step := step_list inner stepped
    rw [observed] at step
    obtain ⟨rfl, acquired⟩ := step.returned returns
    refine ⟨step.returned_listed ?_ known.published returns,
      (known.stages thread).acquiring (some record) acquired⟩
    intro cursor inside
    exact (inner.2 thread).claimed_listed inside
  · intro thread cursor inside
    exact runsTo_ended holds inside
  · intro thread acquired inside
    exact runsTo_returned holds inside
  · intro record first second isFirst isSecond
    rw [ownsRecord_iff reachable] at isFirst isSecond
    rw [isFirst] at isSecond
    exact Option.some.inj isSecond
  · intro record
    simp only [ownsRecord_iff reachable]
    constructor
    · exact (ownersOk_reachable reachable).occupied record
    · rintro ⟨thread, owned⟩
      by_contra free
      rw [domain.free_unowned record (Bool.eq_false_iff.mpr free)] at owned
      cases owned
  · intro record index free
    exact domain.unowned_null (domain.free_unowned record free)

/-- Threads `0` and `1` prepend a record each.  The exchange of thread `0`
fails spuriously first, and then because thread `1` was faster.  Thread `1`
exits, and thread `2` takes over its record. -/
def recordsRace : List (Tid × Act) :=
  (0, .newCell 0 100) :: (0, .call 0 (.read false)) ::
    (1, .call 0 (.read false)) :: nexts 0 5 ++ nexts 1 5 ++
    (0, .spurious) :: nexts 1 1 ++ nexts 0 4 ++ nexts 1 2 ++
    (1, .finish) :: nexts 1 2 ++ (1, .exitThread) :: nexts 1 9 ++
    (2, .call 0 (.read false)) :: nexts 2 7

theorem record_list_integrity_race :
    ∃ state, program.exec initial recordsRace = some state ∧
      RecordListLaw state
        (program.events observeRecords initial recordsRace) ∧
      program.events observeRecords initial recordsRace =
        [.starts 0 true, .allocates 0 0, .starts 1 true, .allocates 1 1,
          .publishes 1 1, .publishes 0 0, .starts 2 true, .visits 2 0,
          .claims 2 1, .visits 2 1, .reuses 2 1] := by
  have run : (program.exec initial recordsRace).isSome := by
    decide +kernel
  obtain ⟨state, executed⟩ := Option.isSome_iff_exists.mp run
  exact ⟨state, executed, record_list_integrity executed,
    by decide +kernel⟩

end RegistryIo.Snapshot
