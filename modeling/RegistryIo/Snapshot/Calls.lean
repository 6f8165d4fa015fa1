import RegistryIo.Snapshot.Soundness

/-!
# Single calls

A call is named by its thread and its depth on the stack.  `CallStep` says
what a step of any thread does to the frame of one call.  A read goes through
three stages: it enters, it is inside its closure on one value, it leaves;
`StageStep` contains all moves between them.  Events record what happens
inside closures.
-/

namespace RegistryIo.Snapshot

open RegistryIo.Interleaving

/-- The frame at a depth of a stack; the outermost is at depth zero. -/
def frameAt : List Frame → Nat → Option Frame
  | [], _ => none
  | frame :: rest, depth =>
      if depth = rest.length then some frame else frameAt rest depth

section Stack

variable {stack rest : List Frame} {frame : Frame} {depth : Nat}

theorem frameAt_eq_none_iff :
    frameAt stack depth = none ↔ stack.length ≤ depth := by
  induction stack with
  | nil => simp [frameAt]
  | cons top below inductionHypothesis =>
      simp only [frameAt, List.length_cons]
      split
      · rename_i same
        simp [same]
      · rw [inductionHypothesis]
        omega

theorem frameAt_length : frameAt (frame :: rest) rest.length = some frame := by
  simp [frameAt]

theorem frameAt_append (added : List Frame) (below : depth < rest.length) :
    frameAt (added ++ rest) depth = frameAt rest depth := by
  induction added with
  | nil => rfl
  | cons top added inductionHypothesis =>
      have apart : depth ≠ (added ++ rest).length := by
        simp only [List.length_append]
        omega
      rw [List.cons_append, frameAt, if_neg apart]
      exact inductionHypothesis

theorem exists_frameAt_of_mem (member : frame ∈ stack) :
    ∃ depth, frameAt stack depth = some frame := by
  induction stack with
  | nil => cases member
  | cons top below inductionHypothesis =>
      rcases List.mem_cons.mp member with same | later
      · exact ⟨below.length, by rw [same, frameAt_length]⟩
      · obtain ⟨depth, found⟩ := inductionHypothesis later
        refine ⟨depth, ?_⟩
        have bound : depth < below.length := by
          by_contra beyond
          rw [frameAt_eq_none_iff.mpr (Nat.le_of_not_lt beyond)] at found
          cases found
        exact (frameAt_append [top] bound).trans found

theorem mem_of_frameAt (found : frameAt stack depth = some frame) :
    frame ∈ stack := by
  induction stack with
  | nil => cases found
  | cons top below inductionHypothesis =>
      simp only [frameAt] at found
      split at found
      · cases found
        exact List.mem_cons_self
      · exact List.mem_cons_of_mem _ (inductionHypothesis found)

theorem StackOk.frameOk
    {memory : Memory} {thread : Tid} (ok : StackOk memory thread stack)
    (found : frameAt stack depth = some frame) :
    FrameOk memory ⟨thread, depth⟩ frame := by
  induction stack with
  | nil => cases found
  | cons top below inductionHypothesis =>
      simp only [frameAt] at found
      split at found
      · rename_i same
        cases found
        rw [same]
        exact ok.1
      · exact inductionHypothesis ok.2 found

end Stack

/-- The frame of a call, while the call is in progress. -/
def frameOf (state : State) (call : CallId) : Option Frame :=
  frameAt (state.threads call.thread).stack call.depth

def inProgress (call : CallId) (state : State) : Bool :=
  (frameOf state call).isSome

/-- The frame that user code pushes on a stack. -/
def Pushed (stack : List Frame) (frame : Frame) : Prop :=
  (∃ cell operation, frame = Call.enter cell operation) ∨
    (∃ cell freed, frame = .dropping cell .drop freed) ∨
      (stack = [] ∧ ∃ record, frame = .exiting record 0)

/-- What happens inside the closure of a read. -/
inductive Event where
  | invoked (call : CallId) (cell : CellId) (entry : Entry)
  | finished (call : CallId) (cell : CellId)
  | unwound (call : CallId) (cell : CellId)
  deriving DecidableEq, Repr

def Event.call : Event → CallId
  | .invoked call _ _ => call
  | .finished call _ => call
  | .unwound call _ => call

/-- The stage of a read: it has not got its value yet, it is inside its
closure, or the closure is over. -/
inductive Stage where
  | entering (cell : CellId) (notify : Bool)
  | inside (claim : Claim) (body : Body)
  | leaving (cell : CellId)
  | elsewhere
  deriving DecidableEq, Repr

/-- The stage of the callers of `protect`. -/
def Reader.stage (cell : CellId) : Reader → Stage
  | .read notify => .entering cell notify
  | .loadArcIf => .elsewhere

/-- The stage of a batch drop depends on who drops it. -/
def Collector.stage (cell : CellId) : Collector → Stage
  | .reclaim none => .leaving cell
  | .discard none => .leaving cell
  | _ => .elsewhere

/-- The stage of the call that the frame belongs to. -/
def Frame.stage : Frame → Stage
  | .enter cell reader => reader.stage cell
  | .pinning cell reader _ _ => reader.stage cell
  | .validate cell reader _ _ => reader.stage cell
  | .republish cell reader _ _ => reader.stage cell
  | .enterFallback cell notify => .entering cell notify
  | .locked cell reader _ => reader.stage cell
  | .reading cell _ version _ body => .inside ⟨cell, version⟩ body
  | .fallbackReading cell _ version body => .inside ⟨cell, version⟩ body
  | .checkRetired cell none => .leaving cell
  | .tryLock cell none => .leaving cell
  | .collect cell collector _ => collector.stage cell
  | .dropping cell collector _ => collector.stage cell
  | .leaveFallback cell => .leaving cell
  | .returned cell .done => .leaving cell
  | _ => .elsewhere

/-- The frames inside a closure. -/
theorem Frame.of_inside
    {frame : Frame} {claim : Claim} {body : Body}
    (inside : frame.stage = .inside claim body) :
    (∃ address pin,
        frame = .reading claim.cell address claim.version pin body) ∨
      ∃ address,
        frame = .fallbackReading claim.cell address claim.version body := by
  cases frame with
  | reading cell address version pin body =>
      cases inside
      exact Or.inl ⟨address, pin, rfl⟩
  | fallbackReading cell address version body =>
      cases inside
      exact Or.inr ⟨address, rfl⟩
  | enter cell reader => cases reader <;> cases inside
  | pinning cell reader address step => cases reader <;> cases inside
  | validate cell reader address pin => cases reader <;> cases inside
  | republish cell reader address pin => cases reader <;> cases inside
  | locked cell reader step => cases reader <;> cases inside
  | checkRetired cell result => cases result <;> cases inside
  | tryLock cell result => cases result <;> cases inside
  | collect cell collector step =>
      simp only [Frame.stage, Collector.stage] at inside
      split at inside <;> cases inside
  | dropping cell collector freed =>
      simp only [Frame.stage, Collector.stage] at inside
      split at inside <;> cases inside
  | returned cell outcome => cases outcome <;> cases inside
  | _ => cases inside

/-- The event of a step of the closure. -/
def Stage.event (call : CallId) : Stage → Act → Option Event
  | .inside claim (.dispatch (entry :: _)), .invoke =>
      some (.invoked call claim.cell entry)
  | .inside claim body, .finish =>
      if body.finishes then some (.finished call claim.cell) else none
  | .inside claim body, .unwind =>
      if body.unwinds then some (.unwound call claim.cell) else none
  | _, _ => none

section Frames

variable {state next : State} {thread : Tid} {act : Act} {call : CallId}
variable {frame : Frame}

theorem Invariant.frameOk
    (holds : Invariant state) (found : frameOf state call = some frame) :
    FrameOk state.memory call frame :=
  (holds.2 call.thread).stack.frameOk found

/-- What a call holds is named by its frame. -/
theorem Invariant.frame_of_held
    {holding : Holding} (holds : Invariant state)
    (held : state.memory.Held call holding) :
    ∃ frame, frameOf state call = some frame ∧ holding ∈ frame.holding := by
  cases found : frameOf state call with
  | none =>
      have beyond := frameAt_eq_none_iff.mp found
      exact absurd held
        ((holds.2 call.thread).vacant call.depth beyond holding)
  | some frame =>
      exact ⟨frame, rfl, ((holds.frameOk found).held holding).mp held⟩

/-- A call below the top of its stack is suspended in user code. -/
theorem Invariant.isUser_of_lt
    (holds : Invariant state) (found : frameOf state call = some frame)
    (below : call.depth + 1 < (state.threads call.thread).stack.length) :
    frame.isUser := by
  refine (holds.2 call.thread).suspended frame ?_
  unfold frameOf at found
  cases shape : (state.threads call.thread).stack with
  | nil =>
      rw [shape] at below
      simp at below
  | cons top rest =>
      rw [shape] at found below
      simp only [List.length_cons] at below
      have bound : call.depth < rest.length := by omega
      exact mem_of_frameAt ((frameAt_append [top] bound).symm.trans found)

def observe (state : State) (thread : Tid) (act : Act) : Option Event :=
  match (state.threads thread).stack with
  | [] => none
  | frame :: rest => frame.stage.event ⟨thread, rest.length⟩ act

private theorem Stage.event_call
    {stage : Stage} {event : Event}
    (emitted : stage.event call act = some event) : event.call = call := by
  unfold Stage.event at emitted
  split at emitted
  · cases emitted
    rfl
  · split at emitted
    · cases emitted
      rfl
    · cases emitted
  · split at emitted
    · cases emitted
      rfl
    · cases emitted
  · cases emitted

/-- What a step of a thread does to one call. -/
inductive CallStep (state next : State) (thread : Tid) (act : Act)
    (call : CallId) : Prop where
  | other
      (same : frameOf next call = frameOf state call)
      (quiet : ∀ event, observe state thread act = some event →
        event.call ≠ call)
  | own (frame : Frame) (tls : Tls)
      (isThread : call.thread = thread)
      (before : frameOf state call = some frame)
      (top : (state.threads thread).stack.length = call.depth + 1)
      (stepped : frameStep state.memory call (state.threads thread).tls
        frame act = some (next.memory, tls, frameOf next call))
      (emits : observe state thread act = frame.stage.event call act)
  | pushed (frame : Frame)
      (isThread : call.thread = thread)
      (before : frameOf state call = none)
      (after : frameOf next call = some frame)
      (fresh : Pushed (state.threads thread).stack frame)

/-- A step of user code leaves the stack alone or pushes one frame. -/
theorem userStep_stack
    {memory memory' : Memory} {locals locals' : Thread}
    (performed : userStep thread memory locals act =
      some (memory', locals')) :
    locals'.tls.fallbackDepth = locals.tls.fallbackDepth ∧
      locals'.tls.record = locals.tls.record ∧
      (locals'.stack = locals.stack ∨
        ∃ frame, locals'.stack = frame :: locals.stack ∧
          Pushed locals.stack frame) := by
  cases userStep_rule performed with
  | newCell | dropHandle | exitUnclaimed => exact ⟨rfl, rfl, Or.inl rfl⟩
  | dropCell =>
      exact ⟨rfl, rfl, Or.inr ⟨_, rfl, Or.inr (Or.inl ⟨_, _, rfl⟩)⟩⟩
  | call => exact ⟨rfl, rfl, Or.inr ⟨_, rfl, Or.inl ⟨_, _, rfl⟩⟩⟩
  | exitClaimed record empty =>
      exact ⟨rfl, rfl, Or.inr ⟨.exiting record 0, by simp [empty],
        Or.inr (Or.inr ⟨empty, record, rfl⟩)⟩⟩

private theorem userStep_quiet
    {memory memory' : Memory} {locals locals' : Thread}
    (performed : userStep thread memory locals act =
      some (memory', locals')) (stage : Stage) :
    stage.event call act = none := by
  unfold Stage.event
  split
  · cases performed
  · cases performed
  · cases performed
  · rfl

/-- The event of a step belongs to the call on top of the stack. -/
private theorem observe_call
    {event : Event} (emitted : observe state thread act = some event) :
    event.call.thread = thread ∧
      (state.threads thread).stack.length = event.call.depth + 1 := by
  unfold observe at emitted
  split at emitted
  · cases emitted
  · rename_i frame rest shape
    rw [Stage.event_call emitted, shape]
    exact ⟨rfl, rfl⟩

/-- A step of a thread is taken by one call: by user code, which acts at the
depth of the next call, or by the call on top of the stack. -/
inductive ActorStep (state next : State) (thread : Tid) (act : Act)
    (actor : CallId) : Prop where
  | user
      (level : actor.depth = (state.threads thread).stack.length)
      (userPoint : (state.threads thread).atUserPoint = true)
      (performed : userStep thread state.memory (state.threads thread) act =
        some (next.memory, next.threads thread))
      (after : frameOf next actor = none ∨
        ∃ frame, frameOf next actor = some frame ∧
          Pushed (state.threads thread).stack frame)
  | top (frame : Frame) (rest : List Frame) (tls : Tls)
      (shape : (state.threads thread).stack = frame :: rest)
      (level : actor.depth = rest.length)
      (stepped : frameStep state.memory actor (state.threads thread).tls
        frame act = some (next.memory, tls, frameOf next actor))

theorem frameOf_top
    {rest : List Frame} (isThread : call.thread = thread)
    (shape : (state.threads thread).stack = frame :: rest)
    (level : call.depth = rest.length) : frameOf state call = some frame := by
  unfold frameOf
  rw [isThread, shape, level, frameAt_length]

theorem frameOf_vacant
    (isThread : call.thread = thread)
    (level : call.depth = (state.threads thread).stack.length) :
    frameOf state call = none := by
  unfold frameOf
  rw [isThread, frameAt_eq_none_iff, level]

/-- The other frames of a stack stay when its top is replaced. -/
private theorem frameAt_replace
    (added removed : List Frame) {rest : List Frame} {level depth : Nat}
    (apart : depth ≠ level) (isLevel : level = rest.length)
    (short : added.length ≤ 1) (shortOld : removed.length ≤ 1) :
    frameAt (added ++ rest) depth = frameAt (removed ++ rest) depth := by
  subst isLevel
  rcases Nat.lt_or_gt_of_ne apart with below | above
  · rw [frameAt_append added below, frameAt_append removed below]
  · have vacant : ∀ extra : List Frame, extra.length ≤ 1 →
        frameAt (extra ++ rest) depth = none := by
      intro extra bound
      rw [frameAt_eq_none_iff, List.length_append]
      omega
    rw [vacant added short, vacant removed shortOld]

theorem actorStep
    (stepped : program.step state thread act = some next) :
    ∃ actor : CallId, actor.thread = thread ∧
      ActorStep state next thread act actor ∧
      ∀ call, call ≠ actor → frameOf next call = frameOf state call := by
  obtain ⟨memory', locals', performed, rfl⟩ := step_eq_some stepped
  have elsewhere : ∀ call : CallId, call.thread ≠ thread →
      frameOf ⟨memory', Function.update state.threads thread locals'⟩ call =
        frameOf state call := by
    intro call different
    simp [frameOf, Function.update_of_ne different]
  have here : ∀ depth,
      frameOf ⟨memory', Function.update state.threads thread locals'⟩
        ⟨thread, depth⟩ = frameAt locals'.stack depth := by
    intro depth
    simp [frameOf]
  rcases program_cases performed with
    ⟨userPoint, user⟩ | ⟨frame, rest, tls', result, shape, moved, rfl⟩
  · have stack := (userStep_stack user).2.2
    refine ⟨⟨thread, (state.threads thread).stack.length⟩, rfl,
      .user rfl userPoint (by simpa using user) ?_, ?_⟩
    · rw [here]
      rcases stack with same | ⟨frame, grown, fresh⟩
      · refine Or.inl ?_
        rw [same, frameAt_eq_none_iff]
      · refine Or.inr ⟨frame, ?_, fresh⟩
        rw [grown, frameAt_length]
    · rintro ⟨other, depth⟩ different
      by_cases same : other = thread
      · subst same
        rw [here]
        have apart : depth ≠ (state.threads other).stack.length := by
          rintro rfl
          exact different rfl
        rcases stack with same | ⟨frame, grown, _⟩
        · rw [same]
          rfl
        · rw [grown]
          exact frameAt_replace [frame] [] apart rfl (by simp) (by simp)
      · exact elsewhere _ same
  · refine ⟨⟨thread, rest.length⟩, rfl,
      .top frame rest tls' shape rfl ?_, ?_⟩
    · rw [here, moved]
      cases result with
      | none =>
          have vacant : frameAt rest rest.length = none :=
            frameAt_eq_none_iff.mpr (Nat.le_refl _)
          rw [show frameAt (Option.toList none ++ rest) rest.length =
            none from vacant]
      | some frame' =>
          rw [show frameAt (Option.toList (some frame') ++ rest)
            rest.length = some frame' from frameAt_length]
    · rintro ⟨other, depth⟩ different
      by_cases same : other = thread
      · subst same
        rw [here]
        have apart : depth ≠ rest.length := by
          rintro rfl
          exact different rfl
        have short : result.toList.length ≤ 1 := by
          cases result <;> simp
        unfold frameOf
        rw [shape]
        exact frameAt_replace result.toList [frame] apart rfl short
          (by simp)
      · exact elsewhere _ same

theorem callStep
    (stepped : program.step state thread act = some next) (call : CallId) :
    CallStep state next thread act call := by
  obtain ⟨actor, isThread, step, others⟩ := actorStep stepped
  have quiet : call ≠ actor → ∀ event,
      observe state thread act = some event →
        event.call ≠ call := by
    intro different event emitted same
    obtain ⟨sameThread, length⟩ := observe_call emitted
    rw [same] at sameThread length
    cases step with
    | user level userPoint performed after =>
        unfold observe at emitted
        split at emitted
        · cases emitted
        · rw [userStep_quiet performed] at emitted
          cases emitted
    | top frame rest tls shape level moved =>
        rw [shape, List.length_cons, ← level] at length
        exact different (CallId.ext (sameThread.trans isThread.symm)
          (Nat.succ.inj length).symm)
  by_cases same : call = actor
  · subst same
    cases step with
    | user level userPoint performed after =>
        have before := frameOf_vacant isThread level
        rcases after with vacant | ⟨frame, pushed, fresh⟩
        · refine .other (vacant.trans before.symm) ?_
          intro event emitted
          unfold observe at emitted
          split at emitted
          · cases emitted
          · rw [userStep_quiet performed] at emitted
            cases emitted
        · exact .pushed frame isThread before pushed fresh
    | top frame rest tls shape level moved =>
        refine .own frame tls isThread
          (frameOf_top isThread shape level) ?_ moved ?_
        · rw [shape, List.length_cons, level]
        · unfold observe
          rw [shape]
          simp only [← level, ← isThread]
  · exact .other (others call same) (quiet same)

end Frames

/-- The moves between the stages of one call.  A read gets its value only by
`acquires`: the value is the current one at that moment. -/
inductive StageStep (memory : Memory) (act : Act) :
    Stage → Option Stage → Prop where
  | enters (cell : CellId) (notify : Bool) :
      StageStep memory act (.entering cell notify)
        (some (.entering cell notify))
  | acquires (cell : CellId) (notify : Bool)
      (alive : (memory.store.cells cell).phase = .alive) :
      StageStep memory act (.entering cell notify)
        (some (.inside ⟨cell, (memory.store.cells cell).version⟩
          (Body.start notify
            (memory.store.values (memory.store.cells cell).version))))
  | walks (claim : Claim) {body next : Body}
      (moved : bodyStep body act = some next) :
      StageStep memory act (.inside claim body) (some (.inside claim next))
  | finishes (claim : Claim) {body : Body} (isFinish : act = .finish)
      (isOver : body.finishes = true) :
      StageStep memory act (.inside claim body) (some (.leaving claim.cell))
  | unwinds (claim : Claim) {body : Body} (isUnwind : act = .unwind)
      (thrown : body.unwinds = true) :
      StageStep memory act (.inside claim body) (some (.leaving claim.cell))
  | leaves (cell : CellId) :
      StageStep memory act (.leaving cell) (some (.leaving cell))
  | strays : StageStep memory act .elsewhere (some .elsewhere)
  | joins (cell : CellId) :
      StageStep memory act .elsewhere (some (.leaving cell))
  | returns (cell : CellId) : StageStep memory act (.leaving cell) none
  | pops : StageStep memory act .elsewhere none

section Stages

variable {memory memory' : Memory} {call : CallId} {tls tls' : Tls}
variable {cell : CellId} {act : Act} {next : Option Frame}

theorem StageStep.reader (reader : Reader) :
    StageStep memory act (reader.stage cell) (some (reader.stage cell)) := by
  cases reader with
  | read notify => exact .enters cell notify
  | loadArcIf => exact .strays

theorem StageStep.collector (collector : Collector) :
    StageStep memory act (collector.stage cell)
      (some (collector.stage cell)) := by
  cases collector with
  | reclaim result =>
      cases result with
      | none => exact .leaves cell
      | some address => exact .strays
  | discard result =>
      cases result with
      | none => exact .leaves cell
      | some address => exact .strays
  | _ => exact .strays

theorem StageStep.unwound (collector : Collector) :
    StageStep memory act (collector.stage cell)
      (some (collector.unwound.stage cell)) := by
  cases collector with
  | reclaim result => cases result <;> constructor
  | update wait effect => exact .joins cell
  | drop => exact .strays
  | discard result => cases result <;> constructor

theorem slowPath_stage (reader : Reader) :
    (slowPath cell reader).stage = reader.stage cell := by
  cases reader with
  | read notify => rfl
  | loadArcIf => rfl

/-- What a waiter found out about its own fallback reads. -/
def WaitStep.onFallback : WaitStep → Option Bool
  | .start => none
  | .checkFallback onFallback => some onFallback
  | .lock onFallback => some onFallback
  | .copy onFallback => some onFallback
  | .each onFallback _ => some onFallback
  | .scan onFallback _ _ _ _ _ => some onFallback

/-- Every step of a call is a move of its stage. -/
theorem frameStep_stage
    {frame : Frame} (inv : MemInv memory) (ok : FrameOk memory call frame)
    (stepped : frameStep memory call tls frame act =
      some (memory', tls', next)) :
    StageStep memory act frame.stage (next.map Frame.stage) := by
  cases frameStep_rule stepped with
  | @pinGone _ reader | @pinFull _ reader =>
      simp only [Option.map_some, slowPath_stage]
      exact .reader reader
  | @enter _ reader | @pinFirst _ reader | @pinSlot _ reader
  | @claimBusy _ reader | @claimFree _ reader | @claimSkip _ reader
  | @claimReturn _ reader | @claimAllocate _ reader
  | @claimAdvance _ reader | @publishLoad _ reader | @publishLink _ reader
  | @publish _ reader | @publishLost _ reader | @publishSpurious _ reader
  | @invalid _ reader | @republish _ reader | @lockedLock _ reader
  | @lockedLoad _ reader => exact .reader reader
  | @validRead cell notify address pin current =>
      subst current
      have alive : (memory.store.cells cell).phase = .alive :=
        ok.alive inv (by simp [Frame.holding])
      simp only [Option.map_some, Frame.stage, deref_current inv alive]
      exact .acquires cell notify alive
  | @lockedRead cell notify address version =>
      have stepOk : LockedStepOk memory cell (.unlock address version) :=
        ok.facts
      obtain ⟨_, rfl, rfl⟩ := stepOk
      have alive : (memory.store.cells cell).phase = .alive :=
        ok.alive inv (by simp [Frame.holding])
      simp only [Option.map_some, Frame.stage, deref_current inv alive]
      exact .acquires cell notify alive
  | readFinish finishes | fallbackFinish finishes =>
      exact .finishes _ rfl finishes
  | readUnwind unwinds | fallbackUnwind unwinds =>
      exact .unwinds _ rfl unwinds
  | readBody inside | fallbackBody inside => exact .walks _ inside
  | @nothingRetired _ result | @someRetired _ result
  | @tryLockTaken _ result | @tryLockBusy _ result
  | @dropReclaimed _ result =>
      cases result with
      | none => exact .leaves _
      | some address => exact .strays
  | @collectNothing _ collector | @collectStart _ collector
  | @collectSlot _ collector | @collectRecord _ collector
  | @collectEnd _ collector | @collectLen _ collector
  | @collectUnlock _ collector | @dropValue _ collector =>
      exact .collector collector
  | @dropPanics _ collector => exact .unwound collector
  | reject | handOver | dropHandle => exact .joins _
  | dropDone | leaveFallback => exact .leaves _
  | enterFallback | lockedCountRead => exact .enters _ _
  | @returned cell outcome =>
      cases outcome with
      | done => exact .returns cell
      | _ => exact .pops
  | dropCell | exitRelease => exact .pops
  | _ => exact .strays

end Stages

/-- The stage of a call in progress. -/
def stageOf (state : State) (call : CallId) : Option Stage :=
  (frameOf state call).map Frame.stage

section Run

variable {state next : State} {thread : Tid} {act : Act} {call : CallId}

theorem Pushed.not_inside
    {stack : List Frame} {frame : Frame} (fresh : Pushed stack frame)
    (claim : Claim) (body : Body) : frame.stage ≠ .inside claim body := by
  rcases fresh with
    ⟨cell, operation, rfl⟩ | ⟨cell, freed, rfl⟩ | ⟨_, record, rfl⟩
  · cases operation <;> simp [Call.enter, Frame.stage, Reader.stage]
  · simp [Frame.stage, Collector.stage]
  · simp [Frame.stage]

/-- What a step of a thread does to the stage of one call. -/
theorem stageOf_step
    (holds : Invariant state)
    (stepped : program.step state thread act = some next) (call : CallId) :
    (stageOf next call = stageOf state call ∧
        ∀ event, observe state thread act = some event →
          event.call ≠ call) ∨
      (call.thread = thread ∧ ∃ stage, stageOf state call = some stage ∧
        StageStep state.memory act stage (stageOf next call) ∧
        observe state thread act = stage.event call act) ∨
      (stageOf state call = none ∧ ∃ stage, stageOf next call = some stage ∧
        ∀ claim body, stage ≠ .inside claim body) := by
  cases callStep stepped call with
  | other same quiet =>
      refine Or.inl ⟨?_, quiet⟩
      unfold stageOf
      rw [same]
  | own frame tls isThread before top moved emits =>
      refine Or.inr (Or.inl ⟨isThread, frame.stage, ?_, ?_, emits⟩)
      · unfold stageOf
        rw [before]
        rfl
      · exact frameStep_stage holds.1 (holds.frameOk before) moved
  | pushed frame isThread before after fresh =>
      refine Or.inr (Or.inr ⟨?_, frame.stage, ?_, fresh.not_inside⟩)
      · unfold stageOf
        rw [before]
        rfl
      · unfold stageOf
        rw [after]
        rfl

/-- A closure on a value was there before the step, or the value is the
current one and the closure starts now. -/
theorem inside_step
    {claim : Claim} {body' : Body} (holds : Invariant state)
    (stepped : program.step state thread act = some next)
    (after : stageOf next call = some (.inside claim body')) :
    (∃ body, stageOf state call = some (.inside claim body) ∧
        (body' = body ∨ bodyStep body act = some body')) ∨
      ((state.memory.store.cells claim.cell).phase = .alive ∧
        claim.version = (state.memory.store.cells claim.cell).version ∧
        ∃ notify,
          body' = Body.start notify
            (state.memory.store.values claim.version)) := by
  rcases stageOf_step holds stepped call with
    ⟨same, _⟩ | ⟨_, stage, before, moved, _⟩ | ⟨_, stage, pushed, outside⟩
  · rw [same] at after
    exact Or.inl ⟨body', after, Or.inl rfl⟩
  · rw [after] at moved
    cases moved with
    | acquires cell notify alive =>
        exact Or.inr ⟨alive, rfl, notify, rfl⟩
    | walks claim moved => exact Or.inl ⟨_, before, Or.inr moved⟩
  · rw [after] at pushed
    exact absurd (Option.some.inj pushed).symm (outside claim body')

/-- An invocation is a step of a dispatch at the head of its loop. -/
theorem observe_invoked
    {cell : CellId} {entry : Entry}
    (emitted : observe state thread act =
      some (.invoked call cell entry)) :
    call.thread = thread ∧ ∃ version pending,
      stageOf state call =
        some (.inside ⟨cell, version⟩ (.dispatch (entry :: pending))) := by
  obtain ⟨isThread, top⟩ := observe_call emitted
  refine ⟨isThread, ?_⟩
  unfold observe at emitted
  split at emitted
  · cases emitted
  · rename_i frame rest shape
    have found : frameOf state call = some frame := by
      unfold frameOf
      change call.thread = thread at isThread
      change _ = call.depth + 1 at top
      rw [shape, List.length_cons] at top
      rw [isThread, shape, ← Nat.succ.inj top, frameAt_length]
    unfold stageOf
    rw [found, Option.map_some]
    unfold Stage.event at emitted
    split at emitted
    · rename_i claim first pending stage
      cases emitted
      exact ⟨claim.version, pending, congrArg some stage⟩
    · split at emitted
      · cases emitted
      · cases emitted
    · split at emitted
      · cases emitted
      · cases emitted
    · cases emitted

theorem ActorStep.advance
    (holds : Invariant state) (isThread : call.thread = thread)
    (step : ActorStep state next thread act call) :
    ∃ gained lost, Advance call gained lost state.memory next.memory := by
  cases step with
  | user level userPoint performed after =>
      obtain ⟨_, _, gained, lost, advance⟩ :=
        userStep_sound holds.1 (holds.2 thread) userPoint performed
      have isCall : call = ⟨thread, (state.threads thread).stack.length⟩ :=
        CallId.ext isThread level
      rw [isCall]
      exact ⟨gained, lost, advance⟩
  | top frame rest tls shape level stepped =>
      have found := frameOf_top isThread shape level
      have record := (holds.2 thread).record
      rw [← isThread] at record
      exact (frameStep_sound holds.1 record (holds.frameOk found)
        (by rw [isThread]; exact stepped)).advance

/-- A step of any thread is an advance of the memory. -/
theorem step_advance
    (holds : Invariant state)
    (stepped : program.step state thread act = some next) :
    ∃ actor gained lost, Advance actor gained lost state.memory
      next.memory := by
  obtain ⟨actor, isThread, step, _⟩ := actorStep stepped
  exact ⟨actor, step.advance holds isThread⟩

end Run

end RegistryIo.Snapshot
