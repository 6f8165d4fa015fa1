import RegistryIo.Snapshot.ControlFlow
import RegistryIo.Snapshot.Waiting

/-!
# What a read leaves behind

While a call is in progress the frames below it are suspended.  Slots,
reader counts and `FALLBACK_DEPTH` of a thread are determined by the frames on
its stack, so once the call is over they are what they were before it, however
its closure ended and whatever was called inside.
-/

namespace RegistryIo.Snapshot

open RegistryIo.Interleaving

/-- The addresses in the slots of a thread; all slots are null before the
thread has a record. -/
def slotsOf (state : State) (thread : Tid) (index : Nat) : Option Addr :=
  (state.threads thread).tls.record.bind fun record =>
    (state.memory.domain.slot record index).map Announcement.address

/-- What a thread contributes to `fallback_readers` of a cell. -/
def fallbackShare (state : State) (thread : Tid) (cell : CellId) : Nat :=
  (state.memory.store.cells cell).fallbackActive.countP
    fun call => decide (call.thread = thread)

/-- The reads of a thread in one state. -/
structure ReadsOk (state : State) (thread : Tid) : Prop where
  /-- A pin is a slot of the own record, and it is not null. -/
  pinned : ∀ depth frame pin,
    frameOf state ⟨thread, depth⟩ = some frame → frame.pinned = some pin →
      (state.threads thread).tls.record = some pin.record ∧
        pin.index < SLOTS ∧ slotsOf state thread pin.index ≠ none
  distinct : ∀ first second frame other pin,
    frameOf state ⟨thread, first⟩ = some frame → frame.pinned = some pin →
      frameOf state ⟨thread, second⟩ = some other →
        other.pinned = some pin → first = second
  /-- `FALLBACK_DEPTH` counts the fallback reads on the stack. -/
  depth : (state.threads thread).tls.fallbackDepth =
    (state.threads thread).stack.countP Frame.inFallback
  /-- A step leads to the fallback path exactly if it is the search for a slot
  and there is none. -/
  fallback : ∀ act next cell notify,
    program.step state thread act = some next →
      ((next.threads thread).stack.head? =
          some (.enterFallback cell notify) ↔
        (∃ address, (state.threads thread).stack.head? =
            some (.pinning cell (.read notify) address .findSlot)) ∧
          NoSlot state.memory.domain (state.threads thread).tls)

section Discipline

variable {state : State} {thread : Tid}

private theorem Frame.holding_of_pinned
    {frame : Frame} {pin : Pin} (pinned : frame.pinned = some pin) :
    .pin pin ∈ frame.holding := by
  cases frame with
  | validate => cases pinned; simp [Frame.holding]
  | republish => cases pinned; simp [Frame.holding]
  | reading => cases pinned; simp [Frame.holding]
  | keeping => cases pinned; simp [Frame.holding]
  | counted => cases pinned; simp [Frame.holding]
  | _ => cases pinned

/-- The slot of a pin holds an announcement of its call. -/
private theorem Invariant.announcement_of_pinned
    {call : CallId} {frame : Frame} {pin : Pin} (holds : Invariant state)
    (found : frameOf state call = some frame)
    (pinned : frame.pinned = some pin) :
    ∃ announcement,
      state.memory.domain.slot pin.record pin.index = some announcement ∧
        announcement.call = call := by
  have held : state.memory.Held call (.pin pin) :=
    ((holds.frameOk found).held (.pin pin)).mpr
      (Frame.holding_of_pinned pinned)
  exact Option.map_eq_some_iff.mp held

private theorem readsOk_reachable
    (reachable : program.Reachable initial state) (thread : Tid) :
    ReadsOk state thread := by
  have holds := invariant_reachable reachable
  have locals := tlsOk_reachable reachable thread
  refine ⟨?_, ?_, locals.depth, ?_⟩
  · intro depth frame pin found pinned
    have record := locals.pins frame (mem_of_frameAt found) pin pinned
    obtain ⟨announcement, used, _⟩ :=
      holds.announcement_of_pinned found pinned
    refine ⟨record, (holds.1.domain.announced _ _ _ used).2.2, ?_⟩
    simp [slotsOf, record, used]
  · intro first second frame other pin found pinned foundOther pinnedOther
    obtain ⟨announcement, used, isCall⟩ :=
      holds.announcement_of_pinned found pinned
    obtain ⟨announcement', used', isCall'⟩ :=
      holds.announcement_of_pinned foundOther pinnedOther
    cases Option.some.inj (used.symm.trans used')
    exact congrArg CallId.depth (isCall.symm.trans isCall')
  · intro act next cell notify stepped
    obtain ⟨memory', locals', performed, rfl⟩ := step_eq_some stepped
    simp only [Function.update_self]
    have suspended := (holds.2 thread).suspended
    rcases program_cases performed with
      ⟨userPoint, user⟩ | ⟨frame, rest, tls', after, shape, moved, rfl⟩
    · have users := all_isUser (holds.2 thread) userPoint
      have notTop : ∀ frame, frame.isUser = false →
          (state.threads thread).stack.head? ≠ some frame := by
        intro frame running isTop
        have isUser := users frame (List.mem_of_mem_head? isTop)
        rw [running] at isUser
        cases isUser
      have noFallback : locals'.stack.head? ≠
          some (.enterFallback cell notify) := by
        rcases (userStep_stack user).2.2 with same | ⟨frame, grown, pushed⟩
        · rw [same]
          exact notTop _ rfl
        · rw [grown]
          rintro ⟨⟩
          cases Pushed.not_entry pushed
      refine iff_of_false noFallback ?_
      rintro ⟨⟨address, isTop⟩, _⟩
      exact notTop _ rfl isTop
    · rw [shape] at suspended ⊢
      have decided : after = some (.enterFallback cell notify) ↔ _ :=
        frameStep_fallback_iff moved
      cases after with
      | some frame' =>
          simpa using decided
      | none =>
          have noFallback : rest.head? ≠
              some (.enterFallback cell notify) := by
            intro isTop
            have isUser := suspended _ (List.mem_of_mem_head? isTop)
            cases isUser
          simpa [noFallback] using decided

end Discipline

section Brackets

variable {before started state next now : State} {thread : Tid} {act : Act}
variable {call : CallId} {schedule : List (Tid × Act)} {depth : Nat}

private theorem inProgress_iff :
    inProgress call state = true ↔
      call.depth < (state.threads call.thread).stack.length := by
  unfold inProgress frameOf
  rw [Option.isSome_iff_ne_none, Ne, frameAt_eq_none_iff, Nat.not_le]

private theorem frameAt_ext
    {stack other : List Frame}
    (same : ∀ depth, frameAt stack depth = frameAt other depth) :
    stack = other := by
  have length : stack.length = other.length := by
    apply Nat.le_antisymm
    · exact frameAt_eq_none_iff.mp
        ((same other.length).trans (frameAt_eq_none_iff.mpr (Nat.le_refl _)))
    · exact frameAt_eq_none_iff.mp
        ((same stack.length).symm.trans
          (frameAt_eq_none_iff.mpr (Nat.le_refl _)))
  induction stack generalizing other with
  | nil => exact (List.length_eq_zero_iff.mp length.symm).symm
  | cons top rest inductionHypothesis =>
      cases other with
      | nil => cases length
      | cons top' rest' =>
          have shorter : rest.length = rest'.length := Nat.succ.inj length
          have tops := same rest.length
          rw [frameAt_length, shorter, frameAt_length] at tops
          rw [Option.some.inj tops]
          congr 1
          refine inductionHypothesis (fun depth => ?_) shorter
          by_cases below : depth < rest.length
          · have lower := same depth
            rwa [← List.singleton_append, frameAt_append _ below,
              ← List.singleton_append,
              frameAt_append _ (shorter ▸ below)] at lower
          · rw [frameAt_eq_none_iff.mpr (Nat.le_of_not_lt below),
              frameAt_eq_none_iff.mpr
                (shorter ▸ Nat.le_of_not_lt below)]

/-- A step of the thread acts at the call or above it. -/
private theorem suspended_step
    (active : inProgress call state = true)
    (stepped : program.step state thread act = some next)
    (below : depth < call.depth) :
    frameOf next ⟨call.thread, depth⟩ =
      frameOf state ⟨call.thread, depth⟩ := by
  obtain ⟨actor, isThread, step, others⟩ := actorStep stepped
  apply others
  rintro rfl
  have length := inProgress_iff.mp active
  simp only at isThread
  rw [isThread] at length
  cases step with
  | user level =>
      simp only at level
      omega
  | top frame rest tls shape level moved =>
      rw [shape, List.length_cons] at length
      simp only at level
      omega

private theorem suspended_run
    (lasts : program.execWhere (fun state _ _ => inProgress call state)
      started schedule = some now)
    (below : depth < call.depth) :
    frameOf now ⟨call.thread, depth⟩ =
      frameOf started ⟨call.thread, depth⟩ := by
  refine execWhere_induction
    (P := fun _ state => frameOf state ⟨call.thread, depth⟩ =
      frameOf started ⟨call.thread, depth⟩) ?_ lasts rfl
  intro done middle thread act next _ active stepped same
  exact (suspended_step active stepped below).trans same

/-- The call is not `Drop for Local`. -/
def NotExiting (call : CallId) (state : State) : Prop :=
  ∀ frame, frameOf state call = some frame → frame.isExiting = false

private theorem notExiting_step
    (active : inProgress call state = true)
    (stepped : program.step state thread act = some next)
    (working : NotExiting call state) : NotExiting call next := by
  intro frame found
  cases callStep stepped call with
  | other same quiet => exact working frame (same.symm.trans found)
  | own before tls isThread foundBefore top moved emits =>
      have step := frameStep_tls moved
      rw [found] at step
      have notBefore := working before foundBefore
      by_contra exits
      rw [step.exiting (by simpa using exits)] at notBefore
      cases notBefore
  | pushed frame isThread vacant after fresh =>
      unfold inProgress at active
      rw [vacant] at active
      cases active

/-- A thread keeps its record as long as it does not exit. -/
private theorem record_step
    {record : RecordId} (reachable : program.Reachable initial state)
    (active : inProgress call state = true)
    (working : NotExiting call state)
    (stepped : program.step state thread act = some next)
    (isRecord : (state.threads call.thread).tls.record = some record) :
    (next.threads call.thread).tls.record = some record := by
  have locals := tlsOk_reachable reachable call.thread
  obtain ⟨memory', locals', performed, rfl⟩ := step_eq_some stepped
  by_cases same : call.thread = thread
  · subst same
    simp only [Function.update_self]
    rcases program_cases performed with
      ⟨userPoint, user⟩ | ⟨frame, rest, tls', after, shape, moved, rfl⟩
    · exact (userStep_stack user).2.1.trans isRecord
    · have isTop : (state.threads call.thread).stack.head? = some frame := by
        rw [shape]
        rfl
      have step := frameStep_tls moved
      cases after with
      | some frame' =>
          rcases step.record with kept | acquiring
          · exact kept.trans isRecord
          · rw [locals.acquiring frame isTop acquiring] at isRecord
            cases isRecord
      | none =>
          rcases step.2.2 with kept | exits
          · exact kept.trans isRecord
          · -- An exiting thread has no other frame.
            have alone := locals.exiting frame isTop exits
            have length := inProgress_iff.mp active
            rw [shape] at alone length
            cases alone
            have level : call.depth = 0 := by simpa using length
            rw [working frame (frameOf_top rfl shape level)] at exits
            cases exits
  · simp only [Function.update_of_ne same]
    exact isRecord

private theorem record_run
    {record : RecordId} (reachable : program.Reachable initial started)
    (working : NotExiting call started)
    (lasts : program.execWhere (fun state _ _ => inProgress call state)
      started schedule = some now)
    (isRecord : (started.threads call.thread).tls.record = some record) :
    (now.threads call.thread).tls.record = some record := by
  have both : NotExiting call now ∧
      (now.threads call.thread).tls.record = some record := by
    refine execWhere_induction
      (P := fun _ state => NotExiting call state ∧
        (state.threads call.thread).tls.record = some record)
      ?_ lasts ⟨working, isRecord⟩
    intro done middle thread act next executed active stepped holds
    exact ⟨notExiting_step active stepped holds.1,
      record_step (reachable.exec executed) active holds.1 stepped holds.2⟩
  exact both.2

/-- What a call holds is determined by its frame. -/
private theorem held_of_frame
    {holding : Holding} (holds : Invariant before) (holdsNow : Invariant now)
    (same : frameOf now call = frameOf before call)
    (held : before.memory.Held call holding) :
    now.memory.Held call holding := by
  obtain ⟨frame, found, member⟩ := holds.frame_of_held held
  exact ((holdsNow.frameOk (same.trans found)).held holding).mpr member

/-- The announcement of a suspended call is determined by its frame. -/
private theorem slot_of_frame
    {record : RecordId} {index : Nat} {announcement : Announcement}
    (holds : Invariant before) (holdsNow : Invariant now)
    (suspended : ∀ frame,
      frameOf before announcement.call = some frame → frame.isUser = true)
    (same : frameOf now announcement.call =
      frameOf before announcement.call)
    (used : before.memory.domain.slot record index = some announcement) :
    now.memory.domain.slot record index = some announcement := by
  have held : before.memory.Held announcement.call
      (.pin ⟨record, index⟩) := by
    simp [Memory.Held, used]
  obtain ⟨frame, found, member⟩ := holds.frame_of_held held
  obtain ⟨cell, address, version, body, rfl⟩ :=
    Frame.pin_of_isUser (suspended frame found) member
  have announces := (holds.frameOk found).facts.1
  have shape := Option.some.inj (used.symm.trans announces)
  rw [shape] at same found ⊢
  exact (holdsNow.frameOk (same.trans found)).facts.1

/-- A slot of the own record holds an announcement of the thread. -/
private theorem Invariant.own_slot
    {record : RecordId} {index : Nat} {announcement : Announcement}
    (holds : Invariant state)
    (isRecord : (state.threads thread).tls.record = some record)
    (used : state.memory.domain.slot record index = some announcement) :
    announcement.call.thread = thread := by
  have owned := ((holds.2 thread).record record isRecord).owned
  have owner := (holds.1.domain.announced record index announcement used).1
  exact Option.some.inj (owner.symm.trans owned)

/-- Two states in which the thread has the same suspended frames. -/
structure SameStack (thread : Tid) (before now : State) : Prop where
  stack : (now.threads thread).stack = (before.threads thread).stack
  users : ∀ frame ∈ (before.threads thread).stack, frame.isUser = true

namespace SameStack

theorem symm (same : SameStack thread before now) :
    SameStack thread now before where
  stack := same.stack.symm
  users := by
    rw [same.stack]
    exact same.users

private theorem frameOf_eq
    (same : SameStack thread before now) (isThread : call.thread = thread) :
    frameOf now call = frameOf before call := by
  unfold frameOf
  rw [isThread, same.stack]

private theorem slot_eq
    {record : RecordId} {index : Nat} {announcement : Announcement}
    (same : SameStack thread before now)
    (holds : Invariant before) (holdsNow : Invariant now)
    (isThread : announcement.call.thread = thread)
    (used : before.memory.domain.slot record index = some announcement) :
    now.memory.domain.slot record index = some announcement := by
  refine slot_of_frame holds holdsNow ?_ (same.frameOf_eq isThread) used
  intro frame found
  have member := mem_of_frameAt found
  rw [isThread] at member
  exact same.users frame member

private theorem slotsOf_eq
    (same : SameStack thread before now)
    (reachable : program.Reachable initial before)
    (reachableNow : program.Reachable initial now)
    (kept : ∀ record, (before.threads thread).tls.record = some record →
      (now.threads thread).tls.record = some record) :
    slotsOf now thread = slotsOf before thread := by
  have holds := invariant_reachable reachable
  have holdsNow := invariant_reachable reachableNow
  funext index
  unfold slotsOf
  cases isRecord : (before.threads thread).tls.record with
  | some record =>
      have isRecordNow := kept record isRecord
      rw [isRecordNow, Option.bind_some, Option.bind_some]
      cases used : before.memory.domain.slot record index with
      | some announcement =>
          rw [same.slot_eq holds holdsNow (holds.own_slot isRecord used)
            used]
      | none =>
          cases usedNow : now.memory.domain.slot record index with
          | none => rfl
          | some announcement =>
              have back := same.symm.slot_eq holdsNow holds
                (holdsNow.own_slot isRecordNow usedNow) usedNow
              rw [used] at back
              cases back
  | none =>
      cases isRecordNow : (now.threads thread).tls.record with
      | none => rfl
      | some record =>
          rw [Option.bind_some, Option.bind_none]
          cases usedNow : now.memory.domain.slot record index with
          | none => rfl
          | some announcement =>
              -- The thread had no record, so it cannot have had a slot.
              have isThread := holdsNow.own_slot isRecordNow usedNow
              have back := same.symm.slot_eq holdsNow holds isThread usedNow
              have held : before.memory.Held announcement.call
                  (.pin ⟨record, index⟩) := by
                simp [Memory.Held, back]
              obtain ⟨frame, found, member⟩ := holds.frame_of_held held
              have listed := mem_of_frameAt found
              rw [isThread] at listed
              have known := (tlsOk_reachable reachable thread).pins frame
                listed _ (Frame.pinned_of_holding member)
              rw [isRecord] at known
              cases known

private theorem fallbackShare_eq
    (same : SameStack thread before now)
    (holds : Invariant before) (holdsNow : Invariant now) (cell : CellId) :
    fallbackShare now thread cell = fallbackShare before thread cell := by
  unfold fallbackShare
  rw [List.countP_eq_length_filter, List.countP_eq_length_filter]
  apply List.Perm.length_eq
  rw [List.perm_ext_iff_of_nodup
    ((holdsNow.1.store.cells cell).fallback_nodup.filter _)
    ((holds.1.store.cells cell).fallback_nodup.filter _)]
  intro call
  simp only [List.mem_filter, decide_eq_true_eq]
  constructor
  · rintro ⟨counted, isThread⟩
    have held : now.memory.Held call (.fallback cell) := counted
    exact ⟨held_of_frame holdsNow holds
      (same.frameOf_eq isThread).symm held, isThread⟩
  · rintro ⟨counted, isThread⟩
    have held : before.memory.Held call (.fallback cell) := counted
    exact ⟨held_of_frame holds holdsNow (same.frameOf_eq isThread) held,
      isThread⟩

end SameStack

/-- A call starts at a user point and pushes its first frame. -/
private theorem called_stack
    {cell : CellId} {operation : Call}
    (called : program.step before thread (.call cell operation) =
      some started) :
    (before.threads thread).atUserPoint = true ∧
      (started.threads thread).stack =
        operation.enter cell :: (before.threads thread).stack ∧
      (started.threads thread).tls = (before.threads thread).tls := by
  obtain ⟨memory', locals', performed, rfl⟩ := step_eq_some called
  simp only [program] at performed
  split at performed
  · rename_i userPoint
    cases userStep_rule performed
    exact ⟨userPoint, by simp, by simp⟩
  · cases performed

/-- The state of the thread after a call is what it was before. -/
structure Bracket (thread : Tid) (before now : State) : Prop where
  slots : slotsOf now thread = slotsOf before thread
  share : ∀ cell, fallbackShare now thread cell =
    fallbackShare before thread cell
  depth : (now.threads thread).tls.fallbackDepth =
    (before.threads thread).tls.fallbackDepth

private theorem call_bracket
    {cell : CellId} {operation : Call}
    (reachable : program.Reachable initial before)
    (called : program.step before thread (.call cell operation) =
      some started)
    (lasts : program.execWhere
      (fun state _ _ =>
        inProgress ⟨thread, (before.threads thread).stack.length⟩ state)
      started schedule = some now)
    (isOver : inProgress ⟨thread, (before.threads thread).stack.length⟩ now =
      false) : Bracket thread before now := by
  obtain ⟨userPoint, pushed, sameTls⟩ := called_stack called
  have reachableStart := reachable.step called
  have reachableNow := reachableStart.exec (exec_of_execWhere lasts)
  have holds := invariant_reachable reachable
  have stack : (now.threads thread).stack =
      (before.threads thread).stack := by
    apply frameAt_ext
    intro depth
    by_cases below : depth < (before.threads thread).stack.length
    · have kept := suspended_run lasts below
      unfold frameOf at kept
      rw [kept]
      simp only [pushed]
      exact frameAt_append [_] below
    · rw [frameAt_eq_none_iff.mpr (Nat.le_of_not_lt below),
        frameAt_eq_none_iff]
      have length : (now.threads thread).stack.length ≤
          (before.threads thread).stack.length := by
        by_contra longer
        rw [inProgress_iff.mpr (Nat.lt_of_not_le longer)] at isOver
        cases isOver
      omega
  have same : SameStack thread before now :=
    ⟨stack, all_isUser (holds.2 thread) userPoint⟩
  have working : NotExiting
      ⟨thread, (before.threads thread).stack.length⟩ started := by
    intro frame found
    unfold frameOf at found
    simp only [pushed, frameAt_length] at found
    cases found
    cases operation <;> rfl
  refine ⟨same.slotsOf_eq reachable reachableNow ?_,
    same.fallbackShare_eq holds (invariant_reachable reachableNow), ?_⟩
  · intro record isRecord
    rw [← sameTls] at isRecord
    exact record_run reachableStart working lasts isRecord
  · rw [(tlsOk_reachable reachableNow thread).depth, stack,
      (tlsOk_reachable reachable thread).depth]

end Brackets

/-- Read brackets: while a read is in progress, and when it is over, the reads
of its thread are in order; when it is over, it has left nothing behind. -/
theorem read_brackets
    {before started now : State} {thread : Tid} {cell : CellId}
    {notify : Bool} {schedule : List (Tid × Act)}
    (reachable : program.Reachable initial before)
    (called : program.step before thread (.call cell (.read notify)) =
      some started)
    (lasts : program.execWhere
      (fun state _ _ =>
        inProgress ⟨thread, (before.threads thread).stack.length⟩ state)
      started schedule = some now) :
    ReadsOk now thread ∧
      (inProgress ⟨thread, (before.threads thread).stack.length⟩ now =
        false → Bracket thread before now) := by
  have reachableNow :=
    (reachable.step called).exec (exec_of_execWhere lasts)
  exact ⟨readsOk_reachable reachableNow thread,
    call_bracket reachable called lasts⟩

/-- The rest of a read with a nested read; both closures unwind. -/
def unwindingReads : List (Tid × Act) :=
  nexts 0 8 ++ (0, .call 0 (.read false)) :: nexts 0 3 ++
    [(0, .unwind), (0, .next), (0, .unwind), (0, .next)]

theorem read_brackets_unwinding :
    ∃ before started now,
      program.exec initial [(0, .newCell 0 100)] = some before ∧
      program.step before 0 (.call 0 (.read false)) = some started ∧
      program.exec started unwindingReads = some now ∧
      (now.threads 0).tls.record = some 0 ∧ Bracket 0 before now := by
  have evaluated :
      ((program.exec initial [(0, .newCell 0 100)]).bind fun before =>
        (program.step before 0 (.call 0 (.read false))).bind fun started =>
          (program.execWhere
            (fun state _ _ =>
              inProgress ⟨0, (before.threads 0).stack.length⟩ state)
            started unwindingReads).map fun now =>
              ((now.threads 0).tls.record,
                inProgress ⟨0, (before.threads 0).stack.length⟩ now)) =
        some (some 0, false) := by
    decide +kernel
  obtain ⟨before, reached, afterCall⟩ := Option.bind_eq_some_iff.mp evaluated
  obtain ⟨started, called, afterRun⟩ := Option.bind_eq_some_iff.mp afterCall
  obtain ⟨now, lasts, view⟩ := Option.map_eq_some_iff.mp afterRun
  obtain ⟨record, isOver⟩ := Prod.mk.inj view
  exact ⟨before, started, now, reached, called, exec_of_execWhere lasts,
    record, (read_brackets ⟨_, reached⟩ called lasts).2 isOver⟩

end RegistryIo.Snapshot
