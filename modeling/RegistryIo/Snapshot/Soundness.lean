import RegistryIo.Snapshot.Steps.Wait

/-!
# Every reachable state satisfies the invariants

The rely/guarantee rule turns the soundness of single steps and the stability
of frames into an invariant of all runs.
-/

namespace RegistryIo.Snapshot

open RegistryIo.Interleaving

theorem frameStep_sound
    {memory : Memory} {call : CallId} {tls : Tls} {frame : Frame} {act : Act}
    {result : Memory × Tls × Option Frame}
    (inv : MemInv memory)
    (own : ∀ record, tls.record = some record →
      OwnRecord memory call.thread record)
    (ok : FrameOk memory call frame)
    (stepped : frameStep memory call tls frame act = some result) :
    Sound memory call result := by
  obtain ⟨memory', tls', next⟩ := result
  cases frameStep_rule stepped with
  | enter => exact Sound.of_same inv ok (fun _ => Iff.rfl) trivial own
  | pinGone | pinFull => exact slowPath_sound inv own ok
  | pinFirst =>
      exact pinning_sound inv own ok
        ⟨cursorOk_head inv, fun _ impossible => by cases impossible⟩
  | pinSlot record index _ isRecord free =>
      exact pinSlot_sound inv own ok isRecord free
  | @claimBusy _ _ _ record =>
      exact pinning_sound inv own ok ⟨ok.facts.1 record rfl, ok.facts.2⟩
  | claimFree free => exact claimFree_sound inv own ok free
  | @claimSkip _ _ _ record =>
      exact pinning_sound inv own ok
        ⟨cursorOk_next inv (ok.facts.1 record rfl), ok.facts.2⟩
  | claimReturn => exact claimReturn_sound inv ok
  | claimAllocate => exact claimAllocate_sound inv own ok
  | claimAdvance =>
      exact pinning_sound inv own ok
        ⟨cursorOk_next inv ok.facts.1, ok.facts.2⟩
  | publishLoad => exact pinning_sound inv own ok ok.facts
  | publishLink => exact publishLink_sound inv own ok
  | publish isHead => exact publish_sound inv ok isHead
  | publishLost | publishSpurious =>
      exact pinning_sound inv own ok ok.facts.1
  | validRead isCurrent => exact validRead_sound inv own ok isCurrent
  | validLoad isCurrent => exact validLoad_sound inv own ok isCurrent
  | invalid =>
      exact Sound.of_same inv ok (fun _ => Iff.rfl) ⟨_, ok.facts⟩ own
  | republish => exact republish_sound inv own ok
  | readFinish | readUnwind =>
      refine clearPin_sound inv own ok ok.facts.1 ?_ trivial
      intro holding
      cases holding <;> simp [Frame.holding]
  | readBody inside => exact readBody_sound inv own ok inside
  | keep => exact keep_sound inv own ok
  | reject | counted =>
      refine clearPin_sound inv own ok ok.facts ?_ trivial
      intro holding
      cases holding <;> simp [Frame.holding]
  | nothingRetired | tryLockBusy =>
      exact afterRelease_sound inv own ok fun _ => Iff.rfl
  | someRetired =>
      exact Sound.of_same inv ok (fun _ => Iff.rfl) trivial own
  | tryLockTaken free => exact tryLockTaken_sound inv own ok free
  | collectNothing =>
      exact collecting_sound inv own ok rfl List.nodup_nil
  | collectStart =>
      exact collecting_sound inv own ok rfl (ScanOk.start inv)
  | collectSlot =>
      exact collecting_sound inv own ok rfl (ScanOk.read ok.facts.2)
  | collectRecord beyond =>
      exact collecting_sound inv own ok rfl
        (ScanOk.step inv ok.facts.2 (Nat.le_of_not_lt beyond))
  | collectEnd => exact collectEnd_sound inv own ok
  | collectLen => exact collectLen_sound inv own ok
  | collectUnlock => exact collectUnlock_sound inv own ok
  | dropValue => exact dropFreed_sound inv own ok rfl rfl id
  | dropPanics => exact dropPanics_sound inv own ok
  | dropReclaimed => exact dropReclaimed_sound inv own ok
  | dropWaits => exact dropWaits_sound inv own ok
  | dropWrote => exact dropWrote_sound inv own ok
  | dropCell => exact dropCell_sound inv own ok
  | dropDone => exact dropDone_sound inv own ok
  | dropHandle => exact dropHandle_sound inv own ok
  | handOver => exact handOver_sound inv own ok
  | draw => exact draw_sound inv own ok
  | lockWriter free => exact lockWriter_sound inv own ok free
  | computeNone unchanged => exact computeNone_sound inv own ok unchanged
  | computeSome value applied free =>
      exact computeSome_sound inv own ok applied free
  | install => exact install_sound inv own ok
  | retire => exact retire_sound inv own ok
  | unlockUnchanged => exact unlockUnchanged_sound inv own ok
  | enterFallback => exact enterFallback_sound inv own ok
  | lockedLock free => exact lockedLock_sound inv own ok free
  | lockedLoad =>
      exact Sound.of_same inv ok (fun _ => Iff.rfl) ⟨ok.facts, rfl, rfl⟩ own
  | lockedCountRead => exact lockedCountRead_sound inv own ok
  | lockedCountLoad => exact lockedCountLoad_sound inv own ok
  | lockedRead => exact lockedRead_sound inv own ok
  | lockedKeep => exact lockedKeep_sound inv own ok
  | fallbackFinish | fallbackUnwind => exact fallbackEnd_sound inv own ok
  | fallbackBody inside => exact fallbackBody_sound inv own ok inside
  | leaveFallback => exact leaveFallback_sound inv own ok
  | lockedAccept =>
      exact Sound.of_same inv ok (fun _ => Iff.rfl) trivial own
  | lockedReject => exact lockedReject_sound inv own ok
  | waitStart | waitBacksOff | waitAgain =>
      exact waiting_sound inv own ok rfl trivial
  | waitPasses clear => exact waitPasses_sound inv own ok clear
  | waitLock free => exact waitLock_sound inv own ok free
  | waitCopy => exact waitCopy_sound inv own ok
  | waitDone => exact waitDone_sound inv own ok
  | waitEach => exact waitEach_sound inv own ok
  | waitRecord done => exact waitRecord_sound inv own ok done
  | waitFound => exact waitFound_sound inv own ok
  | waitSlot _ different => exact waitSlot_sound inv own ok different
  | waitNext => exact waitNext_sound inv own ok
  | returned => exact returned_sound inv own ok
  | exitSlot inside => exact exitSlot_sound inv own ok inside
  | exitRelease => exact exitRelease_sound inv ok

/-- What the other threads may rely on in a step of this one. -/
def Guarantee (thread : Tid) (memory memory' : Memory) : Prop :=
  ∃ depth gained lost,
    Advance ⟨thread, depth⟩ gained lost memory memory'

section Program

variable {thread : Tid} {memory memory' : Memory} {locals locals' : Thread}
variable {act : Act}

/-- A step of a thread is a step of user code or of its top frame. -/
theorem program_cases
    (performed :
      program thread memory locals act = some (memory', locals')) :
    (locals.atUserPoint = true ∧
        userStep thread memory locals act = some (memory', locals')) ∨
      ∃ frame rest tls' next, locals.stack = frame :: rest ∧
        frameStep memory ⟨thread, rest.length⟩ locals.tls frame act =
          some (memory', tls', next) ∧
        locals' = ⟨tls', next.toList ++ rest⟩ := by
  unfold program at performed
  split at performed
  case h_6 =>
      split at performed
      · cases performed
      · rename_i frame rest shape
        obtain ⟨⟨memory'', tls', next⟩, stepped, same⟩ :=
          Option.map_eq_some_iff.mp performed
        cases same
        exact Or.inr ⟨frame, rest, tls', next, shape, stepped, rfl⟩
  all_goals
      split at performed
      · rename_i userPoint
        exact Or.inl ⟨userPoint, performed⟩
      · cases performed

/-- A step of the top frame is a step of the program. -/
theorem step_of_frameStep
    {state : State} {frame : Frame} {rest : List Frame} {tls' : Tls}
    {next : Option Frame}
    (shape : (state.threads thread).stack = frame :: rest)
    (moved : frameStep state.memory ⟨thread, rest.length⟩
      (state.threads thread).tls frame .next = some (memory', tls', next)) :
    program.step state thread .next =
      some ⟨memory', Function.update state.threads thread
        ⟨tls', next.toList ++ rest⟩⟩ := by
  simp [Program.step, program, shape, moved]

/-- The frames below the top are suspended while the top one runs. -/
theorem ThreadInv.frameStep
    {frame : Frame} {rest : List Frame} {tls' : Tls} {next : Option Frame}
    (inv : MemInv memory) (ok : ThreadInv memory thread locals)
    (shape : locals.stack = frame :: rest)
    (sound : Sound memory ⟨thread, rest.length⟩ (memory', tls', next)) :
    ThreadInv memory' thread ⟨tls', next.toList ++ rest⟩ := by
  obtain ⟨gained, lost, advance⟩ := sound.advance
  have stack := ok.stack
  have suspended := ok.suspended
  rw [shape] at stack suspended
  have below : StackOk memory' thread rest :=
    stack.2.stable inv advance (Or.inr ⟨Nat.le_refl _, suspended⟩)
  constructor
  · cases next with
    | none => exact below
    | some frame' => exact ⟨sound.frame frame' rfl, below⟩
  · intro depth beyond holding
    have bound : rest.length ≤ depth := by
      cases next with
      | none => simpa using beyond
      | some frame' =>
          simp only [Option.toList_some, List.singleton_append,
            List.length_cons] at beyond
          omega
    by_cases same : depth = rest.length
    · subst same
      cases next with
      | none => exact sound.vacant rfl holding
      | some frame' =>
          exact absurd beyond (Nat.not_succ_le_self _)
    · have different : (⟨thread, depth⟩ : CallId) ≠
          ⟨thread, rest.length⟩ := by
        intro equal
        exact same (congrArg CallId.depth equal)
      rw [advance.transfer.held_of_ne different]
      refine ok.vacant depth ?_ holding
      rw [shape, List.length_cons]
      omega
  · intro other member
    cases next with
    | none => exact suspended other (List.mem_of_mem_tail member)
    | some frame' => exact suspended other member
  · exact sound.record

/-- At a user point every frame of the thread is suspended. -/
theorem all_isUser
    (ok : ThreadInv memory thread locals)
    (userPoint : locals.atUserPoint = true) :
    ∀ frame ∈ locals.stack, frame.isUser := by
  intro frame member
  have suspended := ok.suspended
  unfold Thread.atUserPoint at userPoint
  cases shape : locals.stack with
  | nil =>
      rw [shape] at member
      cases member
  | cons top rest =>
      rw [shape] at member suspended userPoint
      rcases List.mem_cons.mp member with same | below
      · rw [same]
        exact userPoint
      · exact suspended frame below

/-- A step of user code that calls nothing. -/
theorem ThreadInv.userStep
    (inv : MemInv memory) (ok : ThreadInv memory thread locals)
    (userPoint : locals.atUserPoint = true)
    (advance :
      Advance ⟨thread, locals.stack.length⟩ [] [] memory memory')
    (own : ∀ record, locals.tls.record = some record →
      OwnRecord memory' thread record) :
    ThreadInv memory' thread locals where
  stack := ok.stack.stable inv advance
    (Or.inr ⟨Nat.le_refl _, all_isUser ok userPoint⟩)
  vacant := by
    intro depth beyond holding held
    refine ok.vacant depth beyond holding ?_
    rw [advance.transfer] at held
    simpa using held
  suspended := ok.suspended
  record := own

/-- A step of user code that pushes a frame. -/
theorem ThreadInv.push
    {gained : List Holding} {frame : Frame}
    (inv : MemInv memory) (ok : ThreadInv memory thread locals)
    (userPoint : locals.atUserPoint = true)
    (advance :
      Advance ⟨thread, locals.stack.length⟩ gained [] memory memory')
    (holdings : ∀ holding, holding ∈ frame.holding ↔ holding ∈ gained)
    (facts : FrameFacts memory' ⟨thread, locals.stack.length⟩ frame)
    (own : ∀ record, locals.tls.record = some record →
      OwnRecord memory' thread record) :
    ThreadInv memory' thread
      { locals with stack := frame :: locals.stack } where
  stack := by
    refine ⟨⟨?_, facts⟩, ok.stack.stable inv advance
      (Or.inr ⟨Nat.le_refl _, all_isUser ok userPoint⟩)⟩
    intro holding
    rw [advance.transfer, holdings]
    have empty := ok.vacant locals.stack.length (Nat.le_refl _) holding
    simp [empty]
  vacant := by
    intro depth beyond holding
    simp only [List.length_cons] at beyond
    have different : (⟨thread, depth⟩ : CallId) ≠
        ⟨thread, locals.stack.length⟩ := by
      intro equal
      have same : depth = locals.stack.length :=
        congrArg CallId.depth equal
      omega
    rw [advance.transfer.held_of_ne different]
    exact ok.vacant depth (by omega) holding
  suspended := all_isUser ok userPoint
  record := own

private theorem enter_holding (cell : CellId) (call : Call) :
    (call.enter cell).holding = [.active cell] := by
  cases call <;> rfl

private theorem enter_facts (caller : CallId) (cell : CellId) (call : Call) :
    FrameFacts memory caller (call.enter cell) := by
  cases call <;> trivial

/-- A thread that runs no call announces nothing. -/
private theorem slot_none_of_idle
    {record : RecordId} (inv : MemInv memory)
    (ok : ThreadInv memory thread locals) (idle : locals.stack = [])
    (own : OwnRecord memory thread record) (index : Nat) :
    memory.domain.slot record index = none := by
  cases used : memory.domain.slot record index with
  | none => rfl
  | some announcement =>
      have owner := (inv.domain.announced record index announcement used).1
      rw [own.owned] at owner
      have isOwner : announcement.call =
          ⟨thread, announcement.call.depth⟩ := by
        rw [Option.some.inj owner]
      refine absurd ?_ (ok.vacant announcement.call.depth
        (by simp [idle]) (.pin ⟨record, index⟩))
      rw [Memory.Held, ← isOwner, used]
      rfl

theorem userStep_sound
    (inv : MemInv memory) (ok : ThreadInv memory thread locals)
    (userPoint : locals.atUserPoint = true)
    (performed : userStep thread memory locals act =
      some (memory', locals')) :
    MemInv memory' ∧ ThreadInv memory' thread locals' ∧
      ∃ gained lost, Advance ⟨thread, locals.stack.length⟩ gained lost
        memory memory' := by
  have kept : ∀ store record, locals.tls.record = some record →
      OwnRecord (memory.withStore store) thread record :=
    fun store record same => (ok.record record same).withStore store
  have refl := Advance.refl ⟨thread, locals.stack.length⟩ inv
  cases userStep_rule performed with
  | @newCell cell address unborn free =>
      have advance : Advance ⟨thread, locals.stack.length⟩ [] [] memory
          (memory.withStore (memory.store.newCell cell address)) :=
        advance_newCell inv free unborn
      exact ⟨advance.inv, ok.userStep inv userPoint advance (kept _),
        _, _, advance⟩
  | @dropCell cell alive unused =>
      have advance : Advance ⟨thread, locals.stack.length⟩ _ [] memory
          (memory.withStore (memory.store.dropCell cell
            ⟨thread, locals.stack.length⟩)) :=
        advance_dropCell inv alive unused
      refine ⟨advance.inv, ok.push inv userPoint advance ?_ ⟨trivial, ?_⟩
        (kept _), _, _, advance⟩
      · intro holding
        simp [Frame.holding, Collector.active, Collector.holding]
      · refine List.nodup_cons.mpr
          ⟨?_, (inv.store.cells cell).retired_nodup⟩
        intro member
        obtain ⟨version, known⟩ := inv.store.tracked_of_mem_retired member
        rw [(inv.store.cells cell).current_alive alive] at known
        cases known
  | @call cell call alive =>
      have fresh :=
        ok.vacant locals.stack.length (Nat.le_refl _) (.active cell)
      have advance := advance_beginCall inv alive fresh
      refine ⟨advance.inv, ok.push inv userPoint advance ?_
        (enter_facts _ cell call) (kept _), _, _, advance⟩
      intro holding
      rw [enter_holding]
  | @dropHandle handle address member =>
      have advance : Advance ⟨thread, locals.stack.length⟩ [] [] memory
          (memory.withStore (memory.store.dropHandle handle address)) :=
        advance_dropHandle inv member
      exact ⟨advance.inv, ok.userStep inv userPoint advance (kept _),
        _, _, advance⟩
  | exitUnclaimed =>
      exact ⟨inv, ⟨ok.stack, ok.vacant, ok.suspended, ok.record⟩,
        _, _, refl⟩
  | exitClaimed record idle _ isRecord =>
      have own := ok.record record isRecord
      have pushed : ThreadInv memory thread
          { locals with stack := .exiting record 0 :: locals.stack } :=
        ok.push inv userPoint refl (by simp [Frame.holding])
          ⟨own, slot_none_of_idle inv ok idle own⟩ ok.record
      rw [idle] at pushed
      exact ⟨inv, pushed, _, _, refl⟩

/-- One step of a thread restores the invariants and keeps its guarantee. -/
theorem program_sound
    (performed :
      program thread memory locals act = some (memory', locals'))
    (inv : MemInv memory) (ok : ThreadInv memory thread locals) :
    MemInv memory' ∧ ThreadInv memory' thread locals' ∧
      Guarantee thread memory memory' := by
  rcases program_cases performed with
    ⟨userPoint, stepped⟩ | ⟨frame, rest, tls', next, shape, stepped, rfl⟩
  · obtain ⟨inv', ok', advance⟩ :=
      userStep_sound inv ok userPoint stepped
    exact ⟨inv', ok', _, advance⟩
  · have top : FrameOk memory ⟨thread, rest.length⟩ frame := by
      have stack := ok.stack
      rw [shape] at stack
      exact stack.1
    have sound := frameStep_sound inv ok.record top stepped
    obtain ⟨gained, lost, advance⟩ := sound.advance
    exact ⟨advance.inv, ok.frameStep inv shape sound, _, _, _, advance⟩

end Program

/-- The memory invariant together with the invariant of every thread. -/
abbrev Invariant (state : State) : Prop :=
  Holds MemInv ThreadInv state

theorem invariant_initial : Invariant initial := by
  refine ⟨MemInv.initial, fun thread => ?_⟩
  refine ⟨trivial, ?_, by simp [initial], by simp [initial]⟩
  intro depth _ holding
  cases holding <;>
    simp [Memory.Held, initial, Store.initial, Domain.initial, Domain.slot,
      Store.owners, Store.place]

theorem invariant_step
    {state next : State} {thread : Tid} {act : Act}
    (stepped : program.step state thread act = some next)
    (holds : Invariant state) : Invariant next := by
  have sound : ∀ thread memory locals act memory' locals',
      program thread memory locals act = some (memory', locals') →
        MemInv memory → ThreadInv memory thread locals →
        MemInv memory' ∧ ThreadInv memory' thread locals' ∧
          Guarantee thread memory memory' :=
    fun _ _ _ _ _ _ performed inv ok => program_sound performed inv ok
  refine relyGuarantee_step sound ?_ stepped holds
  intro actor observer memory memory' locals different inv _ guarantee ok
  obtain ⟨depth, gained, lost, advance⟩ := guarantee
  exact ok.stable inv advance (Ne.symm different)

theorem invariant_reachable
    {state : State} (reachable : program.Reachable initial state) :
    Invariant state :=
  reachable_invariant invariant_initial
    (fun _ _ _ _ stepped holds => invariant_step stepped holds) reachable

end RegistryIo.Snapshot
