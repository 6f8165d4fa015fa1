import RegistryIo.Snapshot.Calls

/-!
# The thread-local variables

`FALLBACK_DEPTH` counts the fallback reads on the stack of a thread, and a
waiter remembers whether there was one.  `LOCAL` names the record in which all
announcements of the thread are made.
-/

namespace RegistryIo.Snapshot

open RegistryIo.Interleaving

namespace Frame

/-- A fallback read between its two updates of the counters. -/
def inFallback : Frame → Bool
  | .locked _ (.read _) _ => true
  | .fallbackReading .. => true
  | .leaveFallback _ => true
  | _ => false

/-- `caller_on_fallback` of a waiter. -/
def onFallback : Frame → Option Bool
  | .waiting _ _ step => step.onFallback
  | .returned _ (.waited onFallback _) => some onFallback
  | _ => none

/-- The slot in which the call announces a value. -/
def pinned : Frame → Option Pin
  | .validate _ _ _ pin => some pin
  | .republish _ _ _ pin => some pin
  | .reading _ _ _ pin _ => some pin
  | .keeping _ _ _ pin => some pin
  | .counted _ _ _ pin => some pin
  | _ => none

/-- The call is inside `acquire_record`. -/
def acquiring : Frame → Bool
  | .pinning _ _ _ .findSlot => false
  | .pinning .. => true
  | _ => false

/-- The call is inside `Drop for Local`. -/
def isExiting : Frame → Bool
  | .exiting .. => true
  | _ => false

end Frame

structure TlsOk (locals : Thread) : Prop where
  depth : locals.tls.fallbackDepth = locals.stack.countP Frame.inFallback
  flag : ∀ frame onFallback, locals.stack.head? = some frame →
    frame.onFallback = some onFallback →
      onFallback = decide (0 < locals.tls.fallbackDepth)
  pins : ∀ frame ∈ locals.stack, ∀ pin, frame.pinned = some pin →
    locals.tls.record = some pin.record
  acquiring : ∀ frame, locals.stack.head? = some frame →
    frame.acquiring = true → locals.tls.record = none
  exiting : ∀ frame, locals.stack.head? = some frame →
    frame.isExiting = true → locals.stack.tail = []

/-- A step from one frame of a call to the next. -/
structure TlsMove (tls : Tls) (frame : Frame) (tls' : Tls)
    (next : Frame) : Prop where
  depth : (frame.inFallback = true → 0 < tls.fallbackDepth) →
    tls'.fallbackDepth + frame.inFallback.toNat =
      tls.fallbackDepth + next.inFallback.toNat
  flag : (∀ onFallback, frame.onFallback = some onFallback →
      onFallback = decide (0 < tls.fallbackDepth)) →
    ∀ onFallback, next.onFallback = some onFallback →
      onFallback = decide (0 < tls'.fallbackDepth)
  record : tls'.record = tls.record ∨ frame.acquiring = true
  pins : (∀ pin, frame.pinned = some pin → tls.record = some pin.record) →
    ∀ pin, next.pinned = some pin → tls'.record = some pin.record
  acquiring : (frame.acquiring = true → tls.record = none) →
    next.acquiring = true → tls'.record = none
  exiting : next.isExiting = true → frame.isExiting = true

/-- How a step of a frame changes the thread-local variables. -/
def TlsStep (tls : Tls) (frame : Frame) (tls' : Tls) : Option Frame → Prop
  | some next => TlsMove tls frame tls' next
  | none =>
      frame.inFallback = false ∧
        tls'.fallbackDepth = tls.fallbackDepth ∧
        (tls'.record = tls.record ∨ frame.isExiting = true)

section Steps

variable {memory memory' : Memory} {call : CallId} {tls tls' : Tls}
variable {cell : CellId} {act : Act} {frame frame' : Frame}
variable {next : Option Frame}

/-- Nothing in the frame depends on the thread-local variables, apart from
fallback reads. -/
def Frame.plain (frame : Frame) : Bool :=
  frame.onFallback.isNone && frame.pinned.isNone && !frame.acquiring &&
    !frame.isExiting

private theorem Frame.plain_iff :
    frame.plain = true ↔ frame.onFallback = none ∧ frame.pinned = none ∧
      frame.acquiring = false ∧ frame.isExiting = false := by
  simp [Frame.plain, and_assoc]

/-- A step that changes at most the depth. -/
theorem TlsMove.change
    {depth : Nat}
    (change : (frame.inFallback = true → 0 < tls.fallbackDepth) →
      depth + frame.inFallback.toNat =
        tls.fallbackDepth + frame'.inFallback.toNat)
    (noFlag : frame'.onFallback = none)
    (samePin : frame'.pinned = none ∨ frame'.pinned = frame.pinned)
    (notAcquiring : frame'.acquiring = false)
    (sameExit : frame'.isExiting = true → frame.isExiting = true) :
    TlsMove tls frame { tls with fallbackDepth := depth } frame' where
  depth := change
  flag := by
    intro _ onFallback isFlag
    rw [noFlag] at isFlag
    cases isFlag
  record := Or.inl rfl
  pins := by
    intro known pin isPin
    rcases samePin with noPin | samePin
    · rw [noPin] at isPin
      cases isPin
    · exact known pin (samePin.symm.trans isPin)
  acquiring := by
    intro _ acquiring
    rw [notAcquiring] at acquiring
    cases acquiring
  exiting := sameExit

/-- The next frame does not depend on the thread-local variables. -/
theorem TlsMove.plain
    (same : frame'.inFallback = frame.inFallback)
    (plain : frame'.plain = true) : TlsMove tls frame tls frame' := by
  obtain ⟨noFlag, noPin, notAcquiring, notExiting⟩ :=
    Frame.plain_iff.mp plain
  refine .change (fun _ => by rw [same]) noFlag (Or.inl noPin)
    notAcquiring ?_
  simp [notExiting]

/-- The announcement stays in its slot. -/
theorem TlsMove.pinned
    (samePin : frame'.pinned = frame.pinned)
    (others : (frame'.inFallback, frame'.onFallback, frame'.acquiring,
      frame'.isExiting) = (frame.inFallback, none, false, false)) :
    TlsMove tls frame tls frame' := by
  simp only [Prod.mk.injEq] at others
  obtain ⟨same, noFlag, notAcquiring, notExiting⟩ := others
  refine .change (fun _ => by rw [same]) noFlag (Or.inr samePin)
    notAcquiring ?_
  simp [notExiting]

/-- A step inside `acquire_record`. -/
theorem TlsMove.acquires
    {reader : Reader} {address : Addr} {step step' : PinStep}
    (unclaimed : step = .findSlot → tls.record = none)
    (working : step ≠ .findSlot →
      (Frame.pinning cell reader address step).acquiring = true) :
    TlsMove tls (.pinning cell reader address step) tls
      (.pinning cell reader address step') where
  depth := fun _ => rfl
  flag := fun _ _ isFlag => by cases isFlag
  record := Or.inl rfl
  pins := fun _ _ isPin => by cases isPin
  acquiring := by
    intro known _
    by_cases start : step = .findSlot
    · exact unclaimed start
    · exact known (working start)
  exiting := fun exiting => by cases exiting

/-- `acquire_record` returns. -/
theorem TlsMove.acquired
    {reader : Reader} {address : Addr} {step : PinStep} {record : RecordId}
    (working : (Frame.pinning cell reader address step).acquiring = true) :
    TlsMove tls (.pinning cell reader address step)
      { tls with record := some record }
      (.pinning cell reader address .findSlot) where
  depth := fun _ => rfl
  flag := fun _ _ isFlag => by cases isFlag
  record := Or.inr working
  pins := fun _ _ isPin => by cases isPin
  acquiring := fun _ acquiring => by cases acquiring
  exiting := fun exiting => by cases exiting

/-- A free slot of the own record is taken. -/
theorem TlsMove.claims
    {reader : Reader} {address : Addr} {pin : Pin}
    (isRecord : tls.record = some pin.record) :
    TlsMove tls (.pinning cell reader address .findSlot) tls
      (.validate cell reader address pin) where
  depth := fun _ => rfl
  flag := fun _ _ isFlag => by cases isFlag
  record := Or.inl rfl
  pins := by
    intro _ other isPin
    cases isPin
    exact isRecord
  acquiring := fun _ acquiring => by cases acquiring
  exiting := fun exiting => by cases exiting

private theorem slowPath_tls
    {reader : Reader} {address : Addr} :
    TlsMove tls (.pinning cell reader address .findSlot) tls
      (slowPath cell reader) := by
  cases reader with
  | read notify => exact .plain rfl rfl
  | loadArcIf => exact .plain rfl rfl

theorem TlsMove.afterRelease
    {result : Option Addr} (outside : frame.inFallback = false) :
    TlsMove tls frame tls (afterRelease cell result) := by
  cases result with
  | none => exact .plain outside.symm rfl
  | some address => exact .plain outside.symm rfl

/-- A step inside `wait_for_retired_readers`, which may read the depth. -/
theorem TlsMove.waits
    {removed : List Nat} {step step' : WaitStep}
    (flag : step'.onFallback = step.onFallback ∨
      step'.onFallback = some (decide (0 < tls.fallbackDepth))) :
    TlsMove tls (.waiting cell removed step) tls
      (.waiting cell removed step') where
  depth := fun _ => rfl
  flag := by
    intro known onFallback isFlag
    rcases flag with kept | fresh
    · exact known onFallback (kept.symm.trans isFlag)
    · exact Option.some.inj (isFlag.symm.trans fresh)
  record := Or.inl rfl
  pins := fun _ _ isPin => by cases isPin
  acquiring := fun _ acquiring => by cases acquiring
  exiting := fun exiting => by cases exiting

/-- `wait_for_retired_readers` returns and reports the flag it read. -/
theorem TlsMove.waited
    {removed : List Nat} {step : WaitStep} {onFallback : Bool}
    (remembered : step.onFallback = some onFallback) :
    TlsMove tls (.waiting cell removed step) tls
      (.returned cell (.waited onFallback removed)) where
  depth := fun _ => rfl
  flag := by
    intro known other isFlag
    cases isFlag
    exact known onFallback remembered
  record := Or.inl rfl
  pins := fun _ _ isPin => by cases isPin
  acquiring := fun _ acquiring => by cases acquiring
  exiting := fun exiting => by cases exiting

theorem frameStep_tls
    (stepped : frameStep memory call tls frame act =
      some (memory', tls', next)) :
    TlsStep tls frame tls' next := by
  cases frameStep_rule stepped with
  | pinGone | pinFull => exact slowPath_tls
  | pinFirst _ unclaimed =>
      exact .acquires (fun _ => unclaimed) (fun other => absurd rfl other)
  | pinSlot record index _ isRecord => exact .claims isRecord
  | claimBusy | claimFree | claimSkip | claimAllocate | claimAdvance
  | publishLoad | publishLink | publishLost | publishSpurious =>
      exact .acquires (fun start => by cases start) (fun _ => rfl)
  | claimReturn | publish => exact .acquired rfl
  | validRead | validLoad | invalid | republish | readBody | keep =>
      exact .pinned rfl rfl
  | nothingRetired | tryLockBusy | dropReclaimed =>
      exact .afterRelease rfl
  | dropCell | returned => exact ⟨rfl, rfl, Or.inl rfl⟩
  | enterFallback =>
      exact .change (fun _ => rfl) rfl (Or.inl rfl) rfl
        (by simp [Frame.isExiting])
  | @lockedLock _ reader | @lockedLoad _ reader =>
      cases reader with
      | read => exact .plain rfl rfl
      | loadArcIf => exact .plain rfl rfl
  | leaveFallback =>
      exact .change (fun counted => Nat.sub_add_cancel (counted rfl)) rfl
        (Or.inl rfl) rfl (by simp [Frame.isExiting])
  | waitStart => exact .waits (Or.inr rfl)
  | waitPasses | waitBacksOff | waitLock | waitCopy | waitEach | waitRecord
  | waitFound | waitSlot | waitAgain | waitNext =>
      exact .waits (Or.inl rfl)
  | waitDone => exact .waited rfl
  | exitSlot =>
      exact .change (fun _ => rfl) rfl (Or.inl rfl) rfl (fun _ => rfl)
  | exitRelease => exact ⟨rfl, rfl, Or.inr rfl⟩
  | _ => exact .plain rfl rfl

end Steps

section Threads

variable {state next : State} {thread : Tid} {act : Act}
variable {tls tls' : Tls} {frame frame' : Frame} {stack rest : List Frame}

private theorem Frame.plain_of_isUser
    (isUser : frame.isUser) :
    frame.onFallback = none ∧ frame.acquiring = false ∧
      frame.isExiting = false := by
  cases frame with
  | reading cell address version pin body => exact ⟨rfl, rfl, rfl⟩
  | fallbackReading cell address version body => exact ⟨rfl, rfl, rfl⟩
  | dropping cell collector freed => exact ⟨rfl, rfl, rfl⟩
  | leaveFallback cell => exact ⟨rfl, rfl, rfl⟩
  | _ => cases isUser

theorem Pushed.plain
    (fresh : Pushed stack frame) :
    frame.inFallback = false ∧ frame.onFallback = none ∧
      frame.pinned = none ∧ frame.acquiring = false ∧
      (frame.isExiting = true → stack = []) := by
  rcases fresh with
    ⟨cell, operation, rfl⟩ | ⟨cell, freed, rfl⟩ | ⟨empty, record, rfl⟩
  · cases operation <;>
      exact ⟨rfl, rfl, rfl, rfl, fun exiting => by cases exiting⟩
  · exact ⟨rfl, rfl, rfl, rfl, fun exiting => by cases exiting⟩
  · exact ⟨rfl, rfl, rfl, rfl, fun _ => empty⟩

theorem TlsOk.push
    (ok : TlsOk ⟨tls, stack⟩) (fresh : Pushed stack frame) :
    TlsOk ⟨tls, frame :: stack⟩ := by
  obtain ⟨outside, noFlag, noPin, notAcquiring, exits⟩ := fresh.plain
  constructor
  · show tls.fallbackDepth = _
    rw [List.countP_cons, if_neg (by simp [outside])]
    exact ok.depth
  · intro top onFallback isTop isFlag
    cases isTop
    rw [noFlag] at isFlag
    cases isFlag
  · intro other member pin isPin
    rcases List.mem_cons.mp member with same | below
    · rw [same, noPin] at isPin
      cases isPin
    · exact ok.pins other below pin isPin
  · intro top isTop acquiring
    cases isTop
    rw [notAcquiring] at acquiring
    cases acquiring
  · intro top isTop exiting
    cases isTop
    exact exits exiting

theorem TlsOk.move
    (ok : TlsOk ⟨tls, frame :: rest⟩) (step : TlsMove tls frame tls' frame') :
    TlsOk ⟨tls', frame' :: rest⟩ := by
  have before : tls.fallbackDepth =
      rest.countP Frame.inFallback + frame.inFallback.toNat := by
    have counted := ok.depth
    rw [List.countP_cons] at counted
    cases inside : frame.inFallback <;> simpa [inside] using counted
  have acquiring : frame.acquiring = true → tls.record = none :=
    ok.acquiring frame rfl
  constructor
  · have change := step.depth (fun inside => by
      rw [before, inside]
      simp)
    show tls'.fallbackDepth = _
    rw [List.countP_cons]
    cases inside : frame'.inFallback <;> simp [inside] at change ⊢ <;> omega
  · intro top onFallback isTop isFlag
    cases isTop
    exact step.flag (fun flag isFlag => ok.flag frame flag rfl isFlag)
      onFallback isFlag
  · intro other member pin isPin
    rcases List.mem_cons.mp member with same | below
    · rw [same] at isPin
      exact step.pins (ok.pins frame List.mem_cons_self) pin isPin
    · have known := ok.pins other (List.mem_cons_of_mem _ below) pin isPin
      rcases step.record with same | claiming
      · exact same.trans known
      · exact absurd (known.symm.trans (acquiring claiming)) (by simp)
  · intro top isTop claiming
    cases isTop
    exact step.acquiring acquiring claiming
  · intro top isTop exiting
    cases isTop
    exact ok.exiting frame rfl (step.exiting exiting)

theorem TlsOk.pop
    (ok : TlsOk ⟨tls, frame :: rest⟩)
    (suspended : ∀ below ∈ rest, below.isUser)
    (outside : frame.inFallback = false)
    (depth : tls'.fallbackDepth = tls.fallbackDepth)
    (record : tls'.record = tls.record ∨ frame.isExiting = true) :
    TlsOk ⟨tls', rest⟩ := by
  have user : ∀ top, rest.head? = some top →
      top.onFallback = none ∧ top.acquiring = false ∧
        top.isExiting = false := by
    intro top isTop
    exact Frame.plain_of_isUser (suspended top (List.mem_of_mem_head? isTop))
  constructor
  · show tls'.fallbackDepth = _
    have counted := ok.depth
    rw [List.countP_cons, if_neg (by simp [outside])] at counted
    exact depth.trans counted
  · intro top onFallback isTop isFlag
    rw [(user top isTop).1] at isFlag
    cases isFlag
  · intro other member pin isPin
    rcases record with same | exiting
    · exact same.trans
        (ok.pins other (List.mem_cons_of_mem _ member) pin isPin)
    · have empty : rest = [] := ok.exiting frame rfl exiting
      rw [empty] at member
      cases member
  · intro top isTop acquiring
    rw [(user top isTop).2.1] at acquiring
    cases acquiring
  · intro top isTop exiting
    rw [(user top isTop).2.2] at exiting
    cases exiting

theorem TlsOk.of_same
    (ok : TlsOk ⟨tls, stack⟩)
    (depth : tls'.fallbackDepth = tls.fallbackDepth)
    (record : tls'.record = tls.record) : TlsOk ⟨tls', stack⟩ where
  depth := depth.trans ok.depth
  flag := by
    intro frame onFallback isTop isFlag
    show onFallback = decide (0 < tls'.fallbackDepth)
    rw [depth]
    exact ok.flag frame onFallback isTop isFlag
  pins := fun frame member pin isPin =>
    record.trans (ok.pins frame member pin isPin)
  acquiring := fun frame isTop acquiring =>
    record.trans (ok.acquiring frame isTop acquiring)
  exiting := ok.exiting

private theorem tlsOk_program
    {memory memory' : Memory} {locals locals' : Thread}
    (performed :
      program thread memory locals act = some (memory', locals'))
    (suspended : ∀ frame ∈ locals.stack.tail, frame.isUser)
    (ok : TlsOk locals) : TlsOk locals' := by
  rcases program_cases performed with
    ⟨_, user⟩ | ⟨frame, rest, tls', result, shape, moved, rfl⟩
  · obtain ⟨depth, record, same | ⟨frame, grown, fresh⟩⟩ :=
      userStep_stack user
    · have kept : TlsOk ⟨locals'.tls, locals.stack⟩ :=
        ok.of_same depth record
      rw [← same] at kept
      exact kept
    · have kept : TlsOk ⟨locals'.tls, locals.stack⟩ :=
        ok.of_same depth record
      have pushed := kept.push fresh
      rw [← grown] at pushed
      exact pushed
  · obtain ⟨tls, stack⟩ := locals
    subst shape
    have step := frameStep_tls moved
    cases result with
    | some frame' => exact ok.move step
    | none =>
        obtain ⟨outside, depth, record⟩ := step
        exact ok.pop suspended outside depth record

/-- The thread-local variables are exact in every reachable state. -/
theorem tlsOk_reachable
    (reachable : program.Reachable initial state) (thread : Tid) :
    TlsOk (state.threads thread) := by
  have both : Invariant state ∧ ∀ thread, TlsOk (state.threads thread) := by
    refine reachable_invariant
      (P := fun state =>
        Invariant state ∧ ∀ thread, TlsOk (state.threads thread))
      ⟨invariant_initial, ?_⟩ ?_ reachable
    · intro thread
      constructor <;> simp [initial]
    · intro state thread act next stepped holds
      refine ⟨invariant_step stepped holds.1, fun other => ?_⟩
      obtain ⟨memory', locals', performed, rfl⟩ := step_eq_some stepped
      by_cases same : other = thread
      · subst same
        show TlsOk (Function.update state.threads other locals' other)
        rw [Function.update_self]
        exact tlsOk_program performed (holds.1.2 other).suspended
          (holds.2 other)
      · show TlsOk (Function.update state.threads thread locals' other)
        rw [Function.update_of_ne same]
        exact holds.2 other
  exact both.2 thread

theorem Frame.inFallback_of_holding
    {cell : CellId} (member : .fallback cell ∈ frame.holding) :
    frame.inFallback = true := by
  cases frame with
  | locked other reader step =>
      cases reader with
      | read notify => rfl
      | loadArcIf =>
          cases step <;>
            simp [Frame.holding, Reader.holding, LockedStep.holding,
              Reader.reference] at member
  | fallbackReading other address version body => rfl
  | leaveFallback other => rfl
  | collect other collector step =>
      cases collector <;> cases step <;>
        simp [Frame.holding, Collector.active, Collector.holding,
          CollectStep.holding] at member
  | dropping other collector freed =>
      cases collector <;>
        simp [Frame.holding, Collector.active, Collector.holding] at member
  | lockWriter other write wait =>
      cases write <;> simp [Frame.holding, Write.holding] at member
  | compute other write wait =>
      cases write <;> simp [Frame.holding, Write.holding] at member
  | waiting other removed step =>
      cases step <;> simp [Frame.holding, WaitStep.holding] at member
  | _ => simp [Frame.holding] at member

theorem Frame.pinned_of_holding
    {pin : Pin} (member : .pin pin ∈ frame.holding) :
    frame.pinned = some pin := by
  cases frame with
  | validate other reader address own =>
      simpa [Frame.holding, Frame.pinned, eq_comm] using member
  | republish other reader address own =>
      simpa [Frame.holding, Frame.pinned, eq_comm] using member
  | reading other address version own body =>
      simpa [Frame.holding, Frame.pinned, eq_comm] using member
  | keeping other address version own =>
      simpa [Frame.holding, Frame.pinned, eq_comm] using member
  | counted other address version own =>
      simpa [Frame.holding, Frame.pinned, eq_comm] using member
  | locked other reader step =>
      cases reader <;> cases step <;>
        simp [Frame.holding, Reader.holding, LockedStep.holding,
          Reader.reference] at member
  | collect other collector step =>
      cases collector <;> cases step <;>
        simp [Frame.holding, Collector.active, Collector.holding,
          CollectStep.holding] at member
  | dropping other collector freed =>
      cases collector <;>
        simp [Frame.holding, Collector.active, Collector.holding] at member
  | lockWriter other write wait =>
      cases write <;> simp [Frame.holding, Write.holding] at member
  | compute other write wait =>
      cases write <;> simp [Frame.holding, Write.holding] at member
  | waiting other removed step =>
      cases step <;> simp [Frame.holding, WaitStep.holding] at member
  | _ => simp [Frame.holding] at member

end Threads

end RegistryIo.Snapshot
