import RegistryIo.Snapshot.Reclamation
import RegistryIo.Snapshot.RecordList
import RegistryIo.Snapshot.Custody
import RegistryIo.Snapshot.Waiting

/-!
# Calls that run alone

A call is settled when it has returned, when its closure runs, or when it
waits for other readers.  Until then every operation of the call, whatever the
allocator and the predicates choose, leaves less to do, and some operation is
possible unless another call holds the writer lock.  Only an exchange that
fails spuriously can be repeated forever.

The holder of a writer lock is never blocked, so it can always release the
lock; together this shows that no reachable state is a deadlock.
-/

namespace RegistryIo.Snapshot

open RegistryIo.Interleaving

/-- The call has returned, runs its closure, or waits for other readers. -/
def settled : Option Frame → Bool
  | none => true
  | some (.reading ..) => true
  | some (.fallbackReading ..) => true
  | some (.waiting ..) => true
  | _ => false

section Work

/-- A traversal of the slots of so many records. -/
def sweepWork (records : Nat) : Nat := (SLOTS + 1) * records + 2

/-- From `collect_unprotected` to the return of the call. -/
def reclaimWork (records retired : Nat) : Nat :=
  sweepWork records + 2 * retired + 12

/-- The handle of a load is dropped in a step of its own. -/
@[simp]
def Collector.work : Collector → Nat
  | .discard (some _) => 1
  | _ => 0

variable (memory : Memory)

def Memory.records : Nat := memory.domain.published.length

def Memory.reclaimWork (cell : CellId) : Nat :=
  Snapshot.reclaimWork memory.records
    (memory.store.cells cell).retired.length

/-- The same after one more record was published. -/
def Memory.acquireWork (cell : CellId) : Nat :=
  Snapshot.reclaimWork (memory.records + 1)
    (memory.store.cells cell).retired.length + 9

/-- `hazard::pin` with or without a record. -/
def Memory.pinWork (tls : Tls) (cell : CellId) : Nat :=
  match tls.record with
  | some _ => memory.reclaimWork cell + 8
  | none => memory.acquireWork cell + 2 * memory.records + 5

/-- A pointer that is not current any more costs another round. -/
def Memory.staleWork (cell : CellId) (address : Addr) : Nat :=
  if (memory.store.cells cell).current = address then 0 else 2

@[simp]
def CollectStep.work (cell : CellId) : CollectStep → Nat
  | .start => memory.reclaimWork cell
  | .scan cursor index _ =>
      scanWork memory.domain.published cursor index +
        2 * (memory.store.cells cell).retired.length + 10
  | .storeLen freed => 2 * freed.length + 9
  | .unlock freed => 2 * freed.length + 8

@[simp]
def LockedStep.work : LockedStep → Nat
  | .lock => 12
  | .load => 11
  | .increment _ _ => 10
  | .unlock _ _ => 9

/-- At most so many operations are left of a call that runs alone. -/
@[simp]
def Frame.work (tls : Tls) : Frame → Nat
  | .enter cell _ => memory.pinWork tls cell + 1
  | .pinning cell _ _ .findSlot => memory.pinWork tls cell
  | .pinning cell reader address step =>
      memory.acquireWork cell +
        (Frame.pinning cell reader address step).recordWork memory.domain
  | .validate cell _ address _ =>
      memory.reclaimWork cell + 5 + memory.staleWork cell address
  | .republish cell _ address _ =>
      memory.reclaimWork cell + 6 + memory.staleWork cell address
  | .keeping cell _ _ _ => memory.reclaimWork cell + 4
  | .counted cell _ _ _ => memory.reclaimWork cell + 3
  | .checkRetired cell _ => memory.reclaimWork cell + 2
  | .tryLock cell _ => memory.reclaimWork cell + 1
  | .collect cell collector step => step.work memory cell + collector.work
  | .dropping _ collector freed => 2 * freed.length + 6 + collector.work
  | .handOver _ _ => 3
  | .draw cell _ => memory.reclaimWork cell + 7
  | .lockWriter cell _ _ => memory.reclaimWork cell + 6
  | .compute cell _ _ => memory.reclaimWork cell + 5
  | .installing cell _ _ _ => memory.reclaimWork cell + 4
  | .pushing cell _ _ _ => memory.reclaimWork cell + 3
  | .unlockUnchanged _ => 3
  | .enterFallback _ _ => 13
  | .locked _ _ step => step.work
  | .leaveFallback _ => 3
  | .lockedKeep _ _ _ => 8
  | .returned _ _ => 1
  | .exiting _ index => SLOTS - index + 1
  | _ => 0

end Work

section Decreases

variable {memory memory' : Memory} {call : CallId} {tls tls' : Tls}
variable {frame : Frame} {act : Act} {next : Option Frame}
variable {cell : CellId}

/-- A change of a cell that leaves its retired list alone. -/
private theorem reclaimWork_setCell
    {snap : SnapCell}
    (same : snap.retired = (memory.store.cells cell).retired) :
    (memory.withStore (memory.store.setCell cell snap)).reclaimWork cell =
      memory.reclaimWork cell := by
  simp [Memory.reclaimWork, Memory.records, Memory.withStore, Store.setCell,
    same]

private theorem lt_reclaimWork : 13 < memory.reclaimWork cell := by
  simp only [Memory.reclaimWork, reclaimWork, sweepWork]
  omega

private theorem lt_pinWork : 13 < memory.pinWork tls cell := by
  unfold Memory.pinWork
  split
  · have large : 13 < memory.reclaimWork cell := lt_reclaimWork
    omega
  · simp only [Memory.acquireWork, reclaimWork, sweepWork]
    omega

private theorem slowPath_work (reader : Reader) :
    (slowPath cell reader).work memory tls < memory.pinWork tls cell := by
  refine Nat.lt_of_le_of_lt ?_ lt_pinWork
  cases reader <;> simp [slowPath]

private theorem afterRelease_work (result : Option Addr) :
    (afterRelease cell result).work memory tls ≤ 3 := by
  cases result <;> simp [afterRelease]

private theorem collectUnprotected_length (announced retired : List Addr) :
    (Store.collectUnprotected announced retired).2.length ≤
      retired.length := by
  have perm := (swapPartition_perm
    (fun address => decide (address ∈ announced)) retired).length_eq
  rw [List.length_append] at perm
  unfold Store.collectUnprotected
  omega

private theorem scanWork_le (inv : MemInv memory) (index : Nat) :
    scanWork memory.domain.published memory.domain.head index <
      sweepWork memory.records := by
  rw [inv.domain.linked.start_eq]
  have length := remaining_head memory.domain.published
  cases first : memory.domain.published.head? with
  | none =>
      simp only [scanWork, sweepWork]
      omega
  | some record =>
      rw [first] at length
      have positive : 0 < memory.records := by
        rw [Memory.records, ← length]
        simp [remaining]
      simp only [scanWork, sweepWork, length, SLOTS, Memory.records]
        at positive ⊢
      omega

/-- The call is settled after the step, or less is left to do. -/
def Lightens (memory : Memory) (tls : Tls) (frame : Frame)
    (memory' : Memory) (tls' : Tls) (next : Option Frame) : Prop :=
  settled next = true ∨
    ∃ after, next = some after ∧
      after.work memory' tls' < frame.work memory tls

/-- `hazard::pin`: a slot of the own record, or a record to claim. -/
private theorem pinning_work
    {reader : Reader} {address : Addr} {step : PinStep}
    (inv : MemInv memory)
    (ok : FrameOk memory call (.pinning cell reader address step))
    (willing : act ≠ .spurious)
    (stepped : frameStep memory call tls (.pinning cell reader address step)
      act = some (memory', tls', next)) :
    Lightens memory tls (.pinning cell reader address step) memory' tls'
      next := by
  have facts := ok.facts
  cases frameStep_rule stepped with
  | publishSpurious => exact absurd rfl willing
  | pinGone | pinFull => exact Or.inr ⟨_, rfl, slowPath_work reader⟩
  | pinFirst present unclaimed =>
      refine Or.inr ⟨_, rfl, ?_⟩
      have length := remaining_head memory.domain.published
      rw [← inv.domain.linked.start_eq] at length
      simp only [Frame.work, Frame.recordWork, Memory.pinWork, unclaimed,
        length, Memory.records]
      omega
  | pinSlot record index present isRecord free =>
      refine Or.inr ⟨_, rfl, ?_⟩
      show memory.reclaimWork cell + 5 + memory.staleWork cell address < _
      simp only [Frame.work, Memory.pinWork, isRecord, Memory.staleWork]
      split <;> omega
  | @claimBusy _ _ _ record | @claimSkip _ _ _ record =>
      have fewer := inv.domain.remaining_next (facts.1 record rfl)
      refine Or.inr ⟨_, rfl, ?_⟩
      simp only [Frame.work, Frame.recordWork]
      omega
  | @claimFree _ _ _ record free =>
      have fewer := inv.domain.remaining_next (facts.1 record rfl)
      refine Or.inr ⟨_, rfl, ?_⟩
      show memory.acquireWork cell +
        (2 * remaining memory.domain.published (some record) + 3) < _
      simp only [Frame.work, Frame.recordWork]
      omega
  | claimReturn =>
      refine Or.inr ⟨_, rfl, ?_⟩
      simp only [Frame.work, Frame.recordWork, Memory.pinWork,
        Memory.acquireWork, Memory.reclaimWork, reclaimWork, sweepWork,
        SLOTS]
      omega
  | claimAllocate =>
      refine Or.inr ⟨_, rfl, ?_⟩
      show memory.acquireWork cell + 3 < _
      simp only [Frame.work, Frame.recordWork]
      omega
  | @claimAdvance _ _ _ record =>
      have fewer := inv.domain.remaining_next facts.1
      refine Or.inr ⟨_, rfl, ?_⟩
      simp only [Frame.work, Frame.recordWork]
      omega
  | publishLoad =>
      refine Or.inr ⟨_, rfl, ?_⟩
      simp [Frame.recordWork]
  | @publishLink _ _ _ record head =>
      refine Or.inr ⟨_, rfl, ?_⟩
      show memory.acquireWork cell +
        (if memory.domain.head = head then 1 else 3) < _
      simp only [Frame.work, Frame.recordWork]
      split <;> omega
  | publish same =>
      refine Or.inr ⟨_, rfl, ?_⟩
      show Snapshot.reclaimWork (memory.records + 1)
        (memory.store.cells cell).retired.length + 8 < _
      simp only [Frame.work, Memory.acquireWork]
      omega
  | publishLost moved =>
      refine Or.inr ⟨_, rfl, ?_⟩
      simp [Frame.recordWork, moved]

/-- The rounds of `protect`; a round is repeated only for a new value. -/
private theorem validate_work
    {reader : Reader} {address : Addr} {pin : Pin}
    (stepped : frameStep memory call tls (.validate cell reader address pin)
      act = some (memory', tls', next)) :
    Lightens memory tls (.validate cell reader address pin) memory' tls'
      next := by
  cases frameStep_rule stepped with
  | validRead => exact Or.inl rfl
  | validLoad current =>
      refine Or.inr ⟨_, rfl, ?_⟩
      show memory.reclaimWork cell + 4 < _
      simp only [Frame.work]
      omega
  | invalid replaced =>
      refine Or.inr ⟨_, rfl, ?_⟩
      simp [Memory.staleWork, replaced]

/-- `collect_unprotected`. -/
private theorem collect_work
    {collector : Collector} {step : CollectStep}
    (inv : MemInv memory)
    (ok : FrameOk memory call (.collect cell collector step))
    (stepped : frameStep memory call tls (.collect cell collector step)
      act = some (memory', tls', next)) :
    Lightens memory tls (.collect cell collector step) memory' tls'
      next := by
  have facts := ok.facts
  cases frameStep_rule stepped with
  | collectNothing =>
      refine Or.inr ⟨_, rfl, ?_⟩
      have large : 13 < memory.reclaimWork cell := lt_reclaimWork
      simp only [Frame.work, CollectStep.work, List.length_nil]
      omega
  | collectStart =>
      refine Or.inr ⟨_, rfl, ?_⟩
      have short := scanWork_le inv 0
      simp only [Frame.work, CollectStep.work, Memory.reclaimWork,
        reclaimWork]
      omega
  | @collectSlot _ _ record index announced inside =>
      refine Or.inr ⟨_, rfl, ?_⟩
      have fewer : scanWork memory.domain.published (some record)
          (index + 1) < scanWork memory.domain.published (some record)
            index := scanWork_slot inside (Nat.lt_succ_self index)
      simp only [Frame.work, CollectStep.work]
      omega
  | @collectRecord _ _ record index announced beyond =>
      refine Or.inr ⟨_, rfl, ?_⟩
      have fewer : scanWork memory.domain.published
          (memory.domain.records record).next 0 <
            scanWork memory.domain.published (some record) index :=
        scanWork_next inv.domain (facts.2.cursor_ok record rfl)
      simp only [Frame.work, CollectStep.work]
      omega
  | @collectEnd _ _ index announced =>
      refine Or.inr ⟨_, rfl, ?_⟩
      have fewer := collectUnprotected_length announced
        (memory.store.cells cell).retired
      simp only [Frame.work, CollectStep.work, scanWork]
      omega
  | collectLen | collectUnlock =>
      refine Or.inr ⟨_, rfl, ?_⟩
      simp only [Frame.work, CollectStep.work]
      omega

/-- Values are dropped one by one, also when a destructor panics. -/
private theorem dropping_work
    {collector : Collector} {freed : List Addr}
    (stepped : frameStep memory call tls (.dropping cell collector freed)
      act = some (memory', tls', next)) :
    Lightens memory tls (.dropping cell collector freed) memory' tls'
      next := by
  cases frameStep_rule stepped with
  | dropValue =>
      refine Or.inr ⟨_, rfl, ?_⟩
      simp only [Frame.work, List.length_cons]
      omega
  | dropPanics =>
      refine Or.inr ⟨_, rfl, ?_⟩
      have light : collector.unwound.work ≤ 1 := by
        cases collector with
        | reclaim result | discard result =>
            cases result <;> simp [Collector.unwound]
        | _ => simp [Collector.unwound]
      simp only [Frame.work, List.length_cons]
      omega
  | dropReclaimed =>
      refine Or.inr
        ⟨_, rfl, Nat.lt_of_le_of_lt (afterRelease_work _) ?_⟩
      simp only [Frame.work]
      omega
  | dropWaits | dropCell => exact Or.inl rfl
  | dropWrote | dropDone | dropHandle =>
      refine Or.inr ⟨_, rfl, ?_⟩
      simp

/-- `update` stores the new pointer and retires the old one. -/
private theorem install_work
    {wait : Bool} {effect : Effect} {new : Addr}
    (stepped : frameStep memory call tls (.installing cell wait effect new)
      act = some (memory', tls', next)) :
    Lightens memory tls (.installing cell wait effect new) memory' tls'
      next := by
  cases frameStep_rule stepped
  refine Or.inr ⟨_, rfl, ?_⟩
  have same : (memory.withStore
      (memory.store.install cell new effect call)).reclaimWork cell =
        memory.reclaimWork cell := by
    simp [Memory.reclaimWork, Memory.records, Memory.withStore,
      Store.install, Store.setCell, SnapCell.installed]
  simp only [Frame.work, same]
  omega

private theorem retire_work
    {wait : Bool} {effect : Effect} {raw : Addr}
    (stepped : frameStep memory call tls (.pushing cell wait effect raw)
      act = some (memory', tls', next)) :
    Lightens memory tls (.pushing cell wait effect raw) memory' tls'
      next := by
  cases frameStep_rule stepped
  refine Or.inr ⟨_, rfl, ?_⟩
  simp only [Frame.work, CollectStep.work, Collector.work,
    Memory.reclaimWork, Memory.records, Memory.withStore, Store.retire,
    Store.setCell, Function.update_self, List.length_append,
    List.length_singleton, reclaimWork]
  omega

/-- The predicate of a load is asked. -/
private theorem keeping_work
    {address : Addr} {version : Nat} {pin : Pin}
    (stepped : frameStep memory call tls (.keeping cell address version pin)
      act = some (memory', tls', next)) :
    Lightens memory tls (.keeping cell address version pin) memory' tls'
      next := by
  have same : (memory.withStore
      (memory.store.addOwner address (.load call))).reclaimWork cell =
        memory.reclaimWork cell := by
    simp only [Memory.reclaimWork, Memory.records, Memory.withStore]
    rw [Store.cells_addOwner]
  cases frameStep_rule stepped with
  | keep =>
      refine Or.inr ⟨_, rfl, ?_⟩
      simp only [Frame.work, same]
      omega
  | reject =>
      refine Or.inr ⟨_, rfl, ?_⟩
      show memory.reclaimWork cell + 2 < _
      simp only [Frame.work]
      omega

/-- `try_reclaim`. -/
private theorem tryLock_work
    {result : Option Addr}
    (stepped : frameStep memory call tls (.tryLock cell result) act =
      some (memory', tls', next)) :
    Lightens memory tls (.tryLock cell result) memory' tls' next := by
  have large : 13 < memory.reclaimWork cell := lt_reclaimWork
  cases frameStep_rule stepped with
  | tryLockBusy =>
      refine Or.inr
        ⟨_, rfl, Nat.lt_of_le_of_lt (afterRelease_work result) ?_⟩
      simp only [Frame.work]
      omega
  | tryLockTaken =>
      refine Or.inr ⟨_, rfl, ?_⟩
      simp only [Frame.work, CollectStep.work, Collector.work,
        Store.lock, reclaimWork_setCell]
      omega

private theorem frameStep_work
    (inv : MemInv memory) (ok : FrameOk memory call frame)
    (unsettled : settled (some frame) = false) (willing : act ≠ .spurious)
    (stepped : frameStep memory call tls frame act =
      some (memory', tls', next)) :
    Lightens memory tls frame memory' tls' next := by
  cases frame with
  | pinning => exact pinning_work inv ok willing stepped
  | validate => exact validate_work stepped
  | keeping => exact keeping_work stepped
  | tryLock => exact tryLock_work stepped
  | collect => exact collect_work inv ok stepped
  | dropping => exact dropping_work stepped
  | installing => exact install_work stepped
  | pushing => exact retire_work stepped
  | reading | fallbackReading | waiting => cases unsettled
  | enter =>
      cases frameStep_rule stepped
      exact Or.inr ⟨_, rfl, Nat.lt_succ_self _⟩
  | republish cell reader address pin =>
      cases frameStep_rule stepped
      refine Or.inr ⟨_, rfl, ?_⟩
      show memory.reclaimWork cell + 5 + memory.staleWork cell address < _
      simp only [Frame.work]
      omega
  | counted cell address version pin =>
      cases frameStep_rule stepped
      refine Or.inr ⟨_, rfl, ?_⟩
      show memory.reclaimWork cell + 2 < _
      simp only [Frame.work]
      omega
  | checkRetired cell result =>
      cases frameStep_rule stepped with
      | nothingRetired =>
          have large : 13 < memory.reclaimWork cell := lt_reclaimWork
          refine Or.inr
            ⟨_, rfl, Nat.lt_of_le_of_lt (afterRelease_work result) ?_⟩
          simp only [Frame.work]
          omega
      | someRetired =>
          refine Or.inr ⟨_, rfl, ?_⟩
          simp only [Frame.work]
          omega
  | draw | lockWriter =>
      cases frameStep_rule stepped
      refine Or.inr ⟨_, rfl, ?_⟩
      simp only [Frame.work, Store.nextId, Store.lock, reclaimWork_setCell]
      omega
  | compute cell write wait =>
      cases frameStep_rule stepped with
      | computeNone =>
          refine Or.inr ⟨_, rfl, ?_⟩
          simp only [Frame.work]
          omega
      | computeSome =>
          refine Or.inr ⟨_, rfl, ?_⟩
          show memory.reclaimWork cell + 4 < _
          simp only [Frame.work]
          omega
  | locked cell reader step =>
      cases frameStep_rule stepped with
      | lockedRead => exact Or.inl rfl
      | _ =>
          refine Or.inr ⟨_, rfl, ?_⟩
          simp
  | handOver | unlockUnchanged | enterFallback | leaveFallback
  | lockedKeep =>
      cases frameStep_rule stepped <;>
        exact Or.inr ⟨_, rfl, by simp⟩
  | returned =>
      cases frameStep_rule stepped
      exact Or.inl rfl
  | exiting =>
      cases frameStep_rule stepped with
      | exitRelease => exact Or.inl rfl
      | exitSlot inside =>
          refine Or.inr ⟨_, rfl, ?_⟩
          simp only [Frame.work]
          omega

end Decreases

/-! ### Some operation is possible -/

section Enabled

variable {memory : Memory} {call : CallId} {tls : Tls} {frame : Frame}

/-- Versions count the allocations, so an address is free. -/
private theorem StoreInv.exists_free
    {store : Store} (inv : StoreInv store) :
    ∃ address, store.heap address = none := by
  by_contra everywhere
  have allocated : ∀ address, ∃ inner, store.heap address = some inner := by
    intro address
    rw [not_exists] at everywhere
    exact Option.ne_none_iff_exists'.mp (everywhere address)
  choose inner found using allocated
  have bounded : ∀ address ∈ Finset.range (store.versions + 1),
      (inner address).version ∈ Finset.range store.versions := by
    intro address _
    exact Finset.mem_range.mpr
      (inv.arcs address (inner address) (found address)).version_lt
  obtain ⟨first, _, second, _, different, same⟩ :=
    Finset.exists_ne_map_eq_of_card_lt_of_maps_to (by simp) bounded
  exact different (inv.version_inj first second _ _ (found first)
    (found second) same)

/-- The cell whose writer lock the next operation blocks on. -/
def Frame.locks : Frame → Option CellId
  | .lockWriter cell _ _ => some cell
  | .locked cell _ .lock => some cell
  | _ => none

private theorem frameStep_enabled
    (call : CallId) (tls : Tls)
    (inv : MemInv memory) (unsettled : settled (some frame) = false)
    (free : ∀ cell, frame.locks = some cell →
      (memory.store.cells cell).writer = none) :
    ∃ act, act ≠ .spurious ∧
      (frameStep memory call tls frame act).isSome = true := by
  cases frame with
  | pinning cell reader address step =>
      refine ⟨.next, by simp, ?_⟩
      cases step with
      | findSlot =>
          simp only [frameStep, pinStep]
          split
          · rfl
          · split
            · rfl
            · split <;> rfl
      | tryClaim cursor reused =>
          cases cursor with
          | none => cases reused <;> rfl
          | some record =>
              cases reused with
              | none =>
                  simp only [frameStep, pinStep]
                  split <;> rfl
              | some reused => rfl
      | exchangeHead record head =>
          simp only [frameStep, pinStep]
          split <;> rfl
      | _ => rfl
  | validate cell reader address pin =>
      refine ⟨.next, by simp, ?_⟩
      simp only [frameStep, validateStep]
      split
      · cases reader <;> rfl
      · rfl
  | keeping | lockedKeep => exact ⟨.keep true, by simp, rfl⟩
  | checkRetired | tryLock | exiting =>
      refine ⟨.next, by simp, ?_⟩
      simp only [frameStep]
      split <;> rfl
  | collect cell collector step =>
      refine ⟨.next, by simp, ?_⟩
      cases step with
      | start =>
          simp only [frameStep, collectStep]
          split <;> rfl
      | scan cursor index announced =>
          cases cursor with
          | none => rfl
          | some record =>
              simp only [frameStep, collectStep]
              split <;> rfl
      | _ => rfl
  | dropping cell collector freed =>
      refine ⟨.next, by simp, ?_⟩
      cases freed with
      | cons address freed => rfl
      | nil =>
          cases collector with
          | update wait effect => cases wait <;> rfl
          | discard result => cases result <;> rfl
          | _ => rfl
  | lockWriter cell write wait =>
      refine ⟨.next, by simp, ?_⟩
      simp [frameStep, free cell rfl]
  | compute cell write wait =>
      obtain ⟨address, isFree⟩ := inv.store.exists_free
      cases computed : write.apply
          (memory.store.deref (memory.store.cells cell).current) with
      | none =>
          refine ⟨.next, by simp, ?_⟩
          simp [frameStep, computeStep, computed]
      | some value =>
          refine ⟨.alloc address, by simp, ?_⟩
          simp [frameStep, computeStep, computed, isFree]
  | locked cell reader step =>
      refine ⟨.next, by simp, ?_⟩
      cases step with
      | lock => simp [frameStep, lockedStep, free cell rfl]
      | unlock address version => cases reader <;> rfl
      | _ => rfl
  | reading | fallbackReading | waiting => cases unsettled
  | _ => exact ⟨.next, by simp, rfl⟩

/-- Something is left to do until the call is settled. -/
private theorem work_pos
    (memory : Memory) (tls : Tls)
    (unsettled : settled (some frame) = false) :
    0 < frame.work memory tls := by
  cases frame with
  | pinning cell reader address step =>
      cases step with
      | findSlot => exact Nat.zero_lt_of_lt lt_pinWork
      | _ =>
          simp only [Frame.work, Memory.acquireWork]
          omega
  | collect cell collector step =>
      have large : 13 < memory.reclaimWork cell := lt_reclaimWork
      cases step <;> simp only [Frame.work, CollectStep.work] <;> omega
  | locked cell reader step =>
      cases step <;> simp
  | reading | fallbackReading | waiting => cases unsettled
  | _ =>
      simp only [Frame.work]
      omega

private theorem work_settled (ended : settled (some frame) = true) :
    frame.work memory tls = 0 := by
  cases frame <;> first | rfl | cases ended

end Enabled

/-! ### Runs of one thread -/

section Solo

variable {state : State} {thread : Tid} {frame : Frame}
variable {rest : List Frame}

private theorem step_of_operation
    {memory' : Memory} {tls' : Tls} {act : Act} {next : Option Frame}
    (shape : (state.threads thread).stack = frame :: rest)
    (moved : frameStep state.memory ⟨thread, rest.length⟩
      (state.threads thread).tls frame act = some (memory', tls', next)) :
    program.step state thread act =
      some ⟨memory', Function.update state.threads thread
        ⟨tls', next.toList ++ rest⟩⟩ := by
  have operation := frameStep_not_user moved
  cases act with
  | newCell | dropCell | call | dropHandle | exitThread => cases operation
  | _ => simp [Program.step, program, shape, moved]

/-- An operation of a call on top of its stack that is not settled. -/
def ownOperation (call : CallId) (state : State) (thread : Tid) (act : Act) :
    Bool :=
  decide (thread = call.thread) && !act.isUser && decide (act ≠ .spurious) &&
    decide ((state.threads thread).stack.length = call.depth + 1) &&
    !settled (frameOf state call)

private theorem frameOf_replaced
    (memory : Memory) (tls : Tls) (next : Option Frame) :
    frameOf ⟨memory, Function.update state.threads thread
      ⟨tls, next.toList ++ rest⟩⟩ ⟨thread, rest.length⟩ = next := by
  cases next with
  | none =>
      exact frameOf_vacant rfl
        (by simp only [Function.update_self]; rfl)
  | some after =>
      exact frameOf_top rfl (by simp only [Function.update_self]; rfl) rfl

/-- No other call holds the writer lock of the cell. -/
def Unlocked (memory : Memory) (call : CallId) (cell : CellId) : Prop :=
  ∀ other, other ≠ call → ¬ memory.Held other (.writer cell)

theorem Unlocked.free
    {memory : Memory} {call : CallId} (ok : FrameOk memory call frame)
    (unlocked : Unlocked memory call frame.cellOf) :
    ∀ cell, frame.locks = some cell →
      (memory.store.cells cell).writer = none := by
  intro cell locks
  have isCell : cell = frame.cellOf ∧ .writer cell ∉ frame.holding := by
    cases frame with
    | lockWriter target write wait =>
        cases locks
        cases write <;> simp [Frame.cellOf, Frame.holding, Write.holding]
    | locked target reader step =>
        cases step with
        | lock =>
            cases locks
            cases reader <;>
              simp [Frame.cellOf, Frame.holding, Reader.holding,
                LockedStep.holding]
        | _ => cases locks
    | _ => cases locks
  obtain ⟨rfl, notHeld⟩ := isCell
  cases writer : (memory.store.cells frame.cellOf).writer with
  | none => rfl
  | some other =>
      by_cases same : other = call
      · subst same
        have held : memory.Held other (.writer frame.cellOf) := writer
        exact absurd ((ok.held _).mp held) notHeld
      · exact absurd writer (unlocked other same)

/-- One operation of a call that is not settled. -/
private theorem solo_step
    (holds : Invariant state)
    (shape : (state.threads thread).stack = frame :: rest)
    (unsettled : settled (some frame) = false)
    (unlocked : Unlocked state.memory ⟨thread, rest.length⟩ frame.cellOf) :
    ∃ act memory' tls' next,
      act ≠ .spurious ∧
      frameStep state.memory ⟨thread, rest.length⟩
          (state.threads thread).tls frame act =
        some (memory', tls', next) ∧
      (settled next = true ∨ ∃ after, next = some after ∧
        after.work memory' tls' <
          frame.work state.memory (state.threads thread).tls ∧
        Unlocked memory' ⟨thread, rest.length⟩ after.cellOf) := by
  have stack := (holds.2 thread).stack
  rw [shape] at stack
  obtain ⟨act, willing, enabled⟩ :=
    frameStep_enabled ⟨thread, rest.length⟩ (state.threads thread).tls
      holds.1 unsettled (unlocked.free stack.1)
  obtain ⟨⟨memory', tls', next⟩, moved⟩ := Option.isSome_iff_exists.mp enabled
  refine ⟨act, memory', tls', next, willing, moved, ?_⟩
  rcases frameStep_work holds.1 stack.1 unsettled willing moved with
    ended | ⟨after, rfl, fewer⟩
  · exact Or.inl ended
  · refine Or.inr ⟨after, rfl, fewer, ?_⟩
    have refs := frameStep_refs holds.1 stack.1 moved
    obtain ⟨gained, lost, advance⟩ :=
      (frameStep_sound holds.1 (holds.2 thread).record stack.1 moved).advance
    intro other different held
    rw [refs.cell] at held
    exact unlocked other different
      ((advance.transfer.held_of_ne different _).mp held)

private theorem ownOperation_top
    {act : Act} (shape : (state.threads thread).stack = frame :: rest)
    (willing : act ≠ .spurious) (operation : act.isUser = false)
    (unsettled : settled (some frame) = false) :
    ownOperation ⟨thread, rest.length⟩ state thread act = true := by
  simp [ownOperation, willing, operation, shape, unsettled,
    @frameOf_top _ _ ⟨thread, rest.length⟩ _ _ rfl shape rfl]

/-- The run that `solo_step` gives, by induction on the work. -/
private theorem exists_solo_run
    (bound : Nat) (holds : Invariant state)
    (shape : (state.threads thread).stack = frame :: rest)
    (bounded : frame.work state.memory (state.threads thread).tls ≤ bound)
    (unlocked : Unlocked state.memory ⟨thread, rest.length⟩ frame.cellOf) :
    ∃ schedule last,
      program.execWhere (ownOperation ⟨thread, rest.length⟩) state schedule =
          some last ∧
        settled (frameOf last ⟨thread, rest.length⟩) = true := by
  induction bound generalizing state frame with
  | zero =>
      refine ⟨[], state, rfl, ?_⟩
      rw [frameOf_top rfl shape rfl]
      by_contra unsettled
      have positive := work_pos state.memory (state.threads thread).tls
        (Bool.eq_false_iff.mpr unsettled)
      omega
  | succ bound inductionHypothesis =>
      by_cases ended : settled (some frame) = true
      · refine ⟨[], state, rfl, ?_⟩
        rw [frameOf_top rfl shape rfl]
        exact ended
      · have unsettled := Bool.eq_false_iff.mpr ended
        obtain ⟨act, memory', tls', next, willing, moved, outcome⟩ :=
          solo_step holds shape unsettled unlocked
        have allowed := ownOperation_top shape willing
          (frameStep_not_user moved) unsettled
        have stepped := step_of_operation shape moved
        rcases outcome with ended | ⟨after, rfl, fewer, unlocked'⟩
        · refine ⟨[(thread, act)], _,
            execWhere_cons allowed stepped rfl, ?_⟩
          rw [frameOf_replaced]
          exact ended
        · obtain ⟨schedule, last, executed, ended⟩ :=
            inductionHypothesis (invariant_step stepped holds)
              (by simp) (by
                simp only [Function.update_self]
                omega) unlocked'
          exact ⟨(thread, act) :: schedule, last,
            execWhere_cons allowed stepped executed, ended⟩

private theorem ownOperation_thread
    {call : CallId} {schedule : List (Tid × Act)} {last : State}
    (executed : program.execWhere (ownOperation call) state schedule =
      some last) : ∀ entry ∈ schedule, entry.1 = call.thread := by
  refine execWhere_forall (fun _ actor act allowed => ?_) executed
  simp only [ownOperation, Bool.and_eq_true, decide_eq_true_eq] at allowed
  exact allowed.1.1.1.1

/-- Every operation of the call counts against its work. -/
private theorem solo_run_length
    {schedule : List (Tid × Act)} {last : State}
    (holds : Invariant state)
    (shape : (state.threads thread).stack = frame :: rest)
    (executed : program.execWhere (ownOperation ⟨thread, rest.length⟩) state
      schedule = some last) :
    schedule.length ≤ frame.work state.memory (state.threads thread).tls := by
  induction schedule generalizing state frame with
  | nil => exact Nat.zero_le _
  | cons entry schedule inductionHypothesis =>
      obtain ⟨actor, act⟩ := entry
      obtain ⟨allowed, next, stepped, remaining⟩ :=
        execWhere_cons_eq_some executed
      simp only [ownOperation, Bool.and_eq_true, decide_eq_true_eq,
        Bool.not_eq_true'] at allowed
      obtain ⟨⟨⟨⟨rfl, operation⟩, willing⟩, _⟩, unsettled⟩ := allowed
      rw [frameOf_top rfl shape rfl] at unsettled
      obtain ⟨memory', locals', performed, rfl⟩ := step_eq_some stepped
      rcases program_cases performed with
        ⟨_, user⟩ | ⟨top, below, tls', after, shape', moved, rfl⟩
      · cases userStep_rule user <;> cases operation
      · rw [shape] at shape'
        cases shape'
        have stack := (holds.2 actor).stack
        rw [shape] at stack
        rcases frameStep_work holds.1 stack.1 unsettled willing moved with
          ended | ⟨after, rfl, fewer⟩
        · -- A settled call has no further operation of its own.
          cases schedule with
          | nil => exact work_pos _ _ unsettled
          | cons entry schedule =>
              obtain ⟨allowed, _⟩ := execWhere_cons_eq_some remaining
              simp [ownOperation, frameOf_replaced, ended] at allowed
        · have short := @inductionHypothesis _ after
            (invariant_step stepped holds) (by simp) remaining
          simp only [Function.update_self, List.length_cons] at short ⊢
          omega

end Solo

/-! ### The holder of a writer lock -/

section Holder

variable {state : State} {thread : Tid} {frame : Frame}
variable {rest : List Frame} {cell : CellId}

/-- A call that is not suspended in user code is the top of its stack. -/
theorem Invariant.shape_of_not_user
    {call : CallId} (holds : Invariant state)
    (found : frameOf state call = some frame)
    (running : frame.isUser = false) :
    ∃ rest, (state.threads call.thread).stack = frame :: rest ∧
      call.depth = rest.length := by
  obtain ⟨rest, shape⟩ :=
    List.head?_eq_some_iff.mp (holds.top_of_not_user found running)
  have within : call.depth < (state.threads call.thread).stack.length := by
    by_contra beyond
    unfold frameOf at found
    rw [frameAt_eq_none_iff.mpr (Nat.le_of_not_lt beyond)] at found
    cases found
  have notBelow :
      ¬ call.depth + 1 < (state.threads call.thread).stack.length := by
    intro below
    have suspended := holds.isUser_of_lt found below
    rw [running] at suspended
    cases suspended
  rw [shape, List.length_cons] at within notBelow
  exact ⟨rest, shape, by omega⟩

private theorem isUser_of_writes (writing : frame.writes = some cell) :
    frame.isUser = false := by
  cases frame <;> first | rfl | cases writing

private theorem locks_of_writes (writing : frame.writes = some cell) :
    frame.locks = none := by
  cases frame with
  | lockWriter => cases writing
  | locked target reader step =>
      cases step with
      | lock => cases writing
      | _ => rfl
  | _ => rfl

/-- User code never runs under the lock, so its holder is on top. -/
private theorem Invariant.writer_frame
    {holder : CallId} (holds : Invariant state)
    (locked : (state.memory.store.cells cell).writer = some holder) :
    ∃ frame rest, (state.threads holder.thread).stack = frame :: rest ∧
      holder.depth = rest.length ∧ frame.writes = some cell := by
  have held : state.memory.Held holder (.writer cell) := locked
  obtain ⟨frame, found, holding⟩ := holds.frame_of_held held
  have writing := writer_mem_iff.mp holding
  obtain ⟨rest, shape, level⟩ :=
    holds.shape_of_not_user found (isUser_of_writes writing)
  exact ⟨frame, rest, shape, level, writing⟩

/-- An operation of the call that holds the writer lock of the cell, outside
of user code. -/
def underLock (cell : CellId) (holder : CallId) (state : State)
    (thread : Tid) (act : Act) : Bool :=
  decide (thread = holder.thread) && !act.isUser &&
    !(state.threads thread).atUserPoint &&
    decide ((state.memory.store.cells cell).writer = some holder)

/-- A waiter holds the lock while it copies the retired pointers. -/
private theorem copy_of_settled
    (writing : frame.writes = some cell)
    (waits : settled (some frame) = true) :
    ∃ onFallback removed,
      frame = .waiting cell removed (.copy onFallback) := by
  cases frame with
  | waiting target removed step =>
      cases step with
      | copy onFallback =>
          cases writing
          exact ⟨onFallback, removed, rfl⟩
      | _ => cases writing
  | reading | fallbackReading => cases writing
  | _ => cases waits

/-- No lock blocks the holder. -/
private theorem holder_enabled
    (holds : Invariant state)
    (shape : (state.threads thread).stack = frame :: rest)
    (writing : frame.writes = some cell) :
    ∃ act, (frameStep state.memory ⟨thread, rest.length⟩
      (state.threads thread).tls frame act).isSome = true := by
  by_cases waits : settled (some frame) = true
  · obtain ⟨onFallback, removed, rfl⟩ := copy_of_settled writing waits
    exact ⟨.next, rfl⟩
  · have free : ∀ target, frame.locks = some target →
        (state.memory.store.cells target).writer = none := by
      intro target locks
      rw [locks_of_writes writing] at locks
      cases locks
    obtain ⟨act, _, enabled⟩ :=
      frameStep_enabled ⟨thread, rest.length⟩ (state.threads thread).tls
        holds.1 (Bool.eq_false_iff.mpr waits) free
    exact ⟨act, enabled⟩

/-- Each operation of the holder releases the lock or leaves less to do. -/
private theorem holder_step
    {act : Act} {memory' : Memory} {tls' : Tls} {next : Option Frame}
    (holds : Invariant state)
    (shape : (state.threads thread).stack = frame :: rest)
    (writing : frame.writes = some cell)
    (moved : frameStep state.memory ⟨thread, rest.length⟩
      (state.threads thread).tls frame act = some (memory', tls', next)) :
    (memory'.store.cells cell).writer = none ∨
      ∃ after, next = some after ∧ after.writes = some cell ∧
        after.work memory' tls' <
          frame.work state.memory (state.threads thread).tls := by
  have stack := (holds.2 thread).stack
  rw [shape] at stack
  have willing : act ≠ .spurious := by
    rintro rfl
    cases frameStep_rule moved <;> cases writing
  by_cases waits : settled (some frame) = true
  · obtain ⟨onFallback, removed, rfl⟩ := copy_of_settled writing waits
    cases frameStep_rule moved
    left
    simp [Memory.withStore, Store.unlock, Store.setCell]
  · have unsettled := Bool.eq_false_iff.mpr waits
    cases locked : (memory'.store.cells cell).writer with
    | none => exact Or.inl rfl
    | some holder =>
        right
        -- The lock was with this call, and it did not go to another one.
        have before : (state.memory.store.cells cell).writer =
            some ⟨thread, rest.length⟩ :=
          (stack.1.held (.writer cell)).mpr (writer_mem_iff.mpr writing)
        obtain ⟨gained, lost, advance⟩ := (frameStep_sound holds.1
          (holds.2 thread).record stack.1 moved).advance
        have held : memory'.Held holder (.writer cell) := locked
        have same : holder = ⟨thread, rest.length⟩ := by
          by_contra different
          have earlier : (state.memory.store.cells cell).writer =
              some holder :=
            (advance.transfer.held_of_ne different _).mp held
          rw [before] at earlier
          exact different (Option.some.inj earlier).symm
        subst same
        obtain ⟨after, found, holding⟩ :=
          (invariant_step (step_of_operation shape moved) holds).frame_of_held
            held
        rw [frameOf_replaced] at found
        refine ⟨after, found, writer_mem_iff.mp holding, ?_⟩
        rcases frameStep_work holds.1 stack.1 unsettled willing moved with
          ended | ⟨other, same, fewer⟩
        · rw [work_settled (found ▸ ended)]
          exact work_pos _ _ unsettled
        · cases found.symm.trans same
          exact fewer

private theorem underLock_top
    {act : Act} (holds : Invariant state)
    (shape : (state.threads thread).stack = frame :: rest)
    (writing : frame.writes = some cell) (operation : act.isUser = false) :
    underLock cell ⟨thread, rest.length⟩ state thread act = true := by
  have stack := (holds.2 thread).stack
  rw [shape] at stack
  have locked : (state.memory.store.cells cell).writer =
      some ⟨thread, rest.length⟩ :=
    (stack.1.held (.writer cell)).mpr (writer_mem_iff.mpr writing)
  simp [underLock, operation, locked, Thread.atUserPoint, shape,
    isUser_of_writes writing]

private theorem release_step
    (holds : Invariant state)
    (shape : (state.threads thread).stack = frame :: rest)
    (writing : frame.writes = some cell) :
    ∃ act next,
      underLock cell ⟨thread, rest.length⟩ state thread act = true ∧
        program.step state thread act = some next ∧
        ((next.memory.store.cells cell).writer = none ∨
          ∃ after, (next.threads thread).stack = after :: rest ∧
            after.writes = some cell ∧
            after.work next.memory (next.threads thread).tls <
              frame.work state.memory (state.threads thread).tls) := by
  obtain ⟨act, enabled⟩ := holder_enabled holds shape writing
  obtain ⟨⟨memory', tls', next⟩, moved⟩ :=
    Option.isSome_iff_exists.mp enabled
  refine ⟨act, _, underLock_top holds shape writing
    (frameStep_not_user moved), step_of_operation shape moved, ?_⟩
  rcases holder_step holds shape writing moved with
    released | ⟨after, rfl, still, fewer⟩
  · exact Or.inl released
  · exact Or.inr ⟨after, by simp, still, by simpa using fewer⟩

private theorem exists_release_run
    (bound : Nat) (holds : Invariant state)
    (shape : (state.threads thread).stack = frame :: rest)
    (bounded : frame.work state.memory (state.threads thread).tls ≤ bound)
    (writing : frame.writes = some cell) :
    ∃ schedule last,
      program.execWhere (underLock cell ⟨thread, rest.length⟩) state
          schedule = some last ∧
        (last.memory.store.cells cell).writer = none := by
  induction bound generalizing state frame with
  | zero =>
      obtain ⟨act, next, allowed, stepped,
        released | ⟨after, _, _, fewer⟩⟩ := release_step holds shape writing
      · exact ⟨[(thread, act)], next, execWhere_cons allowed stepped rfl,
          released⟩
      · omega
  | succ bound inductionHypothesis =>
      obtain ⟨act, next, allowed, stepped,
        released | ⟨after, shape', still, fewer⟩⟩ :=
        release_step holds shape writing
      · exact ⟨[(thread, act)], next, execWhere_cons allowed stepped rfl,
          released⟩
      · obtain ⟨schedule, last, executed, released⟩ :=
          inductionHypothesis (invariant_step stepped holds) shape'
            (by omega) still
        exact ⟨(thread, act) :: schedule, last,
          execWhere_cons allowed stepped executed, released⟩

/-- Every operation of the holder counts against its work. -/
private theorem release_run_length
    {schedule : List (Tid × Act)} {last : State}
    (holds : Invariant state)
    (shape : (state.threads thread).stack = frame :: rest)
    (writing : frame.writes = some cell)
    (executed : program.execWhere (underLock cell ⟨thread, rest.length⟩)
      state schedule = some last) :
    schedule.length ≤
      frame.work state.memory (state.threads thread).tls + 1 := by
  induction schedule generalizing state frame with
  | nil => exact Nat.zero_le _
  | cons entry schedule inductionHypothesis =>
      obtain ⟨actor, act⟩ := entry
      obtain ⟨allowed, next, stepped, remaining⟩ :=
        execWhere_cons_eq_some executed
      simp only [underLock, Bool.and_eq_true, decide_eq_true_eq,
        Bool.not_eq_true'] at allowed
      obtain ⟨⟨⟨rfl, operation⟩, _⟩, _⟩ := allowed
      obtain ⟨memory', locals', performed, rfl⟩ := step_eq_some stepped
      rcases program_cases performed with
        ⟨_, user⟩ | ⟨top, below, tls', after, shape', moved, rfl⟩
      · cases userStep_rule user <;> cases operation
      · rw [shape] at shape'
        cases shape'
        rcases holder_step holds shape writing moved with
          released | ⟨after, rfl, still, fewer⟩
        · -- The lock is free, so this was the last operation.
          cases schedule with
          | nil => simp
          | cons entry schedule =>
              obtain ⟨allowed, _⟩ := execWhere_cons_eq_some remaining
              simp [underLock, released] at allowed
        · have short := @inductionHypothesis _ after
            (invariant_step stepped holds) (by simp) still remaining
          simp only [Function.update_self, List.length_cons] at short ⊢
          omega

end Holder

section Results

variable {state : State} {thread : Tid} {frame : Frame}
variable {rest : List Frame}

private theorem enter_work
    (memory : Memory) (tls : Tls) (cell : CellId) (operation : Call) :
    (operation.enter cell).work memory tls ≤
      11 * memory.records +
        2 * (memory.store.cells cell).retired.length + 38 := by
  have pin : memory.pinWork tls cell ≤ 11 * memory.records +
      2 * (memory.store.cells cell).retired.length + 37 := by
    unfold Memory.pinWork
    split <;>
      simp only [Memory.acquireWork, Memory.reclaimWork, reclaimWork,
        sweepWork, SLOTS] <;>
      omega
  cases operation with
  | read | loadArcIf => exact Nat.succ_le_succ pin
  | _ =>
      simp only [Call.enter, Frame.work, Memory.reclaimWork, reclaimWork,
        sweepWork, SLOTS]
      omega

/-- A call that nobody else locks out settles by its own operations, and there
are at most linearly many of them in the records and the retired values. -/
theorem solo_calls_settle
    (reachable : program.Reachable initial state)
    (shape : (state.threads thread).stack = frame :: rest)
    (unlocked : ∀ holder,
      (state.memory.store.cells frame.cellOf).writer = some holder →
        holder = ⟨thread, rest.length⟩) :
    (∃ schedule last,
      program.execWhere (ownOperation ⟨thread, rest.length⟩) state schedule =
          some last ∧
        settled (frameOf last ⟨thread, rest.length⟩) = true) ∧
      (∀ schedule last,
        program.execWhere (ownOperation ⟨thread, rest.length⟩) state
            schedule = some last →
          schedule.length ≤
            frame.work state.memory (state.threads thread).tls) ∧
      ∀ cell operation, frame = Call.enter cell operation →
        frame.work state.memory (state.threads thread).tls ≤
          11 * state.memory.domain.published.length +
            2 * (state.memory.store.cells cell).retired.length + 38 := by
  have holds := invariant_reachable reachable
  refine ⟨?_, ?_, ?_⟩
  · exact exists_solo_run _ holds shape (Nat.le_refl _)
      fun other different held => different (unlocked other held)
  · intro schedule last executed
    exact solo_run_length holds shape executed
  · rintro cell operation rfl
    exact enter_work state.memory _ cell operation

/-- A dispatch on a new registry, by a thread without a record. -/
theorem solo_calls_settle_first_read :
    ∃ state schedule last,
      program.exec initial [(0, .newCell 0 100), (0, .call 0 (.read true))] =
          some state ∧
        program.execWhere (ownOperation ⟨0, 0⟩) state schedule = some last ∧
        settled (frameOf last ⟨0, 0⟩) = true ∧ schedule.length ≤ 38 := by
  have evaluated :
      (program.exec initial
          [(0, .newCell 0 100), (0, .call 0 (.read true))]).map
          (fun state => ((state.threads 0).stack,
            (state.memory.store.cells 0).writer,
            state.memory.domain.published.length,
            (state.memory.store.cells 0).retired.length)) =
        some ([Call.enter 0 (.read true)], none, 0, 0) := by
    decide +kernel
  obtain ⟨state, run, view⟩ := Option.map_eq_some_iff.mp evaluated
  simp only [Prod.mk.injEq] at view
  obtain ⟨shape, free, records, retired⟩ := view
  obtain ⟨⟨schedule, last, executed, ended⟩, bounded, entered⟩ :=
    solo_calls_settle ⟨_, run⟩ shape fun holder locked => by
      cases free.symm.trans locked
  refine ⟨state, schedule, last, run, executed, ended, ?_⟩
  have short := bounded schedule last executed
  have work := entered 0 (.read true) rfl
  omega

/-- User code never runs under a writer lock, and the holder can release the
lock alone at any time: no lock blocks its operations, and there are at most
as many as its frame has work left. -/
theorem writer_lock_released
    {cell : CellId} {holder : CallId}
    (reachable : program.Reachable initial state)
    (locked : (state.memory.store.cells cell).writer = some holder) :
    ∃ frame rest,
      (state.threads holder.thread).stack = frame :: rest ∧
        holder.depth = rest.length ∧
        frameOf state holder = some frame ∧ frame.isUser = false ∧
        (∀ act, act.isUser = true →
          program.step state holder.thread act = none) ∧
        (∃ schedule last,
          program.execWhere (underLock cell holder) state schedule =
              some last ∧
            (last.memory.store.cells cell).writer = none) ∧
        ∀ schedule last,
          program.execWhere (underLock cell holder) state schedule =
              some last →
            schedule.length ≤
              frame.work state.memory (state.threads holder.thread).tls +
                1 := by
  have holds := invariant_reachable reachable
  obtain ⟨frame, rest, shape, level, writing⟩ := holds.writer_frame locked
  obtain ⟨thread, depth⟩ := holder
  subst level
  have quiet := isUser_of_writes writing
  refine ⟨frame, rest, shape, rfl, frameOf_top rfl shape rfl, quiet, ?_,
    exists_release_run _ holds shape (Nat.le_refl _) writing, ?_⟩
  · intro act isUser
    cases act with
    | newCell | dropCell | call | dropHandle | exitThread =>
        simp [Program.step, program, Thread.atUserPoint, shape, quiet]
    | _ => cases isUser
  · intro schedule last executed
    exact release_run_length holds shape writing executed

/-- A registration that has just taken the lock. -/
def registering : List (Tid × Act) :=
  (0, .newCell 0 100) :: (0, .call 0 (.register 1)) :: nexts 0 2

theorem writer_lock_released_register :
    ∃ state frame schedule last,
      program.exec initial registering = some state ∧
        (state.memory.store.cells 0).writer = some ⟨0, 0⟩ ∧
        frameOf state ⟨0, 0⟩ = some frame ∧ frame.isUser = false ∧
        program.step state 0 (.call 0 (.read true)) = none ∧
        program.execWhere (underLock 0 ⟨0, 0⟩) state schedule =
          some last ∧
        (last.memory.store.cells 0).writer = none ∧
        schedule.length ≤
          frame.work state.memory (state.threads 0).tls + 1 := by
  have evaluated :
      (program.exec initial registering).map
          (fun state => (state.memory.store.cells 0).writer) =
        some (some ⟨0, 0⟩) := by
    decide +kernel
  obtain ⟨state, run, locked⟩ := Option.map_eq_some_iff.mp evaluated
  obtain ⟨frame, rest, _, _, found, quiet, blocked,
    ⟨schedule, last, executed, released⟩, bounded⟩ :=
    writer_lock_released ⟨_, run⟩ locked
  exact ⟨state, frame, schedule, last, run, locked, found, quiet,
    blocked _ rfl, executed, released, bounded schedule last executed⟩

/-- No reachable state is a deadlock: the holder of the lock releases it, and
then the call settles by its own operations. -/
theorem every_call_settles
    (reachable : program.Reachable initial state)
    (shape : (state.threads thread).stack = frame :: rest) :
    ∃ schedule last, program.exec state schedule = some last ∧
      settled (frameOf last ⟨thread, rest.length⟩) = true ∧
      ∀ entry ∈ schedule, entry.1 = thread ∨
        ∃ holder, (state.memory.store.cells frame.cellOf).writer =
          some holder ∧ entry.1 = holder.thread := by
  have holds := invariant_reachable reachable
  by_cases unlocked : Unlocked state.memory ⟨thread, rest.length⟩ frame.cellOf
  · obtain ⟨schedule, last, executed, ended⟩ :=
      exists_solo_run _ holds shape (Nat.le_refl _) unlocked
    exact ⟨schedule, last, exec_of_execWhere executed, ended,
      fun entry member => Or.inl (ownOperation_thread executed entry member)⟩
  · obtain ⟨holder, different, locked⟩ :
        ∃ holder, holder ≠ ⟨thread, rest.length⟩ ∧
          (state.memory.store.cells frame.cellOf).writer = some holder := by
      simpa [Unlocked, Memory.Held] using unlocked
    obtain ⟨top, below, shape', level, writing⟩ := holds.writer_frame locked
    obtain ⟨first, middle, executed, free⟩ :=
      exists_release_run _ holds shape' (Nat.le_refl _) writing
    have own : ∀ entry ∈ first, entry.1 = holder.thread := by
      refine execWhere_forall (fun _ actor act allowed => ?_) executed
      simp only [underLock, Bool.and_eq_true, decide_eq_true_eq] at allowed
      exact allowed.1.1.1
    have released := exec_of_execWhere executed
    -- Both calls are on top of their stacks, so their threads differ.
    have apart : holder.thread ≠ thread := by
      intro same
      rw [same, shape] at shape'
      cases shape'
      exact different (CallId.ext same level)
    have kept : middle.threads thread = state.threads thread :=
      exec_threads released fun entry member => by
        rw [own entry member]
        exact apart
    have holds' : Invariant middle :=
      exec_invariant (fun _ _ _ _ stepped holds => invariant_step stepped holds)
        released holds
    obtain ⟨second, last, executed, ended⟩ :=
      exists_solo_run _ holds' (kept ▸ shape) (Nat.le_refl _)
        fun other _ held => by
          have taken : (middle.memory.store.cells frame.cellOf).writer =
            some other := held
          rw [free] at taken
          cases taken
    refine ⟨first ++ second, last, ?_, ended, ?_⟩
    · rw [exec_append, released]
      exact exec_of_execWhere executed
    · intro entry member
      rcases List.mem_append.mp member with early | late
      · exact Or.inr ⟨holder, locked, own entry early⟩
      · exact Or.inl (ownOperation_thread executed entry late)

/-- Thread `1` waits for the lock that thread `0` holds. -/
def contended : List (Tid × Act) :=
  registering ++ [(1, .call 0 (.register 2)), (1, .next)]

theorem every_call_settles_contended :
    ∃ state schedule last,
      program.exec initial contended = some state ∧
        (∀ act, program.step state 1 act = none) ∧
        program.exec state schedule = some last ∧
        settled (frameOf last ⟨1, 0⟩) = true := by
  have evaluated :
      (program.exec initial contended).map
          (fun state => ((state.threads 1).stack,
            (state.memory.store.cells 0).writer)) =
        some ([.lockWriter 0 (.insert ⟨⟨2⟩, 2, 1⟩) false], some ⟨0, 0⟩) := by
    decide +kernel
  obtain ⟨state, run, view⟩ := Option.map_eq_some_iff.mp evaluated
  obtain ⟨shape, locked⟩ := Prod.mk.inj view
  obtain ⟨schedule, last, executed, ended, _⟩ :=
    every_call_settles ⟨_, run⟩ shape
  refine ⟨state, schedule, last, run, ?_, executed, ended⟩
  intro act
  cases act <;>
    simp [Program.step, program, Thread.atUserPoint, shape, frameStep,
      Frame.isUser, locked]

end Results

end RegistryIo.Snapshot
