import RegistryIo.Snapshot.ControlFlow
import RegistryIo.Snapshot.Reclamation

/-!
# The number of retired values

A scan reads every slot of every record at most once, and the values it keeps
are distinct and were all read from a slot.  So at most `SLOTS` values are
kept for every record, however the slots change during the scan.
-/

namespace RegistryIo.Snapshot

open RegistryIo.Interleaving

/-- A retired value for every slot of every record at most. -/
def RetiredBounded (memory : Memory) (cell : CellId) : Prop :=
  (memory.store.cells cell).retired.length ≤
    SLOTS * memory.domain.published.length

/-- A scan has collected at most one address from every slot behind it. -/
structure ScanBounded (published : List RecordId) (cursor : Option RecordId)
    (index : Nat) (announced : List Addr) : Prop where
  collected : announced.length + SLOTS * remaining published cursor ≤
    SLOTS * published.length + index
  index_le : index ≤ SLOTS
  finished : cursor = none → index = 0

/-- What the holder of the writer lock knows about the number of retired
values.  After a push the bound is restored by the scan. -/
def Frame.Bounds (memory : Memory) (cell : CellId) : Frame → Prop
  | .collect _ _ .start => True
  | .collect _ _ (.scan cursor index announced) =>
      ScanBounded memory.domain.published cursor index announced
  | _ => RetiredBounded memory cell

section Frames

variable {memory memory' : Memory} {call : CallId} {tls tls' : Tls}
variable {cell : CellId} {act : Act} {frame : Frame} {next : Option Frame}

/-- A scan under a lock was started under the lock. -/
private theorem writer_of_isScan
    {after : Frame}
    (stepped : frameStep memory call tls frame act =
      some (memory', tls', some after))
    (scans : after.isScan = true) (locked : .writer cell ∈ after.holding) :
    .writer cell ∈ frame.holding := by
  rw [writer_mem_iff] at locked ⊢
  cases frameStep_rule stepped with
  | collectStart | collectSlot | collectRecord => exact locked
  | pinGone | pinFull =>
      rw [slowPath_not_scan] at scans
      cases scans
  | nothingRetired | tryLockBusy | dropReclaimed =>
      rw [Frame.not_scan_of_not_entry (afterRelease_not_entry _)] at scans
      cases scans
  | _ => cases scans

private theorem Frame.Bounds.of_retired
    (bounded : RetiredBounded memory cell) (notScan : frame.isScan = false) :
    frame.Bounds memory cell := by
  cases frame with
  | collect target collector step =>
      cases step with
      | start => trivial
      | scan => cases notScan
      | _ => exact bounded
  | _ => exact bounded

theorem ScanBounded.start (published : List RecordId) :
    ScanBounded published published.head? 0 [] where
  collected := by simp [remaining_head]
  index_le := Nat.zero_le SLOTS
  finished := fun _ => rfl

/-- One slot is read. -/
theorem ScanBounded.slot
    {published : List RecordId} {record : RecordId} {index : Nat}
    {announced : List Addr} (seen : Option Addr)
    (bounded : ScanBounded published (some record) index announced)
    (inside : index < SLOTS) :
    ScanBounded published (some record) (index + 1)
      (announced ++ seen.toList) where
  collected := by
    have collected := bounded.collected
    have added : seen.toList.length ≤ 1 := by cases seen <;> simp
    rw [List.length_append]
    omega
  index_le := inside
  finished := nofun

/-- The scan goes on to the next record. -/
theorem ScanBounded.advance
    {published : List RecordId} {record : RecordId}
    {successor : Option RecordId} {index : Nat} {announced : List Addr}
    (bounded : ScanBounded published (some record) index announced)
    (nodup : published.Nodup)
    (moved : successor = (following published record).head?) :
    ScanBounded published successor 0 announced where
  collected := by
    have collected := bounded.collected
    have index_le := bounded.index_le
    rw [← remaining_next nodup moved, Nat.mul_add] at collected
    omega
  index_le := Nat.zero_le SLOTS
  finished := fun _ => rfl

/-- The values that a finished scan keeps were all read from slots. -/
theorem ScanBounded.kept
    {published : List RecordId} {index : Nat} {announced retired : List Addr}
    (bounded : ScanBounded published none index announced)
    (nodup : retired.Nodup) :
    (Store.collectUnprotected announced retired).1.length ≤
      SLOTS * published.length := by
  have collected := bounded.collected
  rw [bounded.finished rfl] at collected
  have kept : (Store.collectUnprotected announced retired).1.length ≤
      announced.length := by
    refine (Store.collectUnprotected_nodup nodup).1.length_le_of_subset ?_
    intro address member
    exact (Store.mem_collectUnprotected_kept.mp member).2
  simp only [remaining] at collected
  omega

theorem ScanBounded.append
    {added published : List RecordId} {cursor : Option RecordId}
    {index : Nat} {announced : List Addr}
    (bounded : ScanBounded published cursor index announced)
    (older : ∀ here, cursor = some here → here ∉ added) :
    ScanBounded (added ++ published) cursor index announced where
  collected := by
    have collected := bounded.collected
    rw [remaining_append older, List.length_append, Nat.mul_add]
    omega
  index_le := bounded.index_le
  finished := bounded.finished

/-- Only the holder of the writer lock can exceed the bound, and only between
a push and the scan after it. -/
private theorem bounds_step
    (inv : MemInv memory) (ok : FrameOk memory call frame)
    (locked : .writer cell ∈ frame.holding)
    (stepped : frameStep memory call tls frame act =
      some (memory', tls', next))
    (bounds : frame.Bounds memory cell) :
    (RetiredBounded memory' cell ∧ next.any Frame.isScan = false) ∨
      ∃ collector step, next = some (.collect cell collector step) ∧
        (Frame.collect cell collector step).Bounds memory' cell := by
  rw [writer_mem_iff] at locked
  cases frameStep_rule stepped with
  | collectNothing empty =>
      cases locked
      refine Or.inl ⟨?_, rfl⟩
      unfold RetiredBounded
      rw [empty]
      exact Nat.zero_le _
  | collectStart =>
      cases locked
      refine Or.inr ⟨_, _, rfl, ?_⟩
      show ScanBounded _ memory.domain.head 0 []
      rw [inv.domain.linked.start_eq]
      exact ScanBounded.start _
  | collectSlot inside =>
      cases locked
      exact Or.inr ⟨_, _, rfl, ScanBounded.slot _ bounds inside⟩
  | @collectRecord _ _ record =>
      cases locked
      refine Or.inr ⟨_, _, rfl, ?_⟩
      have listed : record ∈ memory.domain.published :=
        ok.facts.2.cursor_ok record rfl
      exact ScanBounded.advance bounds inv.domain.nodup
        (inv.domain.linked.next_eq listed)
  | collectEnd =>
      cases locked
      refine Or.inl ⟨?_, rfl⟩
      have kept := ScanBounded.kept bounds
        (inv.store.cells cell).retired_nodup
      simpa [RetiredBounded, Memory.withStore, Store.collect,
        Store.setCell] using kept
  | collectLen =>
      cases locked
      have bounded : RetiredBounded memory cell := bounds
      refine Or.inl ⟨?_, rfl⟩
      simpa [RetiredBounded, Memory.withStore, Store.storeRetiredLen,
        Store.setCell] using bounded
  | collectUnlock | unlockUnchanged | lockedRead | lockedKeep | waitCopy =>
      cases locked
      have bounded : RetiredBounded memory cell := bounds
      refine Or.inl ⟨?_, rfl⟩
      simpa [RetiredBounded, Memory.withStore, Store.unlock, Store.setCell]
        using bounded
  | retire =>
      cases locked
      exact Or.inr ⟨_, _, rfl, trivial⟩
  | install =>
      cases locked
      have bounded : RetiredBounded memory cell := bounds
      refine Or.inl ⟨?_, rfl⟩
      simpa [RetiredBounded, Memory.withStore, Store.install,
        Store.setCell, SnapCell.installed] using bounded
  | computeNone | computeSome | lockedLoad => exact Or.inl ⟨bounds, rfl⟩
  | lockedCountRead | lockedCountLoad =>
      have bounded : RetiredBounded memory cell := bounds
      refine Or.inl ⟨?_, rfl⟩
      simpa [RetiredBounded, Memory.withStore, Store.cells_addOwner]
        using bounded
  | _ => cases locked

end Frames

/-- The bound holds while the writer lock is free, and the holder of the lock
knows how far it is from it. -/
structure GarbageOk (cell : CellId) (state : State) : Prop where
  free : (state.memory.store.cells cell).writer = none →
    RetiredBounded state.memory cell
  holder : ∀ call frame,
    (state.memory.store.cells cell).writer = some call →
      frameOf state call = some frame → frame.Bounds state.memory cell

section Run

variable {cell : CellId} {state next : State} {thread : Tid} {act : Act}
variable {actor : CallId} {gained lost : List Holding}

theorem RetiredBounded.stable
    (advance : Advance actor gained lost state.memory next.memory)
    (unlocked : (state.memory.store.cells cell).writer ≠ some actor)
    (bounded : RetiredBounded state.memory cell) :
    RetiredBounded next.memory cell := by
  obtain ⟨added, shape, _⟩ := advance.domain.published
  unfold RetiredBounded at bounded ⊢
  rw [shape, List.length_append, Nat.mul_add]
  rcases (advance.store.cells cell).retired unlocked with same | empty
  · rw [same]
    omega
  · rw [empty]
    exact Nat.zero_le _

/-- The steps of others do not change what the holder of the lock knows. -/
theorem Frame.Bounds.stable
    {call : CallId} {frame : Frame} (holds : Invariant state)
    (advance : Advance actor gained lost state.memory next.memory)
    (different : call ≠ actor)
    (locked : (state.memory.store.cells cell).writer = some call)
    (found : frameOf state call = some frame)
    (bounds : frame.Bounds state.memory cell) :
    frame.Bounds next.memory cell := by
  have unlocked : (state.memory.store.cells cell).writer ≠ some actor := by
    rw [locked]
    intro same
    exact different (Option.some.inj same)
  by_cases scans : frame.isScan = true
  · cases frame with
    | collect target collector step =>
        cases step with
        | scan cursor index announced =>
            have listed := (holds.frameOk found).facts.2.cursor_ok
            obtain ⟨added, shape, _⟩ := advance.domain.published
            have nodup := advance.inv.domain.nodup
            show ScanBounded next.memory.domain.published cursor index
              announced
            rw [shape] at nodup ⊢
            refine ScanBounded.append bounds ?_
            intro here same new
            exact (List.nodup_append.mp nodup).2.2 here new here
              (listed here same) rfl
        | _ => cases scans
    | _ => cases scans
  · have notScan : frame.isScan = false := Bool.eq_false_iff.mpr scans
    cases frame with
    | collect target collector step =>
        cases step with
        | start => trivial
        | scan => cases notScan
        | _ => exact RetiredBounded.stable advance unlocked bounds
    | _ => exact RetiredBounded.stable advance unlocked bounds

/-- A step of its holder leads to the bound, or on in the scan. -/
private theorem GarbageOk.of_holder
    (holds : Invariant state)
    (stepped : program.step state thread act = some next)
    (advance : Advance actor gained lost state.memory next.memory)
    (locked : (state.memory.store.cells cell).writer = some actor)
    (result : (RetiredBounded next.memory cell ∧
        (frameOf next actor).any Frame.isScan = false) ∨
      ∃ collector step,
        frameOf next actor = some (.collect cell collector step) ∧
          (Frame.collect cell collector step).Bounds next.memory cell) :
    GarbageOk cell next := by
  have holdsNext := invariant_step stepped holds
  constructor
  · intro free
    rcases result with ⟨bounded, _⟩ | ⟨collector, step, isNext, _⟩
    · exact bounded
    · have lockedNext := ((holdsNext.frameOk isNext).held
        (.writer cell)).mpr List.mem_cons_self
      cases free.symm.trans lockedNext
  · intro call after lockedNext foundNext
    have isActor : call = actor := by
      by_contra different
      have before := (advance.transfer.held_of_ne different
        (.writer cell)).mp lockedNext
      exact different (Option.some.inj (before.symm.trans locked))
    subst isActor
    rcases result with ⟨bounded, notScan⟩ |
      ⟨collector, step, isNext, bounds⟩
    · rw [foundNext] at notScan
      exact .of_retired bounded notScan
    · rw [foundNext] at isNext
      cases isNext
      exact bounds

/-- A lock that the actor does not hold stays with its holder. -/
private theorem writer_kept
    {call : CallId}
    (advance : Advance actor gained lost state.memory next.memory)
    (unlocked : (state.memory.store.cells cell).writer ≠ some actor)
    (locked : (state.memory.store.cells cell).writer = some call) :
    (next.memory.store.cells cell).writer = some call := by
  have different : call ≠ actor := by
    rintro rfl
    exact unlocked locked
  exact (advance.transfer.held_of_ne different (.writer cell)).mpr locked

/-- Nobody is in a scan right after taking the lock. -/
private theorem not_scan_of_acquired
    {after : Frame} (holds : Invariant state)
    (stepped : program.step state thread act = some next)
    (isThread : actor.thread = thread)
    (step : ActorStep state next thread act actor)
    (unlocked : (state.memory.store.cells cell).writer ≠ some actor)
    (locked : (next.memory.store.cells cell).writer = some actor)
    (found : frameOf next actor = some after) : after.isScan = false := by
  have holdsNext := invariant_step stepped holds
  cases step with
  | user level userPoint performed afterwards =>
      rcases afterwards with vacant | ⟨pushed, isPushed, fresh⟩
      · cases found.symm.trans vacant
      · cases Option.some.inj (found.symm.trans isPushed)
        exact Frame.not_scan_of_not_entry fresh.not_entry
  | top frame rest tls shape level moved =>
      have foundBefore := frameOf_top isThread shape level
      rw [found] at moved
      by_contra scans
      have holding := writer_of_isScan moved (by simpa using scans)
        (((holdsNext.frameOk found).held (.writer cell)).mp locked)
      exact unlocked
        (((holds.frameOk foundBefore).held (.writer cell)).mpr holding)

private theorem garbageOk_step
    (holds : Invariant state)
    (stepped : program.step state thread act = some next)
    (ok : GarbageOk cell state) : GarbageOk cell next := by
  obtain ⟨actor, isThread, step, others⟩ := actorStep stepped
  obtain ⟨gained, lost, advance⟩ := step.advance holds isThread
  by_cases locked : (state.memory.store.cells cell).writer = some actor
  · cases step with
    | user level userPoint performed after =>
        have held : state.memory.Held actor (.writer cell) := locked
        obtain ⟨frame, found, _⟩ := holds.frame_of_held held
        rw [frameOf_vacant isThread level] at found
        cases found
    | top frame rest tls shape level moved =>
        have found := frameOf_top isThread shape level
        have frameOk := holds.frameOk found
        exact .of_holder holds stepped advance locked
          (bounds_step holds.1 frameOk
            ((frameOk.held (.writer cell)).mp locked) moved
            (ok.holder actor frame locked found))
  · constructor
    · intro free
      cases before : (state.memory.store.cells cell).writer with
      | none => exact (ok.free before).stable advance locked
      | some call =>
          cases free.symm.trans (writer_kept advance locked before)
    · intro call after lockedNext foundNext
      by_cases same : call = actor
      · subst same
        have free : (state.memory.store.cells cell).writer = none := by
          cases before : (state.memory.store.cells cell).writer with
          | none => rfl
          | some other =>
              have still := writer_kept advance locked before
              cases Option.some.inj (lockedNext.symm.trans still)
              exact absurd before locked
        exact .of_retired ((ok.free free).stable advance locked)
          (not_scan_of_acquired holds stepped isThread step locked
            lockedNext foundNext)
      · have before := (advance.transfer.held_of_ne same
          (.writer cell)).mp lockedNext
        have found := (others call same).symm.trans foundNext
        exact Frame.Bounds.stable holds advance same before found
          (ok.holder call after before found)

end Run

/-- Whenever the writer lock of a cell is free, the cell keeps at most one
retired value for every slot of every record. -/
theorem retired_bound
    {state : State} {cell : CellId}
    (reachable : program.Reachable initial state)
    (free : (state.memory.store.cells cell).writer = none) :
    (state.memory.store.cells cell).retired.length ≤
      SLOTS * state.memory.domain.published.length := by
  have both : Invariant state ∧ GarbageOk cell state := by
    refine reachable_invariant
      (P := fun state => Invariant state ∧ GarbageOk cell state)
      ⟨invariant_initial, ?_, ?_⟩ ?_ reachable
    · intro _
      exact Nat.zero_le _
    · intro call frame locked
      cases locked
    · intro state thread act next stepped holds
      exact ⟨invariant_step stepped holds.1,
        garbageOk_step holds.1 stepped holds.2⟩
  exact both.2.free free

/-- The list that a reader uses is kept by the writer that replaced it. -/
theorem retired_bound_while_reading :
    ∃ state, program.exec initial replacedWhileReading = some state ∧
      (state.memory.store.cells 0).writer = none ∧
      (state.memory.store.cells 0).retired = [101] ∧
      [101].length ≤ SLOTS * state.memory.domain.published.length := by
  have evaluated :
      (program.exec initial replacedWhileReading).map
          (fun state => ((state.memory.store.cells 0).writer,
            (state.memory.store.cells 0).retired)) =
        some (none, [101]) := by
    decide +kernel
  obtain ⟨state, reached, view⟩ := Option.map_eq_some_iff.mp evaluated
  obtain ⟨free, retired⟩ := Prod.mk.inj view
  have bound := retired_bound ⟨replacedWhileReading, reached⟩ free
  rw [retired] at bound
  exact ⟨state, reached, free, retired, bound⟩

end RegistryIo.Snapshot
