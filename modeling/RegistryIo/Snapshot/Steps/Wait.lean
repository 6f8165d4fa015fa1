import RegistryIo.Snapshot.Steps.Fallback

/-!
# Steps of `wait_for_retired_readers`

The exit check is three separate observations: the fallback counter, the copy
of the retired pointers, and the scan of the records for each of them.
-/

namespace RegistryIo.Snapshot

variable {memory : Memory} {call : CallId} {tls : Tls} {cell : CellId}
variable {removed : List Nat}

section Observations

/-- With no counted reader, no fallback read holds any value of the cell. -/
private theorem fallbackClear_of_zero
    (inv : MemInv memory)
    (zero : (memory.store.cells cell).fallbackReaders = 0) :
    FallbackClear memory cell removed := by
  intro address inner found isCell _ reader owned
  have active :=
    (inv.store.arcs address inner found).fallback_active reader owned
  have count := (inv.store.cells cell).fallback_count
  rw [zero] at count
  rw [isCell, List.length_eq_zero_iff.mp count.symm] at active
  cases active

/-- Every value with a removed handler that somebody protects is in the
retired list once the lock is held and nothing is in flight. -/
private theorem Blocking.mem_retired
    {thread : Tid} {record : RecordId} {index : Nat} {address : Addr}
    (inv : MemInv memory) (removedOk : RemovedOk memory cell removed)
    (locked : memory.Held call (.writer cell))
    (pushed : ∀ address, ¬ memory.Held call (.unlinked address))
    (blocking : Blocking memory cell thread removed record index address) :
    address ∈ (memory.store.cells cell).retired := by
  obtain ⟨announcement, claim, used, rfl, _, claimed, rfl, contains⟩ :=
    blocking
  have cellOk := inv.store.cells claim.cell
  have alive := inv.store.alive_of_writer locked
  obtain ⟨place, known, notFresh⟩ :=
    (inv.claims record index announcement claim used claimed).linked
  cases place with
  | fresh other => exact absurd rfl (notFresh other)
  | current =>
      have isCurrent := (cellOk.current_only _ _ known).2
      rw [← isCurrent, cellOk.current_alive alive] at known
      have version : (memory.store.cells claim.cell).version =
          claim.version := by
        simpa using known
      rw [← version] at contains
      exact absurd contains (not_contains_current inv removedOk alive)
  | unlinked other =>
      have writer := cellOk.unlinked_writer _ other _ known
      rw [show _ = _ from locked] at writer
      cases writer
      exact absurd (held_unlinked_of_tracked known) (pushed _)
  | retired => exact (cellOk.retired_iff _).mpr ⟨_, known⟩
  | freed other =>
      have impossible := (Store.tracked_eq_some_iff.mp known).1
      cases impossible
  | dropped =>
      have impossible := (Store.tracked_eq_some_iff.mp known).1
      cases impossible

theorem Blocking.used
    {thread : Tid} {record : RecordId} {index : Nat} {address : Addr}
    (blocking : Blocking memory cell thread removed record index address) :
    ∃ announcement,
      memory.domain.slot record index = some announcement ∧
        announcement.address = address ∧
        announcement.call.thread ≠ thread := by
  obtain ⟨announcement, claim, used, same, notOwn, _⟩ := blocking
  exact ⟨announcement, used, same, notOwn⟩

end Observations

section Steps

variable (inv : MemInv memory)
variable (own : ∀ record, tls.record = some record →
  OwnRecord memory call.thread record)

include inv own

/-- Moving between program points of the wait. -/
theorem waiting_sound
    {step next : WaitStep}
    (ok : FrameOk memory call (.waiting cell removed step))
    (same : next.holding cell = step.holding cell)
    (facts : WaitStepOk memory cell call.thread removed next) :
    Sound memory call (memory, tls, some (.waiting cell removed next)) := by
  refine Sound.of_same inv ok ?_ ⟨ok.facts.1, facts⟩ own
  intro holding
  simp [Frame.holding, same]

theorem waitPasses_sound
    {onFallback : Bool}
    (ok : FrameOk memory call
      (.waiting cell removed (.checkFallback onFallback)))
    (clear : onFallback = true ∨
      (memory.store.cells cell).fallbackReaders = 0) :
    Sound memory call
      (memory, tls, some (.waiting cell removed (.lock onFallback))) := by
  refine waiting_sound inv own ok rfl ?_
  intro isFalse
  rcases clear with isTrue | zero
  · rw [isFalse] at isTrue
    cases isTrue
  · exact fallbackClear_of_zero inv zero

theorem waitLock_sound
    {onFallback : Bool}
    (ok : FrameOk memory call (.waiting cell removed (.lock onFallback)))
    (free : (memory.store.cells cell).writer = none) :
    Sound memory call
      (memory.withStore (memory.store.lock cell call), tls,
        some (.waiting cell removed (.copy onFallback))) := by
  obtain ⟨removedOk, checked⟩ := ok.facts
  have active : memory.Held call (.active cell) :=
    (ok.held _).mpr (by simp [Frame.holding])
  have advance := advance_lock inv free active
  refine Sound.of_frame ok advance ?_
    ⟨removedOk.stable advance,
      FallbackChecked.stable advance removedOk checked,
      lenOk_lock inv free⟩
    (fun record same => (own record same).withStore _)
  intro holding
  simp [Frame.holding, WaitStep.holding]

theorem waitCopy_sound
    {onFallback : Bool}
    (ok : FrameOk memory call (.waiting cell removed (.copy onFallback))) :
    Sound memory call
      (memory.withStore (memory.store.unlock cell), tls,
        some (.waiting cell removed
          (.each onFallback (memory.store.cells cell).retired))) := by
  obtain ⟨removedOk, checked, length⟩ := ok.facts
  have locked : memory.Held call (.writer cell) :=
    (ok.held _).mpr (by simp [Frame.holding, WaitStep.holding])
  have pushed : ∀ address, ¬ memory.Held call (.unlinked address) := by
    intro address
    rw [ok.held]
    simp [Frame.holding, WaitStep.holding]
  have advance := advance_unlock inv locked length
    (fun address => by
      rw [ok.held]
      simp [Frame.holding, WaitStep.holding]) pushed
  refine Sound.of_frame ok advance ?_
    ⟨removedOk.stable advance, checked.stable advance removedOk, ?_⟩
    (fun record same => (own record same).withStore _)
  · intro holding
    cases holding <;> simp [Frame.holding, WaitStep.holding]
  · intro record index address blocking
    exact (blocking.back advance inv removedOk).mem_retired inv removedOk
      locked pushed

theorem waitDone_sound
    {onFallback : Bool}
    (ok : FrameOk memory call
      (.waiting cell removed (.each onFallback []))) :
    Sound memory call
      (memory, tls,
        some (.returned cell (.waited onFallback removed))) := by
  obtain ⟨removedOk, checked, covered⟩ := ok.facts
  refine Sound.of_same inv ok (fun _ => Iff.rfl)
    ⟨removedOk, checked, ?_⟩ own
  intro record index address blocking
  cases covered record index address blocking

theorem waitEach_sound
    {onFallback : Bool} {address : Addr} {retired : List Addr}
    (ok : FrameOk memory call
      (.waiting cell removed (.each onFallback (address :: retired)))) :
    Sound memory call
      (memory, tls,
        some (.waiting cell removed
          (.scan onFallback address retired memory.domain.head 0
            false))) := by
  obtain ⟨_, checked, covered⟩ := ok.facts
  refine waiting_sound inv own ok rfl ⟨checked, cursorOk_head inv, ?_⟩
  intro record index blocked blocking
  obtain ⟨announcement, used, _⟩ := blocking.used
  rcases List.mem_cons.mp (covered record index blocked blocking) with
    same | later
  · exact Or.inr ⟨same, Or.inr (ahead_head inv used)⟩
  · exact Or.inl later

section Scan

variable {onFallback found : Bool} {address : Addr} {retired : List Addr}
variable {record : RecordId} {index : Nat}
variable (ok : FrameOk memory call (.waiting cell removed
  (.scan onFallback address retired (some record) index found)))

include ok

/-- The thread's own record announces nothing that blocks it, and behind the
last slot of another one nothing is announced. -/
theorem waitRecord_sound
    (done : tls.record = some record ∨ SLOTS ≤ index) :
    Sound memory call
      (memory, tls,
        some (.waiting cell removed
          (.scan onFallback address retired
            (memory.domain.records record).next 0 found))) := by
  obtain ⟨_, checked, cursorOk, covered⟩ := ok.facts
  have published := cursorOk record rfl
  refine waiting_sound inv own ok rfl
    ⟨checked, cursorOk_next inv published, ?_⟩
  intro other position blocked blocking
  rcases covered other position blocked blocking with
    later | ⟨same, seen | ahead⟩
  · exact Or.inl later
  · exact Or.inr ⟨same, Or.inl seen⟩
  · refine Or.inr ⟨same, Or.inr ?_⟩
    refine ahead.advance_node inv.domain.nodup (next_eq inv published) ?_
    obtain ⟨announcement, used, _, notOwn⟩ := blocking.used
    obtain ⟨owner, _, bound⟩ :=
      inv.domain.announced other position announcement used
    rcases done with isOwn | finished
    · refine Or.inl ?_
      rintro rfl
      rw [(own other isOwn).owned] at owner
      exact notOwn (Option.some.inj owner).symm
    · exact Or.inr (Nat.lt_of_lt_of_le bound finished)

theorem waitFound_sound :
    Sound memory call
      (memory, tls,
        some (.waiting cell removed
          (.scan onFallback address retired (some record) SLOTS
            true))) := by
  obtain ⟨_, checked, cursorOk, covered⟩ := ok.facts
  refine waiting_sound inv own ok rfl ⟨checked, cursorOk, ?_⟩
  intro other position blocked blocking
  rcases covered other position blocked blocking with later | ⟨same, _⟩
  · exact Or.inl later
  · exact Or.inr ⟨same, Or.inl rfl⟩

theorem waitSlot_sound
    (different : ¬ (memory.domain.slot record index).map
      Announcement.address = some address) :
    Sound memory call
      (memory, tls,
        some (.waiting cell removed
          (.scan onFallback address retired (some record) (index + 1)
            found))) := by
  obtain ⟨_, checked, cursorOk, covered⟩ := ok.facts
  refine waiting_sound inv own ok rfl ⟨checked, cursorOk, ?_⟩
  intro other position blocked blocking
  rcases covered other position blocked blocking with
    later | ⟨same, seen | ahead⟩
  · exact Or.inl later
  · exact Or.inr ⟨same, Or.inl seen⟩
  · rcases ahead.advance_slot with ⟨rfl, rfl⟩ | later
    · obtain ⟨announcement, used, isBlocked, _⟩ := blocking.used
      refine absurd ?_ different
      simp [used, isBlocked, same]
    · exact Or.inr ⟨same, Or.inr later⟩

end Scan

theorem waitNext_sound
    {onFallback : Bool} {address : Addr} {retired : List Addr} {index : Nat}
    (ok : FrameOk memory call (.waiting cell removed
      (.scan onFallback address retired none index false))) :
    Sound memory call
      (memory, tls,
        some (.waiting cell removed (.each onFallback retired))) := by
  obtain ⟨_, checked, _, covered⟩ := ok.facts
  refine waiting_sound inv own ok rfl ⟨checked, ?_⟩
  intro record position blocked blocking
  rcases covered record position blocked blocking with
    later | ⟨_, seen | impossible⟩
  · exact later
  · cases seen
  · exact impossible.elim

end Steps

end RegistryIo.Snapshot
