import RegistryIo.Snapshot.Steps.Update

/-!
# Steps of `read_fallback` and `load_arc_locked`
-/

namespace RegistryIo.Snapshot

variable {memory : Memory} {call : CallId} {tls : Tls} {cell : CellId}

variable (inv : MemInv memory)
variable (own : ∀ record, tls.record = some record →
  OwnRecord memory call.thread record)

include inv own

theorem enterFallback_sound
    {notify : Bool} {depth : Nat}
    (ok : FrameOk memory call (.enterFallback cell notify)) :
    Sound memory call
      (memory.withStore (memory.store.enterFallback cell call),
        { tls with fallbackDepth := depth },
        some (.locked cell (.read notify) .lock)) := by
  have fresh : ¬ memory.Held call (.fallback cell) := by
    rw [ok.held]
    simp [Frame.holding]
  refine Sound.of_frame ok (advance_enterFallback inv fresh) ?_ trivial
    (fun record same => (own record same).withStore _)
  intro holding
  simp [Frame.holding, Reader.holding, LockedStep.holding]

omit own in
/-- The value in `current` while the call holds the writer lock. -/
theorem current_of_locked
    (active : memory.Held call (.active cell)) :
    ∃ inner,
      memory.store.heap (memory.store.cells cell).current = some inner ∧
        inner.cell = cell ∧ inner.place = .current ∧
        inner.version = (memory.store.cells cell).version :=
  inv.store.current_inner
    ((inv.store.cells cell).active_alive call active)

omit own in
/-- The counted value is the one in `current`, and the lock keeps it there. -/
private theorem lockedStepOk_addOwner
    {address : Addr} {version : Nat} {owner : Owner}
    (ok : LockedStepOk memory cell (.increment address version))
    (active : memory.Held call (.active cell)) :
    LockedStepOk (memory.withStore (memory.store.addOwner address owner))
      cell (.unlock address version) := by
  obtain ⟨length, isCurrent, isVersion⟩ := ok
  obtain ⟨inner, found, _⟩ := current_of_locked inv active
  rw [← isCurrent] at found
  have cells :
      (memory.store.addOwner address owner).cells = memory.store.cells := by
    simp [Store.addOwner, found, Store.setArc]
  simpa [LockedStepOk, LenOk, Memory.withStore, cells]
    using ⟨length, isCurrent, isVersion⟩

theorem lockedLock_sound
    {reader : Reader} (ok : FrameOk memory call (.locked cell reader .lock))
    (free : (memory.store.cells cell).writer = none) :
    Sound memory call
      (memory.withStore (memory.store.lock cell call), tls,
        some (.locked cell reader .load)) := by
  have active : memory.Held call (.active cell) :=
    (ok.held _).mpr (by simp [Frame.holding])
  refine Sound.of_frame ok (advance_lock inv free active) ?_
    (lenOk_lock inv free) (fun record same => (own record same).withStore _)
  intro holding
  simp [Frame.holding, LockedStep.holding, or_assoc]

theorem lockedCountRead_sound
    {notify : Bool} {address : Addr} {version : Nat}
    (ok : FrameOk memory call
      (.locked cell (.read notify) (.increment address version))) :
    Sound memory call
      (memory.withStore (memory.store.addOwner address (.fallback call)),
        tls,
        some (.locked cell (.read notify) (.unlock address version))) := by
  have stepOk : LockedStepOk memory cell (.increment address version) :=
    ok.facts
  have active : memory.Held call (.active cell) :=
    (ok.held _).mpr (by simp [Frame.holding])
  obtain ⟨inner, found, sameCell, place, _⟩ := current_of_locked inv active
  rw [← stepOk.2.1] at found
  have counted : memory.Held call (.fallback inner.cell) := by
    rw [sameCell]
    exact (ok.held _).mpr (by simp [Frame.holding, Reader.holding])
  have fresh : ¬ memory.Held call (.shared address) := by
    rw [ok.held]
    simp [Frame.holding, Reader.holding, LockedStep.holding]
  refine Sound.of_frame ok (advance_share inv found place counted fresh) ?_
    (lockedStepOk_addOwner inv stepOk active)
    (fun record same => (own record same).withStore _)
  intro holding
  simp [Frame.holding, Reader.holding, LockedStep.holding,
    Reader.reference, or_assoc]

theorem lockedCountLoad_sound
    {address : Addr} {version : Nat}
    (ok : FrameOk memory call
      (.locked cell .loadArcIf (.increment address version))) :
    Sound memory call
      (memory.withStore (memory.store.addOwner address (.load call)), tls,
        some (.locked cell .loadArcIf (.unlock address version))) := by
  have stepOk : LockedStepOk memory cell (.increment address version) :=
    ok.facts
  have active : memory.Held call (.active cell) :=
    (ok.held _).mpr (by simp [Frame.holding])
  obtain ⟨inner, found, _⟩ := current_of_locked inv active
  rw [← stepOk.2.1] at found
  have fresh : ¬ memory.Held call (.loaded address) := by
    rw [ok.held]
    simp [Frame.holding, Reader.holding, LockedStep.holding]
  refine Sound.of_frame ok (advance_load inv found fresh) ?_
    (lockedStepOk_addOwner inv stepOk active)
    (fun record same => (own record same).withStore _)
  intro holding
  simp [Frame.holding, Reader.holding, LockedStep.holding,
    Reader.reference, or_assoc]

omit own in
/-- The call holds its own reference, so the value outlives the lock. -/
private theorem refers_unlock
    {address : Addr} {version : Nat}
    (ok : LockedStepOk memory cell (.unlock address version))
    (active : memory.Held call (.active cell)) :
    Refers (memory.withStore (memory.store.unlock cell)) cell address
      version := by
  obtain ⟨_, isCurrent, isVersion⟩ := ok
  obtain ⟨inner, found, sameCell, _, sameVersion⟩ :=
    current_of_locked inv active
  rw [← isCurrent] at found
  exact ⟨inner, found, sameCell, sameVersion.trans isVersion.symm⟩

omit own in
private theorem advance_lockedUnlock
    {reader : Reader} {address : Addr} {version : Nat}
    (ok : FrameOk memory call
      (.locked cell reader (.unlock address version))) :
    Advance call [] [.writer cell] memory
      (memory.withStore (memory.store.unlock cell)) := by
  have stepOk : LockedStepOk memory cell (.unlock address version) :=
    ok.facts
  have locked : memory.Held call (.writer cell) :=
    (ok.held _).mpr (by simp [Frame.holding, LockedStep.holding])
  refine advance_unlock inv locked stepOk.1 ?_ ?_
  · intro address
    rw [ok.held]
    cases reader <;>
      simp [Frame.holding, Reader.holding, LockedStep.holding,
        Reader.reference]
  · intro address
    rw [ok.held]
    cases reader <;>
      simp [Frame.holding, Reader.holding, LockedStep.holding,
        Reader.reference]

theorem lockedRead_sound
    {notify : Bool} {address : Addr} {version : Nat}
    (ok : FrameOk memory call
      (.locked cell (.read notify) (.unlock address version))) :
    Sound memory call
      (memory.withStore (memory.store.unlock cell), tls,
        some (.fallbackReading cell address version
          (Body.start notify (memory.store.deref address)))) := by
  have stepOk : LockedStepOk memory cell (.unlock address version) :=
    ok.facts
  have active : memory.Held call (.active cell) :=
    (ok.held _).mpr (by simp [Frame.holding])
  have alive : (memory.store.cells cell).phase = .alive :=
    ok.alive inv (by simp [Frame.holding])
  refine Sound.of_frame ok (advance_lockedUnlock inv ok) ?_
    ⟨refers_unlock inv stepOk active, ?_⟩
    (fun record same => (own record same).withStore _)
  · intro holding
    cases holding <;>
      simp [Frame.holding, Reader.holding, LockedStep.holding,
        Reader.reference]
  · have list : memory.store.deref address =
        memory.store.values version := by
      rw [stepOk.2.1, stepOk.2.2]
      exact deref_current inv alive
    unfold BodyOk
    rw [list]
    exact remaining_start notify _

theorem lockedKeep_sound
    {address : Addr} {version : Nat}
    (ok : FrameOk memory call
      (.locked cell .loadArcIf (.unlock address version))) :
    Sound memory call
      (memory.withStore (memory.store.unlock cell), tls,
        some (.lockedKeep cell address version)) := by
  have active : memory.Held call (.active cell) :=
    (ok.held _).mpr (by simp [Frame.holding])
  refine Sound.of_frame ok (advance_lockedUnlock inv ok) ?_
    (refers_unlock inv ok.facts active)
    (fun record same => (own record same).withStore _)
  intro holding
  cases holding <;>
    simp [Frame.holding, Reader.holding, LockedStep.holding,
      Reader.reference]

/-- The closure returns or unwinds, and the reference is given up. -/
theorem fallbackEnd_sound
    {address : Addr} {version : Nat} {body : Body}
    (ok : FrameOk memory call
      (.fallbackReading cell address version body)) :
    Sound memory call
      (memory.withStore (memory.store.dropOwner address (.fallback call)),
        tls, some (.leaveFallback cell)) := by
  have held : memory.Held call (.shared address) :=
    (ok.held _).mpr (by simp [Frame.holding])
  obtain ⟨inner, found, owned⟩ := Store.heap_of_mem_owners held
  refine Sound.of_frame ok
    (advance_dropOwner inv found owned (Or.inl ⟨rfl, rfl⟩)) ?_ trivial
    (fun record same => (own record same).withStore _)
  intro holding
  cases holding <;> simp [Frame.holding]

theorem fallbackBody_sound
    {address : Addr} {version : Nat} {body body' : Body} {act : Act}
    (ok : FrameOk memory call (.fallbackReading cell address version body))
    (inside : bodyStep body act = some body') :
    Sound memory call
      (memory, tls, some (.fallbackReading cell address version body')) :=
  Sound.of_same inv ok (fun _ => Iff.rfl)
    ⟨ok.facts.1, (bodyStep_remaining inside).trans ok.facts.2⟩ own

theorem leaveFallback_sound
    {depth : Nat} (ok : FrameOk memory call (.leaveFallback cell)) :
    Sound memory call
      (memory.withStore (memory.store.leaveFallback cell call),
        { tls with fallbackDepth := depth },
        some (.returned cell .done)) := by
  have counted : memory.Held call (.fallback cell) :=
    (ok.held _).mpr (by simp [Frame.holding])
  have dropped : ∀ address, ¬ memory.Held call (.shared address) := by
    intro address
    rw [ok.held]
    simp [Frame.holding]
  refine Sound.of_frame ok (advance_leaveFallback inv counted dropped) ?_
    trivial (fun record same => (own record same).withStore _)
  intro holding
  cases holding <;> simp [Frame.holding]

theorem lockedReject_sound
    {address : Addr} {version : Nat}
    (ok : FrameOk memory call (.lockedKeep cell address version)) :
    Sound memory call
      (memory, tls,
        some (.dropping cell (.discard (some address)) [])) := by
  refine Sound.of_same inv ok ?_ ⟨trivial, List.nodup_nil⟩ own
  simp [Frame.holding, Collector.active, Collector.holding]

end RegistryIo.Snapshot
