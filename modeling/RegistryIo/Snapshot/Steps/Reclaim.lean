import RegistryIo.Snapshot.Steps.Protect

/-!
# Steps of `try_reclaim` and `collect_unprotected`

The scan of the announcements under the writer lock, and the drop of the batch
after the lock was released.
-/

namespace RegistryIo.Snapshot

variable {memory : Memory} {call : CallId} {tls : Tls} {cell : CellId}

section Collect

variable (inv : MemInv memory)
variable (own : ∀ record, tls.record = some record →
  OwnRecord memory call.thread record)

include inv own

theorem afterRelease_sound
    {frame : Frame} {handle : Option Addr} (ok : FrameOk memory call frame)
    (holdings : ∀ holding, holding ∈ frame.holding ↔
      holding ∈ .active cell :: handle.toList.map Holding.loaded) :
    Sound memory call (memory, tls, some (afterRelease cell handle)) := by
  cases handle with
  | none =>
      exact Sound.of_same inv ok (fun holding => (holdings holding).symm)
        trivial own
  | some address =>
      exact Sound.of_same inv ok (fun holding => (holdings holding).symm)
        trivial own

theorem tryLockTaken_sound
    {handle : Option Addr}
    (ok : FrameOk memory call (.tryLock cell handle))
    (free : (memory.store.cells cell).writer = none) :
    Sound memory call
      (memory.withStore (memory.store.lock cell call), tls,
        some (.collect cell (.reclaim handle) .start)) := by
  have active : memory.Held call (.active cell) :=
    (ok.held _).mpr (by simp [Frame.holding])
  refine Sound.of_frame ok (advance_lock inv free active) ?_
    ⟨trivial, trivial⟩ (fun record same => (own record same).withStore _)
  intro holding
  cases holding <;>
    simp [Frame.holding, Collector.active, Collector.holding,
      CollectStep.holding]

/-- Moving between program points of the scan. -/
theorem collecting_sound
    {collector : Collector} {step next : CollectStep}
    (ok : FrameOk memory call (.collect cell collector step))
    (same : next.holding = step.holding)
    (facts : CollectStepOk memory cell next) :
    Sound memory call
      (memory, tls, some (.collect cell collector next)) := by
  refine Sound.of_same inv ok ?_ ⟨ok.facts.1, facts⟩ own
  intro holding
  simp [Frame.holding, same]

omit own in
theorem ScanOk.start :
    ScanOk memory cell memory.domain.head 0 [] where
  cursor_ok := cursorOk_head inv
  covered := by
    intro record position announcement claim used _ _ _
    exact Or.inr (ahead_head inv used)

omit inv own in
/-- One slot is read. -/
theorem ScanOk.read
    {record : RecordId} {index : Nat} {announced : List Addr}
    (ok : ScanOk memory cell (some record) index announced) :
    ScanOk memory cell (some record) (index + 1)
      (announced ++ ((memory.domain.slot record index).map
        Announcement.address).toList) where
  cursor_ok := ok.cursor_ok
  covered := by
    intro other position announcement claim used claimed isCell isRetired
    rcases ok.covered other position announcement claim used claimed isCell
      isRetired with seen | ahead
    · exact Or.inl (List.mem_append_left _ seen)
    · rcases ahead.advance_slot with ⟨rfl, rfl⟩ | later
      · refine Or.inl (List.mem_append_right _ ?_)
        simp [used]
      · exact Or.inr later

omit own in
/-- All slots of a record were read. -/
theorem ScanOk.step
    {record : RecordId} {index : Nat} {announced : List Addr}
    (ok : ScanOk memory cell (some record) index announced)
    (finished : SLOTS ≤ index) :
    ScanOk memory cell (memory.domain.records record).next 0 announced where
  cursor_ok := cursorOk_next inv (ok.cursor_ok record rfl)
  covered := by
    intro other position announcement claim used claimed isCell isRetired
    rcases ok.covered other position announcement claim used claimed isCell
      isRetired with seen | ahead
    · exact Or.inl seen
    · have bound := (inv.domain.announced other position announcement used).2.2
      exact Or.inr (ahead.advance_node inv.domain.nodup
        (next_eq inv (ok.cursor_ok record rfl))
        (Or.inr (Nat.lt_of_lt_of_le bound finished)))

omit inv own in
theorem ScanOk.complete
    {index : Nat} {announced : List Addr}
    (ok : ScanOk memory cell none index announced) :
    ScanComplete memory cell announced := by
  intro record position announcement claim used claimed isCell isRetired
  rcases ok.covered record position announcement claim used claimed isCell
    isRetired with seen | impossible
  · exact seen
  · exact impossible.elim

theorem collectEnd_sound
    {collector : Collector} {index : Nat} {announced : List Addr}
    (ok : FrameOk memory call
      (.collect cell collector (.scan none index announced))) :
    Sound memory call
      (memory.withStore (memory.store.collect cell announced call), tls,
        some (.collect cell collector (.storeLen
          (Store.collectUnprotected announced
            (memory.store.cells cell).retired).2))) := by
  obtain ⟨collectorOk, scanOk⟩ := ok.facts
  have locked : memory.Held call (.writer cell) :=
    (ok.held _).mpr (by simp [Frame.holding])
  have advance := advance_collect inv locked (ScanOk.complete scanOk)
  refine Sound.of_frame ok advance ?_
    ⟨collectorOk.stable advance,
      (Store.collectUnprotected_nodup
        (inv.store.cells cell).retired_nodup).2⟩
    (fun record same => (own record same).withStore _)
  intro holding
  simp [Frame.holding, CollectStep.holding, or_assoc]

theorem collectLen_sound
    {collector : Collector} {freed : List Addr}
    (ok : FrameOk memory call (.collect cell collector (.storeLen freed))) :
    Sound memory call
      (memory.withStore (memory.store.storeRetiredLen cell), tls,
        some (.collect cell collector (.unlock freed))) := by
  obtain ⟨collectorOk, nodup⟩ := ok.facts
  have locked : memory.Held call (.writer cell) :=
    (ok.held _).mpr (by simp [Frame.holding])
  have advance := advance_storeRetiredLen inv locked
  refine Sound.of_frame ok advance
    (by simp [Frame.holding, CollectStep.holding])
    ⟨collectorOk.stable advance, nodup, ?_⟩
    (fun record same => (own record same).withStore _)
  simp [LenOk, Memory.withStore, Store.storeRetiredLen, Store.setCell]

theorem collectUnlock_sound
    {collector : Collector} {freed : List Addr}
    (ok : FrameOk memory call (.collect cell collector (.unlock freed))) :
    Sound memory call
      (memory.withStore (memory.store.unlock cell), tls,
        some (.dropping cell collector freed)) := by
  obtain ⟨collectorOk, nodup, length⟩ := ok.facts
  have locked : memory.Held call (.writer cell) :=
    (ok.held _).mpr (by simp [Frame.holding])
  have unheld : ∀ holding, holding ∉ Frame.holding
      (.collect cell collector (.unlock freed)) →
      ¬ memory.Held call holding := by
    intro holding absent held
    exact absent ((ok.held holding).mp held)
  have advance := advance_unlock inv locked length
    (fun address => unheld _ (by
      cases collector <;>
        simp [Frame.holding, Collector.active, Collector.holding,
          CollectStep.holding]))
    (fun address => unheld _ (by
      cases collector <;>
        simp [Frame.holding, Collector.active, Collector.holding,
          CollectStep.holding]))
  refine Sound.of_frame ok advance ?_ ⟨collectorOk.stable advance, nodup⟩
    (fun record same => (own record same).withStore _)
  intro holding
  cases collector <;> cases holding <;>
    simp [Frame.holding, Collector.active, Collector.holding,
      CollectStep.holding]

end Collect

section Dropping

variable (inv : MemInv memory)
variable (own : ∀ record, tls.record = some record →
  OwnRecord memory call.thread record)

include inv own

/-- One value of the batch is dropped. -/
theorem dropFreed_sound
    {collector next : Collector} {address : Addr} {freed : List Addr}
    (ok : FrameOk memory call (.dropping cell collector (address :: freed)))
    (active : next.active cell = collector.active cell)
    (holding : next.holding = collector.holding)
    (facts : CollectorOk memory cell collector →
      CollectorOk memory cell next) :
    Sound memory call
      (memory.withStore (memory.store.dropOwner address .cell), tls,
        some (.dropping cell next freed)) := by
  obtain ⟨collectorOk, nodup⟩ := ok.facts
  have held : memory.Held call (.freed address) :=
    (ok.held _).mpr (by simp [Frame.holding])
  obtain ⟨inner, found, place⟩ := Store.heap_of_place held
  have owned : .cell ∈ inner.owners := by
    rw [(inv.store.arcs address inner found).cell_iff, place]
    simp
  have advance : Advance call [] [.freed address] memory
      (memory.withStore (memory.store.dropOwner address .cell)) :=
    advance_dropOwner inv found owned
      (Or.inr (Or.inr ⟨rfl, place, rfl⟩))
  have absent := (List.nodup_cons.mp nodup).1
  refine Sound.of_frame ok advance ?_
    ⟨(facts collectorOk).stable advance, (List.nodup_cons.mp nodup).2⟩
    (fun record same => (own record same).withStore _)
  intro target
  rw [Frame.holding, Frame.holding, active, holding]
  cases target <;> cases collector <;>
    simp [Collector.active, Collector.holding]
  all_goals
    rename_i other
    constructor
    · intro member
      refine ⟨Or.inr member, ?_⟩
      rintro rfl
      exact absent member
    · rintro ⟨same | member, different⟩
      · exact absurd same different
      · exact member

theorem dropPanics_sound
    {collector : Collector} {address : Addr} {freed : List Addr}
    (ok : FrameOk memory call
      (.dropping cell collector (address :: freed))) :
    Sound memory call
      (memory.withStore (memory.store.dropOwner address .cell), tls,
        some (.dropping cell collector.unwound freed)) := by
  refine dropFreed_sound inv own ok ?_ ?_ ?_ <;>
    cases collector <;>
    simp [Collector.unwound, Collector.active, Collector.holding,
      CollectorOk]

theorem dropReclaimed_sound
    {handle : Option Addr}
    (ok : FrameOk memory call (.dropping cell (.reclaim handle) [])) :
    Sound memory call (memory, tls, some (afterRelease cell handle)) := by
  refine afterRelease_sound inv own ok ?_
  simp [Frame.holding, Collector.active, Collector.holding]

theorem dropWaits_sound
    {effect : Effect}
    (ok : FrameOk memory call (.dropping cell (.update true effect) [])) :
    Sound memory call
      (memory, tls, some (.waiting cell effect.removed .start)) := by
  have effectOk : EffectOk memory cell effect := ok.facts.1
  refine Sound.of_same inv ok ?_ ⟨effectOk.removed, trivial⟩ own
  simp [Frame.holding, Collector.active, Collector.holding,
    WaitStep.holding]

theorem dropWrote_sound
    {effect : Effect}
    (ok : FrameOk memory call (.dropping cell (.update false effect) [])) :
    Sound memory call
      (memory, tls, some (.returned cell (.wrote effect))) := by
  refine Sound.of_same inv ok ?_ ok.facts.1 own
  simp [Frame.holding, Collector.active, Collector.holding]

theorem dropCell_sound
    (ok : FrameOk memory call (.dropping cell .drop [])) :
    Sound memory call (memory, tls, none) := by
  refine ⟨⟨[], [], Advance.refl call inv⟩, by simp, ?_, own⟩
  intro _ holding held
  have member := (ok.held holding).mp held
  simp [Frame.holding, Collector.active, Collector.holding] at member

theorem dropDone_sound
    (ok : FrameOk memory call (.dropping cell (.discard none) [])) :
    Sound memory call (memory, tls, some (.returned cell .done)) := by
  refine Sound.of_same inv ok ?_ trivial own
  simp [Frame.holding, Collector.active, Collector.holding]

theorem dropHandle_sound
    {address : Addr}
    (ok : FrameOk memory call
      (.dropping cell (.discard (some address)) [])) :
    Sound memory call
      (memory.withStore (memory.store.dropOwner address (.load call)), tls,
        some (.dropping cell (.discard none) [])) := by
  have held : memory.Held call (.loaded address) :=
    (ok.held _).mpr (by simp [Frame.holding, Collector.holding])
  obtain ⟨inner, found, owned⟩ := Store.heap_of_mem_owners held
  refine Sound.of_frame ok
    (advance_dropOwner inv found owned (Or.inr (Or.inl ⟨rfl, rfl⟩))) ?_
    ⟨trivial, List.nodup_nil⟩
    (fun record same => (own record same).withStore _)
  intro holding
  cases holding <;>
    simp [Frame.holding, Collector.active, Collector.holding]

theorem handOver_sound
    {address : Addr} (ok : FrameOk memory call (.handOver cell address)) :
    Sound memory call
      (memory.withStore (memory.store.giveHandle address call), tls,
        some (.returned cell .done)) := by
  have held : memory.Held call (.loaded address) :=
    (ok.held _).mpr (by simp [Frame.holding])
  refine Sound.of_frame ok (advance_giveHandle inv held) ?_ trivial
    (fun record same => (own record same).withStore _)
  intro holding
  cases holding <;> simp [Frame.holding]

theorem returned_sound
    {outcome : Outcome} (ok : FrameOk memory call (.returned cell outcome)) :
    Sound memory call
      (memory.withStore (memory.store.endCall cell call), tls, none) := by
  have advance : Advance call [] [.active cell] memory
      (memory.withStore (memory.store.endCall cell call)) := by
    refine advance_endCall inv ?_ ?_
    · rw [ok.held]
      simp [Frame.holding]
    · intro pin
      rw [ok.held]
      simp [Frame.holding]
  refine ⟨⟨_, _, advance⟩, by simp, ?_,
    fun record same => (own record same).withStore _⟩
  intro _ holding
  rw [advance.transfer call holding, ok.held]
  simp [Frame.holding]

theorem exitSlot_sound
    {record : RecordId} {index : Nat}
    (ok : FrameOk memory call (.exiting record index))
    (inside : index < SLOTS) :
    Sound memory call
      (memory.clearPin ⟨record, index⟩, tls,
        some (.exiting record (index + 1))) := by
  obtain ⟨owned, null⟩ := ok.facts
  have slots : ∀ other position,
      (memory.domain.setSlot record index none).slot other position =
        memory.domain.slot other position := by
    intro other position
    rw [Domain.slot_setSlot]
    split
    · rename_i same
      rw [same.1, null]
    · rfl
  have advance : Advance call [] [] memory
      (memory.clearPin ⟨record, index⟩) := by
    refine Advance.of_slot ⟨record, index⟩ inv owned.owned owned.published
      inside ?_ (by simp) (transfer_of_slots slots) (by simp)
    intro announcement used
    rw [null] at used
    cases used
  refine Sound.of_frame ok advance (by simp [Frame.holding])
    ⟨owned.setSlot record index none, ?_⟩
    (fun other same => (own other same).setSlot record index none)
  intro position
  exact (slots record position).trans (null position)

omit own in
theorem exitRelease_sound
    {record : RecordId} {index : Nat}
    (ok : FrameOk memory call (.exiting record index)) :
    Sound memory call
      (memory.withDomain (memory.domain.release record),
        { tls with record := none, localGone := true }, none) := by
  obtain ⟨owned, null⟩ := ok.facts
  have advance := advance_release inv owned.owned null
  refine ⟨⟨_, _, advance⟩, by simp, ?_, by simp⟩
  intro _ holding
  rw [advance.transfer call holding, ok.held]
  simp [Frame.holding]

end Dropping

end RegistryIo.Snapshot
