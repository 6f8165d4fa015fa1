import RegistryIo.Snapshot.Steps.Sound

/-!
# Steps of `protect`, `read` and `load_arc_if`

Acquiring a record, announcing, validating, running the closure under the
announcement and clearing the slot.
-/

namespace RegistryIo.Snapshot

variable {memory : Memory} {call : CallId} {tls : Tls}
variable {cell : CellId} {reader : Reader} {address : Addr}

section Pin

variable (inv : MemInv memory)
variable (own : ∀ record, tls.record = some record →
  OwnRecord memory call.thread record)

include inv own

theorem slowPath_sound
    (ok : FrameOk memory call (.pinning cell reader address .findSlot)) :
    Sound memory call (memory, tls, some (slowPath cell reader)) := by
  cases reader with
  | read notify => exact Sound.of_same inv ok (fun _ => Iff.rfl) trivial own
  | loadArcIf => exact Sound.of_same inv ok (fun _ => Iff.rfl) trivial own

/-- Moving between program points of `acquire_record`. -/
theorem pinning_sound
    {step next : PinStep}
    (ok : FrameOk memory call (.pinning cell reader address step))
    (facts : PinStepOk memory call.thread next) :
    Sound memory call
      (memory, tls, some (.pinning cell reader address next)) :=
  Sound.of_same inv ok (fun _ => Iff.rfl) facts own

theorem pinSlot_sound
    {record : RecordId} {index : Nat}
    (ok : FrameOk memory call (.pinning cell reader address .findSlot))
    (isRecord : tls.record = some record)
    (free : memory.domain.freeSlot record = some index) :
    Sound memory call
      (memory.withDomain (memory.domain.setSlot record index
          (some ⟨address, call, none⟩)), tls,
        some (.validate cell reader address ⟨record, index⟩)) := by
  obtain ⟨bound, null⟩ := Domain.freeSlot_eq_some free
  have owned := own record isRecord
  have advance : Advance call [.pin ⟨record, index⟩] [] memory
      (memory.withDomain (memory.domain.setSlot record index
        (some ⟨address, call, none⟩))) := by
    refine Advance.of_slot ⟨record, index⟩ inv owned.owned
      owned.published bound ?_ ?_ (transfer_announce null) ?_
    · intro announcement used
      rw [null] at used
      cases used
    · intro announcement same
      cases same
      rfl
    · intro announcement claim same claimed
      cases same
      cases claimed
  refine Sound.of_frame ok advance ?_ ?_ ?_
  · intro holding
    simp [Frame.holding]
  · simp [FrameFacts, Announces, Memory.withDomain]
  · intro other same
    exact (own other same).setSlot record index _

theorem claimFree_sound
    {record : RecordId}
    (ok : FrameOk memory call
      (.pinning cell reader address (.tryClaim (some record) none)))
    (free : (memory.domain.records record).inUse = false) :
    Sound memory call
      (memory.withDomain (memory.domain.claim record call.thread), tls,
        some (.pinning cell reader address
          (.advance record (some record)))) := by
  have published := ok.facts.1 record rfl
  refine Sound.of_frame ok (advance_claim inv published free)
    (by simp [Frame.holding]) ?_ ?_
  · refine ⟨published, ?_⟩
    intro other same
    cases same
    refine ⟨?_, published⟩
    simp [Memory.withDomain, Domain.claim, Domain.setRecord]
  · intro other same
    exact (own other same).claim record

omit own in
theorem claimReturn_sound
    {reused : RecordId}
    (ok : FrameOk memory call
      (.pinning cell reader address (.tryClaim none (some reused)))) :
    Sound memory call
      (memory, { tls with record := some reused },
        some (.pinning cell reader address .findSlot)) := by
  refine Sound.of_same inv ok (fun _ => Iff.rfl) trivial ?_
  intro other same
  cases same
  exact ok.facts.2 reused rfl

theorem claimAllocate_sound
    (ok : FrameOk memory call
      (.pinning cell reader address (.tryClaim none none))) :
    Sound memory call
      (memory.withDomain (memory.domain.allocate call.thread), tls,
        some (.pinning cell reader address
          (.loadHead memory.domain.allocated))) := by
  refine Sound.of_frame ok (advance_allocate inv)
    (by simp [Frame.holding]) ?_ ?_
  · refine ⟨?_, inv.domain.notMem_allocated⟩
    simp [Memory.withDomain, Domain.allocate]
  · intro record same
    exact (own record same).allocate inv call.thread

theorem publishLink_sound
    {record : RecordId} {head : Option RecordId}
    (ok : FrameOk memory call
      (.pinning cell reader address (.storeNext record head))) :
    Sound memory call
      (memory.withDomain (memory.domain.setNext record head), tls,
        some (.pinning cell reader address (.exchangeHead record head))) := by
  have new : NewRecord memory call.thread record := ok.facts
  refine Sound.of_frame ok
    (advance_setNext inv new.owned new.unpublished)
    (by simp [Frame.holding]) ?_ ?_
  · refine ⟨⟨?_, new.unpublished⟩, ?_⟩
    · simpa [Memory.withDomain, Domain.setNext, Domain.setRecord] using
        new.owned
    · simp [Memory.withDomain, Domain.setNext, Domain.setRecord]
  · intro other same
    exact (own other same).setNext record head

omit own in
theorem publish_sound
    {record : RecordId} {head : Option RecordId}
    (ok : FrameOk memory call
      (.pinning cell reader address (.exchangeHead record head)))
    (isHead : memory.domain.head = head) :
    Sound memory call
      (memory.withDomain (memory.domain.publish record),
        { tls with record := some record },
        some (.pinning cell reader address .findSlot)) := by
  obtain ⟨new, isNext⟩ := ok.facts
  refine Sound.of_frame ok
    (advance_publish inv new.owned new.unpublished
      (isNext.trans isHead.symm))
    (by simp [Frame.holding]) trivial ?_
  intro other same
  cases same
  exact ⟨new.owned, List.Mem.head _⟩

end Pin

section Validate

variable {pin : Pin} (inv : MemInv memory)
variable (own : ∀ record, tls.record = some record →
  OwnRecord memory call.thread record)

/-- The slot of a pin belongs to the thread. -/
theorem Announces.owned
    {old : Addr} {claim : Option Claim} (inv : MemInv memory)
    (announces : Announces memory call pin old claim) :
    OwnRecord memory call.thread pin.record ∧ pin.index < SLOTS := by
  obtain ⟨owned, published, bound⟩ :=
    inv.domain.announced pin.record pin.index _ announces
  exact ⟨⟨owned, published⟩, bound⟩

/-- The value of a validated announcement is allocated. -/
theorem Announces.found
    {version : Nat} (inv : MemInv memory)
    (announces : Announces memory call pin address (some ⟨cell, version⟩)) :
    Refers memory cell address version := by
  obtain ⟨place, known, _⟩ := (inv.claims pin.record pin.index _ _
    announces rfl).linked
  obtain ⟨_, inner, found, isCell, _, isVersion⟩ :=
    Store.tracked_eq_some_iff.mp known
  exact ⟨inner, found, isCell, isVersion⟩

/-- A store to the slot of the call. -/
private theorem advance_setSlot
    {old : Addr} {claim : Option Claim} {value : Option Announcement}
    {lost : List Holding} (inv : MemInv memory)
    (announces : Announces memory call pin old claim)
    (newOwn : ∀ announcement, value = some announcement →
      announcement.call = call)
    (transfer : Transfer call [] lost memory
      (memory.withDomain
        (memory.domain.setSlot pin.record pin.index value)))
    (claims : ∀ announcement claim, value = some announcement →
      announcement.claim = some claim →
        announcement.call ∈ (memory.store.cells claim.cell).active ∧
          announcement.address =
            (memory.store.cells claim.cell).current ∧
          claim.version = (memory.store.cells claim.cell).version) :
    Advance call [] lost memory
      (memory.withDomain
        (memory.domain.setSlot pin.record pin.index value)) := by
  obtain ⟨own, bound⟩ := announces.owned inv
  refine Advance.of_slot pin inv own.owned own.published bound ?_ newOwn
    transfer claims
  intro announcement used
  rw [show _ = _ from announces] at used
  cases used
  rfl

private theorem advance_clearPin
    {old : Addr} {claim : Option Claim} (inv : MemInv memory)
    (announces : Announces memory call pin old claim) :
    Advance call [] [.pin pin] memory (memory.clearPin pin) :=
  advance_setSlot inv announces (fun _ impossible => by cases impossible)
    (transfer_clearPin announces rfl)
    (fun _ _ impossible => by cases impossible)

theorem deref_current
    (inv : MemInv memory)
    (alive : (memory.store.cells cell).phase = .alive) :
    memory.store.deref (memory.store.cells cell).current =
      memory.store.values (memory.store.cells cell).version := by
  obtain ⟨inner, found, _, _, version⟩ := inv.store.current_inner alive
  rw [← version, (inv.store.arcs _ inner found).value_eq]
  simp [Store.deref, found]

theorem remaining_start (notify : Bool) (list : List Entry) :
    (Body.start notify list).remaining <:+ list := by
  cases notify with
  | false => exact List.nil_suffix
  | true => exact List.suffix_refl list

/-- The announcement is validated. -/
private theorem advance_validate
    (inv : MemInv memory) (announces : Announces memory call pin address none)
    (active : memory.Held call (.active cell))
    (isCurrent : (memory.store.cells cell).current = address) :
    Advance call [] [] memory
      (memory.withDomain (memory.domain.setSlot pin.record pin.index
        (some ⟨address, call,
          some ⟨cell, (memory.store.cells cell).version⟩⟩))) := by
  refine advance_setSlot inv announces ?_
    (transfer_reannounce announces rfl) ?_
  · intro announcement same
    cases same
    rfl
  · intro announcement claim same claimed
    cases same
    cases claimed
    exact ⟨active, isCurrent.symm, rfl⟩

private theorem announces_setSlot (claim : Option Claim) :
    Announces
      (memory.withDomain (memory.domain.setSlot pin.record pin.index
        (some ⟨address, call, claim⟩))) call pin address claim := by
  simp [Announces, Memory.withDomain]

include inv own

theorem validRead_sound
    {notify : Bool}
    (ok : FrameOk memory call (.validate cell (.read notify) address pin))
    (isCurrent : (memory.store.cells cell).current = address) :
    Sound memory call
      (memory.withDomain (memory.domain.setSlot pin.record pin.index
          (some ⟨address, call,
            some ⟨cell, (memory.store.cells cell).version⟩⟩)), tls,
        some (.reading cell address (memory.store.cells cell).version pin
          (Body.start notify (memory.store.deref address)))) := by
  have active : memory.Held call (.active cell) :=
    (ok.held _).mpr (by simp [Frame.holding])
  have alive : (memory.store.cells cell).phase = .alive :=
    ok.alive inv (by simp [Frame.holding])
  refine Sound.of_frame ok (advance_validate inv ok.facts active isCurrent)
    (by simp [Frame.holding]) ⟨announces_setSlot _, ?_⟩ ?_
  · unfold BodyOk
    rw [← isCurrent, deref_current inv alive]
    exact remaining_start notify _
  · intro other same
    exact (own other same).setSlot pin.record pin.index _

theorem validLoad_sound
    (ok : FrameOk memory call (.validate cell .loadArcIf address pin))
    (isCurrent : (memory.store.cells cell).current = address) :
    Sound memory call
      (memory.withDomain (memory.domain.setSlot pin.record pin.index
          (some ⟨address, call,
            some ⟨cell, (memory.store.cells cell).version⟩⟩)), tls,
        some (.keeping cell address (memory.store.cells cell).version
          pin)) := by
  have active : memory.Held call (.active cell) :=
    (ok.held _).mpr (by simp [Frame.holding])
  refine Sound.of_frame ok (advance_validate inv ok.facts active isCurrent)
    (by simp [Frame.holding]) (announces_setSlot _) ?_
  intro other same
  exact (own other same).setSlot pin.record pin.index _

theorem republish_sound
    (ok : FrameOk memory call (.republish cell reader address pin)) :
    Sound memory call
      (memory.withDomain (memory.domain.setSlot pin.record pin.index
          (some ⟨address, call, none⟩)), tls,
        some (.validate cell reader address pin)) := by
  obtain ⟨old, announces⟩ := ok.facts
  have advance : Advance call [] [] memory
      (memory.withDomain (memory.domain.setSlot pin.record pin.index
        (some ⟨address, call, none⟩))) := by
    refine advance_setSlot inv announces ?_
      (transfer_reannounce announces rfl) ?_
    · intro announcement same
      cases same
      rfl
    · intro announcement claim same claimed
      cases same
      cases claimed
  refine Sound.of_frame ok advance (by simp [Frame.holding])
    (announces_setSlot _) ?_
  intro other same
  exact (own other same).setSlot pin.record pin.index _

end Validate

section Reading

variable {pin : Pin} {version : Nat} (inv : MemInv memory)
variable (own : ∀ record, tls.record = some record →
  OwnRecord memory call.thread record)

theorem bodyStep_remaining
    {body next : Body} {act : Act} (stepped : bodyStep body act = some next) :
    next.remaining <:+ body.remaining := by
  unfold bodyStep at stepped
  split at stepped
  · cases stepped
    exact List.suffix_refl _
  · cases stepped
    exact List.suffix_cons _ _
  · cases stepped
    exact List.suffix_refl _
  · cases stepped
    exact List.suffix_cons _ _
  · cases stepped

include inv own

/-- The slot is cleared, and the call goes on at `next`. -/
theorem clearPin_sound
    {frame next : Frame} {old : Addr} {claim : Option Claim}
    (ok : FrameOk memory call frame)
    (announces : Announces memory call pin old claim)
    (holdings : ∀ holding, holding ∈ next.holding ↔
      holding ∈ frame.holding ∧ holding ≠ .pin pin)
    (facts : FrameFacts (memory.clearPin pin) call next) :
    Sound memory call (memory.clearPin pin, tls, some next) := by
  refine Sound.of_frame ok (advance_clearPin inv announces) ?_ facts ?_
  · intro holding
    simp [holdings]
  · intro record same
    exact (own record same).setSlot pin.record pin.index none

theorem readBody_sound
    {body body' : Body} {act : Act}
    (ok : FrameOk memory call (.reading cell address version pin body))
    (inside : bodyStep body act = some body') :
    Sound memory call
      (memory, tls, some (.reading cell address version pin body')) :=
  Sound.of_same inv ok (fun _ => Iff.rfl)
    ⟨ok.facts.1, (bodyStep_remaining inside).trans ok.facts.2⟩ own

theorem keep_sound
    (ok : FrameOk memory call (.keeping cell address version pin)) :
    Sound memory call
      (memory.withStore (memory.store.addOwner address (.load call)), tls,
        some (.counted cell address version pin)) := by
  have announces : Announces memory call pin address
      (some ⟨cell, version⟩) := ok.facts
  obtain ⟨inner, found, _⟩ := announces.found inv
  have fresh : ¬ memory.Held call (.loaded address) := by
    rw [ok.held]
    simp [Frame.holding]
  refine Sound.of_frame ok (advance_load inv found fresh) ?_ announces ?_
  · intro holding
    cases holding <;> simp [Frame.holding]
  · intro record same
    exact (own record same).withStore _

end Reading

end RegistryIo.Snapshot
