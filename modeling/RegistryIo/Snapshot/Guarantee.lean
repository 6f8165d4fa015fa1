import RegistryIo.Snapshot.Holdings

/-!
# The memory invariant and what an operation may change

`Advance` states everything that one operation of a call does to the shared
memory: it keeps the memory invariant, moves the holdings it says it moves,
and leaves alone what other calls rely on.  There is one lemma for every
operation of the hazard domain and of the store.
-/

namespace RegistryIo.Snapshot

/-- A validated announcement is made by a call that borrows the cell, and its
value has not left the cell. -/
structure ClaimOk (store : Store) (announcement : Announcement)
    (claim : Claim) : Prop where
  active : announcement.call ∈ (store.cells claim.cell).active
  linked : ∃ place,
    store.tracked claim.cell announcement.address =
        some (place, claim.version) ∧
      ∀ call, place ≠ .fresh call

structure MemInv (memory : Memory) : Prop where
  domain : DomainInv memory.domain
  store : StoreInv memory.store
  claims : ∀ record index announcement claim,
    memory.domain.slot record index = some announcement →
      announcement.claim = some claim →
        ClaimOk memory.store announcement claim

theorem MemInv.initial : MemInv ⟨.initial, .initial⟩ where
  domain := DomainInv.initial
  store := StoreInv.initial
  claims := by simp [Domain.initial, Domain.slot]

/-- What the holder of a writer lock may rely on. -/
structure SameLocked (snap snap' : SnapCell) : Prop where
  current : snap'.current = snap.current
  version : snap'.version = snap.version
  retired : snap'.retired = snap.retired
  retiredLen : snap'.retiredLen = snap.retiredLen

/-- Only the holder of the writer lock changes what the lock protects; the
drop of a cell, which nobody borrows then, empties its retired list. -/
structure CellKept (call : CallId) (snap snap' : SnapCell) : Prop where
  locked : ∀ other, other ≠ call → snap.writer = some other →
    SameLocked snap snap'
  retired : snap.writer ≠ some call →
    snap'.retired = snap.retired ∨ snap'.retired = []
  removed : ∀ handler, snap.status handler = .removed →
    snap'.status handler = .removed
  installed : ∀ handler, snap.status handler = .live →
    snap'.status handler = .live ∨ snap'.status handler = .removed
  version_le : snap.version ≤ snap'.version

structure StoreKept (call : CallId) (store store' : Store) : Prop where
  contents : ∀ address inner inner',
    store.heap address = some inner → store'.heap address = some inner' →
      inner'.cell = inner.cell ∧ inner'.version = inner.version ∧
        inner'.value = inner.value
  values : ∀ version, version < store.versions →
    store'.values version = store.values version
  versions_le : store.versions ≤ store'.versions
  cells : ∀ cell, CellKept call (store.cells cell) (store'.cells cell)
  shared : ∀ address, .fallback call ∈ store'.owners address →
    .fallback call ∈ store.owners address ∨
      store'.place address = some .current

structure DomainKept (call : CallId) (domain domain' : Domain) : Prop where
  slots : ∀ record index announcement,
    domain.slot record index = some announcement →
      announcement.call ≠ call →
        domain'.slot record index = some announcement
  owners : ∀ record thread, thread ≠ call.thread →
    ((domain'.records record).owner = some thread ↔
      (domain.records record).owner = some thread)
  next : ∀ record thread, thread ≠ call.thread →
    (domain.records record).owner = some thread →
      (domain'.records record).next = (domain.records record).next
  published : ∃ added, domain'.published = added ++ domain.published ∧
    ∀ record ∈ added,
      (domain.records record).owner = some call.thread

/-- The effect of one operation of `call`. -/
structure Advance (call : CallId) (gained lost : List Holding)
    (memory memory' : Memory) : Prop where
  inv : MemInv memory'
  transfer : Transfer call gained lost memory memory'
  domain : DomainKept call memory.domain memory'.domain
  store : StoreKept call memory.store memory'.store
  claims : ∀ record index announcement claim,
    memory'.domain.slot record index = some announcement →
      announcement.claim = some claim →
        memory.domain.slot record index = some announcement ∨
          (announcement.address = (memory'.store.cells claim.cell).current ∧
            claim.version = (memory'.store.cells claim.cell).version)

section Refl

variable (call : CallId)

theorem CellKept.of_same
    {call : CallId} {snap snap' : SnapCell}
    (status : snap'.status = snap.status)
    (version : snap'.version = snap.version)
    (locked : ∀ other, other ≠ call → snap.writer = some other →
      SameLocked snap snap')
    (retired : snap.writer ≠ some call →
      snap'.retired = snap.retired ∨ snap'.retired = []) :
    CellKept call snap snap' where
  locked := locked
  retired := retired
  removed := by
    intro handler removed
    rw [status]
    exact removed
  installed := by
    intro handler live
    rw [status]
    exact Or.inl live
  version_le := Nat.le_of_eq version.symm

theorem CellKept.refl (snap : SnapCell) : CellKept call snap snap :=
  CellKept.of_same rfl rfl (fun _ _ _ => ⟨rfl, rfl, rfl, rfl⟩)
    fun _ => Or.inl rfl

theorem StoreKept.refl (store : Store) : StoreKept call store store where
  contents := by
    intro address inner inner' found found'
    rw [found] at found'
    cases found'
    exact ⟨rfl, rfl, rfl⟩
  values := fun _ _ => rfl
  versions_le := Nat.le_refl _
  cells := fun _ => CellKept.refl call _
  shared := fun _ owned => Or.inl owned

theorem DomainKept.refl (domain : Domain) :
    DomainKept call domain domain where
  slots := fun _ _ _ used _ => used
  owners := fun _ _ _ => Iff.rfl
  next := fun _ _ _ _ => rfl
  published := ⟨[], rfl, by simp⟩

theorem Advance.refl {memory : Memory} (inv : MemInv memory) :
    Advance call [] [] memory memory where
  inv := inv
  transfer := Transfer.of_same fun _ _ => Iff.rfl
  domain := DomainKept.refl call _
  store := StoreKept.refl call _
  claims := fun _ _ _ _ used _ => Or.inl used

end Refl

section Combine

variable {memory : Memory} {call : CallId} {gained lost : List Holding}

/-- An operation on the store. -/
theorem Advance.of_store
    {store' : Store} (inv : MemInv memory) (store : StoreInv store')
    (transfer : Transfer call gained lost memory (memory.withStore store'))
    (kept : StoreKept call memory.store store')
    (claims : ∀ record index announcement claim,
      memory.domain.slot record index = some announcement →
        announcement.claim = some claim →
          ClaimOk memory.store announcement claim →
            ClaimOk store' announcement claim) :
    Advance call gained lost memory (memory.withStore store') where
  inv := ⟨inv.domain, store, by
    intro record index announcement claim used claimed
    exact claims record index announcement claim used claimed
      (inv.claims record index announcement claim used claimed)⟩
  transfer := transfer
  domain := DomainKept.refl call _
  store := kept
  claims := fun _ _ _ _ used _ => Or.inl used

/-- An operation on the domain. -/
private theorem Advance.of_domain
    {domain' : Domain} (inv : MemInv memory) (domain : DomainInv domain')
    (transfer :
      Transfer call gained lost memory (memory.withDomain domain'))
    (kept : DomainKept call memory.domain domain')
    (claims : ∀ record index announcement claim,
      domain'.slot record index = some announcement →
        announcement.claim = some claim →
          memory.domain.slot record index = some announcement ∨
            (announcement.call ∈ (memory.store.cells claim.cell).active ∧
              announcement.address =
                (memory.store.cells claim.cell).current ∧
              claim.version = (memory.store.cells claim.cell).version)) :
    Advance call gained lost memory (memory.withDomain domain') where
  inv := ⟨domain, inv.store, by
    intro record index announcement claim used claimed
    rcases claims record index announcement claim used claimed with
      old | ⟨active, address, version⟩
    · exact inv.claims record index announcement claim old claimed
    · have cell := inv.store.cells claim.cell
      refine ⟨active, .current, ?_, by simp⟩
      rw [address, version]
      exact cell.current_alive (cell.active_alive _ active)⟩
  transfer := transfer
  domain := kept
  store := StoreKept.refl call _
  claims := by
    intro record index announcement claim used claimed
    rcases claims record index announcement claim used claimed with
      old | ⟨_, address, version⟩
    · exact Or.inl old
    · exact Or.inr ⟨address, version⟩

end Combine

section DomainOperations

variable {memory : Memory} {call : CallId}

/-- Updates of records that change no slot. -/
private theorem Advance.of_records
    {domain' : Domain} (inv : MemInv memory) (domain : DomainInv domain')
    (slots : ∀ record index,
      domain'.slot record index = memory.domain.slot record index)
    (owners : ∀ record thread, thread ≠ call.thread →
      ((domain'.records record).owner = some thread ↔
        (memory.domain.records record).owner = some thread))
    (next : ∀ record thread, thread ≠ call.thread →
      (memory.domain.records record).owner = some thread →
        (domain'.records record).next =
          (memory.domain.records record).next)
    (published : ∃ added,
      domain'.published = added ++ memory.domain.published ∧
        ∀ record ∈ added,
          (memory.domain.records record).owner = some call.thread) :
    Advance call [] [] memory (memory.withDomain domain') := by
  refine Advance.of_domain inv domain (transfer_of_slots slots)
    ⟨?_, owners, next, published⟩ ?_
  · intro record index announcement used _
    rw [slots]
    exact used
  · intro record index announcement claim used _
    rw [slots] at used
    exact Or.inl used

variable {record : RecordId}

theorem advance_claim
    (inv : MemInv memory) (published : record ∈ memory.domain.published)
    (free : (memory.domain.records record).inUse = false) :
    Advance call [] [] memory
      (memory.withDomain (memory.domain.claim record call.thread)) := by
  have unowned := inv.domain.free_unowned record free
  refine Advance.of_records inv (inv.domain.claim published free) ?_ ?_ ?_
    ⟨[], rfl, by simp⟩
  · intro other index
    exact Domain.slot_setRecord _ _ _ _ rfl
  · intro other thread different
    unfold Domain.claim
    rw [Domain.records_setRecord]
    split
    · rename_i same
      subst same
      simp [unowned, Ne.symm different]
    · rfl
  · intro other thread _ _
    unfold Domain.claim
    rw [Domain.records_setRecord]
    split
    · rename_i same
      rw [same]
    · rfl

theorem advance_release
    (inv : MemInv memory)
    (owned : (memory.domain.records record).owner = some call.thread)
    (null : ∀ index, memory.domain.slot record index = none) :
    Advance call [] [] memory
      (memory.withDomain (memory.domain.release record)) := by
  refine Advance.of_records inv
    (inv.domain.release (inv.domain.owner_lt owned) null) ?_ ?_ ?_
    ⟨[], rfl, by simp⟩
  · intro other index
    exact Domain.slot_setRecord _ _ _ _ rfl
  · intro other thread different
    unfold Domain.release
    rw [Domain.records_setRecord]
    split
    · rename_i same
      subst same
      simp [owned, Ne.symm different]
    · rfl
  · intro other thread _ _
    unfold Domain.release
    rw [Domain.records_setRecord]
    split
    · rename_i same
      rw [same]
    · rfl

theorem advance_allocate (inv : MemInv memory) :
    Advance call [] [] memory
      (memory.withDomain (memory.domain.allocate call.thread)) := by
  have unowned := inv.domain.unallocated memory.domain.allocated
    (Nat.le_refl _)
  refine Advance.of_records inv inv.domain.allocate
    inv.domain.slot_allocate ?_ ?_ ⟨[], rfl, by simp⟩
  · intro other thread different
    by_cases same : other = memory.domain.allocated
    · subst same
      simp [Domain.allocate, unowned, Ne.symm different]
    · simp [Domain.allocate, same]
  · intro other thread _ owned
    have apart : other ≠ memory.domain.allocated := by
      rintro rfl
      rw [unowned] at owned
      cases owned
    simp [Domain.allocate, apart]

theorem advance_setNext
    {head : Option RecordId} (inv : MemInv memory)
    (owned : (memory.domain.records record).owner = some call.thread)
    (unpublished : record ∉ memory.domain.published) :
    Advance call [] [] memory
      (memory.withDomain (memory.domain.setNext record head)) := by
  refine Advance.of_records inv
    (inv.domain.setNext (inv.domain.owner_lt owned) unpublished) ?_ ?_ ?_
    ⟨[], rfl, by simp⟩
  · intro other index
    exact Domain.slot_setRecord _ _ _ _ rfl
  · intro other thread _
    unfold Domain.setNext
    rw [Domain.records_setRecord]
    split
    · rename_i same
      rw [same]
    · rfl
  · intro other thread different othersOwn
    have apart : other ≠ record := by
      rintro rfl
      rw [owned] at othersOwn
      exact different (Option.some.inj othersOwn).symm
    unfold Domain.setNext
    rw [Domain.records_setRecord, if_neg apart]

theorem advance_publish
    (inv : MemInv memory)
    (owned : (memory.domain.records record).owner = some call.thread)
    (unpublished : record ∉ memory.domain.published)
    (next : (memory.domain.records record).next = memory.domain.head) :
    Advance call [] [] memory
      (memory.withDomain (memory.domain.publish record)) := by
  refine Advance.of_records inv
    (inv.domain.publish unpublished (inv.domain.owner_lt owned) next)
    (fun _ _ => rfl) (fun _ _ _ => Iff.rfl) (fun _ _ _ _ => rfl)
    ⟨[record], rfl, ?_⟩
  intro other member
  rw [List.mem_singleton.mp member]
  exact owned

/-- A store to a slot that is null or belongs to the call. -/
theorem Advance.of_slot
    (pin : Pin) {value : Option Announcement} {gained lost : List Holding}
    (inv : MemInv memory)
    (owned : (memory.domain.records pin.record).owner = some call.thread)
    (published : pin.record ∈ memory.domain.published)
    (bound : pin.index < SLOTS)
    (own : ∀ announcement,
      memory.domain.slot pin.record pin.index = some announcement →
        announcement.call = call)
    (newOwn : ∀ announcement, value = some announcement →
      announcement.call = call)
    (transfer : Transfer call gained lost memory
      (memory.withDomain
        (memory.domain.setSlot pin.record pin.index value)))
    (claims : ∀ announcement claim, value = some announcement →
      announcement.claim = some claim →
        announcement.call ∈ (memory.store.cells claim.cell).active ∧
          announcement.address =
            (memory.store.cells claim.cell).current ∧
          claim.version = (memory.store.cells claim.cell).version) :
    Advance call gained lost memory
      (memory.withDomain
        (memory.domain.setSlot pin.record pin.index value)) := by
  refine Advance.of_domain inv
    (inv.domain.setSlot owned published bound ?_) transfer
    ⟨?_, ?_, ?_, ⟨[], rfl, by simp⟩⟩ ?_
  · intro announcement same
    rw [newOwn announcement same]
  · intro record index announcement used different
    rw [Domain.slot_setSlot]
    split
    · rename_i same
      obtain ⟨rfl, rfl⟩ := same
      exact absurd (own announcement used) different
    · exact used
  · intro record thread _
    rw [Domain.owner_setSlot]
  · intro record thread _ _
    exact Domain.next_setSlot _ _ _ _ _
  · intro record index announcement claim used claimed
    rw [Domain.slot_setSlot] at used
    split at used
    · exact Or.inr (claims announcement claim used claimed)
    · exact Or.inl used

end DomainOperations

end RegistryIo.Snapshot
