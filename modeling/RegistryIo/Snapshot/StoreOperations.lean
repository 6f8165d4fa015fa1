import RegistryIo.Snapshot.Guarantee

/-!
# The operations of the store

One lemma for every operation on cells and allocations: under which
conditions a call may perform it, and what it gains and loses.
-/

namespace RegistryIo.Snapshot

theorem ClaimOk.mono
    {store store' : Store} {announcement : Announcement} {claim : Claim}
    (ok : ClaimOk store announcement claim)
    (active : announcement.call ∈ (store'.cells claim.cell).active)
    (linked : ∀ place,
      store.tracked claim.cell announcement.address =
          some (place, claim.version) →
        (∀ call, place ≠ .fresh call) →
          ∃ place', store'.tracked claim.cell announcement.address =
              some (place', claim.version) ∧
            ∀ call, place' ≠ .fresh call) :
    ClaimOk store' announcement claim := by
  obtain ⟨place, known, notFresh⟩ := ok.linked
  exact ⟨active, linked place known notFresh⟩

section CellOperations

variable {memory : Memory} {call : CallId} {cell : CellId}
variable {gained lost : List Holding} {snap : SnapCell}

private theorem cellsKept_setCell
    {store store' : Store} (cells : store'.cells = store.cells)
    (kept : CellKept call (store.cells cell) snap) (target : CellId) :
    CellKept call (store.cells target)
      ((store'.setCell cell snap).cells target) := by
  by_cases same : target = cell
  · subst same
    simpa [Store.setCell] using kept
  · have unchanged :
        (store'.setCell cell snap).cells target = store.cells target := by
      simp [Store.setCell, same, cells]
    rw [unchanged]
    exact CellKept.refl call _

theorem StoreKept.setCell
    {store : Store} (kept : CellKept call (store.cells cell) snap) :
    StoreKept call store (store.setCell cell snap) :=
  { StoreKept.refl call store with
    contents := (StoreKept.refl call store).contents
    cells := cellsKept_setCell rfl kept }

/-- An operation that only changes one cell and keeps the calls that borrow
it. -/
private theorem Advance.of_cell
    (inv : MemInv memory)
    (store : StoreInv (memory.store.setCell cell snap))
    (transfer : Transfer call gained lost memory
      (memory.withStore (memory.store.setCell cell snap)))
    (kept : CellKept call (memory.store.cells cell) snap)
    (active : ∀ record index announcement claim,
      memory.domain.slot record index = some announcement →
        announcement.claim = some claim → claim.cell = cell →
          announcement.call ∈ (memory.store.cells cell).active →
            announcement.call ∈ snap.active) :
    Advance call gained lost memory
      (memory.withStore (memory.store.setCell cell snap)) := by
  refine Advance.of_store inv store transfer (StoreKept.setCell kept) ?_
  intro record index announcement claim used claimed ok
  refine ok.mono ?_ (fun place known notFresh => ⟨place, known, notFresh⟩)
  by_cases same : claim.cell = cell
  · subst same
    have stays := active record index announcement claim used claimed rfl
      ok.active
    simpa [Store.setCell] using stays
  · simpa [Store.setCell, same] using ok.active

theorem advance_lock
    (inv : MemInv memory)
    (free : (memory.store.cells cell).writer = none)
    (active : memory.Held call (.active cell)) :
    Advance call [.writer cell] [] memory
      (memory.withStore (memory.store.lock cell call)) :=
  Advance.of_cell inv (inv.store.lock free active) (transfer_lock free)
    (CellKept.of_same rfl rfl (fun _ _ _ => ⟨rfl, rfl, rfl, rfl⟩)
      fun _ => Or.inl rfl)
    (fun _ _ _ _ _ _ _ stays => stays)

private theorem held_fresh_of_tracked
    {address : Addr} {version : Nat}
    (known : memory.store.tracked cell address =
      some (.fresh call, version)) :
    memory.Held call (.fresh address) := by
  obtain ⟨_, inner, found, _, place, _⟩ :=
    Store.tracked_eq_some_iff.mp known
  simp [Memory.Held, Store.place, found, place]

theorem held_unlinked_of_tracked
    {address : Addr} {version : Nat}
    (known : memory.store.tracked cell address =
      some (.unlinked call, version)) :
    memory.Held call (.unlinked address) := by
  obtain ⟨_, inner, found, _, place, _⟩ :=
    Store.tracked_eq_some_iff.mp known
  simp [Memory.Held, Store.place, found, place]

theorem advance_unlock
    (inv : MemInv memory)
    (locked : memory.Held call (.writer cell))
    (length : (memory.store.cells cell).retiredLen =
      (memory.store.cells cell).retired.length)
    (installed : ∀ address, ¬ memory.Held call (.fresh address))
    (retired : ∀ address, ¬ memory.Held call (.unlinked address)) :
    Advance call [] [.writer cell] memory
      (memory.withStore (memory.store.unlock cell)) := by
  refine Advance.of_cell inv
    (inv.store.unlock locked length ?_ ?_) (transfer_unlock locked)
    (CellKept.of_same rfl rfl (fun _ _ _ => ⟨rfl, rfl, rfl, rfl⟩)
      fun _ => Or.inl rfl)
    (fun _ _ _ _ _ _ _ stays => stays)
  · intro address version known
    exact installed address (held_fresh_of_tracked known)
  · intro address version known
    exact retired address (held_unlinked_of_tracked known)

private theorem notOther_of_writer
    {other : CallId} (locked : memory.Held call (.writer cell))
    (different : other ≠ call)
    (otherLocked : (memory.store.cells cell).writer = some other) :
    False := by
  have same := (show _ = _ from locked).symm.trans otherLocked
  exact different (Option.some.inj same).symm

theorem advance_storeRetiredLen
    (inv : MemInv memory) (locked : memory.Held call (.writer cell)) :
    Advance call [] [] memory
      (memory.withStore (memory.store.storeRetiredLen cell)) :=
  Advance.of_cell inv inv.store.storeRetiredLen transfer_storeRetiredLen
    (CellKept.of_same rfl rfl
      (fun _ different otherLocked =>
        (notOther_of_writer locked different otherLocked).elim)
      fun unlocked => absurd locked unlocked)
    (fun _ _ _ _ _ _ _ stays => stays)

theorem advance_enterFallback
    (inv : MemInv memory) (fresh : ¬ memory.Held call (.fallback cell)) :
    Advance call [.fallback cell] [] memory
      (memory.withStore (memory.store.enterFallback cell call)) :=
  Advance.of_cell inv (inv.store.enterFallback fresh)
    transfer_enterFallback
    (CellKept.of_same rfl rfl (fun _ _ _ => ⟨rfl, rfl, rfl, rfl⟩)
      fun _ => Or.inl rfl)
    (fun _ _ _ _ _ _ _ stays => stays)

theorem advance_leaveFallback
    (inv : MemInv memory) (counted : memory.Held call (.fallback cell))
    (dropped : ∀ address, ¬ memory.Held call (.shared address)) :
    Advance call [] [.fallback cell] memory
      (memory.withStore (memory.store.leaveFallback cell call)) := by
  refine Advance.of_cell inv (inv.store.leaveFallback counted ?_)
    (transfer_leaveFallback (inv.store.cells cell).fallback_nodup)
    (CellKept.of_same rfl rfl (fun _ _ _ => ⟨rfl, rfl, rfl, rfl⟩)
      fun _ => Or.inl rfl)
    (fun _ _ _ _ _ _ _ stays => stays)
  intro address inner found owned
  refine dropped address ?_
  rw [Memory.Held, Store.owners_of_heap found]
  exact owned

theorem advance_beginCall
    (inv : MemInv memory)
    (alive : (memory.store.cells cell).phase = .alive)
    (fresh : ¬ memory.Held call (.active cell)) :
    Advance call [.active cell] [] memory
      (memory.withStore (memory.store.beginCall cell call)) :=
  Advance.of_cell inv (inv.store.beginCall alive fresh) transfer_beginCall
    (CellKept.of_same rfl rfl (fun _ _ _ => ⟨rfl, rfl, rfl, rfl⟩)
      fun _ => Or.inl rfl)
    (fun _ _ _ _ _ _ _ stays => List.mem_cons_of_mem call stays)

/-- A call may end when it has cleared its slot and released the lock. -/
theorem advance_endCall
    (inv : MemInv memory)
    (unlocked : ¬ memory.Held call (.writer cell))
    (unpinned : ∀ pin, ¬ memory.Held call (.pin pin)) :
    Advance call [] [.active cell] memory
      (memory.withStore (memory.store.endCall cell call)) := by
  refine Advance.of_cell inv (inv.store.endCall unlocked)
    (transfer_endCall (inv.store.cells cell).active_nodup)
    (CellKept.of_same rfl rfl (fun _ _ _ => ⟨rfl, rfl, rfl, rfl⟩)
      fun _ => Or.inl rfl) ?_
  intro record index announcement claim used _ _ stays
  refine (List.mem_erase_of_ne ?_).mpr stays
  intro same
  refine unpinned ⟨record, index⟩ ?_
  simp [Memory.Held, used, same]

theorem advance_nextId (inv : MemInv memory) :
    Advance call
      [.drawn cell (memory.store.cells cell).registrations] [] memory
      (memory.withStore (memory.store.nextId cell call)) := by
  have unused := (inv.store.cells cell).unused
    (memory.store.cells cell).registrations (Nat.le_refl _)
  have kept : ∀ handler,
      (memory.store.cells cell).status handler ≠ .unused →
        Function.update (memory.store.cells cell).status
            (memory.store.cells cell).registrations (.drawn call) handler =
          (memory.store.cells cell).status handler := by
    intro handler used
    refine Function.update_of_ne ?_ _ _
    rintro rfl
    exact used unused
  refine Advance.of_cell inv inv.store.nextId (transfer_nextId unused)
    { locked := fun _ _ _ => ⟨rfl, rfl, rfl, rfl⟩
      retired := fun _ => Or.inl rfl
      removed := ?_
      installed := ?_
      version_le := Nat.le_refl _ }
    (fun _ _ _ _ _ _ _ stays => stays)
  · intro handler removed
    exact (kept handler (by simp [removed])).trans removed
  · intro handler live
    exact Or.inl ((kept handler (by simp [live])).trans live)

end CellOperations

section MoveOperations

variable {memory : Memory} {call : CallId} {cell : CellId}

theorem StoreKept.move
    {store : Store} {place : Addr → Place → Place} {snap : SnapCell}
    (kept : CellKept call (store.cells cell) snap) :
    StoreKept call store ((store.move place).setCell cell snap) where
  contents := by
    intro address inner inner' found found'
    obtain ⟨old, oldFound, rfl⟩ := Option.map_eq_some_iff.mp found'
    rw [found] at oldFound
    cases oldFound
    exact ⟨rfl, rfl, rfl⟩
  values := fun _ _ => rfl
  versions_le := Nat.le_refl _
  cells := cellsKept_setCell rfl kept
  shared := by
    intro address owned
    rw [Store.owners_setCell, Store.owners_move] at owned
    exact Or.inl owned

/-- What a writer knows when it is about to replace the current list. -/
structure InstallOk (store : Store) (cell : CellId) (effect : Effect)
    (call : CallId) (inner : ArcInner) : Prop where
  cell_eq : inner.cell = cell
  fresh : inner.place = .fresh call
  newer : (store.cells cell).version < inner.version
  removed : ∀ handler ∈ effect.removed,
    handler ∈ handlersOf (store.values (store.cells cell).version)
  inserted : ∀ handler, effect.inserted = some handler →
    (store.cells cell).status handler = .drawn call
  nodup : (handlersOf inner.value).Nodup
  members : ∀ handler, handler ∈ handlersOf inner.value ↔
    (handler ∈ handlersOf (store.values (store.cells cell).version) ∧
        handler ∉ effect.removed) ∨
      effect.inserted = some handler

section Install

variable {effect : Effect} {new : Addr} {inner : ArcInner}
variable (inv : MemInv memory) (locked : memory.Held call (.writer cell))
variable (ok : InstallOk memory.store cell effect call inner)

include inv locked ok

private theorem InstallOk.live_of_removed :
    ∀ handler ∈ effect.removed,
      (memory.store.cells cell).status handler = .live := by
  intro handler member
  have alive := inv.store.alive_of_writer locked
  exact (((inv.store.cells cell).list_ok alive).live_iff handler).mp
    (ok.removed handler member)

theorem InstallOk.list :
    ListOk
      ((memory.store.cells cell).installed new inner.version effect).status
      inner.value := by
  have alive := inv.store.alive_of_writer locked
  have live := ((inv.store.cells cell).list_ok alive).live_iff
  refine ⟨ok.nodup, ?_⟩
  intro handler
  rw [ok.members, live]
  by_cases isRemoved : handler ∈ effect.removed
  · have notInserted : effect.inserted ≠ some handler := by
      intro same
      have drawn := ok.inserted handler same
      rw [ok.live_of_removed inv locked handler isRemoved] at drawn
      cases drawn
    simp [SnapCell.installed, isRemoved, notInserted]
  · by_cases isInserted : effect.inserted = some handler
    · simp [SnapCell.installed, isRemoved, isInserted]
    · simp [SnapCell.installed, isRemoved, isInserted]

omit inv in
theorem InstallOk.kept :
    CellKept call (memory.store.cells cell)
      ((memory.store.cells cell).installed new inner.version effect) where
  locked := fun _ different otherLocked =>
    (notOther_of_writer locked different otherLocked).elim
  retired := fun unlocked => absurd locked unlocked
  removed := by
    intro handler removed
    have notInserted : effect.inserted ≠ some handler := by
      intro same
      rw [ok.inserted handler same] at removed
      cases removed
    simp [SnapCell.installed, notInserted, removed]
  installed := by
    intro handler live
    by_cases isRemoved : handler ∈ effect.removed
    · exact Or.inr (by simp [SnapCell.installed, isRemoved])
    · refine Or.inl ?_
      simp [SnapCell.installed, isRemoved, live]
  version_le := Nat.le_of_lt ok.newer

theorem advance_install (found : memory.store.heap new = some inner) :
    Advance call [.unlinked (memory.store.cells cell).current]
      (.fresh new :: effect.inserted.toList.map (.drawn cell)) memory
      (memory.withStore (memory.store.install cell new effect call)) := by
  have alive := inv.store.alive_of_writer locked
  obtain ⟨current, currentFound, _, currentPlace, _⟩ :=
    inv.store.current_inner alive
  have removed := ok.live_of_removed inv locked
  refine Advance.of_store inv
    (inv.store.install found ok.fresh locked ok.cell_eq removed ok.inserted
      (ok.list inv locked))
    (transfer_install ?_ ?_ removed ok.inserted) ?_ ?_
  · rw [Store.place_of_heap found, ok.fresh]
  · rw [Store.place_of_heap currentFound, currentPlace]
  · unfold Store.install
    rw [found]
    exact StoreKept.move (ok.kept locked)
  · intro record index announcement claim _ _ claimOk
    have active := claimOk.active
    refine claimOk.mono ?_ ?_
    · by_cases same : claim.cell = cell
      · rw [same] at active ⊢
        simpa [Store.install, Store.setCell, SnapCell.installed] using active
      · simpa [Store.install, Store.setCell, Store.relink, Store.move, same]
          using active
    · intro place known notFresh
      exact StoreInv.tracked_relink_linked found ok.fresh known notFresh

end Install

theorem advance_retire
    {raw : Addr} {version : Nat} (inv : MemInv memory)
    (locked : memory.Held call (.writer cell))
    (unlinked : memory.store.tracked cell raw =
      some (.unlinked call, version)) :
    Advance call [] [.unlinked raw] memory
      (memory.withStore (memory.store.retire cell raw)) := by
  obtain ⟨_, inner, found, sameCell, place, sameVersion⟩ :=
    Store.tracked_eq_some_iff.mp unlinked
  refine Advance.of_store inv (inv.store.retire locked unlinked)
    (transfer_retire ?_)
    (StoreKept.move (CellKept.of_same rfl rfl
      (fun _ different otherLocked =>
        (notOther_of_writer locked different otherLocked).elim)
      fun unlocked => absurd locked unlocked)) ?_
  · rw [Store.place_of_heap found, place]
  · intro record index announcement claim _ _ claimOk
    have active := claimOk.active
    refine claimOk.mono ?_ ?_
    · by_cases same : claim.cell = cell
      · rw [same] at active ⊢
        simpa [Store.retire, Store.setCell] using active
      · simpa [Store.retire, Store.setCell, Store.setPlaces, Store.move,
          same] using active
    · intro known isKnown notFresh
      by_cases isRaw : announcement.address = raw
      · refine ⟨.retired, ?_, by simp⟩
        rw [isRaw] at isKnown ⊢
        obtain ⟨_, other, otherFound, otherCell, _, otherVersion⟩ :=
          Store.tracked_eq_some_iff.mp isKnown
        exact (StoreInv.tracked_setPlaces_of_mem
          (List.mem_singleton_self raw) rfl).mpr
            ⟨other, otherFound, otherCell, otherVersion⟩
      · refine ⟨known, ?_, notFresh⟩
        refine Eq.trans ?_ isKnown
        exact StoreInv.tracked_setPlaces_of_notMem (by simpa using isRaw)

/-- A batch of values passes to the call; nobody protects them. -/
private theorem Advance.of_freed
    {addresses : List Addr} {snap : SnapCell} (inv : MemInv memory)
    (store : StoreInv
      ((memory.store.setPlaces addresses (.freed call)).setCell cell snap))
    (same : SameHoldings (memory.store.cells cell) snap)
    (kept : CellKept call (memory.store.cells cell) snap)
    (unheld : ∀ address ∈ addresses,
      memory.store.place address = some .current ∨
        memory.store.place address = some .retired)
    (unprotected : ∀ record index announcement claim,
      memory.domain.slot record index = some announcement →
        announcement.claim = some claim →
          announcement.address ∉ addresses) :
    Advance call (addresses.map .freed) [] memory
      (memory.withStore
        ((memory.store.setPlaces addresses (.freed call)).setCell
          cell snap)) := by
  refine Advance.of_store inv store (transfer_free same unheld)
    (StoreKept.move kept) ?_
  intro record index announcement claim used claimed claimOk
  have active := claimOk.active
  refine claimOk.mono ?_ ?_
  · by_cases equal : claim.cell = cell
    · rw [equal] at active ⊢
      simpa [Store.setCell, same.active] using active
    · simpa [Store.setCell, Store.setPlaces, Store.move, equal] using active
  · intro place known notFresh
    refine ⟨place, ?_, notFresh⟩
    refine Eq.trans ?_ known
    exact StoreInv.tracked_setPlaces_of_notMem
      (unprotected record index announcement claim used claimed)

private theorem place_of_mem_retired
    {address : Addr} (inv : MemInv memory)
    (member : address ∈ (memory.store.cells cell).retired) :
    memory.store.place address = some .retired := by
  obtain ⟨inner, found, _, place⟩ := inv.store.mem_retired_iff.mp member
  rw [Store.place_of_heap found, place]

/-- The addresses that a scan collected contain every protected value of the
retired list. -/
def ScanComplete (memory : Memory) (cell : CellId)
    (announced : List Addr) : Prop :=
  ∀ record index announcement claim,
    memory.domain.slot record index = some announcement →
      announcement.claim = some claim → claim.cell = cell →
        announcement.address ∈ (memory.store.cells cell).retired →
          announcement.address ∈ announced

theorem advance_collect
    {announced : List Addr} (inv : MemInv memory)
    (locked : memory.Held call (.writer cell))
    (complete : ScanComplete memory cell announced) :
    Advance call
      ((Store.collectUnprotected announced
        (memory.store.cells cell).retired).2.map .freed) [] memory
      (memory.withStore (memory.store.collect cell announced call)) := by
  refine Advance.of_freed inv (inv.store.collect locked)
    ⟨rfl, rfl, rfl, rfl⟩
    (CellKept.of_same rfl rfl
      (fun _ different otherLocked =>
        (notOther_of_writer locked different otherLocked).elim)
      fun unlocked => absurd locked unlocked) ?_ ?_
  · intro address member
    exact Or.inr (place_of_mem_retired inv
      (Store.mem_collectUnprotected_freed.mp member).1)
  · intro record index announcement claim used claimed member
    obtain ⟨isRetired, unannounced⟩ :=
      Store.mem_collectUnprotected_freed.mp member
    obtain ⟨inner, found, sameCell, _⟩ :=
      inv.store.mem_retired_iff.mp isRetired
    obtain ⟨place, known, _⟩ :=
      (inv.claims record index announcement claim used claimed).linked
    obtain ⟨_, other, otherFound, otherCell, _⟩ :=
      Store.tracked_eq_some_iff.mp known
    rw [found] at otherFound
    cases otherFound
    exact unannounced (complete record index announcement claim used claimed
      (otherCell.symm.trans sameCell) isRetired)

theorem advance_dropCell
    (inv : MemInv memory)
    (alive : (memory.store.cells cell).phase = .alive)
    (unused : (memory.store.cells cell).active = []) :
    Advance call
      (((memory.store.cells cell).current ::
        (memory.store.cells cell).retired).map .freed) [] memory
      (memory.withStore (memory.store.dropCell cell call)) := by
  obtain ⟨current, currentFound, currentCell, currentPlace, _⟩ :=
    inv.store.current_inner alive
  refine Advance.of_freed inv (inv.store.dropCell alive unused)
    ⟨rfl, rfl, rfl, rfl⟩
    (CellKept.of_same rfl rfl ?_ fun _ => Or.inr rfl) ?_ ?_
  · intro other _ locked
    have active := (inv.store.cells cell).writer_active other locked
    rw [unused] at active
    cases active
  · intro address member
    rcases List.mem_cons.mp member with same | isRetired
    · rw [same, Store.place_of_heap currentFound, currentPlace]
      exact Or.inl rfl
    · exact Or.inr (place_of_mem_retired inv isRetired)
  · intro record index announcement claim used claimed member
    have claimOk := inv.claims record index announcement claim used claimed
    obtain ⟨place, known, _⟩ := claimOk.linked
    obtain ⟨_, other, otherFound, otherCell, _⟩ :=
      Store.tracked_eq_some_iff.mp known
    have sameCell : other.cell = cell := by
      rcases List.mem_cons.mp member with same | isRetired
      · rw [same, currentFound] at otherFound
        cases otherFound
        exact currentCell
      · obtain ⟨inner, found, innerCell, _⟩ :=
          inv.store.mem_retired_iff.mp isRetired
        rw [found] at otherFound
        cases otherFound
        exact innerCell
    have active := claimOk.active
    rw [← otherCell, sameCell, unused] at active
    cases active

end MoveOperations

section OwnerOperations

variable {memory : Memory} {call : CallId} {cell : CellId}
variable {address : Addr} {inner : ArcInner}

theorem Store.heap_of_mem_owners
    {store : Store} {owner : Owner}
    (member : owner ∈ store.owners address) :
    ∃ inner, store.heap address = some inner ∧ owner ∈ inner.owners := by
  cases found : store.heap address with
  | none => simp [Store.owners, found] at member
  | some inner =>
      rw [Store.owners_of_heap found] at member
      exact ⟨inner, rfl, member⟩

theorem Store.heap_of_place
    {store : Store} {place : Place}
    (known : store.place address = some place) :
    ∃ inner, store.heap address = some inner ∧ inner.place = place :=
  Option.map_eq_some_iff.mp known

/-- An operation on the references of one allocation, which its cell does not
see. -/
theorem Advance.of_owners
    {store' : Store} {gained lost : List Holding} (inv : MemInv memory)
    (store : StoreInv store')
    (transfer : Transfer call gained lost memory (memory.withStore store'))
    (cells : store'.cells = memory.store.cells)
    (values : store'.values = memory.store.values)
    (versions : store'.versions = memory.store.versions)
    (tracked : ∀ cell, store'.tracked cell = memory.store.tracked cell)
    (contents : ∀ target inner inner',
      memory.store.heap target = some inner →
        store'.heap target = some inner' →
          inner'.cell = inner.cell ∧ inner'.version = inner.version ∧
            inner'.value = inner.value)
    (shared : ∀ target, .fallback call ∈ store'.owners target →
      .fallback call ∈ memory.store.owners target ∨
        store'.place target = some .current) :
    Advance call gained lost memory (memory.withStore store') := by
  refine Advance.of_store inv store transfer
    ⟨contents, ?_, Nat.le_of_eq versions.symm, ?_, shared⟩ ?_
  · intro version _
    rw [values]
  · intro cell
    rw [cells]
    exact CellKept.refl call _
  · intro record index announcement claim _ _ claimOk
    refine claimOk.mono (by rw [cells]; exact claimOk.active) ?_
    intro place known notFresh
    exact ⟨place, by rw [tracked]; exact known, notFresh⟩

private theorem contents_setArc
    {store : Store} {new : ArcInner}
    (found : store.heap address = some inner)
    (same : new.cell = inner.cell ∧ new.version = inner.version ∧
      new.value = inner.value) :
    ∀ target old old',
      store.heap target = some old →
        (store.setArc address new).heap target = some old' →
          old'.cell = old.cell ∧ old'.version = old.version ∧
            old'.value = old.value := by
  intro target old old' oldFound newFound
  by_cases equal : target = address
  · subst equal
    rw [found] at oldFound
    cases oldFound
    simp only [Store.setArc, Function.update_self,
      Option.some.injEq] at newFound
    rw [← newFound]
    exact same
  · simp only [Store.setArc, Function.update_of_ne equal] at newFound
    rw [oldFound] at newFound
    cases newFound
    exact ⟨rfl, rfl, rfl⟩

/-- `Arc::increment_strong_count` for a fallback read of the current value. -/
theorem advance_share
    (inv : MemInv memory)
    (found : memory.store.heap address = some inner)
    (current : inner.place = .current)
    (counted : memory.Held call (.fallback inner.cell))
    (fresh : ¬ memory.Held call (.shared address)) :
    Advance call [.shared address] [] memory
      (memory.withStore
        (memory.store.addOwner address (.fallback call))) := by
  have owners := Store.owners_of_heap found
  have absent : .fallback call ∉ inner.owners := by
    intro member
    exact fresh (by rw [Memory.Held, owners]; exact member)
  have shape : memory.store.addOwner address (.fallback call) =
      memory.store.setArc address
        { inner with
          strong := inner.strong + 1
          owners := .fallback call :: inner.owners } := by
    simp [Store.addOwner, found]
  refine Advance.of_owners inv
    (inv.store.addOwner found absent (by simp)
      (by rintro other same; cases same; exact counted) (by simp))
    (transfer_addOwner found (Or.inl ⟨rfl, rfl⟩)) ?_ ?_ ?_ ?_ ?_ ?_
  all_goals rw [shape]
  · rfl
  · rfl
  · rfl
  · exact StoreInv.tracked_setArc found fun _ => rfl
  · exact contents_setArc found ⟨rfl, rfl, rfl⟩
  · intro target owned
    by_cases same : target = address
    · exact Or.inr (by simp [same, current])
    · exact Or.inl (by simpa [same] using owned)

/-- `Arc::increment_strong_count` for a load. -/
theorem advance_load
    (inv : MemInv memory)
    (found : memory.store.heap address = some inner)
    (fresh : ¬ memory.Held call (.loaded address)) :
    Advance call [.loaded address] [] memory
      (memory.withStore (memory.store.addOwner address (.load call))) := by
  have owners := Store.owners_of_heap found
  have absent : .load call ∉ inner.owners := by
    intro member
    exact fresh (by rw [Memory.Held, owners]; exact member)
  have shape : memory.store.addOwner address (.load call) =
      memory.store.setArc address
        { inner with
          strong := inner.strong + 1
          owners := .load call :: inner.owners } := by
    simp [Store.addOwner, found]
  refine Advance.of_owners inv
    (inv.store.addOwner found absent (by simp) (by simp) (by simp))
    (transfer_addOwner found (Or.inr ⟨rfl, rfl⟩)) ?_ ?_ ?_ ?_ ?_ ?_
  all_goals rw [shape]
  · rfl
  · rfl
  · rfl
  · exact StoreInv.tracked_setArc found fun _ => rfl
  · exact contents_setArc found ⟨rfl, rfl, rfl⟩
  · intro target owned
    by_cases same : target = address
    · subst same
      exact Or.inl (by simpa [owners] using owned)
    · exact Or.inl (by simpa [same] using owned)

section Drop

variable {owner : Owner}

private theorem dropOwner_frame
    (owner : Owner) (found : memory.store.heap address = some inner) :
    (memory.store.dropOwner address owner).cells = memory.store.cells ∧
      (memory.store.dropOwner address owner).values = memory.store.values ∧
      (memory.store.dropOwner address owner).versions =
        memory.store.versions := by
  simp only [Store.dropOwner, found]
  split <;> exact ⟨rfl, rfl, rfl⟩

private theorem contents_dropOwner
    (found : memory.store.heap address = some inner) :
    ∀ target old old',
      memory.store.heap target = some old →
        (memory.store.dropOwner address owner).heap target = some old' →
          old'.cell = old.cell ∧ old'.version = old.version ∧
            old'.value = old.value := by
  simp only [Store.dropOwner, found]
  split
  · intro target old old' oldFound newFound
    by_cases equal : target = address
    · subst equal
      simp at newFound
    · simp only [Function.update_of_ne equal] at newFound
      rw [oldFound] at newFound
      cases newFound
      exact ⟨rfl, rfl, rfl⟩
  · exact contents_setArc found ⟨rfl, rfl, rfl⟩

private theorem owners_dropOwner_subset
    {other : Owner} {target : Addr} (inv : MemInv memory)
    (found : memory.store.heap address = some inner)
    (member : owner ∈ inner.owners)
    (owned : other ∈ (memory.store.dropOwner address owner).owners target) :
    other ∈ memory.store.owners target := by
  by_cases same : target = address
  · subst same
    rw [owners_dropOwner inv.store found member] at owned
    rw [Store.owners_of_heap found]
    exact List.mem_of_mem_erase owned
  · simp only [Store.dropOwner, found] at owned
    split at owned
    · simpa [Store.owners, same] using owned
    · simpa [same] using owned

theorem advance_dropOwner
    {lost : List Holding} (inv : MemInv memory)
    (found : memory.store.heap address = some inner)
    (member : owner ∈ inner.owners)
    (kind : (owner = .fallback call ∧ lost = [.shared address]) ∨
      (owner = .load call ∧ lost = [.loaded address]) ∨
      (owner = .cell ∧ inner.place = .freed call ∧
        lost = [.freed address])) :
    Advance call [] lost memory
      (memory.withStore (memory.store.dropOwner address owner)) := by
  have cellOwner : owner = .cell → inner.place.isTracked = false := by
    intro isCell
    rcases kind with ⟨same, _⟩ | ⟨same, _⟩ | ⟨_, freed, _⟩
    · rw [isCell] at same
      cases same
    · rw [isCell] at same
      cases same
    · rw [freed]
      rfl
  have users : ∀ handle, (handle, address) ∈ memory.store.handles →
      owner ≠ .user handle := by
    intro handle _ same
    rcases kind with ⟨other, _⟩ | ⟨other, _⟩ | ⟨other, _⟩ <;>
      (rw [same] at other; cases other)
  have transfer : Transfer call [] lost memory
      (memory.withStore (memory.store.dropOwner address owner)) := by
    refine transfer_dropOwner inv.store found member ?_
    rcases kind with shared | loaded | freed
    · exact Or.inl shared
    · exact Or.inr (Or.inl loaded)
    · exact Or.inr (Or.inr (Or.inl freed))
  have frame := dropOwner_frame owner found
  exact Advance.of_owners inv
    (inv.store.dropOwner found member cellOwner users) transfer
    frame.1 frame.2.1 frame.2.2
    (inv.store.tracked_dropOwner found member cellOwner)
    (contents_dropOwner found)
    (fun _ owned => Or.inl (owners_dropOwner_subset inv found member owned))

end Drop

theorem advance_dropHandle
    {handle : Nat} (inv : MemInv memory)
    (member : (handle, address) ∈ memory.store.handles) :
    Advance call [] [] memory
      (memory.withStore (memory.store.dropHandle handle address)) := by
  obtain ⟨inner, found, owned⟩ :=
    inv.store.handles_owned handle address member
  have frame := dropOwner_frame (.user handle) found
  exact Advance.of_owners inv (inv.store.dropHandle member)
    (transfer_dropHandle inv.store member) frame.1 frame.2.1 frame.2.2
    (inv.store.tracked_dropOwner found owned (by simp))
    (contents_dropOwner found)
    (fun _ stays => Or.inl (owners_dropOwner_subset inv found owned stays))

/-- The caller of `load_arc_if` gets its handle. -/
theorem advance_giveHandle
    (inv : MemInv memory) (loaded : memory.Held call (.loaded address)) :
    Advance call [] [.loaded address] memory
      (memory.withStore (memory.store.giveHandle address call)) := by
  obtain ⟨inner, found, owned⟩ := Store.heap_of_mem_owners loaded
  obtain ⟨new, shape⟩ : ∃ new : ArcInner, new =
      { inner with
        owners := .user memory.store.nextHandle ::
          inner.owners.erase (.load call) } := ⟨_, rfl⟩
  have heap :
      (memory.store.giveHandle address call).heap =
        (memory.store.setArc address new).heap := by
    simp [Store.giveHandle, found, shape]
  refine Advance.of_owners inv (inv.store.giveHandle found owned)
    (transfer_giveHandle inv.store found) ?_ ?_ ?_ ?_ ?_ ?_
  · simp [Store.giveHandle, found, Store.setArc]
  · simp [Store.giveHandle, found, Store.setArc]
  · simp [Store.giveHandle, found, Store.setArc]
  · intro cell
    have same := StoreInv.tracked_setArc found
      (fun _ => by rw [shape]; rfl : ∀ cell,
        new.trackedFor cell = inner.trackedFor cell) cell
    rw [← same]
    funext target
    simp only [Store.tracked, heap]
  · rw [heap]
    exact contents_setArc found (by rw [shape]; exact ⟨rfl, rfl, rfl⟩)
  · intro target stays
    refine Or.inl ?_
    have owners : (memory.store.giveHandle address call).owners target =
        (memory.store.setArc address new).owners target := by
      simp only [Store.owners, heap]
    rw [owners, Store.owners_setArc] at stays
    split at stays
    · rename_i same
      rw [same, Store.owners_of_heap found]
      rw [shape, List.mem_cons] at stays
      rcases stays with impossible | old
      · cases impossible
      · exact List.mem_of_mem_erase old
    · exact stays

end OwnerOperations

section AllocateOperations

variable {memory : Memory} {call : CallId} {cell : CellId}
variable {address : Addr} {value : List Entry} {place : Place}

theorem StoreKept.allocate
    {store : Store} {snap : SnapCell}
    (free : store.heap address = none)
    (kept : CellKept call (store.cells cell) snap) :
    StoreKept call store
      ((store.allocArc address cell value place).setCell cell snap) where
  contents := by
    intro target inner inner' found found'
    have apart : target ≠ address := by
      rintro rfl
      rw [free] at found
      cases found
    simp only [Store.setCell, Store.allocArc,
      Function.update_of_ne apart] at found'
    rw [found] at found'
    cases found'
    exact ⟨rfl, rfl, rfl⟩
  values := by
    intro version bound
    exact Function.update_of_ne (Nat.ne_of_lt bound) _ _
  versions_le := Nat.le_succ _
  cells := cellsKept_setCell rfl kept
  shared := by
    intro target owned
    refine Or.inl ?_
    by_cases same : target = address
    · subst same
      simp [Store.owners, Store.setCell, Store.allocArc] at owned
    · simpa [Store.owners, Store.setCell, Store.allocArc, same] using owned

private theorem claimOk_allocate
    {store : Store} {snap : SnapCell} {announcement : Announcement}
    {claim : Claim} (free : store.heap address = none)
    (active : snap.active = (store.cells cell).active)
    (ok : ClaimOk store announcement claim) :
    ClaimOk ((store.allocArc address cell value place).setCell cell snap)
      announcement claim := by
  have oldActive := ok.active
  refine ok.mono ?_ ?_
  · by_cases same : claim.cell = cell
    · rw [same] at oldActive ⊢
      simpa [Store.setCell, active] using oldActive
    · simpa [Store.setCell, Store.allocArc, same] using oldActive
  · intro known isKnown notFresh
    refine ⟨known, ?_, notFresh⟩
    have apart : announcement.address ≠ address := by
      intro same
      rw [same, Store.tracked_of_free claim.cell free] at isKnown
      cases isKnown
    refine (StoreInv.tracked_allocArc _ _).trans ?_
    rw [if_neg apart]
    exact isKnown

theorem advance_allocFresh
    (inv : MemInv memory) (free : memory.store.heap address = none)
    (locked : memory.Held call (.writer cell)) :
    Advance call [.fresh address] [] memory
      (memory.withStore
        (memory.store.allocArc address cell value (.fresh call))) := by
  have shape :
      (memory.store.allocArc address cell value (.fresh call)).setCell cell
          (memory.store.cells cell) =
        memory.store.allocArc address cell value (.fresh call) := by
    simp [Store.setCell, Store.allocArc]
  refine Advance.of_store inv (inv.store.allocFresh free locked)
    (transfer_allocFresh free) ?_ ?_
  · rw [← shape]
    exact StoreKept.allocate free (CellKept.refl call _)
  · intro record index announcement claim _ _ ok
    rw [← shape]
    exact claimOk_allocate free rfl ok

theorem advance_newCell
    (inv : MemInv memory) (free : memory.store.heap address = none)
    (unborn : (memory.store.cells cell).phase = .unborn) :
    Advance call [] [] memory
      (memory.withStore (memory.store.newCell cell address)) := by
  have unlocked : ∀ other, (memory.store.cells cell).writer ≠ some other := by
    intro other locked
    have alive := inv.store.alive_of_writer locked
    rw [unborn] at alive
    cases alive
  refine Advance.of_store inv (inv.store.newCell free unborn)
    (transfer_newCell free)
    (StoreKept.allocate free ⟨?_, ?_, ?_, ?_, ?_⟩) ?_
  · intro other _ locked
    exact absurd locked (unlocked other)
  · exact fun _ => Or.inl rfl
  · exact fun _ same => same
  · exact fun _ same => Or.inl same
  · rw [(inv.store.cells cell).unborn_version unborn]
    exact Nat.zero_le _
  · intro record index announcement claim _ _ ok
    exact claimOk_allocate free rfl ok

end AllocateOperations

end RegistryIo.Snapshot
