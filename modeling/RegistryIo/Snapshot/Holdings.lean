import RegistryIo.Snapshot.FrameSteps
import RegistryIo.Snapshot.StoreOwners

/-!
# What a call holds

Everything in shared memory that belongs to one call: the borrow of its cell,
the writer lock, its slot, its references.  `Memory.Held` reads the holdings
of a call off the memory and `Frame.holding` off its frame; `Transfer` says
how an operation changes them.
-/

namespace RegistryIo.Snapshot

inductive Holding where
  | active (cell : CellId)
  | writer (cell : CellId)
  | fallback (cell : CellId)
  | pin (pin : Pin)
  | shared (address : Addr)
  | loaded (address : Addr)
  | fresh (address : Addr)
  | unlinked (address : Addr)
  | freed (address : Addr)
  | drawn (cell : CellId) (handler : Nat)
  deriving DecidableEq, Repr

/-- The cell whose fields record the holding. -/
def Holding.cell? : Holding → Option CellId
  | .active cell => some cell
  | .writer cell => some cell
  | .fallback cell => some cell
  | .drawn cell _ => some cell
  | _ => none

namespace Store

/-- The owners of an allocation; a free address has none. -/
def owners (store : Store) (address : Addr) : List Owner :=
  ((store.heap address).map ArcInner.owners).getD []

def place (store : Store) (address : Addr) : Option Place :=
  (store.heap address).map ArcInner.place

end Store

def Memory.Held (memory : Memory) (call : CallId) : Holding → Prop
  | .active cell => call ∈ (memory.store.cells cell).active
  | .writer cell => (memory.store.cells cell).writer = some call
  | .fallback cell => call ∈ (memory.store.cells cell).fallbackActive
  | .pin pin =>
      (memory.domain.slot pin.record pin.index).map Announcement.call =
        some call
  | .shared address => .fallback call ∈ memory.store.owners address
  | .loaded address => .load call ∈ memory.store.owners address
  | .fresh address => memory.store.place address = some (.fresh call)
  | .unlinked address => memory.store.place address = some (.unlinked call)
  | .freed address => memory.store.place address = some (.freed call)
  | .drawn cell handler =>
      (memory.store.cells cell).status handler = .drawn call

/-- The handler of a registration that is not installed yet. -/
def Write.holding (cell : CellId) : Write → List Holding
  | .insert entry => [.drawn cell entry.handler]
  | _ => []

/-- The drop of a cell is not a call of the cell. -/
def Collector.active (cell : CellId) : Collector → List Holding
  | .drop => []
  | _ => [.active cell]

/-- The handle that a load is going to return or to drop. -/
def Collector.holding : Collector → List Holding
  | .reclaim result => result.toList.map .loaded
  | .discard result => result.toList.map .loaded
  | _ => []

def CollectStep.holding : CollectStep → List Holding
  | .storeLen freed => freed.map .freed
  | .unlock freed => freed.map .freed
  | _ => []

/-- A fallback read is counted; a locked load is not. -/
def Reader.holding (cell : CellId) : Reader → List Holding
  | .read _ => [.fallback cell]
  | .loadArcIf => []

/-- The reference that `load_arc_locked` takes for its caller. -/
def Reader.reference (address : Addr) : Reader → Holding
  | .read _ => .shared address
  | .loadArcIf => .loaded address

def LockedStep.holding (cell : CellId) (reader : Reader) :
    LockedStep → List Holding
  | .lock => []
  | .load => [.writer cell]
  | .increment _ _ => [.writer cell]
  | .unlock address _ => [.writer cell, reader.reference address]

def WaitStep.holding (cell : CellId) : WaitStep → List Holding
  | .copy _ => [.writer cell]
  | _ => []

/-- What the call of a frame holds. -/
def Frame.holding : Frame → List Holding
  | .enter cell _ => [.active cell]
  | .pinning cell _ _ _ => [.active cell]
  | .validate cell _ _ pin => [.active cell, .pin pin]
  | .republish cell _ _ pin => [.active cell, .pin pin]
  | .reading cell _ _ pin _ => [.active cell, .pin pin]
  | .keeping cell _ _ pin => [.active cell, .pin pin]
  | .counted cell address _ pin =>
      [.active cell, .pin pin, .loaded address]
  | .checkRetired cell result => .active cell :: result.toList.map .loaded
  | .tryLock cell result => .active cell :: result.toList.map .loaded
  | .collect cell collector step =>
      .writer cell :: (collector.active cell ++ collector.holding ++
        step.holding)
  | .dropping cell collector freed =>
      collector.active cell ++ collector.holding ++ freed.map .freed
  | .handOver cell address => [.active cell, .loaded address]
  | .draw cell _ => [.active cell]
  | .lockWriter cell write _ => .active cell :: write.holding cell
  | .compute cell write _ =>
      .active cell :: .writer cell :: write.holding cell
  | .installing cell _ effect new =>
      .active cell :: .writer cell :: .fresh new ::
        effect.inserted.toList.map (.drawn cell)
  | .pushing cell _ _ raw => [.active cell, .writer cell, .unlinked raw]
  | .unlockUnchanged cell => [.active cell, .writer cell]
  | .enterFallback cell _ => [.active cell]
  | .locked cell reader step =>
      .active cell :: (reader.holding cell ++ step.holding cell reader)
  | .fallbackReading cell address _ _ =>
      [.active cell, .fallback cell, .shared address]
  | .leaveFallback cell => [.active cell, .fallback cell]
  | .lockedKeep cell address _ => [.active cell, .loaded address]
  | .waiting cell _ step => .active cell :: step.holding cell
  | .returned cell _ => [.active cell]
  | .exiting _ _ => []

/-- An operation of `call` gives it some holdings and takes others; all other
holdings stay. -/
def Transfer (call : CallId) (gained lost : List Holding)
    (memory memory' : Memory) : Prop :=
  ∀ other holding,
    memory'.Held other holding ↔
      (memory.Held other holding ∧ ¬ (other = call ∧ holding ∈ lost)) ∨
        (other = call ∧ holding ∈ gained)

namespace Transfer

variable {memory memory' : Memory} {call other : CallId}
variable {gained lost : List Holding}

theorem of_same
    (same : ∀ other holding,
      memory'.Held other holding ↔ memory.Held other holding) :
    Transfer call [] [] memory memory' := by
  intro other holding
  simp [same]

theorem held_of_ne
    (transfer : Transfer call gained lost memory memory')
    (different : other ≠ call) (holding : Holding) :
    memory'.Held other holding ↔ memory.Held other holding := by
  rw [transfer other holding]
  simp [different]

end Transfer

section DomainTransfers

variable {memory : Memory} {domain : Domain} {call : CallId}

theorem transfer_of_slots
    (same : ∀ record index,
      domain.slot record index = memory.domain.slot record index) :
    Transfer call [] [] memory (memory.withDomain domain) := by
  refine Transfer.of_same ?_
  intro other holding
  cases holding <;> simp [Memory.Held, Memory.withDomain, same]

variable {pin : Pin} {address : Addr} {claim : Option Claim}

theorem transfer_announce
    (free : memory.domain.slot pin.record pin.index = none) :
    Transfer call [.pin pin] [] memory
      (memory.withDomain (memory.domain.setSlot pin.record pin.index
        (some ⟨address, call, claim⟩))) := by
  intro other holding
  cases holding with
  | pin target =>
      obtain ⟨record, index⟩ := target
      simp only [Memory.Held, Memory.withDomain, Domain.slot_setSlot]
      split
      · rename_i same
        obtain ⟨rfl, rfl⟩ := same
        simp [free, eq_comm]
      · rename_i different
        have apart : (⟨record, index⟩ : Pin) ≠ pin := by
          rintro rfl
          exact different ⟨rfl, rfl⟩
        simp [apart]
  | _ => simp [Memory.Held, Memory.withDomain]

theorem transfer_reannounce
    {old : Announcement}
    (used : memory.domain.slot pin.record pin.index = some old)
    (own : old.call = call) :
    Transfer call [] [] memory
      (memory.withDomain (memory.domain.setSlot pin.record pin.index
        (some ⟨address, call, claim⟩))) := by
  refine Transfer.of_same ?_
  intro other holding
  cases holding with
  | pin target =>
      obtain ⟨record, index⟩ := target
      simp only [Memory.Held, Memory.withDomain, Domain.slot_setSlot]
      split
      · rename_i same
        obtain ⟨rfl, rfl⟩ := same
        simp [used, own]
      · rfl
  | _ => simp [Memory.Held, Memory.withDomain]

theorem transfer_clearPin
    {old : Announcement}
    (used : memory.domain.slot pin.record pin.index = some old)
    (own : old.call = call) :
    Transfer call [] [.pin pin] memory (memory.clearPin pin) := by
  intro other holding
  cases holding with
  | pin target =>
      obtain ⟨record, index⟩ := target
      simp only [Memory.Held, Memory.clearPin, Memory.withDomain,
        Domain.slot_setSlot]
      split
      · rename_i same
        obtain ⟨rfl, rfl⟩ := same
        simp [used, own, eq_comm]
      · rename_i different
        have apart : (⟨record, index⟩ : Pin) ≠ pin := by
          rintro rfl
          exact different ⟨rfl, rfl⟩
        simp [apart]
  | _ => simp [Memory.Held, Memory.clearPin, Memory.withDomain]

end DomainTransfers

section CellTransfers

variable {memory : Memory} {call : CallId} {cell : CellId}

/-- A change of one cell moves the holdings recorded in that cell. -/
private theorem transfer_setCell
    {snap : SnapCell} {gained lost : List Holding}
    (inside : ∀ holding, holding.cell? = some cell → ∀ other,
      (memory.withStore (memory.store.setCell cell snap)).Held
          other holding ↔
        (memory.Held other holding ∧
            ¬ (other = call ∧ holding ∈ lost)) ∨
          (other = call ∧ holding ∈ gained))
    (gainedInside : ∀ holding ∈ gained, holding.cell? = some cell)
    (lostInside : ∀ holding ∈ lost, holding.cell? = some cell) :
    Transfer call gained lost memory
      (memory.withStore (memory.store.setCell cell snap)) := by
  intro other holding
  by_cases concerned : holding.cell? = some cell
  · exact inside holding concerned other
  · have notGained : holding ∉ gained :=
      fun member => concerned (gainedInside holding member)
    have notLost : holding ∉ lost :=
      fun member => concerned (lostInside holding member)
    have same :
        (memory.withStore (memory.store.setCell cell snap)).Held
            other holding ↔ memory.Held other holding := by
      cases holding with
      | active target =>
          have apart : target ≠ cell := by simpa [Holding.cell?] using concerned
          simp [Memory.Held, Memory.withStore, Store.setCell, apart]
      | writer target =>
          have apart : target ≠ cell := by simpa [Holding.cell?] using concerned
          simp [Memory.Held, Memory.withStore, Store.setCell, apart]
      | fallback target =>
          have apart : target ≠ cell := by simpa [Holding.cell?] using concerned
          simp [Memory.Held, Memory.withStore, Store.setCell, apart]
      | drawn target handler =>
          have apart : target ≠ cell := by simpa [Holding.cell?] using concerned
          simp [Memory.Held, Memory.withStore, Store.setCell, apart]
      | _ => exact Iff.rfl
    simp [same, notGained, notLost]

theorem transfer_lock (free : (memory.store.cells cell).writer = none) :
    Transfer call [.writer cell] [] memory
      (memory.withStore (memory.store.lock cell call)) := by
  refine transfer_setCell ?_ (by simp [Holding.cell?]) (by simp)
  intro holding concerned other
  cases holding <;> simp [Holding.cell?] at concerned <;> subst concerned <;>
    simp [Memory.Held, Memory.withStore, Store.setCell, free, eq_comm]

theorem transfer_unlock
    (locked : (memory.store.cells cell).writer = some call) :
    Transfer call [] [.writer cell] memory
      (memory.withStore (memory.store.unlock cell)) := by
  refine transfer_setCell ?_ (by simp) (by simp [Holding.cell?])
  intro holding concerned other
  cases holding <;> simp [Holding.cell?] at concerned <;> subst concerned <;>
    simp [Memory.Held, Memory.withStore, Store.setCell, locked, eq_comm]

theorem transfer_storeRetiredLen :
    Transfer call [] [] memory
      (memory.withStore (memory.store.storeRetiredLen cell)) := by
  refine transfer_setCell ?_ (by simp) (by simp)
  intro holding concerned other
  cases holding <;> simp [Holding.cell?] at concerned <;> subst concerned <;>
    simp [Memory.Held, Memory.withStore, Store.setCell]

theorem transfer_enterFallback :
    Transfer call [.fallback cell] [] memory
      (memory.withStore (memory.store.enterFallback cell call)) := by
  refine transfer_setCell ?_ (by simp [Holding.cell?]) (by simp)
  intro holding concerned other
  cases holding <;> simp [Holding.cell?] at concerned <;> subst concerned <;>
    simp [Memory.Held, Memory.withStore, Store.setCell, or_comm]

theorem transfer_leaveFallback
    (nodup : (memory.store.cells cell).fallbackActive.Nodup) :
    Transfer call [] [.fallback cell] memory
      (memory.withStore (memory.store.leaveFallback cell call)) := by
  refine transfer_setCell ?_ (by simp) (by simp [Holding.cell?])
  intro holding concerned other
  cases holding <;> simp [Holding.cell?] at concerned <;> subst concerned <;>
    simp [Memory.Held, Memory.withStore, Store.setCell,
      nodup.mem_erase_iff, and_comm]

theorem transfer_beginCall :
    Transfer call [.active cell] [] memory
      (memory.withStore (memory.store.beginCall cell call)) := by
  refine transfer_setCell ?_ (by simp [Holding.cell?]) (by simp)
  intro holding concerned other
  cases holding <;> simp [Holding.cell?] at concerned <;> subst concerned <;>
    simp [Memory.Held, Memory.withStore, Store.setCell, or_comm]

theorem transfer_endCall
    (nodup : (memory.store.cells cell).active.Nodup) :
    Transfer call [] [.active cell] memory
      (memory.withStore (memory.store.endCall cell call)) := by
  refine transfer_setCell ?_ (by simp) (by simp [Holding.cell?])
  intro holding concerned other
  cases holding <;> simp [Holding.cell?] at concerned <;> subst concerned <;>
    simp [Memory.Held, Memory.withStore, Store.setCell,
      nodup.mem_erase_iff, and_comm]

theorem transfer_nextId
    (unused : (memory.store.cells cell).status
      (memory.store.cells cell).registrations = .unused) :
    Transfer call [.drawn cell (memory.store.cells cell).registrations] []
      memory (memory.withStore (memory.store.nextId cell call)) := by
  refine transfer_setCell ?_ (by simp [Holding.cell?]) (by simp)
  intro holding concerned other
  cases holding with
  | drawn target handler =>
      simp only [Holding.cell?, Option.some.injEq] at concerned
      subst concerned
      by_cases same : handler = (memory.store.cells target).registrations
      · subst same
        simp [Memory.Held, Memory.withStore, Store.setCell, unused, eq_comm]
      · simp [Memory.Held, Memory.withStore, Store.setCell, same]
  | _ =>
      simp [Holding.cell?] at concerned <;> subst concerned <;>
        simp [Memory.Held, Memory.withStore, Store.setCell]

end CellTransfers

section PlaceTransfers

variable {memory : Memory} {call : CallId} {cell : CellId}

@[simp]
theorem Store.owners_move (store : Store) (place : Addr → Place → Place)
    (address : Addr) :
    (store.move place).owners address = store.owners address := by
  cases found : store.heap address <;> simp [Store.owners, Store.move, found]

@[simp]
theorem Store.place_move (store : Store) (place : Addr → Place → Place)
    (address : Addr) :
    (store.move place).place address =
      (store.place address).map (place address) := by
  cases found : store.heap address <;> simp [Store.place, Store.move, found]

@[simp]
theorem Store.owners_setCell (store : Store) (snap : SnapCell)
    (address : Addr) :
    (store.setCell cell snap).owners address = store.owners address :=
  rfl

@[simp]
theorem Store.place_setCell (store : Store) (snap : SnapCell)
    (address : Addr) :
    (store.setCell cell snap).place address = store.place address :=
  rfl

/-- The fields of a cell that record holdings. -/
structure SameHoldings (snap snap' : SnapCell) : Prop where
  active : snap'.active = snap.active
  writer : snap'.writer = snap.writer
  fallbackActive : snap'.fallbackActive = snap.fallbackActive
  status : snap'.status = snap.status

/-- Holdings that are places of allocations. -/
def Holding.isPlace : Holding → Bool
  | .fresh _ => true
  | .unlinked _ => true
  | .freed _ => true
  | _ => false

/-- References move between places; all other holdings stay. -/
private theorem transfer_of_places
    {store' : Store} {gained lost : List Holding}
    (cells : ∀ cell,
      SameHoldings (memory.store.cells cell) (store'.cells cell))
    (owners : ∀ address,
      store'.owners address = memory.store.owners address)
    (gainedPlaces : ∀ holding ∈ gained, holding.isPlace)
    (lostPlaces : ∀ holding ∈ lost, holding.isPlace)
    (places : ∀ holding, holding.isPlace → ∀ other,
      (memory.withStore store').Held other holding ↔
        (memory.Held other holding ∧
            ¬ (other = call ∧ holding ∈ lost)) ∨
          (other = call ∧ holding ∈ gained)) :
    Transfer call gained lost memory (memory.withStore store') := by
  intro other holding
  by_cases isPlace : holding.isPlace
  · exact places holding isPlace other
  · have notGained : holding ∉ gained :=
      fun member => isPlace (gainedPlaces holding member)
    have notLost : holding ∉ lost :=
      fun member => isPlace (lostPlaces holding member)
    have same :
        (memory.withStore store').Held other holding ↔
          memory.Held other holding := by
      cases holding with
      | active cell => simp [Memory.Held, Memory.withStore, (cells cell).active]
      | writer cell => simp [Memory.Held, Memory.withStore, (cells cell).writer]
      | fallback cell =>
          simp [Memory.Held, Memory.withStore, (cells cell).fallbackActive]
      | drawn cell handler =>
          simp [Memory.Held, Memory.withStore, (cells cell).status]
      | pin pin => exact Iff.rfl
      | shared address => simp [Memory.Held, Memory.withStore, owners]
      | loaded address => simp [Memory.Held, Memory.withStore, owners]
      | _ => exact absurd rfl isPlace
    simp [same, notGained, notLost]

private theorem sameHoldings_setCell
    {store store' : Store} {snap : SnapCell}
    (cells : store'.cells = store.cells)
    (same : SameHoldings (store.cells cell) snap) (target : CellId) :
    SameHoldings (store.cells target)
      ((store'.setCell cell snap).cells target) := by
  by_cases equal : target = cell
  · subst equal
    simpa [Store.setCell] using same
  · have kept :
        (store'.setCell cell snap).cells target = store.cells target := by
      simp [Store.setCell, equal, cells]
    rw [kept]
    exact ⟨rfl, rfl, rfl, rfl⟩

theorem transfer_retire
    {raw : Addr}
    (unlinked : memory.store.place raw = some (.unlinked call)) :
    Transfer call [] [.unlinked raw] memory
      (memory.withStore (memory.store.retire cell raw)) := by
  refine transfer_of_places (sameHoldings_setCell rfl ⟨rfl, rfl, rfl, rfl⟩)
    ?_ (by simp) (by simp [Holding.isPlace]) ?_
  · intro address
    simp [Store.retire, Store.setPlaces]
  · intro holding isPlace other
    cases holding <;> simp [Holding.isPlace] at isPlace
    all_goals
      rename_i address
      by_cases same : address = raw
      · subst same
        simp [Memory.Held, Memory.withStore, Store.retire, Store.setPlaces,
          unlinked, eq_comm]
      · simp [Memory.Held, Memory.withStore, Store.retire, Store.setPlaces,
          same]

/-- A batch of values without a holder passes to the call. -/
theorem transfer_free
    {addresses : List Addr} {snap : SnapCell}
    (same : SameHoldings (memory.store.cells cell) snap)
    (unheld : ∀ address ∈ addresses,
      memory.store.place address = some .current ∨
        memory.store.place address = some .retired) :
    Transfer call (addresses.map .freed) [] memory
      (memory.withStore
        ((memory.store.setPlaces addresses (.freed call)).setCell
          cell snap)) := by
  refine transfer_of_places (sameHoldings_setCell rfl same)
    ?_ (by simp [Holding.isPlace]) (by simp) ?_
  · intro address
    simp [Store.setPlaces]
  · intro holding isPlace other
    cases holding <;> simp [Holding.isPlace] at isPlace
    all_goals
      rename_i address
      by_cases member : address ∈ addresses
      · rcases unheld address member with known | known <;>
          simp [Memory.Held, Memory.withStore, Store.setPlaces, member,
            known, eq_comm]
      · simp [Memory.Held, Memory.withStore, Store.setPlaces, member]

theorem transfer_install
    {new : Addr} {effect : Effect}
    (fresh : memory.store.place new = some (.fresh call))
    (current : memory.store.place (memory.store.cells cell).current =
      some .current)
    (removed : ∀ handler ∈ effect.removed,
      (memory.store.cells cell).status handler = .live)
    (inserted : ∀ handler, effect.inserted = some handler →
      (memory.store.cells cell).status handler = .drawn call) :
    Transfer call [.unlinked (memory.store.cells cell).current]
      (.fresh new :: effect.inserted.toList.map (.drawn cell)) memory
      (memory.withStore (memory.store.install cell new effect call)) := by
  have apart : (memory.store.cells cell).current ≠ new := by
    intro same
    rw [same, fresh] at current
    cases current
  intro other holding
  cases holding with
  | active target =>
      by_cases same : target = cell
      · subst same
        simp [Memory.Held, Memory.withStore, Store.install, Store.setCell,
          SnapCell.installed]
      · simp [Memory.Held, Memory.withStore, Store.install, Store.setCell,
          Store.relink, Store.move, same]
  | writer target =>
      by_cases same : target = cell
      · subst same
        simp [Memory.Held, Memory.withStore, Store.install, Store.setCell,
          SnapCell.installed]
      · simp [Memory.Held, Memory.withStore, Store.install, Store.setCell,
          Store.relink, Store.move, same]
  | fallback target =>
      by_cases same : target = cell
      · subst same
        simp [Memory.Held, Memory.withStore, Store.install, Store.setCell,
          SnapCell.installed]
      · simp [Memory.Held, Memory.withStore, Store.install, Store.setCell,
          Store.relink, Store.move, same]
  | drawn target handler =>
      by_cases same : target = cell
      · subst same
        by_cases isRemoved : handler ∈ effect.removed
        · simp [Memory.Held, Memory.withStore, Store.install, Store.setCell,
            SnapCell.installed, isRemoved, removed handler isRemoved]
        · by_cases isInserted : effect.inserted = some handler
          · simp [Memory.Held, Memory.withStore, Store.install,
              Store.setCell, SnapCell.installed, isRemoved, isInserted,
              inserted handler isInserted, eq_comm]
          · simp [Memory.Held, Memory.withStore, Store.install,
              Store.setCell, SnapCell.installed, isRemoved, isInserted]
      · simp [Memory.Held, Memory.withStore, Store.install, Store.setCell,
          Store.relink, Store.move, same, Ne.symm same]
  | pin pin => simp [Memory.Held, Memory.withStore]
  | shared address =>
      simp [Memory.Held, Memory.withStore, Store.install, Store.relink]
  | loaded address =>
      simp [Memory.Held, Memory.withStore, Store.install, Store.relink]
  | fresh address =>
      by_cases isNew : address = new
      · subst isNew
        simp [Memory.Held, Memory.withStore, Store.install, Store.relink,
          fresh, eq_comm]
      · by_cases isCurrent : address = (memory.store.cells cell).current
        · subst isCurrent
          simp [Memory.Held, Memory.withStore, Store.install, Store.relink,
            current, apart]
        · simp [Memory.Held, Memory.withStore, Store.install, Store.relink,
            isNew, isCurrent]
  | unlinked address =>
      by_cases isNew : address = new
      · subst isNew
        simp [Memory.Held, Memory.withStore, Store.install, Store.relink,
          fresh, Ne.symm apart]
      · by_cases isCurrent : address = (memory.store.cells cell).current
        · subst isCurrent
          simpa [Memory.Held, Memory.withStore, Store.install, Store.relink,
            current, apart] using eq_comm
        · simp [Memory.Held, Memory.withStore, Store.install, Store.relink,
            isNew, isCurrent]
  | freed address =>
      by_cases isNew : address = new
      · subst isNew
        simp [Memory.Held, Memory.withStore, Store.install, Store.relink,
          fresh]
      · by_cases isCurrent : address = (memory.store.cells cell).current
        · subst isCurrent
          simp [Memory.Held, Memory.withStore, Store.install, Store.relink,
            current, apart]
        · simp [Memory.Held, Memory.withStore, Store.install, Store.relink,
            isNew, isCurrent]

end PlaceTransfers

section OwnerTransfers

variable {memory : Memory} {call : CallId} {cell : CellId}
variable {address : Addr} {inner : ArcInner}

/-- The allocation that records the holding. -/
def Holding.address? : Holding → Option Addr
  | .shared address => some address
  | .loaded address => some address
  | .fresh address => some address
  | .unlinked address => some address
  | .freed address => some address
  | _ => none

theorem Store.owners_of_heap
    {store : Store} (found : store.heap address = some inner) :
    store.owners address = inner.owners := by
  simp [Store.owners, found]

theorem Store.place_of_heap
    {store : Store} (found : store.heap address = some inner) :
    store.place address = some inner.place := by
  simp [Store.place, found]

@[simp]
theorem Store.owners_setArc (store : Store) (target : Addr) :
    (store.setArc address inner).owners target =
      if target = address then inner.owners else store.owners target := by
  by_cases same : target = address
  · subst same
    simp [Store.owners, Store.setArc]
  · simp [Store.owners, Store.setArc, same]

@[simp]
theorem Store.place_setArc (store : Store) (target : Addr) :
    (store.setArc address inner).place target =
      if target = address then some inner.place else store.place target := by
  by_cases same : target = address
  · subst same
    simp [Store.place, Store.setArc]
  · simp [Store.place, Store.setArc, same]

/-- A change of one allocation moves the holdings recorded there. -/
private theorem transfer_setHeap
    (address : Addr) {store' : Store} {gained lost : List Holding}
    (cells : store'.cells = memory.store.cells)
    (elsewhere : ∀ target, target ≠ address →
      store'.heap target = memory.store.heap target)
    (inside : ∀ holding, holding.address? = some address → ∀ other,
      (memory.withStore store').Held other holding ↔
        (memory.Held other holding ∧
            ¬ (other = call ∧ holding ∈ lost)) ∨
          (other = call ∧ holding ∈ gained))
    (gainedInside : ∀ holding ∈ gained, holding.address? = some address)
    (lostInside : ∀ holding ∈ lost, holding.address? = some address) :
    Transfer call gained lost memory (memory.withStore store') := by
  intro other holding
  by_cases concerned : holding.address? = some address
  · exact inside holding concerned other
  · have notGained : holding ∉ gained :=
      fun member => concerned (gainedInside holding member)
    have notLost : holding ∉ lost :=
      fun member => concerned (lostInside holding member)
    have same :
        (memory.withStore store').Held other holding ↔
          memory.Held other holding := by
      cases holding <;>
        simp [Holding.address?] at concerned <;>
        simp [Memory.Held, Memory.withStore, cells, Store.owners,
          Store.place, elsewhere, concerned]
    simp [same, notGained, notLost]

theorem transfer_addOwner
    {owner : Owner} {gained : Holding}
    (found : memory.store.heap address = some inner)
    (kind : (owner = .fallback call ∧ gained = .shared address) ∨
      (owner = .load call ∧ gained = .loaded address)) :
    Transfer call [gained] [] memory
      (memory.withStore (memory.store.addOwner address owner)) := by
  have owners := Store.owners_of_heap found
  have place := Store.place_of_heap found
  have new : (memory.store.addOwner address owner).heap address =
      some { inner with
        strong := inner.strong + 1
        owners := owner :: inner.owners } := by
    simp [Store.addOwner, found, Store.setArc]
  have newOwners := Store.owners_of_heap new
  have newPlace := Store.place_of_heap new
  refine transfer_setHeap address ?_ ?_ ?_ ?_ (by simp)
  · simp [Store.addOwner, found, Store.setArc]
  · intro target different
    simp [Store.addOwner, found, Store.setArc, different]
  · intro holding concerned other
    rcases kind with ⟨rfl, rfl⟩ | ⟨rfl, rfl⟩ <;>
      cases holding <;> simp [Holding.address?] at concerned <;>
      subst concerned <;>
      simp [Memory.Held, Memory.withStore, owners, place, newOwners,
        newPlace, or_comm]
  · rcases kind with ⟨rfl, rfl⟩ | ⟨rfl, rfl⟩ <;> simp [Holding.address?]

section Drop

variable {owner : Owner} (holds : StoreInv memory.store)
variable (found : memory.store.heap address = some inner)
variable (member : owner ∈ inner.owners)

include holds found member

theorem owners_dropOwner :
    (memory.store.dropOwner address owner).owners address =
      inner.owners.erase owner := by
  by_cases last : inner.strong = 1
  · have only := holds.owners_eq_singleton found member last
    simp [Store.owners, Store.dropOwner, found, last, only]
  · simp [Store.owners, Store.dropOwner, Store.setArc, found, last]

/-- A place other than `dropped` survives unless the cell's reference goes. -/
private theorem place_dropOwner (place : Place) (linked : place ≠ .dropped) :
    (memory.store.dropOwner address owner).place address = some place ↔
      owner ≠ .cell ∧ inner.place = place := by
  by_cases last : inner.strong = 1
  · have only := holds.owners_eq_singleton found member last
    have gone : (memory.store.dropOwner address owner).place address =
        none := by
      simp [Store.place, Store.dropOwner, found, last]
    rw [gone]
    constructor
    · intro impossible
      cases impossible
    · rintro ⟨notCell, rfl⟩
      have cellIff := (holds.arcs address inner found).cell_iff
      rw [only] at cellIff
      have dropped : inner.place = .dropped := by
        simpa [Ne.symm notCell] using cellIff
      exact absurd dropped linked
  · have kept : (memory.store.dropOwner address owner).place address =
        some (if owner = .cell then .dropped else inner.place) := by
      simp [Store.place, Store.dropOwner, Store.setArc, found, last]
    rw [kept]
    by_cases isCell : owner = .cell
    · simp [isCell, Ne.symm linked]
    · simp [isCell]

/-- Dropping a reference takes away exactly what it was. -/
theorem transfer_dropOwner
    {lost : List Holding}
    (kind : (owner = .fallback call ∧ lost = [.shared address]) ∨
      (owner = .load call ∧ lost = [.loaded address]) ∨
      (owner = .cell ∧ inner.place = .freed call ∧ lost = [.freed address]) ∨
      (∃ handle, owner = .user handle ∧ lost = [])) :
    Transfer call [] lost memory
      (memory.withStore (memory.store.dropOwner address owner)) := by
  have nodup := (holds.arcs address inner found).owners_nodup
  have owners := Store.owners_of_heap found
  have place := Store.place_of_heap found
  have newOwners := owners_dropOwner holds found member
  have fresh := fun other =>
    place_dropOwner holds found member (.fresh other) (by simp)
  have unlinked := fun other =>
    place_dropOwner holds found member (.unlinked other) (by simp)
  have freed := fun other =>
    place_dropOwner holds found member (.freed other) (by simp)
  refine transfer_setHeap address ?_ ?_ ?_ (by simp) ?_
  · simp only [Store.dropOwner, found]
    split <;> rfl
  · intro target different
    simp only [Store.dropOwner, found]
    split <;> simp [Store.setArc, different]
  · intro holding concerned other
    rcases kind with
      ⟨rfl, rfl⟩ | ⟨rfl, rfl⟩ | ⟨rfl, isFreed, rfl⟩ | ⟨handle, rfl, rfl⟩
    case inr.inr.inl =>
      cases holding <;> simp [Holding.address?] at concerned <;>
        subst concerned <;>
        simp [Memory.Held, Memory.withStore, owners, place, newOwners,
          fresh, unlinked, freed, nodup.mem_erase_iff, isFreed, eq_comm]
    all_goals
      cases holding <;> simp [Holding.address?] at concerned <;>
        subst concerned <;>
        simp [Memory.Held, Memory.withStore, owners, place, newOwners,
          fresh, unlinked, freed, nodup.mem_erase_iff, and_comm]
  · rcases kind with
      ⟨_, rfl⟩ | ⟨_, rfl⟩ | ⟨_, _, rfl⟩ | ⟨_, _, rfl⟩ <;>
      simp [Holding.address?]

end Drop

theorem transfer_dropHandle
    {handle : Nat} (holds : StoreInv memory.store)
    (member : (handle, address) ∈ memory.store.handles) :
    Transfer call [] [] memory
      (memory.withStore (memory.store.dropHandle handle address)) := by
  obtain ⟨inner, found, owned⟩ := holds.handles_owned handle address member
  have dropped :
      Transfer call [] [] memory
        (memory.withStore
          (memory.store.dropOwner address (.user handle))) :=
    transfer_dropOwner holds found owned
      (Or.inr (Or.inr (Or.inr ⟨handle, rfl, rfl⟩)))
  intro other holding
  have same :
      (memory.withStore (memory.store.dropHandle handle address)).Held
          other holding ↔
        (memory.withStore (memory.store.dropOwner address
          (.user handle))).Held other holding := by
    cases holding <;> exact Iff.rfl
  rw [same]
  exact dropped other holding

theorem transfer_giveHandle
    (holds : StoreInv memory.store)
    (found : memory.store.heap address = some inner) :
    Transfer call [] [.loaded address] memory
      (memory.withStore (memory.store.giveHandle address call)) := by
  have nodup := (holds.arcs address inner found).owners_nodup
  have owners := Store.owners_of_heap found
  have place := Store.place_of_heap found
  have new : (memory.store.giveHandle address call).heap address =
      some { inner with
        owners := .user memory.store.nextHandle ::
          inner.owners.erase (.load call) } := by
    simp [Store.giveHandle, found, Store.setArc]
  have newOwners := Store.owners_of_heap new
  have newPlace := Store.place_of_heap new
  refine transfer_setHeap address ?_ ?_ ?_ (by simp)
    (by simp [Holding.address?])
  · simp [Store.giveHandle, found, Store.setArc]
  · intro target different
    simp [Store.giveHandle, found, Store.setArc, different]
  · intro holding concerned other
    cases holding <;> simp [Holding.address?] at concerned <;>
      subst concerned <;>
      simp [Memory.Held, Memory.withStore, owners, place, newOwners,
        newPlace, nodup.mem_erase_iff, and_comm]

theorem transfer_allocFresh
    {value : List Entry} (free : memory.store.heap address = none) :
    Transfer call [.fresh address] [] memory
      (memory.withStore
        (memory.store.allocArc address cell value (.fresh call))) := by
  have new : (memory.store.allocArc address cell value (.fresh call)).heap
      address = some ⟨cell, memory.store.versions, value, 1, [.cell],
        .fresh call⟩ := by
    simp [Store.allocArc]
  have newOwners := Store.owners_of_heap new
  have newPlace := Store.place_of_heap new
  refine transfer_setHeap address rfl ?_ ?_ (by simp [Holding.address?])
    (by simp)
  · intro target different
    simp [Store.allocArc, different]
  · intro holding concerned other
    cases holding <;> simp [Holding.address?] at concerned <;>
      subst concerned <;>
      simp [Memory.Held, Memory.withStore, Store.owners, Store.place, free,
        new, eq_comm]

theorem transfer_newCell
    (free : memory.store.heap address = none) :
    Transfer call [] [] memory
      (memory.withStore (memory.store.newCell cell address)) := by
  have new : (memory.store.newCell cell address).heap address =
      some ⟨cell, memory.store.versions, [], 1, [.cell], .current⟩ := by
    simp [Store.newCell, Store.allocArc, Store.setCell]
  have elsewhere : ∀ target, target ≠ address →
      (memory.store.newCell cell address).heap target =
        memory.store.heap target := by
    intro target different
    simp [Store.newCell, Store.allocArc, Store.setCell, different]
  have cells : ∀ target,
      SameHoldings (memory.store.cells target)
        ((memory.store.newCell cell address).cells target) :=
    sameHoldings_setCell rfl ⟨rfl, rfl, rfl, rfl⟩
  refine Transfer.of_same ?_
  intro other holding
  cases holding with
  | active target =>
      simp [Memory.Held, Memory.withStore, (cells target).active]
  | writer target =>
      simp [Memory.Held, Memory.withStore, (cells target).writer]
  | fallback target =>
      simp [Memory.Held, Memory.withStore, (cells target).fallbackActive]
  | drawn target handler =>
      simp [Memory.Held, Memory.withStore, (cells target).status]
  | pin pin => exact Iff.rfl
  | _ target =>
      by_cases same : target = address
      · subst same
        simp [Memory.Held, Memory.withStore, Store.owners, Store.place,
          free, new]
      · simp [Memory.Held, Memory.withStore, Store.owners, Store.place,
          elsewhere target same]

end OwnerTransfers

end RegistryIo.Snapshot
