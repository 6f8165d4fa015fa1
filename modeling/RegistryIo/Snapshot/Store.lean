import RegistryIo.Foundations.SwapRemove
import RegistryIo.HandlerList
import RegistryIo.Snapshot.Domain

/-!
# Cells, the heap and reference counts

The values of a `SnapCell<Vec<HandlerEntry>>` live behind `Arc`s.  The heap
maps the address of an `Arc` allocation to its contents; the allocator may
hand out any address that is not allocated, so an address can come back with
another value.

An allocation records its strong count.  The list of its owners, the place
where the cell's own reference is, and the version number are not in the
source: they name the references that the count adds up, and they let
statements speak about a value rather than about an address.  The same holds
for the lists `fallbackActive` and `active`, for the call that holds the
writer lock, and for the status of handlers.
-/

namespace RegistryIo.Snapshot

/-- Entries refer to their handler by a serial number, which stands for the
identity of the `Arc<dyn Fn>`. -/
abbrev Entry := HandlerEntry Nat

/-- The handlers of a list. -/
def handlersOf (list : List Entry) : List Nat :=
  list.map HandlerEntry.handler

/-- The holder of one strong reference. -/
inductive Owner where
  | cell
  | fallback (call : CallId)
  | load (call : CallId)
  | user (handle : Nat)
  deriving DecidableEq, Repr

/-- Where the reference of the cell is: with a writer that has not installed
it yet, in `current`, with the writer that replaced it, in the retired list, in
the batch of a call, or dropped. -/
inductive Place where
  | fresh (call : CallId)
  | current
  | unlinked (call : CallId)
  | retired
  | freed (call : CallId)
  | dropped
  deriving DecidableEq, Repr

/-- The allocation behind an `Arc<T>`. -/
structure ArcInner where
  cell : CellId
  version : Nat
  value : List Entry
  strong : Nat
  owners : List Owner
  place : Place

/-- What has become of a registration. -/
inductive Status where
  | unused
  | drawn (call : CallId)
  | live
  | removed
  deriving DecidableEq, Repr

/-- What a write does to the registered handlers. -/
structure Effect where
  removed : List Nat
  inserted : Option Nat
  deriving DecidableEq, Repr

/-- Life of a cell: it is created once and dropped at most once. -/
inductive Phase where
  | unborn
  | alive
  | dropped
  deriving DecidableEq, Repr

/-- `SnapCell<T>` together with the id generator of its registry. -/
structure SnapCell where
  phase : Phase
  current : Addr
  version : Nat
  retiredLen : Nat
  fallbackReaders : Nat
  writer : Option CallId
  retired : List Addr
  idGenerator : HandlerIdGenerator
  registrations : Nat
  status : Nat → Status
  fallbackActive : List CallId
  active : List CallId

/-- The cell after a new value became current. -/
def SnapCell.installed (snap : SnapCell) (new : Addr) (version : Nat)
    (effect : Effect) : SnapCell :=
  { snap with
    current := new
    version := version
    status := fun handler =>
      if handler ∈ effect.removed then .removed
      else if effect.inserted = some handler then .live
      else snap.status handler }

/-- Everything that is shared except the hazard domain. -/
structure Store where
  heap : Addr → Option ArcInner
  versions : Nat
  values : Nat → List Entry
  cells : CellId → SnapCell
  handles : List (Nat × Addr)
  nextHandle : Nat

namespace Store

def initial : Store where
  heap := fun _ => none
  versions := 0
  values := fun _ => []
  cells := fun _ =>
    ⟨.unborn, 0, 0, 0, 0, none, [], .new, 0, fun _ => .unused, [], []⟩
  handles := []
  nextHandle := 0

/-- The value a pointer to an allocation shows. -/
def deref (store : Store) (address : Addr) : List Entry :=
  ((store.heap address).map ArcInner.value).getD []

def setCell (store : Store) (cell : CellId) (value : SnapCell) : Store :=
  { store with cells := Function.update store.cells cell value }

def setArc (store : Store) (address : Addr) (value : ArcInner) : Store :=
  { store with heap := Function.update store.heap address (some value) }

/-- `writer.lock()` once the lock is free. -/
def lock (store : Store) (cell : CellId) (call : CallId) : Store :=
  store.setCell cell { store.cells cell with writer := some call }

def unlock (store : Store) (cell : CellId) : Store :=
  store.setCell cell { store.cells cell with writer := none }

/-- `retired_len.store(writer.len())`. -/
def storeRetiredLen (store : Store) (cell : CellId) : Store :=
  store.setCell cell
    { store.cells cell with
      retiredLen := (store.cells cell).retired.length }

/-- `fallback_readers.fetch_add(1)`. -/
def enterFallback (store : Store) (cell : CellId)
    (call : CallId) : Store :=
  store.setCell cell
    { store.cells cell with
      fallbackReaders := (store.cells cell).fallbackReaders + 1
      fallbackActive := call :: (store.cells cell).fallbackActive }

/-- `fallback_readers.fetch_sub(1)`. -/
def leaveFallback (store : Store) (cell : CellId)
    (call : CallId) : Store :=
  store.setCell cell
    { store.cells cell with
      fallbackReaders := (store.cells cell).fallbackReaders - 1
      fallbackActive :=
        (store.cells cell).fallbackActive.erase call }

/-- A call borrows the cell. -/
def beginCall (store : Store) (cell : CellId)
    (call : CallId) : Store :=
  store.setCell cell
    { store.cells cell with
      active := call :: (store.cells cell).active }

def endCall (store : Store) (cell : CellId)
    (call : CallId) : Store :=
  store.setCell cell
    { store.cells cell with
      active := (store.cells cell).active.erase call }

/-- `id_generator.next()` together with the allocation of the handler. -/
def nextId (store : Store) (cell : CellId)
    (call : CallId) : Store :=
  let old := store.cells cell
  store.setCell cell
    { old with
      idGenerator := old.idGenerator.next.2
      registrations := old.registrations + 1
      status :=
        Function.update old.status old.registrations (.drawn call) }

/-- `Arc::into_raw(Arc::new(value))`. -/
def allocArc (store : Store) (address : Addr) (cell : CellId)
    (value : List Entry) (place : Place) : Store :=
  { store with
    heap := Function.update store.heap address
      (some ⟨cell, store.versions, value, 1, [.cell], place⟩)
    versions := store.versions + 1
    values := Function.update store.values store.versions value }

/-- Move the cell's references to other places. -/
def move (store : Store) (place : Addr → Place → Place) : Store :=
  { store with
    heap := fun address =>
      (store.heap address).map fun inner =>
        { inner with place := place address inner.place } }

/-- Move the references of a batch of allocations. -/
def setPlaces (store : Store) (addresses : List Addr) (place : Place) :
    Store :=
  store.move fun address old => if address ∈ addresses then place else old

/-- The places after a writer replaced the current value by `new`. -/
def relink (store : Store) (cell : CellId) (new : Addr) (call : CallId) :
    Store :=
  store.move fun address place =>
    if address = new then .current
    else if address = (store.cells cell).current then .unlinked call
    else place

/-- `current.store(new)`: the old value is now held by the writer alone. -/
def install (store : Store) (cell : CellId) (new : Addr)
    (effect : Effect) (call : CallId) : Store :=
  (store.relink cell new call).setCell cell
    ((store.cells cell).installed new
      (((store.heap new).map ArcInner.version).getD 0) effect)

/-- `writer.push(Arc::from_raw(raw))`. -/
def retire (store : Store) (cell : CellId) (raw : Addr) : Store :=
  (store.setPlaces [raw] .retired).setCell cell
    { store.cells cell with retired := (store.cells cell).retired ++ [raw] }

/-- `collect_unprotected` after the scan: the values that are announced and
the batch of the others. -/
def collectUnprotected (announced retired : List Addr) :
    List Addr × List Addr :=
  swapPartition (fun address => decide (address ∈ announced)) retired

theorem mem_collectUnprotected_kept
    {announced retired : List Addr} {address : Addr} :
    address ∈ (collectUnprotected announced retired).1 ↔
      address ∈ retired ∧ address ∈ announced := by
  unfold collectUnprotected
  rw [mem_swapPartition_kept]
  simp

theorem mem_collectUnprotected_freed
    {announced retired : List Addr} {address : Addr} :
    address ∈ (collectUnprotected announced retired).2 ↔
      address ∈ retired ∧ address ∉ announced := by
  unfold collectUnprotected
  rw [mem_swapPartition_taken]
  simp

theorem collectUnprotected_nodup
    {announced retired : List Addr} (nodup : retired.Nodup) :
    (collectUnprotected announced retired).1.Nodup ∧
      (collectUnprotected announced retired).2.Nodup := by
  have perm :=
    swapPartition_perm (fun address => decide (address ∈ announced)) retired
  obtain ⟨kept, freed, _⟩ :=
    List.nodup_append.mp (perm.nodup_iff.mpr nodup)
  exact ⟨kept, freed⟩

/-- The batch leaves the retired list and belongs to the call. -/
def collect (store : Store) (cell : CellId) (announced : List Addr)
    (call : CallId) : Store :=
  let split := collectUnprotected announced (store.cells cell).retired
  (store.setPlaces split.2 (.freed call)).setCell cell
    { store.cells cell with retired := split.1 }

/-- `Arc::increment_strong_count`. -/
def addOwner (store : Store) (address : Addr) (owner : Owner) : Store :=
  match store.heap address with
  | none => store
  | some inner =>
      store.setArc address
        { inner with
          strong := inner.strong + 1
          owners := owner :: inner.owners }

/-- Drop of an `Arc`: the count goes down, and the last owner frees the
allocation. -/
def dropOwner (store : Store) (address : Addr) (owner : Owner) : Store :=
  match store.heap address with
  | none => store
  | some inner =>
      if inner.strong = 1 then
        { store with heap := Function.update store.heap address none }
      else
        store.setArc address
          { inner with
            strong := inner.strong - 1
            owners := inner.owners.erase owner
            place := if owner = .cell then .dropped else inner.place }

/-- The handle returned by `load_arc_if` passes to the caller. -/
def giveHandle (store : Store) (address : Addr)
    (call : CallId) : Store :=
  match store.heap address with
  | none => store
  | some inner =>
      { store.setArc address
          { inner with
            owners := .user store.nextHandle ::
              inner.owners.erase (.load call) } with
        handles := (store.nextHandle, address) :: store.handles
        nextHandle := store.nextHandle + 1 }

/-- The caller drops a handle it got from `load_arc_if`. -/
def dropHandle (store : Store) (handle : Nat) (address : Addr) : Store :=
  { store.dropOwner address (.user handle) with
    handles := store.handles.erase (handle, address) }

/-- `SnapCell::new(Vec::new())`. -/
def newCell (store : Store) (cell : CellId) (address : Addr) : Store :=
  (store.allocArc address cell [] .current).setCell cell
    { store.cells cell with
      phase := .alive
      current := address
      version := store.versions }

/-- `Drop for SnapCell`: the current value and the retired values are handed
to the dropping thread. -/
def dropCell (store : Store) (cell : CellId) (call : CallId) : Store :=
  let old := store.cells cell
  (store.setPlaces (old.current :: old.retired) (.freed call)).setCell cell
    { old with phase := .dropped, retired := [], retiredLen := 0 }

end Store

end RegistryIo.Snapshot
