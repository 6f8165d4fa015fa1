import RegistryIo.Atomic.Machine
import RegistryIo.Snapshot.Custody

/-!
# What a frame stands for

Every frame of the program stands for an activation of the machine with atomic
operations.  A call that has not taken effect is still `called`, whatever it
did to slots, records and locks; one that has taken effect is `answered`,
whatever it has still to reclaim.  Between the allocation of a new list and
its installation the frame does not name the write any more, so the activation
is any whose write computes that list from the current one.
-/

namespace RegistryIo.Snapshot

open RegistryIo.Atomic (Answer Activation Registry)

section Activations

def Reader.call : Reader → Call
  | .read notify => .read notify
  | .loadArcIf => .loadArcIf

def Outcome.answer : Outcome → Answer
  | .done => .done
  | .wrote effect => .changed effect
  | .waited _ removed => .changed ⟨removed, none⟩
  | .unchanged => .unchanged

/-- The answer of `update`; only removals wait. -/
def Effect.answer (effect : Effect) (wait : Bool) : Answer :=
  .changed (if wait then ⟨effect.removed, none⟩ else effect)

/-- A write that has not taken effect. -/
def Write.activation (cell : CellId) : Write → Bool → Option Activation
  | .insert entry, false => some (.drawn cell entry)
  | .insert _, true => none
  | .remove id, wait => some (.called cell (.unregister id wait))
  | .clear, wait => some (.called cell (.clear wait))

variable (lookup : Addr → List Entry)

/-- A read or load that has released its value. -/
def releasedAs (cell : CellId) : Option Addr → Activation
  | none => .answered cell .done
  | some address => .kept cell (lookup address)

def Collector.activation (cell : CellId) : Collector → Activation
  | .reclaim result => releasedAs lookup cell result
  | .update wait effect => .answered cell (effect.answer wait)
  | .drop => .internal
  | .discard _ => .answered cell .done

/-- The activation a frame stands for; `lookup` shows the value behind a
pointer. -/
def Frame.activation : Frame → Option Activation
  | .enter cell reader => some (.called cell reader.call)
  | .pinning cell reader _ _ => some (.called cell reader.call)
  | .validate cell reader _ _ => some (.called cell reader.call)
  | .republish cell reader _ _ => some (.called cell reader.call)
  | .enterFallback cell notify => some (.called cell (.read notify))
  | .locked cell reader _ => some (.called cell reader.call)
  | .reading cell _ _ _ body => some (.inside cell body)
  | .fallbackReading cell _ _ body => some (.inside cell body)
  | .keeping cell address _ _ => some (.loaded cell (lookup address))
  | .lockedKeep cell address _ => some (.loaded cell (lookup address))
  | .counted cell address _ _ => some (.kept cell (lookup address))
  | .checkRetired cell result => some (releasedAs lookup cell result)
  | .tryLock cell result => some (releasedAs lookup cell result)
  | .collect cell collector _ => some (collector.activation lookup cell)
  | .dropping cell collector _ => some (collector.activation lookup cell)
  | .handOver cell address => some (.kept cell (lookup address))
  | .draw cell priority => some (.called cell (.register priority))
  | .lockWriter cell write wait => write.activation cell wait
  | .compute cell write wait => write.activation cell wait
  | .installing _ _ _ _ => none
  | .pushing cell wait effect _ => some (.answered cell (effect.answer wait))
  | .unlockUnchanged cell => some (.answered cell .unchanged)
  | .leaveFallback cell => some (.answered cell .done)
  | .waiting cell removed _ =>
      some (.answered cell (.changed ⟨removed, none⟩))
  | .returned cell outcome => some (.answered cell outcome.answer)
  | .exiting _ _ => some .internal

end Activations

/-- The pointers whose value the activation shows. -/
def Frame.shown : Frame → List Addr
  | .keeping _ address _ _ => [address]
  | .locked _ _ _ => []
  | frame => frame.loaded

/-- The list of a cell. -/
def Store.listOf (store : Store) (cell : CellId) : List Entry :=
  store.values (store.cells cell).version

/-- The activations a frame stands for. -/
inductive Stands (store : Store) : Frame → Activation → Prop where
  | plain {frame : Frame} {activation : Activation}
      (shape : frame.activation store.deref = some activation) :
      Stands store frame activation
  | installing {cell : CellId} {wait : Bool} {new : Addr}
      {activation : Activation} (write : Write)
      (shape : write.activation cell wait = some activation)
      (computed : write.apply (store.listOf cell) = some (store.deref new)) :
      Stands store
        (.installing cell wait (write.effect (store.listOf cell)) new)
        activation

/-- The registry a cell stands for. -/
structure CellStands (values : Nat → List Entry) (snap : SnapCell)
    (registry : Registry) : Prop where
  phase : registry.phase = snap.phase
  unborn : snap.phase = .unborn → registry.list = []
  list : snap.phase = .alive → registry.list = values snap.version
  idGenerator : registry.idGenerator = snap.idGenerator
  registrations : registry.registrations = snap.registrations
  borrows : registry.borrows = snap.active.length

section Lookup

variable {memory : Memory} {call : CallId} {frame : Frame}

theorem Frame.activation_congr
    {lookup lookup' : Addr → List Entry}
    (same : ∀ address ∈ frame.shown, lookup' address = lookup address) :
    frame.activation lookup' = frame.activation lookup := by
  have released : ∀ (cell : CellId) (result : Option Addr),
      (∀ address ∈ result.toList, lookup' address = lookup address) →
        releasedAs lookup' cell result = releasedAs lookup cell result := by
    intro cell result equal
    cases result with
    | none => rfl
    | some address =>
        simp only [releasedAs]
        rw [equal address (by simp)]
  have collected : ∀ (cell : CellId) (collector : Collector),
      (∀ address ∈ collector.refs, lookup' address = lookup address) →
        collector.activation lookup' cell =
          collector.activation lookup cell := by
    intro cell collector equal
    cases collector with
    | reclaim result => exact released cell result equal
    | _ => rfl
  cases frame with
  | keeping cell address version pin
  | lockedKeep cell address version
  | counted cell address version pin
  | handOver cell address =>
      have equal : lookup' address = lookup address :=
        same address List.mem_cons_self
      simp only [Frame.activation, equal]
  | checkRetired cell result | tryLock cell result =>
      exact congrArg some (released cell result same)
  | collect cell collector step | dropping cell collector freed =>
      exact congrArg some (collected cell collector same)
  | _ => rfl

/-- What an activation shows is allocated. -/
theorem FrameOk.allocated_of_shown
    {address : Addr} (ok : FrameOk memory call frame) (inv : MemInv memory)
    (member : address ∈ frame.shown) :
    ∃ inner, memory.store.heap address = some inner := by
  have loaded : address ∈ frame.loaded →
      ∃ inner, memory.store.heap address = some inner := by
    intro isLoaded
    have held :=
      (ok.held (.loaded address)).mpr (loaded_mem_iff.mpr isLoaded)
    obtain ⟨inner, found, _⟩ := Store.heap_of_mem_owners held
    exact ⟨inner, found⟩
  cases frame with
  | keeping cell target version pin =>
      rw [List.mem_singleton.mp member]
      obtain ⟨inner, found, _⟩ := Announces.found inv ok.facts
      exact ⟨inner, found⟩
  | locked cell reader step => cases member
  | _ => exact loaded member

theorem deref_eq
    {store : Store} {address : Addr} {inner : ArcInner}
    (found : store.heap address = some inner) :
    store.deref address = inner.value := by
  simp [Store.deref, found]

end Lookup

/-! ### Other calls -/

section Stable

variable {memory memory' : Memory} {actor call : CallId}
variable {gained lost : List Holding}
variable (inv : MemInv memory)
variable (advance : Advance actor gained lost memory memory')

include advance

/-- An allocation shows the same value before and after. -/
theorem deref_stable
    {address : Addr} {inner inner' : ArcInner}
    (found : memory.store.heap address = some inner)
    (found' : memory'.store.heap address = some inner') :
    memory'.store.deref address = memory.store.deref address := by
  rw [deref_eq found, deref_eq found']
  exact (advance.store.contents address inner inner' found found').2.2

include inv

/-- The list of a cell whose version stays. -/
theorem listOf_stable
    {cell : CellId} (alive : (memory.store.cells cell).phase = .alive)
    (version : (memory'.store.cells cell).version =
      (memory.store.cells cell).version) :
    memory'.store.listOf cell = memory.store.listOf cell := by
  obtain ⟨inner, found, _, _, isVersion⟩ := inv.store.current_inner alive
  unfold Store.listOf
  rw [version]
  refine advance.store.values _ ?_
  rw [← isVersion]
  exact (inv.store.arcs _ inner found).version_lt

/-- A frame that is not moved stands for the same activations. -/
theorem Stands.stable
    {frame : Frame} {activation : Activation}
    (ok : FrameOk memory call frame) (ok' : FrameOk memory' call frame)
    (different : call ≠ actor)
    (stands : Stands memory.store frame activation) :
    Stands memory'.store frame activation := by
  cases stands with
  | plain shape =>
      refine .plain ?_
      rw [← shape]
      refine Frame.activation_congr (fun address member => ?_)
      obtain ⟨inner, found⟩ := ok.allocated_of_shown inv member
      obtain ⟨inner', found'⟩ := ok'.allocated_of_shown advance.inv member
      exact deref_stable advance found found'
  | @installing cell wait new activation write shape computed =>
      have alive : (memory.store.cells cell).phase = .alive :=
        ok.alive inv (by simp [Frame.holding])
      have locked : memory.Held call (.writer cell) :=
        (ok.held _).mpr (by simp [Frame.holding])
      have kept := (advance.store.cells cell).locked call different locked
      obtain ⟨inner, found, _⟩ := ok.facts
      obtain ⟨inner', found', _⟩ := ok'.facts
      have list := listOf_stable inv advance alive kept.version
      rw [← list]
      refine .installing write shape ?_
      rw [list, deref_stable advance found found']
      exact computed

end Stable

/-! ### The call that moves -/

section Fields

/-- What the registry of a cell is read off. -/
def SnapCell.face (snap : SnapCell) :
    Phase × Nat × HandlerIdGenerator × Nat × Nat :=
  (snap.phase, snap.version, snap.idGenerator, snap.registrations,
    snap.active.length)

def Store.faces (store : Store) (cell : CellId) :
    Phase × Nat × HandlerIdGenerator × Nat × Nat :=
  (store.cells cell).face

variable {store : Store}

theorem faces_setCell
    {cell : CellId} {snap : SnapCell}
    (same : snap.face = (store.cells cell).face) :
    (store.setCell cell snap).faces = store.faces := by
  funext other
  unfold Store.faces Store.setCell
  by_cases here : other = cell
  · subst here
    simpa using same
  · simp [here]

theorem faces_addOwner
    (store : Store) (address : Addr) (owner : Owner) :
    (store.addOwner address owner).faces = store.faces := by
  unfold Store.addOwner
  split <;> rfl

theorem faces_dropOwner
    (store : Store) (address : Addr) (owner : Owner) :
    (store.dropOwner address owner).faces = store.faces := by
  funext other
  unfold Store.faces
  rw [(dropOwner_cells store address owner).1]

theorem faces_giveHandle
    (store : Store) (address : Addr) (call : CallId) :
    (store.giveHandle address call).faces = store.faces := by
  unfold Store.giveHandle
  split <;> rfl

end Fields

end RegistryIo.Snapshot
