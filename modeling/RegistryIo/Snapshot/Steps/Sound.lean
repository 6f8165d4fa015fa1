import RegistryIo.Snapshot.Stability

/-!
# Sound steps

`Sound` is what has to be shown of every step of a frame: the step is an
advance of the memory, and the next frame knows what it should.
-/

namespace RegistryIo.Snapshot

structure Sound (memory : Memory) (call : CallId)
    (result : Memory × Tls × Option Frame) : Prop where
  advance : ∃ gained lost, Advance call gained lost memory result.1
  frame : ∀ frame, result.2.2 = some frame → FrameOk result.1 call frame
  vacant : result.2.2 = none → ∀ holding, ¬ result.1.Held call holding
  record : ∀ record, result.2.1.record = some record →
    OwnRecord result.1 call.thread record

section Frames

variable {memory memory' : Memory} {call : CallId} {tls : Tls}
variable {gained lost : List Holding} {frame next : Frame}

private theorem FrameOk.held_after
    (ok : FrameOk memory call frame)
    (advance : Advance call gained lost memory memory')
    (holdings : ∀ holding, holding ∈ next.holding ↔
      (holding ∈ frame.holding ∧ holding ∉ lost) ∨ holding ∈ gained) :
    ∀ holding, memory'.Held call holding ↔ holding ∈ next.holding := by
  intro holding
  rw [advance.transfer call holding, ok.held, holdings]
  simp

theorem Sound.of_frame
    (ok : FrameOk memory call frame)
    (advance : Advance call gained lost memory memory')
    (holdings : ∀ holding, holding ∈ next.holding ↔
      (holding ∈ frame.holding ∧ holding ∉ lost) ∨ holding ∈ gained)
    (facts : FrameFacts memory' call next)
    (record : ∀ record, tls.record = some record →
      OwnRecord memory' call.thread record) :
    Sound memory call (memory', tls, some next) where
  advance := ⟨gained, lost, advance⟩
  frame := by
    intro other same
    cases same
    exact ⟨ok.held_after advance holdings, facts⟩
  vacant := by simp
  record := record

/-- A step that leaves the memory alone. -/
theorem Sound.of_same
    (inv : MemInv memory) (ok : FrameOk memory call frame)
    (holdings : ∀ holding,
      holding ∈ next.holding ↔ holding ∈ frame.holding)
    (facts : FrameFacts memory call next)
    (record : ∀ record, tls.record = some record →
      OwnRecord memory call.thread record) :
    Sound memory call (memory, tls, some next) := by
  refine Sound.of_frame ok (Advance.refl call inv) ?_ facts record
  intro holding
  simp [holdings]

theorem OwnRecord.withStore
    {thread : Tid} {record : RecordId} (own : OwnRecord memory thread record)
    (store : Store) : OwnRecord (memory.withStore store) thread record :=
  ⟨own.owned, own.published⟩

theorem OwnRecord.setSlot
    {thread : Tid} {record : RecordId} (own : OwnRecord memory thread record)
    (target : RecordId) (index : Nat) (value : Option Announcement) :
    OwnRecord
      (memory.withDomain (memory.domain.setSlot target index value))
      thread record where
  owned := by
    rw [Memory.withDomain, Domain.owner_setSlot]
    exact own.owned
  published := own.published

theorem OwnRecord.claim
    {thread : Tid} {record : RecordId} (own : OwnRecord memory thread record)
    (target : RecordId) :
    OwnRecord (memory.withDomain (memory.domain.claim target thread))
      thread record where
  owned := by
    unfold Memory.withDomain Domain.claim
    rw [Domain.records_setRecord]
    split
    · rfl
    · exact own.owned
  published := own.published

theorem OwnRecord.allocate
    {thread : Tid} {record : RecordId} (inv : MemInv memory)
    (own : OwnRecord memory thread record) (other : Tid) :
    OwnRecord (memory.withDomain (memory.domain.allocate other))
      thread record where
  owned := by
    have apart : record ≠ memory.domain.allocated := by
      rintro rfl
      exact inv.domain.notMem_allocated own.published
    simpa [Memory.withDomain, Domain.allocate, apart] using own.owned
  published := own.published

theorem OwnRecord.setNext
    {thread : Tid} {record : RecordId} (own : OwnRecord memory thread record)
    (target : RecordId) (head : Option RecordId) :
    OwnRecord (memory.withDomain (memory.domain.setNext target head))
      thread record where
  owned := by
    unfold Memory.withDomain Domain.setNext
    rw [Domain.records_setRecord]
    split
    · rename_i same
      rw [← same]
      exact own.owned
    · exact own.owned
  published := own.published

end Frames

section Traversal

variable {memory : Memory} {record : RecordId}

/-- `HEAD` points into the list. -/
theorem cursorOk_head (inv : MemInv memory) :
    CursorOk memory memory.domain.head := by
  intro record same
  rw [inv.domain.linked.start_eq] at same
  exact List.mem_of_mem_head? same

theorem next_eq
    (inv : MemInv memory) (member : record ∈ memory.domain.published) :
    (memory.domain.records record).next =
      (following memory.domain.published record).head? :=
  inv.domain.linked.next_eq member

/-- The `next` pointer of a listed record points into the list. -/
theorem cursorOk_next
    (inv : MemInv memory) (member : record ∈ memory.domain.published) :
    CursorOk memory (memory.domain.records record).next := by
  intro target same
  rw [next_eq inv member] at same
  exact mem_of_mem_following (List.mem_of_mem_head? same)

/-- A traversal that starts at `HEAD` has every announcement ahead. -/
theorem ahead_head
    (inv : MemInv memory) {index : Nat} {announcement : Announcement}
    (used : memory.domain.slot record index = some announcement) :
    Ahead memory.domain.published memory.domain.head 0 record index := by
  rw [inv.domain.linked.start_eq]
  exact Ahead.of_head
    (inv.domain.announced record index announcement used).2.1

end Traversal

end RegistryIo.Snapshot
