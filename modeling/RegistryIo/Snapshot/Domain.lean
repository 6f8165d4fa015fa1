import RegistryIo.Foundations.LinkedNodes
import Mathlib.Logic.Function.Basic

/-!
# The hazard domain

The process-wide list of records in `hazard.rs`.  Every record holds `SLOTS`
announcement slots; records are linked through `next` from `head`, are never
freed, and are claimed and released through `inUse`.

Some fields are not in the source and are never read by the program: the
thread that owns a record, the call that made an announcement, the value a
validated announcement stands for, and the list of all records that were
linked into the list.
-/

namespace RegistryIo.Snapshot

abbrev Tid := Nat
abbrev CellId := Nat
abbrev Addr := Nat
abbrev RecordId := Nat

/-- `hazard::SLOTS`. -/
def SLOTS : Nat := 8

/-- A call in progress, named by its thread and its depth on the stack of the
thread. -/
@[ext]
structure CallId where
  thread : Tid
  depth : Nat
  deriving DecidableEq, Repr

/-- The value that a validated announcement stands for. -/
structure Claim where
  cell : CellId
  version : Nat
  deriving DecidableEq, Repr

/-- The contents of a slot that is not null.  The program sees the address
only. -/
structure Announcement where
  address : Addr
  call : CallId
  claim : Option Claim
  deriving DecidableEq, Repr

/-- `hazard::Record`. -/
structure Record where
  slots : Nat → Option Announcement
  inUse : Bool
  next : Option RecordId
  owner : Option Tid

/-- The static `HEAD` with all records.  Addresses of records below
`allocated` have been handed out by the allocator. -/
structure Domain where
  head : Option RecordId
  records : RecordId → Record
  allocated : Nat
  published : List RecordId

namespace Domain

def initial : Domain where
  head := none
  records := fun _ => ⟨fun _ => none, false, none, none⟩
  allocated := 0
  published := []

def slot (domain : Domain) (record : RecordId) (index : Nat) :
    Option Announcement :=
  (domain.records record).slots index

def setRecord (domain : Domain) (record : RecordId) (value : Record) :
    Domain :=
  { domain with records := Function.update domain.records record value }

/-- A store to one slot. -/
def setSlot (domain : Domain) (record : RecordId) (index : Nat)
    (value : Option Announcement) : Domain :=
  domain.setRecord record
    { domain.records record with
      slots := Function.update (domain.records record).slots index value }

/-- A successful `compare_exchange(false, true)` on `in_use`. -/
def claim (domain : Domain) (record : RecordId) (thread : Tid) : Domain :=
  domain.setRecord record
    { domain.records record with inUse := true, owner := some thread }

/-- `in_use.store(false)`. -/
def release (domain : Domain) (record : RecordId) : Domain :=
  domain.setRecord record
    { domain.records record with inUse := false, owner := none }

/-- `Box::leak(Box::new(Record { .. }))`. -/
def allocate (domain : Domain) (thread : Tid) : Domain :=
  { domain with
    records := Function.update domain.records domain.allocated
      ⟨fun _ => none, true, none, some thread⟩
    allocated := domain.allocated + 1 }

/-- `record.next.store(head)`. -/
def setNext (domain : Domain) (record : RecordId)
    (next : Option RecordId) : Domain :=
  domain.setRecord record { domain.records record with next := next }

/-- A successful `compare_exchange` on `HEAD`. -/
def publish (domain : Domain) (record : RecordId) : Domain :=
  { domain with
    head := some record
    published := record :: domain.published }

/-- `record.slots.iter().find(|slot| slot.load().is_null())`. -/
def freeSlot (domain : Domain) (record : RecordId) : Option Nat :=
  (List.range SLOTS).find? fun index => (domain.slot record index).isNone

section Access

variable (domain : Domain) (record other : RecordId)
variable (index position : Nat) (value : Option Announcement)

theorem records_setRecord (updated : Record) :
    (domain.setRecord record updated).records other =
      if other = record then updated else domain.records other := by
  by_cases same : other = record
  · subst same
    simp [setRecord]
  · simp [setRecord, same]

@[simp]
theorem slot_setSlot :
    (domain.setSlot record index value).slot other position =
      if other = record ∧ position = index then value
      else domain.slot other position := by
  unfold setSlot slot
  rw [records_setRecord]
  by_cases sameRecord : other = record
  · subst sameRecord
    by_cases sameIndex : position = index
    · subst sameIndex
      simp
    · simp [sameIndex]
  · simp [sameRecord]

@[simp]
theorem owner_setSlot :
    ((domain.setSlot record index value).records other).owner =
      (domain.records other).owner := by
  unfold setSlot
  rw [records_setRecord]
  split
  · rename_i same
    rw [same]
  · rfl

@[simp]
theorem next_setSlot :
    ((domain.setSlot record index value).records other).next =
      (domain.records other).next := by
  unfold setSlot
  rw [records_setRecord]
  split
  · rename_i same
    rw [same]
  · rfl

/-- An update of a record that keeps its slots. -/
theorem slot_setRecord
    {updated : Record}
    (same : updated.slots = (domain.records record).slots) :
    (domain.setRecord record updated).slot other position =
      domain.slot other position := by
  unfold slot
  rw [records_setRecord]
  split
  · rename_i equal
    rw [equal, same]
  · rfl

theorem freeSlot_eq_some
    {domain : Domain} {record : RecordId} {index : Nat}
    (found : domain.freeSlot record = some index) :
    index < SLOTS ∧ domain.slot record index = none := by
  have member := List.mem_of_find?_eq_some found
  have empty := List.find?_some found
  exact ⟨List.mem_range.mp member, by simpa using empty⟩

end Access

end Domain

/-- What holds of the records in every reachable state. -/
structure DomainInv (domain : Domain) : Prop where
  linked :
    Linked (fun record => (domain.records record).next)
      domain.head domain.published
  nodup : domain.published.Nodup
  bounded : ∀ record ∈ domain.published, record < domain.allocated
  unallocated : ∀ record, domain.allocated ≤ record →
    (domain.records record).owner = none
  free_unowned : ∀ record, (domain.records record).inUse = false →
    (domain.records record).owner = none
  announced : ∀ record index announcement,
    domain.slot record index = some announcement →
      (domain.records record).owner = some announcement.call.thread ∧
        record ∈ domain.published ∧ index < SLOTS

namespace DomainInv

variable {domain : Domain} {record : RecordId} {index : Nat}
variable {thread : Tid} {value : Option Announcement}

theorem initial : DomainInv Domain.initial where
  linked := rfl
  nodup := List.nodup_nil
  bounded := by simp [Domain.initial]
  unallocated := by simp [Domain.initial]
  free_unowned := by simp [Domain.initial]
  announced := by simp [Domain.initial, Domain.slot]

theorem owner_lt
    (holds : DomainInv domain)
    (owned : (domain.records record).owner = some thread) :
    record < domain.allocated := by
  by_contra beyond
  rw [holds.unallocated record (Nat.le_of_not_lt beyond)] at owned
  cases owned

theorem remaining_next
    (holds : DomainInv domain) (listed : record ∈ domain.published) :
    remaining domain.published (domain.records record).next + 1 =
      remaining domain.published (some record) :=
  RegistryIo.remaining_next holds.nodup (holds.linked.next_eq listed)

theorem unowned_null
    (holds : DomainInv domain)
    (unowned : (domain.records record).owner = none) :
    domain.slot record index = none := by
  cases used : domain.slot record index with
  | none => rfl
  | some announcement =>
      have owned := (holds.announced record index announcement used).1
      rw [unowned] at owned
      cases owned

/-- An update of an allocated record.  The `next` pointer of a published
record stays, and announcements belong to the owner. -/
theorem setRecord
    (holds : DomainInv domain) {updated : Record}
    (allocated : record < domain.allocated)
    (next : record ∈ domain.published →
      updated.next = (domain.records record).next)
    (free : updated.inUse = false → updated.owner = none)
    (slots : ∀ index announcement,
      updated.slots index = some announcement →
        updated.owner = some announcement.call.thread ∧
          record ∈ domain.published ∧ index < SLOTS) :
    DomainInv (domain.setRecord record updated) where
  linked := by
    refine Linked.congr ?_ holds.linked
    intro node member
    rw [Domain.records_setRecord]
    split
    · rename_i same
      subst same
      exact next member
    · rfl
  nodup := holds.nodup
  bounded := holds.bounded
  unallocated := by
    intro other beyond
    have apart : other ≠ record := by
      rintro rfl
      exact absurd allocated (Nat.not_lt.mpr beyond)
    rw [Domain.records_setRecord, if_neg apart]
    exact holds.unallocated other beyond
  free_unowned := by
    intro other
    rw [Domain.records_setRecord]
    split
    · exact free
    · exact holds.free_unowned other
  announced := by
    intro other index announcement
    unfold Domain.slot
    rw [Domain.records_setRecord]
    split
    · rename_i same
      subst same
      exact slots index announcement
    · exact holds.announced other index announcement

theorem setSlot
    (holds : DomainInv domain)
    (owned : (domain.records record).owner = some thread)
    (published : record ∈ domain.published) (bound : index < SLOTS)
    (own : ∀ announcement, value = some announcement →
      announcement.call.thread = thread) :
    DomainInv (domain.setSlot record index value) := by
  refine holds.setRecord (holds.owner_lt owned) (fun _ => rfl)
    (holds.free_unowned record) ?_
  intro position announcement used
  by_cases same : position = index
  · subst same
    simp only [Function.update_self] at used
    rw [own announcement used]
    exact ⟨owned, published, bound⟩
  · simp only [Function.update_of_ne same] at used
    exact holds.announced record position announcement used

theorem claim
    (holds : DomainInv domain) (published : record ∈ domain.published)
    (free : (domain.records record).inUse = false) :
    DomainInv (domain.claim record thread) := by
  refine holds.setRecord (holds.bounded record published) (fun _ => rfl)
    (fun unused => by cases unused) ?_
  intro index announcement used
  have null : (domain.records record).slots index = none :=
    holds.unowned_null (holds.free_unowned record free)
  simp [null] at used

theorem release
    (holds : DomainInv domain) (allocated : record < domain.allocated)
    (null : ∀ index, domain.slot record index = none) :
    DomainInv (domain.release record) := by
  refine holds.setRecord allocated (fun _ => rfl) (fun _ => rfl) ?_
  intro index announcement used
  have empty : (domain.records record).slots index = none := null index
  simp [empty] at used

theorem setNext
    (holds : DomainInv domain) {next : Option RecordId}
    (allocated : record < domain.allocated)
    (unpublished : record ∉ domain.published) :
    DomainInv (domain.setNext record next) :=
  holds.setRecord allocated (fun member => absurd member unpublished)
    (holds.free_unowned record) (holds.announced record)

theorem notMem_allocated (holds : DomainInv domain) :
    domain.allocated ∉ domain.published := by
  intro member
  exact Nat.lt_irrefl _ (holds.bounded _ member)

theorem slot_allocate
    (holds : DomainInv domain) (other : RecordId) (position : Nat) :
    (domain.allocate thread).slot other position =
      domain.slot other position := by
  by_cases same : other = domain.allocated
  · subst same
    rw [holds.unowned_null (holds.unallocated _ (Nat.le_refl _))]
    simp [Domain.allocate, Domain.slot]
  · simp [Domain.allocate, Domain.slot, same]

theorem allocate (holds : DomainInv domain) :
    DomainInv (domain.allocate thread) where
  linked := by
    refine Linked.congr ?_ holds.linked
    intro node member
    have apart : node ≠ domain.allocated := by
      rintro rfl
      exact holds.notMem_allocated member
    simp [Domain.allocate, apart]
  nodup := holds.nodup
  bounded := by
    intro other member
    exact Nat.lt_succ_of_lt (holds.bounded other member)
  unallocated := by
    intro other beyond
    have larger : domain.allocated < other := beyond
    have apart : other ≠ domain.allocated := Nat.ne_of_gt larger
    simpa [Domain.allocate, apart] using
      holds.unallocated other (Nat.le_of_lt larger)
  free_unowned := by
    intro other free
    by_cases same : other = domain.allocated
    · subst same
      simp [Domain.allocate] at free
    · have old : (domain.records other).inUse = false := by
        simpa [Domain.allocate, same] using free
      simpa [Domain.allocate, same] using holds.free_unowned other old
  announced := by
    intro other index announcement used
    rw [holds.slot_allocate] at used
    obtain ⟨owned, published, bound⟩ :=
      holds.announced other index announcement used
    have apart : other ≠ domain.allocated := by
      rintro rfl
      exact holds.notMem_allocated published
    refine ⟨?_, published, bound⟩
    simpa [Domain.allocate, apart] using owned

theorem publish
    (holds : DomainInv domain)
    (unpublished : record ∉ domain.published)
    (allocated : record < domain.allocated)
    (next : (domain.records record).next = domain.head) :
    DomainInv (domain.publish record) where
  linked := by
    refine ⟨rfl, ?_⟩
    have link :
        Linked (fun node => (domain.records node).next)
          (domain.records record).next domain.published := by
      rw [next]
      exact holds.linked
    exact link
  nodup := List.nodup_cons.mpr ⟨unpublished, holds.nodup⟩
  bounded := by
    intro other member
    rcases List.mem_cons.mp member with equal | older
    · rw [equal]
      exact allocated
    · exact holds.bounded other older
  unallocated := holds.unallocated
  free_unowned := holds.free_unowned
  announced := by
    intro other index announcement used
    obtain ⟨owned, older, bound⟩ :=
      holds.announced other index announcement used
    exact ⟨owned, List.mem_cons_of_mem record older, bound⟩

end DomainInv

end RegistryIo.Snapshot
