import RegistryIo.Snapshot.Calls

/-!
# Where control comes from

The traversals of the records are entered from the start of the functions
they belong to only, and the fallback path of a read is entered from
`hazard::pin` only, when it finds no slot.
-/

namespace RegistryIo.Snapshot

open RegistryIo.Interleaving

namespace Frame

def isScan : Frame → Bool
  | .collect _ _ (.scan ..) => true
  | _ => false

/-- A scan, or the start of a fallback read. -/
def isEntry : Frame → Bool
  | .collect _ _ (.scan ..) => true
  | .enterFallback .. => true
  | _ => false

end Frame

/-- `hazard::pin` returns `None`: the thread-local is gone, or every slot of
the record of the thread is in use. -/
def NoSlot (domain : Domain) (tls : Tls) : Prop :=
  tls.localGone = true ∨
    ∃ record, tls.record = some record ∧
      ∀ index, index < SLOTS → domain.slot record index ≠ none

private theorem Domain.freeSlot_eq_none_iff
    {domain : Domain} {record : RecordId} :
    domain.freeSlot record = none ↔
      ∀ index, index < SLOTS → domain.slot record index ≠ none := by
  unfold Domain.freeSlot
  simp [List.find?_eq_none]

section Frames

variable {memory memory' : Memory} {call : CallId} {tls tls' : Tls}
variable {cell : CellId} {act : Act} {frame : Frame} {next : Option Frame}

theorem slowPath_not_scan (reader : Reader) :
    (slowPath cell reader).isScan = false := by
  cases reader with
  | read => rfl
  | loadArcIf => rfl

theorem afterRelease_not_entry (result : Option Addr) :
    (afterRelease cell result).isEntry = false := by
  cases result with
  | none => rfl
  | some => rfl

theorem Frame.not_scan_of_not_entry
    (notEntry : frame.isEntry = false) : frame.isScan = false := by
  cases frame with
  | collect cell collector step =>
      cases step with
      | scan => cases notEntry
      | _ => rfl
  | _ => rfl

variable {notify : Bool}

private theorem slowPath_eq_enterFallback_iff
    {target : CellId} {reader : Reader} :
    slowPath target reader = .enterFallback cell notify ↔
      target = cell ∧ reader = .read notify := by
  cases reader <;> simp [slowPath]

private theorem afterRelease_ne_enterFallback
    {target : CellId} (result : Option Addr) :
    afterRelease target result ≠ .enterFallback cell notify := by
  cases result with
  | none => simp [afterRelease]
  | some address => simp [afterRelease]

/-- A read takes the fallback path exactly when it finds no slot. -/
theorem frameStep_fallback_iff
    (stepped : frameStep memory call tls frame act =
      some (memory', tls', next)) :
    next = some (.enterFallback cell notify) ↔
      (∃ address, frame = .pinning cell (.read notify) address .findSlot) ∧
        NoSlot memory.domain tls := by
  cases frameStep_rule stepped with
  | pinGone gone => simp [slowPath_eq_enterFallback_iff, NoSlot, gone]
  | pinFirst present unclaimed => simp [NoSlot, present, unclaimed]
  | pinFull record _ isRecord full =>
      have noSlot : NoSlot memory.domain tls :=
        Or.inr ⟨record, isRecord, Domain.freeSlot_eq_none_iff.mp full⟩
      simp [slowPath_eq_enterFallback_iff, noSlot]
  | pinSlot record index present isRecord free =>
      have slot : ¬ NoSlot memory.domain tls := by
        rintro (gone | ⟨other, isOther, occupied⟩)
        · rw [present] at gone
          cases gone
        · cases isRecord.symm.trans isOther
          obtain ⟨bound, null⟩ := Domain.freeSlot_eq_some free
          exact occupied index bound null
      simp [slot]
  | nothingRetired | tryLockBusy | dropReclaimed =>
      simp [afterRelease_ne_enterFallback]
  | _ => simp

theorem Pushed.not_entry
    {stack : List Frame} (pushed : Pushed stack frame) :
    frame.isEntry = false := by
  rcases pushed with ⟨cell, call, rfl⟩ | ⟨cell, freed, rfl⟩ |
    ⟨_, record, rfl⟩
  · cases call <;> rfl
  · rfl
  · rfl

end Frames

end RegistryIo.Snapshot
