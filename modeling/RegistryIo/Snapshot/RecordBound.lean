import RegistryIo.Foundations.Crowding
import RegistryIo.Snapshot.HazardSafety
import RegistryIo.Snapshot.ThreadLocals

/-!
# The number of hazard records

A thread needs a record from the start of its `acquire_record` to the end of
its `Drop for Local`.  The list of records is never longer than the largest
number of threads that needed one at the same time.

The places of `Crowding` are the records, counted from the oldest one, at the
end of the list.  A scan stands at the record it looks at next, the owner of a
record at its record, and a thread that prepends a record has passed all of
them.
-/

namespace RegistryIo.Snapshot

open RegistryIo.Interleaving

/-! ### Records and their owners -/

namespace PinStep

/-- The record that is about to be prepended. -/
def prepending : PinStep → Option RecordId
  | .loadHead record => some record
  | .storeNext record _ => some record
  | .exchangeHead record _ => some record
  | _ => none

/-- The record that `acquire_record` is going to return. -/
def claimed : PinStep → Option RecordId
  | .tryClaim _ reused => reused
  | .advance _ reused => reused
  | step => step.prepending

/-- How many of the oldest records `acquire_record` has not passed yet. -/
def position (published : List RecordId) : PinStep → Option Nat
  | .findSlot => none
  | .tryClaim cursor none => some (remaining published cursor)
  | .advance record none => some (remaining published (some record) - 1)
  | .tryClaim _ (some reused) => some (remaining published (some reused))
  | .advance _ (some reused) => some (remaining published (some reused))
  | _ => some 0

end PinStep

def Frame.claimed : Frame → Option RecordId
  | .pinning _ _ _ step => step.claimed
  | _ => none

def Frame.position (published : List RecordId) : Frame → Option Nat
  | .pinning _ _ _ step => step.position published
  | _ => none

namespace Thread

/-- The thread is between the start of its `acquire_record` and the end of its
`Drop for Local`. -/
def needsRecord (locals : Thread) : Bool :=
  locals.tls.record.isSome || locals.stack.head?.any Frame.acquiring

/-- The record the thread owns. -/
def claimed (locals : Thread) : Option RecordId :=
  locals.tls.record.or (locals.stack.head?.bind Frame.claimed)

/-- How many of the oldest records the thread has not passed yet. -/
def position (published : List RecordId) (locals : Thread) : Option Nat :=
  match locals.tls.record with
  | some record => some (remaining published (some record))
  | none => locals.stack.head?.bind (Frame.position published)

end Thread

section Frames

variable {frame : Frame} {published : List RecordId} {locals : Thread}

theorem Frame.claimed_of_not_acquiring
    (idle : frame.acquiring = false) : frame.claimed = none := by
  cases frame with
  | pinning cell reader address step =>
      cases step with
      | findSlot => rfl
      | _ => cases idle
  | _ => rfl

private theorem Frame.position_isSome :
    (frame.position published).isSome = frame.acquiring := by
  cases frame with
  | pinning cell reader address step =>
      cases step with
      | tryClaim cursor reused => cases reused <;> rfl
      | advance record reused => cases reused <;> rfl
      | _ => rfl
  | _ => rfl

theorem Frame.not_acquiring_of_isUser
    (isUser : frame.isUser = true) : frame.acquiring = false := by
  cases frame with
  | pinning => cases isUser
  | _ => rfl

private theorem Thread.position_isSome :
    (locals.position published).isSome = locals.needsRecord := by
  unfold Thread.position Thread.needsRecord
  cases locals.tls.record with
  | some record => rfl
  | none =>
      cases locals.stack with
      | nil => rfl
      | cons top rest =>
          simpa using Frame.position_isSome

end Frames

/-- The same records, with the same owners. -/
structure SameRecords (domain domain' : Domain) : Prop where
  published : domain'.published = domain.published
  owner : ∀ record,
    (domain'.records record).owner = (domain.records record).owner
  inUse : ∀ record,
    (domain'.records record).inUse = (domain.records record).inUse

namespace SameRecords

variable (domain : Domain)

theorem refl : SameRecords domain domain :=
  ⟨rfl, fun _ => rfl, fun _ => rfl⟩

theorem setRecord
    {record : RecordId} {updated : Record}
    (owner : updated.owner = (domain.records record).owner)
    (inUse : updated.inUse = (domain.records record).inUse) :
    SameRecords domain (domain.setRecord record updated) := by
  refine ⟨rfl, fun other => ?_, fun other => ?_⟩
  · rw [Domain.records_setRecord]
    split
    · rename_i same
      rw [same, owner]
    · rfl
  · rw [Domain.records_setRecord]
    split
    · rename_i same
      rw [same, inUse]
    · rfl

theorem setSlot
    (record : RecordId) (index : Nat) (value : Option Announcement) :
    SameRecords domain (domain.setSlot record index value) :=
  setRecord domain rfl rfl

end SameRecords

/-- A step that has nothing to do with `acquire_record` and
`Drop for Local`. -/
structure Quiet (memory : Memory) (tls : Tls) (memory' : Memory) (tls' : Tls)
    (next : Option Frame) : Prop where
  same : SameRecords memory.domain memory'.domain
  record : tls'.record = tls.record
  after : next.any Frame.acquiring = false

/-- A step of `acquire_record`, or the last one of `Drop for Local`. -/
inductive RecordStep (domain : Domain) (thread : Tid) (tls : Tls) :
    Frame → Domain → Tls → Option Frame → Prop where
  | start {cell reader address} (unclaimed : tls.record = none) :
      RecordStep domain thread tls
        (.pinning cell reader address .findSlot) domain tls
        (some (.pinning cell reader address (.tryClaim domain.head none)))
  | busy {cell reader address record}
      (used : (domain.records record).inUse = true) :
      RecordStep domain thread tls
        (.pinning cell reader address (.tryClaim (some record) none))
        domain tls
        (some (.pinning cell reader address (.advance record none)))
  | claim {cell reader address record}
      (free : (domain.records record).inUse = false) :
      RecordStep domain thread tls
        (.pinning cell reader address (.tryClaim (some record) none))
        (domain.claim record thread) tls
        (some (.pinning cell reader address (.advance record (some record))))
  | advance {cell reader address record reused} :
      RecordStep domain thread tls
        (.pinning cell reader address (.advance record reused)) domain tls
        (some (.pinning cell reader address
          (.tryClaim (domain.records record).next reused)))
  | walk {cell reader address record reused} :
      RecordStep domain thread tls
        (.pinning cell reader address (.tryClaim (some record) (some reused)))
        domain tls
        (some (.pinning cell reader address
          (.tryClaim (domain.records record).next (some reused))))
  | acquired {cell reader address reused} :
      RecordStep domain thread tls
        (.pinning cell reader address (.tryClaim none (some reused))) domain
        { tls with record := some reused }
        (some (.pinning cell reader address .findSlot))
  | allocate {cell reader address} :
      RecordStep domain thread tls
        (.pinning cell reader address (.tryClaim none none))
        (domain.allocate thread) tls
        (some (.pinning cell reader address (.loadHead domain.allocated)))
  | prepare {cell reader address step step' record domain'}
      (before : step.prepending = some record)
      (after : step'.prepending = some record)
      (same : SameRecords domain domain') :
      RecordStep domain thread tls
        (.pinning cell reader address step) domain' tls
        (some (.pinning cell reader address step'))
  | publish {cell reader address record head} :
      RecordStep domain thread tls
        (.pinning cell reader address (.exchangeHead record head))
        (domain.publish record) { tls with record := some record }
        (some (.pinning cell reader address .findSlot))
  | exit {record index} :
      RecordStep domain thread tls (.exiting record index)
        (domain.release record)
        { tls with record := none, localGone := true } none

section Steps

variable {memory memory' : Memory} {call : CallId} {tls tls' : Tls}
variable {cell : CellId} {act : Act} {frame : Frame} {next : Option Frame}

private theorem slowPath_acquiring (reader : Reader) :
    (slowPath cell reader).acquiring = false := by
  cases reader <;> rfl

private theorem afterRelease_acquiring (result : Option Addr) :
    (afterRelease cell result).acquiring = false := by
  cases result <;> rfl

private theorem frameStep_records
    (stepped : frameStep memory call tls frame act =
      some (memory', tls', next)) :
    (frame.acquiring = false ∧ Quiet memory tls memory' tls' next) ∨
      RecordStep memory.domain call.thread tls frame memory'.domain tls'
        next := by
  cases frameStep_rule stepped with
  | pinFirst _ unclaimed => exact Or.inr (.start unclaimed)
  | claimBusy busy => exact Or.inr (.busy busy)
  | claimFree free => exact Or.inr (.claim free)
  | claimSkip => exact Or.inr .walk
  | claimReturn => exact Or.inr .acquired
  | claimAllocate => exact Or.inr .allocate
  | claimAdvance => exact Or.inr .advance
  | publishLoad | publishLost | publishSpurious =>
      exact Or.inr (.prepare rfl rfl (.refl _))
  | publishLink => exact Or.inr (.prepare rfl rfl (.setRecord _ rfl rfl))
  | publish => exact Or.inr .publish
  | exitRelease => exact Or.inr .exit
  | pinGone | pinFull =>
      exact Or.inl ⟨rfl, .refl _, rfl, slowPath_acquiring _⟩
  | nothingRetired | tryLockBusy | dropReclaimed =>
      exact Or.inl ⟨rfl, .refl _, rfl, afterRelease_acquiring _⟩
  | pinSlot | validRead | validLoad | republish | readFinish | readUnwind
  | reject | counted | exitSlot =>
      exact Or.inl ⟨rfl, .setSlot _ _ _ _, rfl, rfl⟩
  | _ => exact Or.inl ⟨rfl, .refl _, rfl, rfl⟩

theorem userStep_domain
    {thread : Tid} {locals locals' : Thread}
    (performed : userStep thread memory locals act =
      some (memory', locals')) : memory'.domain = memory.domain := by
  cases userStep_rule performed with
  | _ => rfl

private theorem Pushed.not_acquiring
    {stack : List Frame} (pushed : Pushed stack frame) :
    frame.acquiring = false := by
  rcases pushed with ⟨cell, call, rfl⟩ | ⟨cell, freed, rfl⟩ |
    ⟨_, record, rfl⟩
  · cases call <;> rfl
  · rfl
  · rfl

end Steps

section Owners

variable {memory memory' : Memory} {thread : Tid} {act : Act}
variable {locals locals' : Thread} {published : List RecordId}

/-- The thread is neither inside `acquire_record` nor about to return from
it. -/
def Thread.Idle (locals : Thread) : Prop :=
  ∀ frame, locals.stack.head? = some frame → frame.acquiring = false

theorem Thread.Idle.claimed (idle : locals.Idle) :
    locals.claimed = locals.tls.record := by
  unfold Thread.claimed
  cases shape : locals.stack with
  | nil => simp
  | cons top rest =>
      have notAcquiring := idle top (by rw [shape]; rfl)
      simp [Frame.claimed_of_not_acquiring notAcquiring]

theorem Thread.Idle.position (idle : locals.Idle) :
    locals.position published =
      locals.tls.record.map fun record =>
        remaining published (some record) := by
  unfold Thread.position
  cases locals.tls.record with
  | some record => rfl
  | none =>
      cases shape : locals.stack with
      | nil => rfl
      | cons top rest =>
          have absent : (top.position published).isSome = false := by
            rw [Frame.position_isSome]
            exact idle top (by rw [shape]; rfl)
          simpa using absent

private theorem Thread.claimed_of_acquiring
    {frame : Frame} {rest : List Frame} {tls : Tls}
    (unclaimed : tls.record = none) :
    (⟨tls, frame :: rest⟩ : Thread).claimed = frame.claimed := by
  simp [Thread.claimed, unclaimed]

private theorem Thread.position_of_acquiring
    {frame : Frame} {rest : List Frame} {tls : Tls}
    (unclaimed : tls.record = none) :
    (⟨tls, frame :: rest⟩ : Thread).position published =
      frame.position published := by
  simp [Thread.position, unclaimed]

private theorem PinStep.claimed_of_prepending
    {step : PinStep} {record : RecordId}
    (prepends : step.prepending = some record) :
    step.claimed = some record := by
  cases step with
  | tryClaim => cases prepends
  | advance => cases prepends
  | _ => exact prepends

private theorem PinStep.position_of_prepending
    {step : PinStep} {record : RecordId}
    (prepends : step.prepending = some record) :
    step.position published = some 0 := by
  cases step with
  | findSlot => cases prepends
  | tryClaim => cases prepends
  | advance => cases prepends
  | _ => rfl

/-- A step of a thread, as far as records are concerned. -/
inductive RecordMove (domain domain' : Domain) (thread : Tid)
    (locals locals' : Thread) : Prop where
  | quiet (same : SameRecords domain domain')
      (record : locals'.tls.record = locals.tls.record)
      (before : locals.Idle) (after : locals'.Idle)
  | frame (frame : Frame) (rest : List Frame) (tls' : Tls)
      (next : Option Frame) (shape : locals.stack = frame :: rest)
      (moved : RecordStep domain thread locals.tls frame domain' tls' next)
      (after : locals' = ⟨tls', next.toList ++ rest⟩)

private theorem recordMove
    (performed :
      program thread memory locals act = some (memory', locals'))
    (suspended : ∀ frame ∈ locals.stack.tail, frame.isUser) :
    RecordMove memory.domain memory'.domain thread locals locals' := by
  rcases program_cases performed with
    ⟨userPoint, user⟩ | ⟨frame, rest, tls', next, shape, stepped, rfl⟩
  · obtain ⟨_, record, stack⟩ := userStep_stack user
    have idle : locals.Idle := by
      intro frame isTop
      unfold Thread.atUserPoint at userPoint
      cases shape : locals.stack with
      | nil =>
          rw [shape] at isTop
          cases isTop
      | cons top rest =>
          rw [shape] at isTop userPoint
          cases isTop
          exact Frame.not_acquiring_of_isUser userPoint
    refine .quiet ?_ record idle ?_
    · rw [userStep_domain user]
      exact .refl _
    · rcases stack with same | ⟨frame, grown, pushed⟩
      · intro frame isTop
        rw [same] at isTop
        exact idle frame isTop
      · intro top isTop
        rw [grown] at isTop
        cases isTop
        exact pushed.not_acquiring
  · rcases frameStep_records stepped with ⟨before, quiet⟩ | moved
    · refine .quiet quiet.same quiet.record ?_ ?_
      · intro top isTop
        rw [shape] at isTop
        cases isTop
        exact before
      · intro top isTop
        cases next with
        | some frame' =>
            cases isTop
            exact quiet.after
        | none =>
            rw [shape] at suspended
            exact Frame.not_acquiring_of_isUser
              (suspended top (List.mem_of_mem_head? isTop))
    · exact .frame frame rest tls' next shape moved rfl

/-- The thread knows the records it owns. -/
def Knows (domain : Domain) (thread : Tid) (locals : Thread) : Prop :=
  ∀ record, (domain.records record).owner = some thread ↔
    locals.claimed = some record

theorem Knows.of_same
    {domain domain' : Domain} (knows : Knows domain thread locals)
    (same : ∀ record,
      (domain'.records record).owner = (domain.records record).owner)
    (claimed : locals'.claimed = locals.claimed) :
    Knows domain' thread locals' := by
  intro record
  rw [same, claimed]
  exact knows record

/-- A thread that owned nothing gets a record. -/
theorem Knows.gain
    {domain domain' : Domain} {record : RecordId}
    (knows : Knows domain thread locals)
    (nothing : locals.claimed = none)
    (owner : ∀ other, (domain'.records other).owner =
      if other = record then some thread else (domain.records other).owner)
    (claimed : locals'.claimed = some record) :
    Knows domain' thread locals' := by
  intro other
  rw [owner, claimed]
  split
  · rename_i same
    simp [same]
  · rename_i different
    rw [knows other, nothing]
    simp [Ne.symm different]

private theorem Domain.owner_claim (domain : Domain) (record other : RecordId) :
    ((domain.claim record thread).records other).owner =
      if other = record then some thread
      else (domain.records other).owner := by
  unfold Domain.claim
  rw [Domain.records_setRecord]
  split <;> rfl

private theorem Domain.owner_allocate (domain : Domain) (other : RecordId) :
    ((domain.allocate thread).records other).owner =
      if other = domain.allocated then some thread
      else (domain.records other).owner := by
  by_cases same : other = domain.allocated
  · subst same
    simp [Domain.allocate]
  · simp [Domain.allocate, same]

private theorem Domain.owner_release
    (domain : Domain) (record other : RecordId) :
    ((domain.release record).records other).owner =
      if other = record then none else (domain.records other).owner := by
  unfold Domain.release
  rw [Domain.records_setRecord]
  split <;> rfl

theorem RecordMove.knows
    {domain domain' : Domain}
    (move : RecordMove domain domain' thread locals locals')
    (tlsOk : TlsOk locals)
    (exits : ∀ record index,
      locals.stack.head? = some (.exiting record index) →
        (domain.records record).owner = some thread)
    (knows : Knows domain thread locals) :
    Knows domain' thread locals' := by
  cases move with
  | quiet same record before after =>
      refine knows.of_same same.owner ?_
      rw [before.claimed, after.claimed, record]
  | frame frame rest tls' next shape moved after =>
      obtain ⟨tls, stack⟩ := locals
      dsimp only at shape moved
      subst shape after
      have unclaimed : frame.acquiring = true → tls.record = none :=
        tlsOk.acquiring frame rfl
      cases moved with
      | start none =>
          exact knows.of_same (fun _ => rfl)
            (by simp [Thread.claimed, none, Frame.claimed, PinStep.claimed,
              PinStep.prepending])
      | busy used =>
          exact knows.of_same (fun _ => rfl) rfl
      | claim free =>
          have none := unclaimed rfl
          exact knows.gain (Thread.claimed_of_acquiring none)
            (Domain.owner_claim _ _)
            (Thread.claimed_of_acquiring none)
      | advance => exact knows.of_same (fun _ => rfl) rfl
      | walk => exact knows.of_same (fun _ => rfl) rfl
      | acquired =>
          have none := unclaimed rfl
          refine knows.of_same (fun _ => rfl) ?_
          rw [Thread.claimed_of_acquiring none]
          rfl
      | allocate =>
          have none := unclaimed rfl
          exact knows.gain (Thread.claimed_of_acquiring none)
            (Domain.owner_allocate _)
            (Thread.claimed_of_acquiring none)
      | prepare before after same =>
          refine knows.of_same same.owner ?_
          have kept := (PinStep.claimed_of_prepending after).trans
            (PinStep.claimed_of_prepending before).symm
          simp [Thread.claimed, Frame.claimed, kept]
      | publish =>
          have none := unclaimed rfl
          refine knows.of_same (fun _ => rfl) ?_
          rw [Thread.claimed_of_acquiring none]
          rfl
      | @exit record index =>
          have alone : rest = [] := tlsOk.exiting _ rfl rfl
          have owned := exits record index rfl
          have claimed := (knows record).mp owned
          intro other
          subst alone
          rw [Domain.owner_release]
          split
          · simp [Thread.claimed]
          · rename_i different
            rw [knows other, claimed]
            simp [Thread.claimed, Ne.symm different]

/-- A record in use has an owner. -/
def Occupied (domain : Domain) : Prop :=
  ∀ record, (domain.records record).inUse = true →
    ∃ thread, (domain.records record).owner = some thread

theorem RecordMove.occupied
    {domain domain' : Domain}
    (move : RecordMove domain domain' thread locals locals')
    (occupied : Occupied domain) : Occupied domain' := by
  have same : ∀ {domain'}, SameRecords domain domain' →
      Occupied domain' := by
    intro domain' same record used
    rw [same.inUse] at used
    rw [same.owner]
    exact occupied record used
  have set : ∀ (record : RecordId) (updated : Record),
      (updated.inUse = true → ∃ thread, updated.owner = some thread) →
        Occupied (domain.setRecord record updated) := by
    intro record updated ok other used
    by_cases equal : other = record
    · rw [Domain.records_setRecord, if_pos equal] at used ⊢
      exact ok used
    · rw [Domain.records_setRecord, if_neg equal] at used ⊢
      exact occupied other used
  cases move with
  | quiet kept record before after => exact same kept
  | frame frame rest tls' next shape moved after =>
      cases moved with
      | claim free => exact set _ _ fun _ => ⟨thread, rfl⟩
      | exit => exact set _ _ fun used => by cases used
      | prepare before after kept => exact same kept
      | allocate =>
          intro other used
          by_cases new : other = domain.allocated
          · subst new
            exact ⟨thread, by simp [Domain.allocate]⟩
          · simp only [Domain.allocate, Function.update_of_ne new]
              at used ⊢
            exact occupied other used
      | publish => exact occupied
      | _ => exact occupied

end Owners

/-- Every record in use is owned by the thread that knows it. -/
structure OwnersOk (state : State) : Prop where
  occupied : Occupied state.memory.domain
  knows : ∀ thread,
    Knows state.memory.domain thread (state.threads thread)

private theorem ownersOk_step
    {state next : State} {thread : Tid} {act : Act}
    (holds : Invariant state)
    (tlsOk : TlsOk (state.threads thread))
    (stepped : program.step state thread act = some next)
    (ok : OwnersOk state) : OwnersOk next := by
  obtain ⟨memory', locals', performed, rfl⟩ := step_eq_some stepped
  have move := recordMove performed (holds.2 thread).suspended
  obtain ⟨_, _, depth, gained, lost, advance⟩ :=
    program_sound performed holds.1 (holds.2 thread)
  refine ⟨move.occupied ok.occupied, fun other => ?_⟩
  by_cases same : other = thread
  · subst same
    have exits : ∀ record index,
        (state.threads other).stack.head? = some (.exiting record index) →
          (state.memory.domain.records record).owner = some other := by
      intro record index isTop
      have stack := (holds.2 other).stack
      cases shape : (state.threads other).stack with
      | nil =>
          rw [shape] at isTop
          cases isTop
      | cons top rest =>
          rw [shape] at isTop stack
          cases isTop
          exact stack.1.facts.1.owned
    show Knows memory'.domain other
      (Function.update state.threads other locals' other)
    rw [Function.update_self]
    exact move.knows tlsOk exits (ok.knows other)
  · show Knows memory'.domain other
      (Function.update state.threads thread locals' other)
    rw [Function.update_of_ne same]
    intro record
    rw [advance.domain.owners record other same]
    exact ok.knows other record

theorem ownersOk_reachable
    {state : State} (reachable : program.Reachable initial state) :
    OwnersOk state := by
  have both : program.Reachable initial state ∧ OwnersOk state := by
    refine reachable_invariant
      (P := fun state => program.Reachable initial state ∧ OwnersOk state)
      ⟨⟨[], rfl⟩, ?_, ?_⟩ ?_ reachable
    · intro record used
      cases used
    · intro thread record
      simp [initial, Domain.initial, Thread.claimed]
    · intro state thread act next stepped holds
      exact ⟨holds.1.step stepped,
        ownersOk_step (invariant_reachable holds.1)
          (tlsOk_reachable holds.1 thread) stepped holds.2⟩
  exact both.2

/-! ### Positions -/

section Positions

variable {state next : State} {memory memory' : Memory} {thread : Tid}
variable {act : Act} {locals : Thread} {record : RecordId}

def positions (state : State) (thread : Tid) : Option Nat :=
  (state.threads thread).position state.memory.domain.published

/-- New records in front of the list do not change a position. -/
private theorem ThreadInv.position_append
    {added : List RecordId}
    (ok : ThreadInv memory thread locals)
    (nodup : (added ++ memory.domain.published).Nodup) :
    locals.position (added ++ memory.domain.published) =
      locals.position memory.domain.published := by
  have older : ∀ record ∈ memory.domain.published, record ∉ added := by
    intro record member new
    exact (List.nodup_append.mp nodup).2.2 record new record member rfl
  have kept : ∀ cursor, CursorOk memory cursor →
      remaining (added ++ memory.domain.published) cursor =
        remaining memory.domain.published cursor := by
    intro cursor listed
    exact remaining_append fun here same => older here (listed here same)
  have keptRecord : ∀ record ∈ memory.domain.published,
      remaining (added ++ memory.domain.published) (some record) =
        remaining memory.domain.published (some record) := by
    intro record listed
    refine kept (some record) ?_
    rintro _ ⟨⟩
    exact listed
  unfold Thread.position
  cases isRecord : locals.tls.record with
  | some record =>
      simp only [keptRecord record (ok.record record isRecord).published]
  | none =>
      have stack := ok.stack
      cases shape : locals.stack with
      | nil => rfl
      | cons top rest =>
          rw [shape] at stack
          have facts := stack.1.facts
          cases top with
          | pinning cell reader address step =>
              cases step with
              | tryClaim cursor reused =>
                  cases reused with
                  | none =>
                      simp [Frame.position, PinStep.position,
                        kept cursor facts.1]
                  | some reused =>
                      simp [Frame.position, PinStep.position,
                        keptRecord reused (facts.2 reused rfl).published]
              | advance record reused =>
                  cases reused with
                  | none =>
                      simp [Frame.position, PinStep.position,
                        keptRecord record facts.1]
                  | some reused =>
                      simp [Frame.position, PinStep.position,
                        keptRecord reused (facts.2 reused rfl).published]
              | _ => rfl
          | _ => rfl

/-- The owner of a record in the list stands at it. -/
private theorem ThreadInv.position_of_claimed
    (ok : ThreadInv memory thread locals)
    (claimed : locals.claimed = some record)
    (listed : record ∈ memory.domain.published) :
    locals.position memory.domain.published =
      some (remaining memory.domain.published (some record)) := by
  unfold Thread.claimed at claimed
  unfold Thread.position
  cases isRecord : locals.tls.record with
  | some own =>
      rw [isRecord] at claimed
      cases claimed
      rfl
  | none =>
      rw [isRecord] at claimed
      have stack := ok.stack
      cases shape : locals.stack with
      | nil =>
          rw [shape] at claimed
          cases claimed
      | cons top rest =>
          rw [shape] at claimed stack
          have facts := stack.1.facts
          cases top with
          | pinning cell reader address step =>
              cases step with
              | findSlot => cases claimed
              | tryClaim cursor reused =>
                  cases claimed
                  rfl
              | advance cursor reused =>
                  cases claimed
                  rfl
              | loadHead own =>
                  cases claimed
                  exact absurd listed facts.unpublished
              | storeNext own head =>
                  cases claimed
                  exact absurd listed facts.unpublished
              | exchangeHead own head =>
                  cases claimed
                  exact absurd listed facts.1.unpublished
          | _ => cases claimed

/-- A step of a thread changes its own position only. -/
private theorem positions_of_ne
    (holds : Invariant state)
    (stepped : program.step state thread act = some next)
    {other : Tid} (different : other ≠ thread) :
    positions next other = positions state other := by
  obtain ⟨memory', locals', performed, rfl⟩ := step_eq_some stepped
  obtain ⟨_, _, depth, gained, lost, advance⟩ :=
    program_sound performed holds.1 (holds.2 thread)
  obtain ⟨added, shape, _⟩ := advance.domain.published
  have nodup := advance.inv.domain.nodup
  rw [shape] at nodup
  show (Function.update state.threads thread locals' other).position
    memory'.domain.published = _
  rw [Function.update_of_ne different, shape]
  exact (holds.2 other).position_append nodup

/-- What a step does to the list and to the position of its thread. -/
inductive Walk (domain domain' : Domain) (thread : Tid)
    (before after : Option Nat) : Prop where
  | stays
      (same : domain'.published = domain.published)
      (kept : after = before ∨ after = none)
  | arrives
      (same : domain'.published = domain.published)
      (last : after = some domain.published.length)
  | passes (record : RecordId) (place : Nat)
      (same : domain'.published = domain.published)
      (used : (domain.records record).inUse = true)
      (foreign : (domain.records record).owner ≠ some thread)
      (listed : record ∈ domain.published)
      (isPlace : remaining domain.published (some record) = place + 1)
      (stood : before = some (place + 1)) (passed : after = some place)
  | grows (record : RecordId)
      (grown : domain'.published = record :: domain.published)
      (first : before = some 0)
      (last : after = some (domain.published.length + 1))

private theorem recordMove_walk
    {domain' : Domain} {locals' : Thread}
    (move : RecordMove memory.domain domain' thread locals locals')
    (inv : DomainInv memory.domain) (ok : ThreadInv memory thread locals)
    (tlsOk : TlsOk locals) (knows : Knows memory.domain thread locals) :
    Walk memory.domain domain' thread
      (locals.position memory.domain.published)
      (locals'.position domain'.published) := by
  cases move with
  | quiet same record before after =>
      refine .stays same.published (Or.inl ?_)
      rw [before.position, after.position, record, same.published]
  | frame frame rest tls' next shape moved after =>
      obtain ⟨tls, stack⟩ := locals
      dsimp only at shape moved
      subst shape after
      have facts := ok.stack.1.facts
      have unclaimed : frame.acquiring = true → tls.record = none :=
        tlsOk.acquiring frame rfl
      cases moved with
      | start none =>
          refine .arrives rfl ?_
          rw [show (some _ : Option Frame).toList ++ rest = _ :: rest
            from rfl, Thread.position_of_acquiring none, inv.linked.start_eq]
          exact congrArg some (remaining_head _)
      | @busy _ _ _ record used =>
          have none := unclaimed rfl
          have listed : record ∈ memory.domain.published :=
            facts.1 record rfl
          refine .passes record _ rfl used ?_ listed rfl ?_ ?_
          · rw [Ne, knows record, Thread.claimed_of_acquiring none]
            exact nofun
          · rw [Thread.position_of_acquiring none]
            rfl
          · show Thread.position _ ⟨_, _ :: rest⟩ = _
            rw [Thread.position_of_acquiring none]
            rfl
      | @advance _ _ _ record reused =>
          have none := unclaimed rfl
          refine .stays rfl (Or.inl ?_)
          show Thread.position _ ⟨_, _ :: rest⟩ = _
          rw [Thread.position_of_acquiring none,
            Thread.position_of_acquiring none]
          cases reused with
          | some reused => rfl
          | none =>
              have moved := inv.remaining_next facts.1
              exact congrArg some (by omega)
      | publish =>
          have none := unclaimed rfl
          refine .grows _ rfl ?_ ?_
          · rw [Thread.position_of_acquiring none]
            rfl
          · simp [Thread.position, Domain.publish, remaining]
      | exit =>
          have alone : rest = [] := tlsOk.exiting _ rfl rfl
          subst alone
          exact .stays rfl (Or.inr rfl)
      | @prepare _ _ _ step step' record _ before after same =>
          have none := unclaimed (by cases step <;> first | rfl | cases before)
          refine .stays same.published (Or.inl ?_)
          show Thread.position _ ⟨_, _ :: rest⟩ = _
          rw [Thread.position_of_acquiring none,
            Thread.position_of_acquiring none]
          exact (PinStep.position_of_prepending after).trans
            (PinStep.position_of_prepending before).symm
      | acquired =>
          have none := unclaimed rfl
          refine .stays rfl (Or.inl ?_)
          rw [Thread.position_of_acquiring none]
          rfl
      | _ =>
          have none := unclaimed rfl
          refine .stays rfl (Or.inl ?_)
          show Thread.position _ ⟨_, _ :: rest⟩ = _
          rw [Thread.position_of_acquiring none,
            Thread.position_of_acquiring none]
          rfl

private theorem uncrowded_step
    {bound : Nat} (holds : Invariant state)
    (owners : OwnersOk state) (tlsOk : TlsOk (state.threads thread))
    (stepped : program.step state thread act = some next)
    (limited : AtMost bound (positions next))
    (ok : Uncrowded bound state.memory.domain.published.length
      (positions state)) :
    Uncrowded bound next.memory.domain.published.length (positions next) := by
  have others : ∀ other, other ≠ thread →
      positions next other = positions state other :=
    fun _ different => positions_of_ne holds stepped different
  have walk : Walk state.memory.domain next.memory.domain thread
      (positions state thread) (positions next thread) := by
    obtain ⟨memory', locals', performed, rfl⟩ := step_eq_some stepped
    have walk := recordMove_walk
      (recordMove performed (holds.2 thread).suspended) holds.1.domain
      (holds.2 thread) tlsOk (owners.knows thread)
    simpa [positions] using walk
  cases walk with
  | stays same kept =>
      rw [same]
      refine ok.leave fun other => ?_
      by_cases isThread : other = thread
      · rw [isThread]
        exact kept
      · exact Or.inl (others other isThread)
  | arrives same last =>
      rw [same]
      exact ok.arrive limited last others
  | passes record place same used foreign listed isPlace stood passed =>
      obtain ⟨resident, owned⟩ := owners.occupied record used
      have different : resident ≠ thread := by
        rintro rfl
        exact foreign owned
      have claimed := (owners.knows resident record).mp owned
      have stays : positions state resident = some (place + 1) := by
        rw [← isPlace]
        exact (holds.2 resident).position_of_claimed claimed listed
      have bounded : place + 1 ≤ state.memory.domain.published.length := by
        rw [← isPlace]
        refine remaining_le ?_
        rintro _ ⟨⟩
        exact listed
      rw [same]
      exact ok.pass bounded different stays stood passed others
  | grows record grown first last =>
      rw [grown]
      exact ok.extend limited first last others

/-- While at most `bound` threads need a record at any time, there are at most
`bound` records. -/
private theorem uncrowded_run
    {bound : Nat} {schedule : List (Tid × Act)}
    (reachable : program.Reachable initial state)
    (run : program.exec state schedule = some next)
    (limited : ∀ done rest middle, schedule = done ++ rest →
      program.exec state done = some middle →
        AtMost bound (positions middle))
    (ok : Uncrowded bound state.memory.domain.published.length
      (positions state)) :
    Uncrowded bound next.memory.domain.published.length (positions next) := by
  induction schedule generalizing state with
  | nil =>
      cases run
      exact ok
  | cons entry rest inductionHypothesis =>
      obtain ⟨thread, act⟩ := entry
      obtain ⟨middle, stepped, remaining⟩ := exec_cons_eq_some run
      have first : program.exec state [(thread, act)] = some middle := by
        simp [Program.exec, stepped]
      refine inductionHypothesis (reachable.step stepped) remaining ?_ ?_
      · intro done later last split reached
        refine limited ((thread, act) :: done) later last
          (by rw [split]; rfl) ?_
        simp only [Program.exec, stepped, Option.bind_some]
        exact reached
      · exact uncrowded_step (invariant_reachable reachable)
          (ownersOk_reachable reachable) (tlsOk_reachable reachable thread)
          stepped (limited [(thread, act)] rest middle rfl first) ok

end Positions

/-- At some time of every run at least as many threads needed a record as
there are records in the end. -/
theorem record_bound
    {state : State} {schedule : List (Tid × Act)}
    (run : program.exec initial schedule = some state) :
    ∃ done rest middle, schedule = done ++ rest ∧
      program.exec initial done = some middle ∧
      ∃ threads : Finset Tid,
        (∀ thread ∈ threads, (middle.threads thread).needsRecord = true) ∧
        threads.card = state.memory.domain.published.length := by
  by_contra never
  push Not at never
  -- Otherwise one thread less than there are records is a bound.
  have limited : ∀ done rest middle, schedule = done ++ rest →
      program.exec initial done = some middle →
        AtMost (state.memory.domain.published.length - 1)
          (positions middle) := by
    intro done rest middle split reached threads present
    by_contra many
    obtain ⟨fewer, included, size⟩ := Finset.exists_subset_card_eq
      (show state.memory.domain.published.length ≤ threads.card by omega)
    refine never done rest middle split reached fewer ?_ size
    intro thread member
    have needs := present thread (included member)
    rwa [positions, Thread.position_isSome] at needs
  have absent : ∀ thread, positions initial thread = none := fun _ => rfl
  have bounded := (uncrowded_run ⟨[], rfl⟩ run limited
    (Uncrowded.empty absent)).places_le
  refine never [] schedule initial rfl rfl ∅ (by simp) ?_
  rw [Finset.card_empty]
  omega

/-- Threads `0` and `1` read at the same time; thread `0` exits, and thread `2`
takes over its record. -/
def recordReused : List (Tid × Act) :=
  (0, .newCell 0 100) :: (0, .call 0 (.read false)) ::
    (1, .call 0 (.read false)) :: nexts 0 8 ++ nexts 1 10 ++
    (0, .finish) :: nexts 0 2 ++ (0, .exitThread) :: nexts 0 9 ++
    (2, .call 0 (.read false)) :: nexts 2 8

theorem record_bound_reused :
    ∃ state, program.exec initial recordReused = some state ∧
      state.memory.domain.published = [1, 0] ∧
      (state.threads 2).tls.record = some 0 ∧
      ∃ done rest middle, recordReused = done ++ rest ∧
        program.exec initial done = some middle ∧
        ∃ threads : Finset Tid,
          (∀ thread ∈ threads,
            (middle.threads thread).needsRecord = true) ∧
          threads.card = 2 := by
  have evaluated :
      (program.exec initial recordReused).map
          (fun state => (state.memory.domain.published,
            (state.threads 2).tls.record)) =
        some ([1, 0], some 0) := by
    decide +kernel
  obtain ⟨state, reached, view⟩ := Option.map_eq_some_iff.mp evaluated
  obtain ⟨published, record⟩ := Prod.mk.inj view
  have bound := record_bound reached
  rw [published] at bound
  exact ⟨state, reached, published, record, bound⟩

end RegistryIo.Snapshot
