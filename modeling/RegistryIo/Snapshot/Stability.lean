import RegistryIo.Snapshot.FrameInvariant

/-!
# Stability

An operation of one call does not falsify what another call knows.  Frames of
other threads may be at any program point; frames of the same thread below the
acting one are suspended in user code.
-/

namespace RegistryIo.Snapshot

variable {memory memory' : Memory} {call other : CallId}
variable {gained lost : List Holding} {cell : CellId}

section Always

variable (advance : Advance call gained lost memory memory')

include advance

theorem RemovedOk.stable
    {removed : List Nat} (ok : RemovedOk memory cell removed) :
    RemovedOk memory' cell removed := by
  intro handler member
  exact (advance.store.cells cell).removed handler (ok handler member)

theorem Installed.stable
    {handler : Nat} (installed : Installed memory cell handler) :
    Installed memory' cell handler := by
  rcases installed with live | removed
  · exact (advance.store.cells cell).installed handler live
  · exact Or.inr ((advance.store.cells cell).removed handler removed)

theorem EffectOk.stable
    {effect : Effect} (ok : EffectOk memory cell effect) :
    EffectOk memory' cell effect where
  removed := ok.removed.stable advance
  inserted := fun handler same => (ok.inserted handler same).stable advance

private theorem mem_published_stable
    {record : RecordId} (member : record ∈ memory.domain.published) :
    record ∈ memory'.domain.published := by
  obtain ⟨added, shape, _⟩ := advance.domain.published
  rw [shape]
  exact List.mem_append_right added member

theorem CursorOk.stable
    {cursor : Option RecordId} (ok : CursorOk memory cursor) :
    CursorOk memory' cursor := by
  intro record same
  exact mem_published_stable advance (ok record same)

theorem CollectorOk.stable
    {collector : Collector} (ok : CollectorOk memory cell collector) :
    CollectorOk memory' cell collector := by
  cases collector with
  | update wait effect => exact EffectOk.stable advance ok
  | _ => trivial

theorem BodyOk.stable
    {version : Nat} {body : Body} (known : version < memory.store.versions)
    (ok : BodyOk memory version body) : BodyOk memory' version body := by
  unfold BodyOk
  rw [advance.store.values version known]
  exact ok

/-- An allocation that has an owner on both sides of a step is the same. -/
theorem Refers.stable
    {cell : CellId} {address : Addr} {version : Nat} {owner : Owner}
    (owned : owner ∈ memory'.store.owners address)
    (refers : Refers memory cell address version) :
    Refers memory' cell address version := by
  obtain ⟨inner, found, isCell, isVersion⟩ := refers
  obtain ⟨inner', found', _⟩ := Store.heap_of_mem_owners owned
  obtain ⟨sameCell, sameVersion, _⟩ :=
    advance.store.contents address inner inner' found found'
  exact ⟨inner', found', sameCell.trans isCell,
    sameVersion.trans isVersion⟩

/-- Records that join the list do not concern a running traversal. -/
theorem Ahead.stable
    {cursor : Option RecordId} {index position : Nat}
    {record : RecordId} (ok : CursorOk memory cursor)
    (ahead : Ahead memory.domain.published cursor index record position) :
    Ahead memory'.domain.published cursor index record position := by
  obtain ⟨added, shape, _⟩ := advance.domain.published
  rw [shape]
  refine ahead.prepend ?_
  intro here same member
  have nodup := advance.inv.domain.nodup
  rw [shape] at nodup
  exact (List.nodup_append.mp nodup).2.2 here member here (ok here same) rfl

end Always

private theorem claim_version_lt
    {record : RecordId} {index : Nat} {announcement : Announcement}
    {claim : Claim} (inv : MemInv memory)
    (used : memory.domain.slot record index = some announcement)
    (claimed : announcement.claim = some claim) :
    claim.version < memory.store.versions := by
  obtain ⟨place, known, _⟩ :=
    (inv.claims record index announcement claim used claimed).linked
  obtain ⟨_, inner, found, _, _, version⟩ :=
    Store.tracked_eq_some_iff.mp known
  rw [← version]
  exact (inv.store.arcs _ inner found).version_lt

/-- The current list contains no removed handler. -/
theorem not_contains_current
    {removed : List Nat} (inv : MemInv memory)
    (ok : RemovedOk memory cell removed)
    (alive : (memory.store.cells cell).phase = .alive) :
    ¬ Contains removed
      (memory.store.values (memory.store.cells cell).version) := by
  rintro ⟨handler, isRemoved, member⟩
  have live :=
    (((inv.store.cells cell).list_ok alive).live_iff handler).mp member
  rw [ok handler isRemoved] at live
  cases live

section Waiters

variable (advance : Advance call gained lost memory memory')
variable (inv : MemInv memory) {removed : List Nat}
variable (removedOk : RemovedOk memory cell removed)

include advance inv removedOk

/-- No new announcement protects a removed handler. -/
theorem Blocking.back
    {thread : Tid} {record : RecordId} {index : Nat} {address : Addr}
    (blocking :
      Blocking memory' cell thread removed record index address) :
    Blocking memory cell thread removed record index address := by
  obtain ⟨announcement, claim, used, isAddress, notOwn, claimed, isCell,
    contains⟩ := blocking
  rcases advance.claims record index announcement claim used claimed with
    old | ⟨_, version⟩
  · refine ⟨announcement, claim, old, isAddress, notOwn, claimed, isCell, ?_⟩
    rw [← advance.store.values claim.version
      (claim_version_lt inv old claimed)]
    exact contains
  · subst isCell
    have active := (advance.inv.claims record index announcement claim used
      claimed).active
    have alive := (advance.inv.store.cells claim.cell).active_alive _ active
    rw [version] at contains
    exact absurd contains (not_contains_current advance.inv
      (removedOk.stable advance) alive)

omit inv in
/-- No new fallback read holds a removed handler. -/
theorem FallbackClear.stable
    (clear : FallbackClear memory cell removed) :
    FallbackClear memory' cell removed := by
  intro address inner' found' isCell contains reader owned
  have holds' : .fallback reader ∈ memory'.store.owners address := by
    rw [Store.owners_of_heap found']
    exact owned
  have old : .fallback reader ∉ memory.store.owners address := by
    intro member
    obtain ⟨inner, found, oldOwned⟩ := Store.heap_of_mem_owners member
    obtain ⟨sameCell, _, sameValue⟩ :=
      advance.store.contents address inner inner' found found'
    rw [sameCell] at isCell
    rw [sameValue] at contains
    exact clear address inner found isCell contains reader oldOwned
  by_cases same : reader = call
  · subst same
    rcases advance.store.shared address holds' with member | place
    · exact old member
    · have isCurrent : inner'.place = .current := by
        rw [Store.place_of_heap found'] at place
        exact Option.some.inj place
      obtain ⟨alive, current⟩ :=
        advance.inv.store.current_of_place found' isCurrent
      obtain ⟨inner, found, _, _, version⟩ :=
        advance.inv.store.current_inner alive
      rw [current, found'] at found
      cases found
      subst isCell
      refine not_contains_current advance.inv (removedOk.stable advance)
        alive ?_
      rw [← version, (advance.inv.store.arcs address inner' found').value_eq]
      exact contains
  · exact old ((advance.transfer.held_of_ne same (.shared address)).mp
      holds')

omit inv in
theorem FallbackChecked.stable
    {onFallback : Bool}
    (checked : FallbackChecked memory cell onFallback removed) :
    FallbackChecked memory' cell onFallback removed :=
  fun isFalse => (checked isFalse).stable advance removedOk

end Waiters

section OtherThread

variable {thread : Tid}
variable (advance : Advance call gained lost memory memory')
variable (apart : thread ≠ call.thread)

include advance apart

theorem OwnRecord.stable
    {record : RecordId} (ok : OwnRecord memory thread record) :
    OwnRecord memory' thread record where
  owned := (advance.domain.owners record thread apart).mpr ok.owned
  published := mem_published_stable advance ok.published

/-- Only its owner announces in a record. -/
private theorem null_stable
    {record : RecordId} (own : OwnRecord memory thread record)
    (null : ∀ index, memory.domain.slot record index = none) :
    ∀ index, memory'.domain.slot record index = none := by
  intro index
  cases used : memory'.domain.slot record index with
  | none => rfl
  | some announcement =>
      have owner :=
        (advance.inv.domain.announced record index announcement used).1
      rw [(own.stable advance apart).owned] at owner
      have isOwner : announcement.call.thread = thread :=
        (Option.some.inj owner).symm
      have different : announcement.call ≠ call := by
        intro same
        exact apart (isOwner.symm.trans (congrArg CallId.thread same))
      have held : memory'.Held announcement.call (.pin ⟨record, index⟩) := by
        simp [Memory.Held, used]
      rw [advance.transfer.held_of_ne different, Memory.Held, null] at held
      cases held

theorem NewRecord.stable
    {record : RecordId} (ok : NewRecord memory thread record) :
    NewRecord memory' thread record where
  owned := (advance.domain.owners record thread apart).mpr ok.owned
  unpublished := by
    obtain ⟨added, shape, owned⟩ := advance.domain.published
    rw [shape, List.mem_append, not_or]
    refine ⟨?_, ok.unpublished⟩
    intro member
    have owner := owned record member
    rw [ok.owned] at owner
    exact apart (Option.some.inj owner)

theorem PinStepOk.stable
    {step : PinStep} (ok : PinStepOk memory thread step) :
    PinStepOk memory' thread step := by
  cases step with
  | findSlot => trivial
  | tryClaim cursor reused =>
      exact ⟨ok.1.stable advance,
        fun record same => (ok.2 record same).stable advance apart⟩
  | advance record reused =>
      exact ⟨mem_published_stable advance ok.1,
        fun record same => (ok.2 record same).stable advance apart⟩
  | loadHead record => exact NewRecord.stable advance apart ok
  | storeNext record head => exact NewRecord.stable advance apart ok
  | exchangeHead record head =>
      refine ⟨ok.1.stable advance apart, ?_⟩
      rw [advance.domain.next record thread apart ok.1.owned]
      exact ok.2

end OtherThread

section Locked

variable (advance : Advance call gained lost memory memory')
variable (different : other ≠ call)
variable (locked : memory.Held other (.writer cell))

include advance different locked

private theorem sameLocked :
    SameLocked (memory.store.cells cell) (memory'.store.cells cell) :=
  (advance.store.cells cell).locked other different locked

theorem LenOk.stable (ok : LenOk memory cell) : LenOk memory' cell := by
  have same := sameLocked advance different locked
  unfold LenOk
  rw [same.retiredLen, same.retired]
  exact ok

theorem LockedStepOk.stable
    {step : LockedStep} (ok : LockedStepOk memory cell step) :
    LockedStepOk memory' cell step := by
  have same := sameLocked advance different locked
  cases step with
  | lock => trivial
  | load => exact LenOk.stable advance different locked ok
  | increment address version =>
      obtain ⟨length, current, isVersion⟩ := ok
      exact ⟨length.stable advance different locked,
        current.trans same.current.symm, isVersion.trans same.version.symm⟩
  | unlock address version =>
      obtain ⟨length, current, isVersion⟩ := ok
      exact ⟨length.stable advance different locked,
        current.trans same.current.symm, isVersion.trans same.version.symm⟩

/-- A reader that validates during the scan protects the current value. -/
theorem ScanOk.stable
    {cursor : Option RecordId} {index : Nat} {announced : List Addr}
    (ok : ScanOk memory cell cursor index announced) :
    ScanOk memory' cell cursor index announced where
  cursor_ok := ok.cursor_ok.stable advance
  covered := by
    intro record position announcement claim used claimed isCell isRetired
    rcases advance.claims record position announcement claim used claimed with
      old | ⟨isCurrent, _⟩
    · have same := sameLocked advance different locked
      rw [same.retired] at isRetired
      rcases ok.covered record position announcement claim old claimed isCell
        isRetired with seen | ahead
      · exact Or.inl seen
      · exact Or.inr (Ahead.stable advance ok.cursor_ok ahead)
    · subst isCell
      have active := (advance.inv.claims record position announcement claim
        used claimed).active
      have cellOk := advance.inv.store.cells claim.cell
      have current := cellOk.current_alive (cellOk.active_alive _ active)
      obtain ⟨version, known⟩ := (cellOk.retired_iff _).mp isRetired
      rw [isCurrent, current] at known
      cases known

theorem InstallOk.stable
    {effect : Effect} {new : Addr} {inner : ArcInner} (inv : MemInv memory)
    (found : memory.store.heap new = some inner)
    (drawn : ∀ handler, effect.inserted = some handler →
      memory'.Held other (.drawn cell handler))
    (fresh : memory'.Held other (.fresh new))
    (ok : InstallOk memory.store cell effect other inner) :
    ∃ inner', memory'.store.heap new = some inner' ∧
      InstallOk memory'.store cell effect other inner' := by
  have same := sameLocked advance different locked
  have alive := inv.store.alive_of_writer locked
  obtain ⟨inner', found', place'⟩ := Store.heap_of_place fresh
  obtain ⟨sameCell, sameVersion, sameValue⟩ :=
    advance.store.contents new inner inner' found found'
  have values :
      memory'.store.values (memory.store.cells cell).version =
        memory.store.values (memory.store.cells cell).version :=
    advance.store.values _ (inv.store.version_lt_versions alive)
  refine ⟨inner', found', ?_⟩
  constructor
  · rw [sameCell]
    exact ok.cell_eq
  · exact place'
  · rw [same.version, sameVersion]
    exact ok.newer
  · rw [same.version, values]
    exact ok.removed
  · exact drawn
  · rw [sameValue]
    exact ok.nodup
  · rw [same.version, values, sameValue]
    exact ok.members

end Locked

/-- A reference that a writer holds stays what it is. -/
private theorem tracked_unlinked_stable
    {raw : Addr} {version : Nat}
    (advance : Advance call gained lost memory memory')
    (unlinked : memory'.Held other (.unlinked raw))
    (known : memory.store.tracked cell raw =
      some (.unlinked other, version)) :
    memory'.store.tracked cell raw = some (.unlinked other, version) := by
  obtain ⟨_, inner, found, isCell, _, isVersion⟩ :=
    Store.tracked_eq_some_iff.mp known
  obtain ⟨inner', found', place'⟩ := Store.heap_of_place unlinked
  obtain ⟨sameCell, sameVersion, _⟩ :=
    advance.store.contents raw inner inner' found found'
  exact Store.tracked_eq_some_iff.mpr
    ⟨rfl, inner', found', sameCell.trans isCell, place',
      sameVersion.trans isVersion⟩

theorem Announces.stable
    {pin : Pin} {address : Addr} {claim : Option Claim}
    (advance : Advance call gained lost memory memory')
    (different : other ≠ call)
    (announces : Announces memory other pin address claim) :
    Announces memory' other pin address claim :=
  advance.domain.slots pin.record pin.index _ announces different

theorem CollectStepOk.stable
    {step : CollectStep}
    (advance : Advance call gained lost memory memory')
    (different : other ≠ call)
    (locked : memory.Held other (.writer cell))
    (ok : CollectStepOk memory cell step) :
    CollectStepOk memory' cell step := by
  cases step with
  | start => trivial
  | scan cursor index announced =>
      exact ScanOk.stable advance different locked ok
  | storeLen freed => exact ok
  | unlock freed =>
      exact ⟨ok.1, ok.2.stable advance different locked⟩

theorem WaitStepOk.stable
    {thread : Tid} {removed : List Nat} {step : WaitStep}
    (inv : MemInv memory)
    (advance : Advance call gained lost memory memory')
    (different : other ≠ call)
    (removedOk : RemovedOk memory cell removed)
    (locked : ∀ onFallback, step = .copy onFallback →
      memory.Held other (.writer cell))
    (ok : WaitStepOk memory cell thread removed step) :
    WaitStepOk memory' cell thread removed step := by
  cases step with
  | start => trivial
  | checkFallback onFallback => trivial
  | lock onFallback => exact FallbackChecked.stable advance removedOk ok
  | copy onFallback =>
      exact ⟨ok.1.stable advance removedOk,
        ok.2.stable advance different (locked onFallback rfl)⟩
  | each onFallback retired =>
      refine ⟨ok.1.stable advance removedOk, ?_⟩
      intro record index address blocking
      exact ok.2 record index address (blocking.back advance inv removedOk)
  | scan onFallback address retired cursor index found =>
      obtain ⟨checked, cursorOk, covered⟩ := ok
      refine ⟨checked.stable advance removedOk,
        cursorOk.stable advance, ?_⟩
      intro record position blocked blocking
      rcases covered record position blocked
          (blocking.back advance inv removedOk) with
        later | ⟨same, seen | ahead⟩
      · exact Or.inl later
      · exact Or.inr ⟨same, Or.inl seen⟩
      · exact Or.inr ⟨same,
          Or.inr (Ahead.stable advance cursorOk ahead)⟩

theorem OutcomeOk.stable
    {thread : Tid} {outcome : Outcome} (inv : MemInv memory)
    (advance : Advance call gained lost memory memory')
    (ok : OutcomeOk memory cell thread outcome) :
    OutcomeOk memory' cell thread outcome := by
  cases outcome with
  | done => trivial
  | wrote effect => exact EffectOk.stable advance ok
  | waited onFallback removed =>
      obtain ⟨removedOk, checked, clear⟩ := ok
      refine ⟨removedOk.stable advance,
        checked.stable advance removedOk, ?_⟩
      intro record index address blocking
      exact clear record index address (blocking.back advance inv removedOk)
  | unchanged => trivial

/-- What a call knows survives the operations of the others. -/
theorem FrameOk.stable
    {frame : Frame} (inv : MemInv memory)
    (advance : Advance call gained lost memory memory')
    (different : other ≠ call)
    (apart : other.thread ≠ call.thread ∨ frame.isUser)
    (ok : FrameOk memory other frame) :
    FrameOk memory' other frame := by
  have held : ∀ holding,
      memory'.Held other holding ↔ holding ∈ frame.holding := by
    intro holding
    rw [advance.transfer.held_of_ne different]
    exact ok.held holding
  refine ⟨held, ?_⟩
  have owned := ok.held
  have facts := ok.facts
  cases frame with
  | pinning cell reader address step =>
      rcases apart with apart | isUser
      · exact PinStepOk.stable advance apart facts
      · cases isUser
  | validate cell reader address pin =>
      exact Announces.stable advance different facts
  | republish cell reader address pin =>
      obtain ⟨old, announces⟩ := facts
      exact ⟨old, announces.stable advance different⟩
  | reading cell address version pin body =>
      refine ⟨facts.1.stable advance different, ?_⟩
      exact facts.2.stable advance (claim_version_lt inv facts.1 rfl)
  | keeping cell address version pin =>
      exact Announces.stable advance different facts
  | counted cell address version pin =>
      exact Announces.stable advance different facts
  | collect cell collector step =>
      refine ⟨facts.1.stable advance, ?_⟩
      refine facts.2.stable advance different ?_
      exact (owned _).mpr (by simp [Frame.holding])
  | dropping cell collector freed =>
      exact ⟨facts.1.stable advance, facts.2⟩
  | compute cell write wait =>
      refine LenOk.stable advance different ?_ facts
      exact (owned _).mpr (by simp [Frame.holding])
  | installing cell wait effect new =>
      obtain ⟨inner, found, installOk⟩ := facts
      refine installOk.stable advance different ?_ inv found ?_ ?_
      · exact (owned _).mpr (by simp [Frame.holding])
      · intro handler same
        exact (held _).mpr (by simp [Frame.holding, same])
      · exact (held _).mpr (by simp [Frame.holding])
  | pushing cell wait effect raw =>
      obtain ⟨effectOk, version, known⟩ := facts
      refine ⟨effectOk.stable advance, version, ?_⟩
      refine tracked_unlinked_stable advance ?_ known
      exact (held _).mpr (by simp [Frame.holding])
  | unlockUnchanged cell =>
      refine LenOk.stable advance different ?_ facts
      exact (owned _).mpr (by simp [Frame.holding])
  | locked cell reader step =>
      have stepOk : LockedStepOk memory cell step := facts
      cases step with
      | lock => trivial
      | _ =>
          refine LockedStepOk.stable advance different ?_ stepOk
          exact (owned _).mpr (by simp [Frame.holding, LockedStep.holding])
  | fallbackReading cell address version body =>
      obtain ⟨refers, bodyOk⟩ := facts
      have shared : memory'.Held other (.shared address) :=
        (held _).mpr (by simp [Frame.holding])
      exact ⟨refers.stable advance shared,
        bodyOk.stable advance (refers.version_lt inv)⟩
  | lockedKeep cell address version =>
      have loaded : memory'.Held other (.loaded address) :=
        (held _).mpr (by simp [Frame.holding])
      exact Refers.stable advance loaded facts
  | waiting cell removed step =>
      refine ⟨facts.1.stable advance, ?_⟩
      refine facts.2.stable inv advance different facts.1 ?_
      rintro onFallback rfl
      exact (owned _).mpr (by simp [Frame.holding, WaitStep.holding])
  | returned cell outcome => exact OutcomeOk.stable inv advance facts
  | exiting record index =>
      rcases apart with apart | isUser
      · exact ⟨facts.1.stable advance apart,
          null_stable advance apart facts.1 facts.2⟩
      · cases isUser
  | _ => trivial

theorem StackOk.stable
    {thread : Tid} {stack : List Frame} (inv : MemInv memory)
    (advance : Advance call gained lost memory memory')
    (apart : thread ≠ call.thread ∨
      (stack.length ≤ call.depth ∧ ∀ frame ∈ stack, frame.isUser))
    (ok : StackOk memory thread stack) :
    StackOk memory' thread stack := by
  induction stack with
  | nil => trivial
  | cons frame rest inductionHypothesis =>
      refine ⟨ok.1.stable inv advance ?_ ?_,
        inductionHypothesis ?_ ok.2⟩
      · intro same
        rcases apart with apart | ⟨below, _⟩
        · exact apart (congrArg CallId.thread same)
        · have depth : rest.length = call.depth :=
            congrArg CallId.depth same
          simp only [List.length_cons] at below
          omega
      · rcases apart with apart | ⟨_, isUser⟩
        · exact Or.inl apart
        · exact Or.inr (isUser frame (List.Mem.head rest))
      · rcases apart with apart | ⟨below, isUser⟩
        · exact Or.inl apart
        · simp only [List.length_cons] at below
          exact Or.inr ⟨by omega,
            fun other member => isUser other (List.Mem.tail frame member)⟩

theorem ThreadInv.stable
    {thread : Tid} {locals : Thread} (inv : MemInv memory)
    (advance : Advance call gained lost memory memory')
    (apart : thread ≠ call.thread)
    (ok : ThreadInv memory thread locals) :
    ThreadInv memory' thread locals where
  stack := ok.stack.stable inv advance (Or.inl apart)
  vacant := by
    intro depth beyond holding
    rw [advance.transfer.held_of_ne]
    · exact ok.vacant depth beyond holding
    · intro same
      exact apart (congrArg CallId.thread same)
  suspended := ok.suspended
  record := by
    intro record same
    have own := ok.record record same
    exact own.stable advance apart

end RegistryIo.Snapshot
