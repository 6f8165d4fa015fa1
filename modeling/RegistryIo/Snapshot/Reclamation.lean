import RegistryIo.Snapshot.HazardSafety

/-!
# Who frees the retired values

A read or load that has announced a value looks at the retired list when it
is done.  While retired values are left behind, such a call is still on its
way, as long as nobody gives up too early: a reader that finds `retired_len`
zero after the scan of the writer has met a retired value and before the
writer has stored the length leaves the list to a later reader or writer, and
so does one that finds the lock with a holder who will not scan again.
-/

namespace RegistryIo.Snapshot

open RegistryIo.Interleaving

section Conditions

variable (cell : CellId) (memory : Memory)

/-- The closure of a read of the cell unwinds. -/
def Frame.unwindsOn : Frame → Act → Bool
  | .reading target _ _ _ _, .unwind => decide (target = cell)
  | _, _ => false

/-- A scan for the cell meets a retired address in the slot of a call that
does not borrow the cell.  Such a call announces a value of another cell that
lived at the address before, and has not validated its announcement yet. -/
def Frame.meetsForeign : Frame → Bool
  | .collect target _ (.scan (some record) index _) =>
      decide (target = cell) &&
        (memory.domain.slot record index).any fun announcement =>
          decide (announcement.address ∈
            (memory.store.cells cell).retired) &&
          decide (announcement.call ∉ (memory.store.cells cell).active)
  | _ => false

/-- No step of a run unwinds out of a read of the cell. -/
def closureReturns (state : State) (thread : Tid) (act : Act) : Bool :=
  !(state.threads thread).stack.head?.any fun frame =>
    frame.unwindsOn cell act

/-- The call will look at the retired list of the cell. -/
def Frame.releases : Frame → Bool
  | .validate target _ _ _ => decide (target = cell)
  | .republish target _ _ _ => decide (target = cell)
  | .reading target _ _ _ _ => decide (target = cell)
  | .keeping target _ _ _ => decide (target = cell)
  | .counted target _ _ _ => decide (target = cell)
  | .checkRetired target _ => decide (target = cell)
  | .tryLock target _ => decide (target = cell)
  | _ => false

end Conditions

def Responsible (state : State) (cell : CellId) : Prop :=
  ∃ call frame, frameOf state call = some frame ∧
    frame.releases cell = true

/-- The holder of the writer lock of the cell is going to keep some of the
retired values: its scan has met one of them in a slot, or it will not scan
because it has nothing to change or only reads. -/
def Frame.leaves (store : Store) (cell : CellId) : Frame → Bool
  | .compute _ write _ =>
      (write.apply (store.deref (store.cells cell).current)).isNone
  | .installing .. => false
  | .pushing .. => false
  | .collect _ _ .start => false
  | .collect _ _ (.scan _ _ announced) =>
      (store.cells cell).retired.any fun address =>
        decide (address ∈ announced)
  | _ => true

/-- There are retired values, and nobody is about to collect them all. -/
structure LeftBehind (state : State) (cell : CellId) : Prop where
  retired : (state.memory.store.cells cell).retired ≠ []
  holder : ∀ call frame,
    (state.memory.store.cells cell).writer = some call →
      frameOf state call = some frame →
        frame.leaves state.memory.store cell = true

section Prompt

variable (cell : CellId) (state : State)

/-- Another call holds the writer lock and is going to keep retired values. -/
def holderLeaves : Bool :=
  !(state.memory.store.cells cell).retired.isEmpty &&
    (state.memory.store.cells cell).writer.any fun call =>
      (frameOf state call).any fun frame =>
        frame.leaves state.memory.store cell

/-- A read or load of the cell skips the reclamation although the holder of
the writer lock is going to keep retired values.  By the time the length is
stored it is not zero, so that `retired_len` is read before that. -/
def Frame.givesUp : Frame → Bool
  | .checkRetired target _ =>
      decide (target = cell) &&
        decide ((state.memory.store.cells cell).retiredLen = 0) &&
        holderLeaves cell state
  | .tryLock target _ => decide (target = cell) && holderLeaves cell state
  | _ => false

/-- No step of a run leaves retired values of the cell to somebody else. -/
def promptStep (thread : Tid) (act : Act) : Bool :=
  closureReturns cell state thread act &&
    !(state.threads thread).stack.head?.any fun frame =>
      frame.givesUp cell state || frame.meetsForeign cell state.memory

end Prompt

section Frames

variable {cell : CellId} {memory memory' : Memory} {call : CallId}
variable {tls tls' : Tls} {frame : Frame} {act : Act} {next : Option Frame}

/-- A call on the cell that protects something will release it. -/
private theorem releases_of_holding
    {pin : Pin} (active : .active cell ∈ frame.holding)
    (pinned : .pin pin ∈ frame.holding) : frame.releases cell = true := by
  cases frame with
  | validate target reader address held =>
      simpa [Frame.holding, Frame.releases, eq_comm] using active
  | republish target reader address held =>
      simpa [Frame.holding, Frame.releases, eq_comm] using active
  | reading target address version held body =>
      simpa [Frame.holding, Frame.releases, eq_comm] using active
  | keeping target address version held =>
      simpa [Frame.holding, Frame.releases, eq_comm] using active
  | counted target address version held =>
      simpa [Frame.holding, Frame.releases, eq_comm] using active
  | checkRetired target result => simp [Frame.holding] at pinned
  | tryLock target result => simp [Frame.holding] at pinned
  | collect target collector step =>
      cases collector <;> cases step <;>
        simp [Frame.holding, Collector.active, Collector.holding,
          CollectStep.holding] at pinned
  | dropping target collector freed =>
      cases collector <;>
        simp [Frame.holding, Collector.active, Collector.holding] at pinned
  | lockWriter target write wait =>
      cases write <;> simp [Frame.holding, Write.holding] at pinned
  | compute target write wait =>
      cases write <;> simp [Frame.holding, Write.holding] at pinned
  | locked target reader step =>
      cases reader <;> cases step <;>
        simp [Frame.holding, Reader.holding, Reader.reference,
          LockedStep.holding] at pinned
  | waiting target removed step =>
      cases step <;> simp [Frame.holding, WaitStep.holding] at pinned
  | _ => simp [Frame.holding] at pinned

/-- The call finds no reason to collect, or somebody else at it. -/
def Frame.turnsAway (cell : CellId) (memory : Memory) : Frame → Bool
  | .checkRetired target _ =>
      decide (target = cell) &&
        decide ((memory.store.cells cell).retiredLen = 0)
  | .tryLock target _ =>
      decide (target = cell) && (memory.store.cells cell).writer.isSome
  | _ => false

/-- A call that is responsible stays so until it turns away or has the lock
itself. -/
private theorem releases_step
    (before : frame.releases cell = true)
    (returns : frame.unwindsOn cell act = false)
    (stepped : frameStep memory call tls frame act =
      some (memory', tls', next)) :
    (∃ after, next = some after ∧ after.releases cell = true) ∨
      (memory' = memory ∧ frame.turnsAway cell memory = true) ∨
      ∃ result, next = some (.collect cell (.reclaim result) .start) := by
  cases frameStep_rule stepped with
  | validRead | validLoad | invalid | republish | readFinish | readBody
  | keep | reject | counted | someRetired => exact Or.inl ⟨_, rfl, before⟩
  | readUnwind =>
      exact absurd (of_decide_eq_true before)
        (by simpa [Frame.unwindsOn] using returns)
  | @nothingRetired target _ nothing =>
      have same : target = cell := of_decide_eq_true before
      subst same
      refine Or.inr (Or.inl ⟨rfl, ?_⟩)
      simp [Frame.turnsAway, nothing]
  | @tryLockTaken target result =>
      have same : target = cell := of_decide_eq_true before
      subst same
      exact Or.inr (Or.inr ⟨result, rfl⟩)
  | @tryLockBusy target _ busy =>
      have same : target = cell := of_decide_eq_true before
      subst same
      refine Or.inr (Or.inl ⟨rfl, ?_⟩)
      simpa [Frame.turnsAway, Option.isSome_iff_ne_none] using busy
  | _ => cases before

/-- The cell whose writer lock the call holds. -/
def Frame.writes : Frame → Option CellId
  | .collect cell _ _ => some cell
  | .compute cell _ _ => some cell
  | .installing cell _ _ _ => some cell
  | .pushing cell _ _ _ => some cell
  | .unlockUnchanged cell => some cell
  | .locked _ _ .lock => none
  | .locked cell _ _ => some cell
  | .waiting cell _ (.copy _) => some cell
  | _ => none

theorem writer_mem_iff :
    .writer cell ∈ frame.holding ↔ frame.writes = some cell := by
  cases frame with
  | collect target collector step =>
      cases collector <;> cases step <;>
        simp [Frame.holding, Frame.writes, Collector.active,
          Collector.holding, CollectStep.holding, eq_comm]
  | dropping target collector freed =>
      cases collector <;>
        simp [Frame.holding, Frame.writes, Collector.active,
          Collector.holding]
  | lockWriter target write wait =>
      cases write <;> simp [Frame.holding, Frame.writes, Write.holding]
  | compute target write wait =>
      cases write <;>
        simp [Frame.holding, Frame.writes, Write.holding, eq_comm]
  | locked target reader step =>
      cases reader <;> cases step <;>
        simp [Frame.holding, Frame.writes, Reader.holding,
          Reader.reference, LockedStep.holding, eq_comm]
  | waiting target removed step =>
      cases step <;>
        simp [Frame.holding, Frame.writes, WaitStep.holding, eq_comm]
  | _ => simp [Frame.holding, Frame.writes, eq_comm]

/-- The scan of the holder of the lock stands on a slot that announces a
retired value. -/
def MeetsRetired (memory : Memory) (cell : CellId) (frame : Frame) : Prop :=
  ∃ collector record index announced announcement,
    frame = .collect cell collector (.scan (some record) index announced) ∧
      memory.domain.slot record index = some announcement ∧
      announcement.address ∈ (memory.store.cells cell).retired

theorem Store.cells_addOwner (store : Store) (address : Addr)
    (owner : Owner) : (store.addOwner address owner).cells = store.cells := by
  unfold Store.addOwner
  split
  · rfl
  · rfl

private theorem leaves_scan
    {store : Store} {collector : Collector} {record : Option RecordId}
    {index : Nat} {announced : List Addr} :
    (Frame.collect cell collector (.scan record index announced)).leaves
        store cell = true ↔
      ∃ address ∈ (store.cells cell).retired, address ∈ announced := by
  simp [Frame.leaves]

private theorem leaves_congr
    {store store' : Store}
    (retired : (store'.cells cell).retired = (store.cells cell).retired)
    (current : store'.deref (store'.cells cell).current =
      store.deref (store.cells cell).current) :
    frame.leaves store' cell = frame.leaves store cell := by
  cases frame with
  | compute => simp only [Frame.leaves, current]
  | collect target collector step =>
      cases step with
      | scan => simp only [Frame.leaves, retired]
      | _ => rfl
  | _ => rfl

/-- The list does not change under the lock of another call. -/
private theorem deref_current_locked
    {actor : CallId} {gained lost : List Holding} (inv : MemInv memory)
    (advance : Advance actor gained lost memory memory')
    (different : call ≠ actor)
    (locked : (memory.store.cells cell).writer = some call) :
    memory'.store.deref (memory'.store.cells cell).current =
      memory.store.deref (memory.store.cells cell).current := by
  have aliveOf : ∀ {memory : Memory}, MemInv memory →
      (memory.store.cells cell).writer = some call →
        (memory.store.cells cell).phase = .alive := by
    intro memory inv locked
    exact (inv.store.cells cell).active_alive call
      ((inv.store.cells cell).writer_active call locked)
  have alive := aliveOf inv locked
  have alive' := aliveOf advance.inv
    ((advance.transfer.held_of_ne different (.writer cell)).mpr locked)
  have kept := (advance.store.cells cell).locked call different locked
  obtain ⟨inner, found, _, _, version⟩ := inv.store.current_inner alive
  rw [deref_current inv alive, deref_current advance.inv alive',
    kept.version]
  refine advance.store.values _ ?_
  rw [← version]
  exact (inv.store.arcs _ inner found).version_lt

/-- What the holder of the lock leaves behind after a step it left behind
before, or its scan has just met an announcement. -/
private theorem leaves_step
    (locked : .writer cell ∈ frame.holding)
    (stepped : frameStep memory call tls frame act =
      some (memory', tls', next))
    (retired : (memory'.store.cells cell).retired ≠ [])
    (keeps : ∀ after, next = some after → .writer cell ∈ after.holding →
      after.leaves memory'.store cell = true) :
    ((memory.store.cells cell).retired ≠ [] ∧
        frame.leaves memory.store cell = true) ∨
      MeetsRetired memory cell frame := by
  have kept : ∀ after, next = some after → after.writes = some cell →
      after.leaves memory'.store cell = true :=
    fun after isNext writes => keeps after isNext (writer_mem_iff.mpr writes)
  rw [writer_mem_iff] at locked
  cases frameStep_rule stepped with
  | collectNothing empty =>
      cases locked
      exact absurd empty retired
  | collectStart =>
      cases locked
      obtain ⟨address, _, announced⟩ := leaves_scan.mp (kept _ rfl rfl)
      cases announced
  | @collectSlot _ collector record index announced =>
      cases locked
      obtain ⟨address, old, member⟩ := leaves_scan.mp (kept _ rfl rfl)
      rcases List.mem_append.mp member with seen | added
      · exact Or.inl ⟨retired, leaves_scan.mpr ⟨address, old, seen⟩⟩
      · obtain ⟨announcement, used, same⟩ :=
          Option.map_eq_some_iff.mp (Option.mem_toList.mp added)
        subst same
        exact Or.inr ⟨collector, record, index, announced, announcement,
          rfl, used, old⟩
  | collectRecord =>
      have left := kept _ rfl locked
      exact Or.inl ⟨retired, left⟩
  | @collectEnd _ _ _ announced =>
      cases locked
      obtain ⟨address, member⟩ := List.exists_mem_of_ne_nil _ retired
      have remains : address ∈ (Store.collectUnprotected announced
          (memory.store.cells cell).retired).1 := by
        simpa [Memory.withStore, Store.collect, Store.setCell] using member
      obtain ⟨old, isAnnounced⟩ :=
        Store.mem_collectUnprotected_kept.mp remains
      exact Or.inl ⟨List.ne_nil_of_mem old,
        leaves_scan.mpr ⟨address, old, isAnnounced⟩⟩
  | collectLen =>
      cases locked
      refine Or.inl ⟨?_, rfl⟩
      simpa [Memory.withStore, Store.storeRetiredLen, Store.setCell]
        using retired
  | collectUnlock | unlockUnchanged | lockedRead | lockedKeep | waitCopy =>
      cases locked
      refine Or.inl ⟨?_, rfl⟩
      simpa [Memory.withStore, Store.unlock, Store.setCell] using retired
  | computeSome | install | retire => cases kept _ rfl locked
  | computeNone unchanged =>
      cases locked
      exact Or.inl ⟨retired, by simp [Frame.leaves, unchanged]⟩
  | lockedLoad => exact Or.inl ⟨retired, rfl⟩
  | lockedCountRead | lockedCountLoad =>
      refine Or.inl ⟨?_, rfl⟩
      simpa [Memory.withStore, Store.cells_addOwner] using retired
  | _ => cases locked

end Frames

section Run

variable {cell : CellId} {state next : State} {thread : Tid} {act : Act}

/-- A call that does not hold the lock leaves behind what was left behind. -/
private theorem LeftBehind.of_unlocked
    {actor : CallId} {gained lost : List Holding}
    (inv : MemInv state.memory)
    (advance : Advance actor gained lost state.memory next.memory)
    (others : ∀ call, call ≠ actor →
      frameOf next call = frameOf state call)
    (unlocked : (state.memory.store.cells cell).writer ≠ some actor)
    (left : LeftBehind next cell) : LeftBehind state cell := by
  have kept := advance.store.cells cell
  have same : (next.memory.store.cells cell).retired =
      (state.memory.store.cells cell).retired := by
    rcases kept.retired unlocked with same | empty
    · exact same
    · exact absurd empty left.retired
  constructor
  · rw [← same]
    exact left.retired
  · intro call frame locked found
    have different : call ≠ actor := by
      rintro rfl
      exact unlocked locked
    have still : (next.memory.store.cells cell).writer = some call :=
      (advance.transfer.held_of_ne different (.writer cell)).mpr locked
    rw [← leaves_congr same
      (deref_current_locked inv advance different locked)]
    exact left.holder call frame still ((others call different).trans found)

/-- What is left behind after a step was left behind before, or a scan has
met an announcement of it. -/
private theorem leftBehind_step
    (holds : Invariant state)
    (stepped : program.step state thread act = some next)
    (left : LeftBehind next cell) :
    LeftBehind state cell ∨
      ∃ frame, (state.threads thread).stack.head? = some frame ∧
        MeetsRetired state.memory cell frame := by
  obtain ⟨actor, isThread, step, others⟩ := actorStep stepped
  obtain ⟨gained, lost, advance⟩ := step.advance holds isThread
  by_cases locked :
      (state.memory.store.cells cell).writer = some actor
  · cases step with
    | user level userPoint performed after =>
        have held : state.memory.Held actor (.writer cell) := locked
        obtain ⟨frame, found, _⟩ := holds.frame_of_held held
        rw [frameOf_vacant isThread level] at found
        cases found
    | top frame rest tls shape level moved =>
        have found := frameOf_top isThread shape level
        have isHolder : .writer cell ∈ frame.holding :=
          ((holds.frameOk found).held (.writer cell)).mp locked
        have holdsNext := invariant_step stepped holds
        have keeps : ∀ after, frameOf next actor = some after →
            .writer cell ∈ after.holding →
              after.leaves next.memory.store cell = true := by
          intro after foundNext holding
          have lockedNext :=
            ((holdsNext.frameOk foundNext).held (.writer cell)).mpr holding
          exact left.holder actor after lockedNext foundNext
        rcases leaves_step isHolder moved left.retired keeps with
          ⟨retired, leaves⟩ | meets
        · refine Or.inl ⟨retired, ?_⟩
          intro call other lockedBy foundOther
          rw [locked] at lockedBy
          cases lockedBy
          rw [found] at foundOther
          cases foundOther
          exact leaves
        · refine Or.inr ⟨frame, ?_, meets⟩
          rw [shape]
          rfl
  · exact Or.inl (left.of_unlocked holds.1 advance others locked)

/-- The announcement of a retired value by a call on the cell is made by a
responsible call. -/
private theorem responsible_of_meets
    {frame : Frame} (holds : Invariant state)
    (own : frame.meetsForeign cell state.memory = false)
    (meets : MeetsRetired state.memory cell frame) :
    Responsible state cell := by
  obtain ⟨collector, record, index, announced, announcement, rfl, used,
    member⟩ := meets
  have active : announcement.call ∈
      (state.memory.store.cells cell).active := by
    simpa [Frame.meetsForeign, used, member] using own
  have pinned : state.memory.Held announcement.call
      (.pin ⟨record, index⟩) := by
    simp [Memory.Held, used]
  obtain ⟨reader, found, holdsPin⟩ := holds.frame_of_held pinned
  have holdsActive :=
    ((holds.frameOk found).held (.active cell)).mp active
  exact ⟨announcement.call, reader, found,
    releases_of_holding holdsActive holdsPin⟩

/-- A call that turns away while retired values are left behind gives up: if
the lock were free, the length would be right. -/
private theorem givesUp_of_turnsAway
    {call : CallId} {frame : Frame} (holds : Invariant state)
    (found : frameOf state call = some frame)
    (others : ∀ other, other ≠ call →
      frameOf next other = frameOf state other)
    (same : next.memory = state.memory) (left : LeftBehind next cell)
    (away : frame.turnsAway cell state.memory = true) :
    frame.givesUp cell state = true := by
  have retired := left.retired
  have keeps := left.holder
  rw [same] at retired keeps
  have leaves : (state.memory.store.cells cell).writer.isSome = true →
      .writer cell ∉ frame.holding → holderLeaves cell state = true := by
    intro locked unlocked
    obtain ⟨holder, isHolder⟩ := Option.isSome_iff_exists.mp locked
    have held : state.memory.Held holder (.writer cell) := isHolder
    obtain ⟨own, foundOwn, _⟩ := holds.frame_of_held held
    have different : holder ≠ call := by
      rintro rfl
      exact unlocked (((holds.frameOk found).held (.writer cell)).mp held)
    have keepsOwn := keeps holder own isHolder
      ((others holder different).trans foundOwn)
    simp [holderLeaves, retired, isHolder, foundOwn, keepsOwn]
  cases frame with
  | checkRetired target result =>
      obtain ⟨isTarget, empty⟩ := Bool.and_eq_true_iff.mp away
      have zero := of_decide_eq_true empty
      have locked : (state.memory.store.cells cell).writer.isSome = true := by
        by_contra free
        have length := (holds.1.store.cells cell).retired_len
          (by simpa using free)
        rw [zero] at length
        exact retired (List.length_eq_zero_iff.mp length.symm)
      simp [Frame.givesUp, isTarget, zero,
        leaves locked (by simp [Frame.holding])]
  | tryLock target result =>
      obtain ⟨isTarget, locked⟩ := Bool.and_eq_true_iff.mp away
      simp [Frame.givesUp, isTarget,
        leaves locked (by simp [Frame.holding])]
  | _ => cases away

/-- Responsibility is kept until nothing is left behind. -/
private theorem responsible_step
    (holds : Invariant state)
    (prompt : promptStep cell state thread act = true)
    (stepped : program.step state thread act = some next)
    (left : LeftBehind next cell) (responsible : Responsible state cell) :
    Responsible next cell := by
  obtain ⟨call, frame, found, releases⟩ := responsible
  obtain ⟨actor, isThread, step, others⟩ := actorStep stepped
  by_cases different : call ≠ actor
  · exact ⟨call, frame, (others call different).trans found, releases⟩
  have same : call = actor := not_not.mp different
  subst same
  cases step with
  | user level userPoint performed after =>
      rw [frameOf_vacant isThread level] at found
      cases found
  | top frame' rest tls shape level moved =>
      rw [frameOf_top isThread shape level] at found
      cases found
      simp only [promptStep, closureReturns, shape, List.head?_cons,
        Option.any_some, Bool.and_eq_true, Bool.not_eq_true',
        Bool.or_eq_false_iff] at prompt
      obtain ⟨returns, insists, _⟩ := prompt
      rcases releases_step releases returns moved with
        ⟨after, foundNext, still⟩ | ⟨same, away⟩ | ⟨result, foundNext⟩
      · exact ⟨call, after, foundNext, still⟩
      · have gaveUp := givesUp_of_turnsAway holds
          (frameOf_top isThread shape level) others same left away
        rw [insists] at gaveUp
        cases gaveUp
      · have holdsNext := invariant_step stepped holds
        have lockedNext :=
          ((holdsNext.frameOk foundNext).held (.writer cell)).mpr
            List.mem_cons_self
        cases left.holder call _ lockedNext foundNext

/-- While retired values are left behind, a call is responsible for them. -/
def Handled (cell : CellId) (state : State) : Prop :=
  LeftBehind state cell → Responsible state cell

private theorem handled_step
    (holds : Invariant state)
    (prompt : promptStep cell state thread act = true)
    (stepped : program.step state thread act = some next)
    (handled : Handled cell state) : Handled cell next := by
  intro left
  apply responsible_step holds prompt stepped left
  rcases leftBehind_step holds stepped left with
    before | ⟨frame, isTop, meets⟩
  · exact handled before
  · refine responsible_of_meets holds ?_ meets
    simp only [promptStep, isTop, Option.any_some, Bool.and_eq_true,
      Bool.not_eq_true', Bool.or_eq_false_iff] at prompt
    exact prompt.2.2

private theorem handled_run
    {schedule : List (Tid × Act)}
    (run : program.execWhere (promptStep cell) initial schedule =
      some state) : Handled cell state := by
  have initially : Handled cell initial :=
    fun left => absurd rfl left.retired
  have extended : ∀ done middle thread act next,
      program.exec initial done = some middle →
        promptStep cell middle thread act = true →
          program.step middle thread act = some next →
            Handled cell middle → Handled cell next := by
    intro done middle thread act next reached prompt stepped
    exact handled_step (invariant_reachable ⟨done, reached⟩) prompt stepped
  exact execWhere_induction (P := fun _ => Handled cell) extended run
    initially

private theorem releases_active
    {frame : Frame} (releases : frame.releases cell = true) :
    .active cell ∈ frame.holding := by
  cases frame with
  | validate target reader address pin =>
      rw [of_decide_eq_true releases]
      exact List.mem_cons_self
  | republish target reader address pin =>
      rw [of_decide_eq_true releases]
      exact List.mem_cons_self
  | reading target address version pin body =>
      rw [of_decide_eq_true releases]
      exact List.mem_cons_self
  | keeping target address version pin =>
      rw [of_decide_eq_true releases]
      exact List.mem_cons_self
  | counted target address version pin =>
      rw [of_decide_eq_true releases]
      exact List.mem_cons_self
  | checkRetired target result =>
      rw [of_decide_eq_true releases]
      exact List.mem_cons_self
  | tryLock target result =>
      rw [of_decide_eq_true releases]
      exact List.mem_cons_self
  | _ => cases releases

/-- In a run in which no reader gives up, nothing is retired once no call on
the cell is in progress. -/
theorem prompt_reclamation
    {schedule : List (Tid × Act)}
    (run : program.execWhere (promptStep cell) initial schedule = some state)
    (idle : (state.memory.store.cells cell).active = []) :
    (state.memory.store.cells cell).retired = [] := by
  have holds : Invariant state :=
    invariant_reachable ⟨schedule, exec_of_execWhere run⟩
  by_contra retired
  have left : LeftBehind state cell := by
    refine ⟨retired, ?_⟩
    intro call frame locked _
    have active := (holds.1.store.cells cell).writer_active call locked
    rw [idle] at active
    cases active
  obtain ⟨call, frame, found, releases⟩ := handled_run run left
  have active : call ∈ (state.memory.store.cells cell).active :=
    ((holds.frameOk found).held (.active cell)).mpr
      (releases_active releases)
  rw [idle] at active
  cases active

end Run

/-- A registry with one handler, a read of thread `0` that is inside its
closure, and a registration of thread `1` that retires the list. -/
def retiresUnderRead (count : Nat) : List (Tid × Act) :=
  (0, .newCell 0 100) :: registration 0 0 1 101 9 ++
    (0, .call 0 (.read false)) :: nexts 0 8 ++ registration 1 0 0 102 count

/-- The writer is done before the reader leaves, which then frees the list. -/
theorem prompt_reclamation_last_reader :
    ∃ state,
      program.execWhere (promptStep 0) initial
          (retiresUnderRead 17 ++ (0, .finish) :: nexts 0 18) =
        some state ∧
      (state.memory.store.cells 0).version = 2 ∧
      (state.memory.store.cells 0).retired = [] := by
  have evaluated :
      (program.execWhere (promptStep 0) initial
          (retiresUnderRead 17 ++ (0, .finish) :: nexts 0 18)).map
          (fun state => ((state.memory.store.cells 0).version,
            (state.memory.store.cells 0).active)) =
        some (2, []) := by
    decide +kernel
  obtain ⟨state, run, view⟩ := Option.map_eq_some_iff.mp evaluated
  obtain ⟨version, idle⟩ := Prod.mk.inj view
  exact ⟨state, run, version, prompt_reclamation run idle⟩

/-- The writer has scanned the slots, the reader leaves and sees no retired
value, and the writer stores the length of the list after that. -/
def leavesDuringScan : List (Tid × Act) :=
  retiresUnderRead 13 ++ (0, .finish) :: nexts 0 2 ++ nexts 1 4

theorem reader_misses_retired :
    ¬ ∀ schedule cell state,
      program.execWhere (closureReturns cell) initial schedule =
          some state →
        (state.memory.store.cells cell).active = [] →
          (state.memory.store.cells cell).writer = none →
            (∀ record index announcement,
              state.memory.domain.slot record index = some announcement →
                announcement.address ∉
                  (state.memory.store.cells cell).current ::
                    (state.memory.store.cells cell).retired) →
              (state.memory.store.cells cell).retired = [] := by
  intro claimed
  have evaluated :
      (program.execWhere (closureReturns 0) initial leavesDuringScan).map
          (fun state => ((state.memory.store.cells 0).active,
            (state.memory.store.cells 0).writer,
            (state.memory.store.cells 0).retired,
            state.memory.domain.published,
            (List.range SLOTS).all fun index =>
              (state.memory.domain.slot 0 index).isNone)) =
        some ([], none, [101], [0], true) := by
    decide +kernel
  obtain ⟨state, run, view⟩ := Option.map_eq_some_iff.mp evaluated
  simp only [Prod.mk.injEq] at view
  obtain ⟨idle, free, retired, published, null⟩ := view
  have holds : Invariant state :=
    invariant_reachable ⟨leavesDuringScan, exec_of_execWhere run⟩
  have empty := claimed leavesDuringScan 0 state run idle free ?_
  · rw [retired] at empty
    cases empty
  · intro record index announcement used
    obtain ⟨_, member, bound⟩ :=
      holds.1.domain.announced record index announcement used
    rw [published, List.mem_singleton] at member
    have isNull := List.all_eq_true.mp null index (List.mem_range.mpr bound)
    rw [← member, used] at isNull
    cases isNull

end RegistryIo.Snapshot
