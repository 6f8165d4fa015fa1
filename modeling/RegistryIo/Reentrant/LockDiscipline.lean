import RegistryIo.Reentrant.Containment

/-!
# Code from outside and locks

Code from outside runs under no lock of a registry, with one exception:
`on_panic` and `clear_panic_callback` assign through the write guard of
`panic_callback`, so the callback they replace is dropped while the guard is
alive.  A run is free of this exactly when no such drop is the last one.
-/

namespace RegistryIo.Reentrant

open RegistryIo.Interleaving RegistryIo.Snapshot

variable {E P : Type}

/-- The thread holds the writer lock of a cell. -/
def HoldsWriter (state : State E P) (thread : Tid) (cell : CellId) : Prop :=
  ∃ call, (state.memory.cells.store.cells cell).writer = some call ∧
    call.thread = thread

/-- The thread holds a lock of some registry. -/
def HoldsLock (state : State E P) (thread : Tid) : Prop :=
  (∃ cell, HoldsWriter state thread cell) ∨
    ∃ lock, 0 < heldBy state.memory.shared thread lock

/-- The operations of the cell that wait for its writer lock.  The `try_lock`
of a reader does not wait. -/
def waitsForWriter : Frame → Option CellId
  | .lockWriter cell _ _ => some cell
  | .locked cell _ .lock => some cell
  | .waiting cell _ (.lock _) => some cell
  | _ => none

namespace Item

/-- The guards that an item cannot wait for when its own thread has them.  A
second read guard counts: `RwLock::read` may block or panic then. -/
def wants : Item E P → List Lock
  | .call activation =>
      match activation.work with
      | .lockSlot => ((invoked activation.frame).map fun (cell, entry) =>
          (cell, Guard.slot entry.handler)).toList
      | .report _ .lock =>
          [(activation.frame.cellOf, .read),
            (activation.frame.cellOf, .write)]
      | _ => []
  | .setCallback cell _ .lock => [(cell, .read), (cell, .write)]
  | .poll _ cell (.report _ _ .lock) => [(cell, .read), (cell, .write)]
  | _ => []

def wantsWriter : Item E P → Option CellId
  | .call activation =>
      match activation.work with
      | .plain => waitsForWriter activation.frame
      | _ => none
  | _ => none

end Item

/-- The thread waits for a lock that it holds itself. -/
def WaitsForItself (state : State E P) (thread : Tid) : Prop :=
  ∃ item rest, (state.threads thread).stack = item :: rest ∧
    ((∃ lock ∈ item.wants, 0 < heldBy state.memory.shared thread lock) ∨
      ∃ cell ∈ item.wantsWriter, HoldsWriter state thread cell)

/-- The states of a run. -/
def Visits (schedule : List (Tid × Act E P)) (state : State E P) : Prop :=
  ∃ done rest, schedule = done ++ rest ∧
    (program E P).exec (initial E P) done = some state

/-- Whenever a callback is replaced, none is installed or another reference to
it is left. -/
def KeepsCallbacks (schedule : List (Tid × Act E P)) : Prop :=
  ∀ done thread act rest state,
    schedule = done ++ (thread, act) :: rest →
      (program E P).exec (initial E P) done = some state →
        dropsLast state.memory.shared (state.threads thread).stack act =
          false

section Guards

variable {item : Item E P} {lock : Lock}

private theorem ReportStep.guard_of_isUser
    {step : ReportStep P} (isUser : step.isUser = true) :
    step.guard = none := by
  cases step with
  | clone | unlock => cases isUser
  | _ => rfl

private theorem guard_of_suspended
    (suspended : item.isSuspended = true) (has : item.guard = some lock) :
    item.isDestroy = true := by
  cases item with
  | call activation =>
      obtain ⟨frame, event, once, work, unwinding⟩ := activation
      cases work with
      | report info step =>
          simp [Item.guard, Work.guard,
            ReportStep.guard_of_isUser suspended] at has
      | take => cases suspended
      | _ => cases has
  | setCallback cell new step =>
      cases step with
      | destroy => rfl
      | _ => cases suspended
  | poll task cell step =>
      cases step with
      | report list info step =>
          simp [Item.guard, PollStep.guard,
            ReportStep.guard_of_isUser suspended] at has
      | _ => cases has

private theorem guard_of_wants
    (wanted : lock ∈ item.wants) : item.guard = none := by
  cases item with
  | call activation =>
      obtain ⟨frame, event, once, work, unwinding⟩ := activation
      cases work with
      | report info step =>
          cases step with
          | lock => rfl
          | _ => cases wanted
      | lockSlot => rfl
      | _ => cases wanted
  | setCallback cell new step =>
      cases step with
      | lock => rfl
      | _ => cases wanted
  | poll task cell step =>
      cases step with
      | report list info step =>
          cases step with
          | lock => rfl
          | _ => cases wanted
      | _ => cases wanted

private theorem writer_notMem_of_isUser
    {frame : Frame} (isUser : frame.isUser = true) (cell : CellId) :
    .writer cell ∉ frame.holding := by
  cases frame with
  | dropping target collector freed =>
      cases collector with
      | reclaim result | discard result =>
          cases result <;>
            simp [Frame.holding, Collector.active, Collector.holding]
      | _ => simp [Frame.holding, Collector.active, Collector.holding]
  | reading | fallbackReading | leaveFallback => simp [Frame.holding]
  | _ => cases isUser

private theorem writer_notMem_of_waits
    {frame : Frame} {cell : CellId} (waits : waitsForWriter frame = some cell)
    (target : CellId) : .writer target ∉ frame.holding := by
  cases frame with
  | lockWriter other write wait =>
      cases write <;> simp [Frame.holding, Write.holding]
  | locked other reader step =>
      cases step with
      | lock =>
          cases reader <;>
            simp [Frame.holding, Reader.holding, LockedStep.holding]
      | _ => cases waits
  | waiting other removed step =>
      cases step with
      | lock => simp [Frame.holding, WaitStep.holding]
      | _ => cases waits
  | _ => cases waits

end Guards

section States

variable {state : State E P} {thread : Tid} {cell : CellId}

private theorem heldBy_eq_zero
    (ok : StateOk state) (thread : Tid) (lock : Lock)
    (unnamed : ∀ item ∈ (state.threads thread).stack, item.guard ≠ some lock) :
    heldBy state.memory.shared thread lock = 0 := by
  rw [ok.held thread lock]
  unfold guardCount
  rw [List.countP_eq_zero]
  simpa using unnamed

/-- The writer lock is held by a call whose frame says so. -/
private theorem not_holdsWriter
    (reachable : (program E P).Reachable (initial E P) state)
    (free : ∀ activation ∈ activations (state.threads thread).stack,
      .writer cell ∉ activation.frame.holding) :
    ¬ HoldsWriter state thread cell := by
  rintro ⟨call, isWriter, rfl⟩
  have holds := invariant_reachable (project_reachable reachable)
  have held : (project state).memory.Held call (.writer cell) := isWriter
  obtain ⟨frame, found, member⟩ := holds.frame_of_held held
  have inside : frame ∈ frames (state.threads call.thread).stack :=
    mem_of_frameAt found
  rw [frames_eq] at inside
  obtain ⟨activation, isCall, rfl⟩ := List.mem_map.mp inside
  exact free activation isCall member

/-- Below the top nothing holds a lock, unless a callback is destroyed. -/
structure NothingBelow (rest : List (Item E P)) : Prop where
  guards : ∀ item ∈ rest, item.guard = none
  writers : ∀ activation ∈ activations rest, ∀ cell,
    .writer cell ∉ activation.frame.holding

private theorem nothingBelow
    {rest : List (Item E P)}
    (works : ∀ activation ∈ activations rest, activation.WorkOk)
    (suspended : ∀ item ∈ rest, item.isSuspended = true)
    (quiet : ∀ item ∈ rest, item.isDestroy = false) :
    NothingBelow rest := by
  constructor
  · intro item member
    cases has : item.guard with
    | none => rfl
    | some lock =>
        have isDestroy := guard_of_suspended (suspended item member) has
        rw [quiet item member] at isDestroy
        cases isDestroy
  · intro activation member cell
    obtain ⟨item, isItem, isCall⟩ := List.mem_filterMap.mp member
    cases item with
    | call other =>
        cases isCall
        exact writer_notMem_of_isUser
          ((works activation member).isUser (suspended _ isItem)) cell
    | _ => cases isCall

/-- At a user point a thread holds nothing. -/
private theorem not_holdsLock_of_quiet
    (reachable : (program E P).Reachable (initial E P) state)
    (quiet : ∀ item ∈ (state.threads thread).stack, item.isDestroy = false)
    (userPoint : (state.threads thread).atUserPoint = true) :
    ¬ HoldsLock state thread := by
  have ok := stateOk_reachable reachable
  have free : NothingBelow (state.threads thread).stack :=
    nothingBelow (ok.threads thread).works
      ((ok.threads thread).suspended_all userPoint) quiet
  rintro (⟨cell, holds⟩ | ⟨lock, held⟩)
  · exact not_holdsWriter reachable
      (fun activation member => free.writers activation member cell) holds
  · have zero := heldBy_eq_zero ok thread lock fun item member => by
      rw [free.guards item member]
      exact nofun
    omega

private theorem not_waitsForItself_of_quiet
    (reachable : (program E P).Reachable (initial E P) state)
    (quiet : ∀ item ∈ (state.threads thread).stack,
      item.isDestroy = false) :
    ¬ WaitsForItself state thread := by
  have ok := stateOk_reachable reachable
  rintro ⟨item, rest, shape, waits⟩
  have works := (ok.threads thread).works
  have suspended := (ok.threads thread).suspended
  rw [shape] at works suspended quiet
  have inner : ∀ activation ∈ activations rest, activation.WorkOk := by
    intro activation member
    obtain ⟨other, isItem, isCall⟩ := List.mem_filterMap.mp member
    exact works activation
      (List.mem_filterMap.mpr ⟨other, List.mem_cons_of_mem _ isItem, isCall⟩)
  have free : NothingBelow rest :=
    nothingBelow inner suspended fun other member =>
      quiet other (List.mem_cons_of_mem _ member)
  rcases waits with ⟨lock, wanted, held⟩ | ⟨cell, wanted, holds⟩
  · have zero := heldBy_eq_zero ok thread lock fun other member => by
      rw [shape] at member
      rcases List.mem_cons.mp member with rfl | deeper
      · rw [guard_of_wants wanted]
        exact nofun
      · rw [free.guards other deeper]
        exact nofun
    omega
  · refine not_holdsWriter reachable (fun activation member => ?_) holds
    rw [shape] at member
    cases item with
    | call top =>
        rcases List.mem_cons.mp member with rfl | deeper
        · simp only [Item.wantsWriter] at wanted
          split at wanted
          · exact writer_notMem_of_waits (Option.mem_def.mp wanted) cell
          · cases wanted
        · exact free.writers activation deeper cell
    | _ => cases wanted

end States

section Runs

variable {schedule : List (Tid × Act E P)} {state : State E P}

theorem Visits.reachable
    (visits : Visits schedule state) :
    (program E P).Reachable (initial E P) state := by
  obtain ⟨done, _, _, executed⟩ := visits
  exact ⟨done, executed⟩

/-- Without a last drop no callback is destroyed under its lock. -/
private theorem quiet_of_keepsCallbacks
    (keeps : KeepsCallbacks schedule) (visits : Visits schedule state) :
    ∀ thread, ∀ item ∈ (state.threads thread).stack,
      item.isDestroy = false := by
  obtain ⟨done, rest, split, executed⟩ := visits
  have along : (∃ rest, schedule = done ++ rest) →
      ∀ thread, ∀ item ∈ (state.threads thread).stack,
        item.isDestroy = false := by
    refine exec_induction
      (P := fun done (state : State E P) => (∃ rest, schedule = done ++ rest) →
        ∀ thread, ∀ item ∈ (state.threads thread).stack,
          item.isDestroy = false) ?_ executed ?_
    · intro done middle actor act next reached stepped before later
      obtain ⟨rest, split⟩ := later
      rw [List.append_assoc] at split
      have quiet := before ⟨_, split⟩
      have turn := step_turn (stateOk_reachable ⟨done, reached⟩) stepped
      intro thread item member
      by_cases same : thread = actor
      · subst same
        rw [Bool.eq_false_iff]
        intro isDestroy
        rcases turn.destroys item member isDestroy with old | drops
        · rw [quiet thread item old] at isDestroy
          cases isDestroy
        · rw [keeps done thread act rest middle split reached] at drops
          cases drops
      · rw [step_others stepped same] at member
        exact quiet thread item member
    · intro _ thread item member
      cases member
  exact along ⟨rest, split⟩

/-- The last drop is followed by code from outside under the write guard. -/
private theorem destroy_under_lock
    {thread : Tid} {act : Act E P}
    (reachable : (program E P).Reachable (initial E P) state)
    (drops : dropsLast state.memory.shared (state.threads thread).stack act =
      true) :
    ∃ next, (program E P).step state thread act = some next ∧
      (next.threads thread).atUserPoint = true ∧ HoldsLock next thread := by
  unfold dropsLast at drops
  split at drops
  · rename_i cell new rest shape
    obtain ⟨old, installed, last⟩ := (Option.any_eq_true _ _).mp drops
    have stepped : (program E P).step state thread .next = some
        ⟨state.memory.withShared (state.memory.shared.setStrong old 0),
          Function.update state.threads thread
            ⟨(state.threads thread).tls,
              .setCallback cell new .destroy :: rest⟩⟩ := by
      simp [Program.step, program, Act.isUser, shape, itemStep, setStep,
        installed, beq_iff_eq.mp last]
    refine ⟨_, stepped, ?_, Or.inr ⟨(cell, .write), ?_⟩⟩
    · simp [Thread.atUserPoint, Item.isUser]
    · have held := (stateOk_reachable (reachable.step stepped)).held thread
      dsimp only at held
      rw [Function.update_self] at held
      exact held.holds_top rfl
  · cases drops

/-- Code from outside runs under no lock, in every state of a run, if and only
if no replacement of a callback drops its last reference; and then no thread
waits for a lock that it holds itself. -/
theorem lock_discipline (schedule : List (Tid × Act E P)) :
    ((∀ state, Visits schedule state → ∀ thread,
        (state.threads thread).atUserPoint = true →
          ¬ HoldsLock state thread) ↔ KeepsCallbacks schedule) ∧
      (KeepsCallbacks schedule → ∀ state, Visits schedule state →
        ∀ thread, ¬ WaitsForItself state thread) := by
  refine ⟨⟨?_, ?_⟩, ?_⟩
  · intro disciplined done thread act rest state split reached
    rw [Bool.eq_false_iff]
    intro drops
    obtain ⟨next, stepped, userPoint, holds⟩ :=
      destroy_under_lock ⟨done, reached⟩ drops
    refine disciplined next ⟨done ++ [(thread, act)], rest, ?_, ?_⟩ thread
      userPoint holds
    · rw [split, List.append_assoc]
      rfl
    · rw [exec_append, reached]
      simp [Program.exec, stepped]
  · intro keeps state visits thread userPoint
    exact not_holdsLock_of_quiet visits.reachable
      (quiet_of_keepsCallbacks keeps visits thread) userPoint
  · intro keeps state visits thread
    exact not_waitsForItself_of_quiet visits.reachable
      (quiet_of_keepsCallbacks keeps visits thread)

/-- `clear_panic_callback` starts with the lock. -/
private theorem clearPanicCallback_step
    {thread : Tid} {cell : CellId}
    (userPoint : (state.threads thread).atUserPoint = true)
    (alive : isAlive state.memory cell = true) :
    (program E P).step state thread (.clearPanicCallback cell) =
      some ⟨state.memory, Function.update state.threads thread
        ((state.threads thread).push (.setCallback cell none .lock))⟩ := by
  simp [Program.step, program, Act.isUser, userPoint, userStep, alive]

/-- A thread that waits for the write lock can do nothing else. -/
private theorem blocked_on_writer
    {thread holder : Tid} {cell : CellId} {new : Option CallbackId}
    {rest : List (Item E P)} {act : Act E P}
    (shape : (state.threads thread).stack =
      .setCallback cell new .lock :: rest)
    (locked : (state.memory.shared.registries cell).writer = some holder) :
    (program E P).step state thread act = none := by
  cases act with
  | next =>
      simp [Program.step, program, Act.isUser, shape, itemStep, setStep,
        locked]
  | returns | panics | report | suspend | alloc | spurious =>
      simp [Program.step, program, Act.isUser, shape, itemStep, setStep]
  | _ =>
      simp [Program.step, program, Act.isUser, Thread.atUserPoint, shape,
        Item.isUser]

end Runs

/-- A second `on_panic` drops the last reference to the first callback. -/
def replacesCallback : List (Tid × Act Unit Unit) :=
  [(0, .newCell 0 0), (0, .onPanic 0), (0, .next), (0, .next), (0, .next),
    (0, .onPanic 0), (0, .next), (0, .next)]

/-- The destructor of the replaced callback runs under the write guard, and
when it clears the callback, its thread waits for itself and stays where it
is. -/
theorem callback_destroyed_under_lock :
    ∃ state next : State Unit Unit,
      (program Unit Unit).exec (initial Unit Unit) replacesCallback =
          some state ∧
        (state.threads 0).atUserPoint = true ∧ HoldsLock state 0 ∧
        (program Unit Unit).step state 0 (.clearPanicCallback 0) =
          some next ∧
        WaitsForItself next 0 ∧
        ∀ act, (program Unit Unit).step next 0 act = none := by
  have run : ((program Unit Unit).exec (initial Unit Unit)
        replacesCallback).map (fun state =>
      ((state.threads 0).atUserPoint, isAlive state.memory 0,
        heldBy state.memory.shared 0 (0, .write))) =
      some (true, true, 1) := by
    decide +kernel
  obtain ⟨state, executed, facts⟩ := Option.map_eq_some_iff.mp run
  simp only [Prod.mk.injEq] at facts
  obtain ⟨userPoint, alive, held⟩ := facts
  have isHeld : 0 < heldBy state.memory.shared 0 (0, .write) := by
    omega
  have waits : (Function.update state.threads 0
        ((state.threads 0).push (.setCallback 0 none .lock)) 0).stack =
      .setCallback 0 none .lock :: (state.threads 0).stack := by
    rw [Function.update_self]
    rfl
  refine ⟨state, _, executed, userPoint, Or.inr ⟨_, isHeld⟩,
    clearPanicCallback_step userPoint alive, ?_, ?_⟩
  · refine ⟨_, _, waits, Or.inl ⟨(0, .write), ?_, isHeld⟩⟩
    simp [Item.wants]
  · exact fun act => blocked_on_writer waits (writer_of_held isHeld)

end RegistryIo.Reentrant
