import RegistryIo.Reentrant.Machine

/-!
# The locks of a registry

Besides the writer lock of its cell a registry has the lock of its panic
callback and a mutex for every one-shot handler.  Every item of a stack has at
most one guard, and `LocksOk` says that the guards of a thread are those of
its items.  `LockMove` says how an operation changes them.
-/

namespace RegistryIo.Reentrant

open RegistryIo.Snapshot

variable {E P : Type}

/-- The guards that the locks of a registry give out, besides that of the
writer lock of its cell. -/
inductive Guard where
  | read
  | write
  | slot (handler : Nat)
  deriving DecidableEq, Repr

/-- How many guards of a kind a thread has. -/
def Registry.heldBy (registry : Registry) (thread : Tid) : Guard → Nat
  | .read => registry.readers.count thread
  | .write => if registry.writer = some thread then 1 else 0
  | .slot handler =>
      if (registry.slots handler).bind Slot.holder = some thread then 1
      else 0

/-- A guard of a lock of a registry. -/
abbrev Lock := CellId × Guard

def heldBy (shared : Shared) (thread : Tid) (lock : Lock) : Nat :=
  (shared.registries lock.1).heldBy thread lock.2

/-- `handle_panic` has the read guard while it clones the callback. -/
def ReportStep.guard : ReportStep P → Option Guard
  | .clone => some .read
  | .unlock _ => some .read
  | _ => none

/-- The guard of the closure that `register_once` stores, or that of
`handle_panic`. -/
def Work.guard (frame : Frame) : Work P → Option Lock
  | .take => (invoked frame).map fun (cell, entry) =>
      (cell, .slot entry.handler)
  | .report _ step => step.guard.map fun guard => (frame.cellOf, guard)
  | _ => none

def SetStep.guard : SetStep P → Option Guard
  | .lock => none
  | _ => some .write

def PollStep.guard : PollStep P → Option Guard
  | .report _ _ step => step.guard
  | _ => none

/-- The guard that an item has. -/
def Item.guard : Item E P → Option Lock
  | .call activation => activation.work.guard activation.frame
  | .setCallback cell _ step => step.guard.map fun guard => (cell, guard)
  | .poll _ cell step => step.guard.map fun guard => (cell, guard)

def guardCount (lock : Lock) (stack : List (Item E P)) : Nat :=
  stack.countP fun item => decide (item.guard = some lock)

/-- The stack names what its thread holds. -/
def LocksOk (shared : Shared) (thread : Tid) (stack : List (Item E P)) :
    Prop :=
  ∀ lock, heldBy shared thread lock = guardCount lock stack

/-- Other threads hold what they held. -/
def OthersHold (thread : Tid) (shared shared' : Shared) : Prop :=
  ∀ other, other ≠ thread → ∀ lock,
    heldBy shared' other lock = heldBy shared other lock

/-- A thread exchanges one guard, or none, for another. -/
structure LockMove (thread : Tid) (shared shared' : Shared)
    (before after : Option Lock) : Prop where
  own : ∀ lock,
    heldBy shared' thread lock + (if before = some lock then 1 else 0) =
      heldBy shared thread lock + (if after = some lock then 1 else 0)
  others : OthersHold thread shared shared'

section Locks

variable {thread : Tid} {shared shared' : Shared} {cell : CellId}
variable {item item' : Item E P} {rest stack : List (Item E P)}

theorem guardCount_cons (lock : Lock) (item : Item E P)
    (rest : List (Item E P)) :
    guardCount lock (item :: rest) =
      guardCount lock rest + (if item.guard = some lock then 1 else 0) := by
  simp [guardCount, List.countP_cons]

theorem LocksOk.holds_top
    {lock : Lock} (held : LocksOk shared thread (item :: rest))
    (isLock : item.guard = some lock) : 0 < heldBy shared thread lock := by
  rw [held lock, guardCount_cons, if_pos isLock]
  exact Nat.succ_pos _

theorem LocksOk.move
    (held : LocksOk shared thread (item :: rest))
    (move : LockMove thread shared shared' item.guard item'.guard) :
    LocksOk shared' thread (item' :: rest) := by
  intro lock
  have old := held lock
  have new := move.own lock
  rw [guardCount_cons] at old ⊢
  omega

theorem LocksOk.push
    (held : LocksOk shared thread stack) (free : item.guard = none) :
    LocksOk shared thread (item :: stack) := by
  intro lock
  rw [held lock, guardCount_cons, free]
  simp

/-- Shared memory with the same locks. -/
theorem LockMove.of_same
    (same : ∀ other lock,
      heldBy shared' other lock = heldBy shared other lock)
    (before : Option Lock) :
    LockMove thread shared shared' before before where
  own := fun lock => by rw [same]
  others := fun other _ lock => same other lock

theorem LockMove.of_registries
    (same : shared'.registries = shared.registries)
    (before : Option Lock) :
    LockMove thread shared shared' before before :=
  .of_same (fun other lock => by unfold heldBy; rw [same]) before

theorem LockMove.refl (shared : Shared) (before : Option Lock) :
    LockMove thread shared shared before before :=
  .of_registries rfl before

/-- A change of one registry. -/
theorem LockMove.setRegistry
    {registry : Registry} (before after : Option Guard)
    (own : ∀ guard,
      registry.heldBy thread guard + (if before = some guard then 1 else 0) =
        (shared.registries cell).heldBy thread guard +
          (if after = some guard then 1 else 0))
    (others : ∀ other, other ≠ thread → ∀ guard,
      registry.heldBy other guard =
        (shared.registries cell).heldBy other guard) :
    LockMove thread shared (shared.setRegistry cell registry)
      (before.map fun guard => (cell, guard))
      (after.map fun guard => (cell, guard)) := by
  constructor
  · rintro ⟨target, guard⟩
    by_cases same : target = cell
    · subst same
      simpa [heldBy, Shared.setRegistry] using own guard
    · simp [heldBy, Shared.setRegistry, same, Ne.symm same]
  · rintro other different ⟨target, guard⟩
    by_cases same : target = cell
    · subst same
      simpa [heldBy, Shared.setRegistry] using others other different guard
    · simp [heldBy, Shared.setRegistry, same]

theorem lockMove_countPanic (before : Option Lock) :
    LockMove thread shared (shared.countPanic cell) before before := by
  refine .of_same (fun other lock => ?_) before
  by_cases same : lock.1 = cell
  · subst same
    simp only [heldBy, Shared.countPanic, Shared.setRegistry,
      Function.update_self]
    cases lock.2 <;> rfl
  · simp [heldBy, Shared.countPanic, Shared.setRegistry, same]

private theorem lockMove_readLock :
    LockMove thread shared (shared.readLock cell thread) none
      (some (cell, .read)) := by
  refine .setRegistry none (some .read) ?_ ?_
  · intro guard
    cases guard <;> simp [Registry.heldBy]
  · intro other different guard
    cases guard <;> simp [Registry.heldBy, different.symm]

private theorem lockMove_readUnlock
    (held : 0 < heldBy shared thread (cell, .read)) :
    LockMove thread shared (shared.readUnlock cell thread)
      (some (cell, .read)) none := by
  refine .setRegistry (some .read) none ?_ ?_
  · intro guard
    cases guard with
    | read =>
        have positive : 0 < (shared.registries cell).readers.count thread :=
          held
        simp only [Registry.heldBy, List.count_erase_self]
        simp
        omega
    | _ => simp [Registry.heldBy]
  · intro other different guard
    cases guard with
    | read => simp [Registry.heldBy, List.count_erase_of_ne different]
    | _ => rfl

theorem lockMove_writeLock
    (free : (shared.registries cell).writer = none) :
    LockMove thread shared (shared.writeLock cell thread) none
      (some (cell, .write)) := by
  refine .setRegistry none (some .write) ?_ ?_
  · intro guard
    cases guard <;> simp [Registry.heldBy, free]
  · intro other different guard
    cases guard <;> simp [Registry.heldBy, free, different.symm]

theorem writer_of_held
    (held : 0 < heldBy shared thread (cell, .write)) :
    (shared.registries cell).writer = some thread := by
  simp only [heldBy, Registry.heldBy] at held
  split at held
  · assumption
  · cases held

theorem lockMove_storeCallback
    {new : Option CallbackId}
    (held : 0 < heldBy shared thread (cell, .write)) :
    LockMove thread shared (shared.storeCallback cell new)
      (some (cell, .write)) none := by
  have isWriter := writer_of_held held
  refine .setRegistry (some .write) none ?_ ?_
  · intro guard
    cases guard <;> simp [Registry.heldBy, isWriter]
  · intro other different guard
    cases guard <;> simp [Registry.heldBy, isWriter, different.symm]

/-- A slot gets another holder. -/
theorem lockMove_setSlot
    {handler : Nat} {slot : Slot} (lost gained : Bool)
    (own : (if slot.holder = some thread then 1 else 0) +
        (if lost then 1 else 0) =
      heldBy shared thread (cell, .slot handler) +
        (if gained then 1 else 0))
    (others : ∀ other, other ≠ thread →
      (if slot.holder = some other then 1 else 0) =
        heldBy shared other (cell, .slot handler)) :
    LockMove thread shared (shared.setSlot cell handler slot)
      (if lost then some (cell, .slot handler) else none)
      (if gained then some (cell, .slot handler) else none) := by
  have move : LockMove thread shared (shared.setSlot cell handler slot)
      ((if lost then some (.slot handler) else none : Option Guard).map
        fun guard => (cell, guard))
      ((if gained then some (.slot handler) else none : Option Guard).map
        fun guard => (cell, guard)) := by
    refine .setRegistry _ _ ?_ ?_
    · intro guard
      cases guard with
      | slot target =>
          by_cases same : target = handler
          · subst same
            cases lost <;> cases gained <;>
              simpa [Registry.heldBy, heldBy] using own
          · cases lost <;> cases gained <;>
              simp [Registry.heldBy, same, Ne.symm same]
      | _ => cases lost <;> cases gained <;> simp [Registry.heldBy]
    · intro other different guard
      cases guard with
      | slot target =>
          by_cases same : target = handler
          · subst same
            simpa [Registry.heldBy, heldBy] using others other different
          · simp [Registry.heldBy, same]
      | _ => rfl
  cases lost <;> cases gained <;> exact move

theorem reportStep_locks
    {step : ReportStep P} {act : Act E P} {result : ReportStep P ⊕ Option P}
    (held : ∀ guard, step.guard = some guard →
      0 < heldBy shared thread (cell, guard))
    (stepped : reportStep shared thread cell step act =
      some (shared', result)) :
    LockMove thread shared shared'
      (step.guard.map fun guard => (cell, guard))
      ((result.elim ReportStep.guard fun _ => none).map
        fun guard => (cell, guard)) := by
  unfold reportStep at stepped
  split at stepped
  · split at stepped
    · cases stepped
      exact lockMove_readLock
    · cases stepped
  · cases stepped
    cases (shared.registries cell).panicCallback with
    | none => exact .refl _ _
    | some holder => exact .of_registries (by rfl) _
  case h_3 | h_4 =>
      cases stepped
      exact lockMove_readUnlock (held .read rfl)
  case h_9 =>
      split at stepped
      · cases stepped
        exact .of_registries (by rfl) _
      · cases stepped
        exact .of_registries (by rfl) _
  all_goals
      cases stepped
  all_goals exact .refl _ _

end Locks

end RegistryIo.Reentrant
