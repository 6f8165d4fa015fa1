import RegistryIo.Reentrant.Locks
import RegistryIo.Reentrant.Steps

/-!
# What a step does to the cell, to its stack and to locks

A thread that runs an inner call is suspended in all its outer ones, and the
items of its stack name the locks that it holds.  Under these conditions every
step performs one step of the cell or none, and `Turn` says what it does to
the stack and to the locks.
-/

namespace RegistryIo.Reentrant

open RegistryIo.Interleaving RegistryIo.Snapshot
open RegistryIo.Isolation (PanicInfo)

variable {E P : Type}

/-! ### Suspended items -/

/-- What the registry does inside a closure fits the frame of the closure. -/
def Work.Fits (frame : Frame) : Work P → Prop
  | .plain => True
  | .report _ _ => (caught frame).isSome
  | _ => (invoked frame).isSome

def Activation.WorkOk (activation : Activation E P) : Prop :=
  activation.work.Fits activation.frame

/-- An item that may be below other items: code from outside runs, or the
item waits for the call above it. -/
def Item.isSuspended : Item E P → Bool
  | .call activation =>
      match activation.work with
      | .remove _ => true
      | _ => activation.isUser
  | .poll _ _ (.load _) => true
  | item => item.isUser

/-- The old callback is destroyed while its lock is held. -/
def Item.isDestroy : Item E P → Bool
  | .setCallback _ _ .destroy => true
  | _ => false

def Item.isCall : Item E P → Bool
  | .call _ => true
  | _ => false

/-- The drop of `RemoveOnDrop`. -/
def Item.isRemoval : Item E P → Bool
  | .call activation =>
      match activation.work with
      | .remove _ => true
      | _ => false
  | _ => false

/-- Directly above the drop of `RemoveOnDrop` there is only its own call. -/
def Chained : List (Item E P) → Prop
  | above :: below :: rest =>
      (below.isRemoval = true → above.isCall = true) ∧
        Chained (below :: rest)
  | _ => True

structure ThreadOk (locals : Thread E P) : Prop where
  works : ∀ activation ∈ activations locals.stack, activation.WorkOk
  suspended : ∀ item ∈ locals.stack.tail, item.isSuspended
  chained : Chained locals.stack

section Suspension

variable {activation : Activation E P} {item : Item E P}
variable {rest rest' stack : List (Item E P)} {tls : Tls}

private theorem isUser_of_invoked
    {frame : Frame} (inside : (invoked frame).isSome) : frame.isUser := by
  unfold invoked at inside
  split at inside
  · rfl
  · rfl
  · cases inside

private theorem isUser_of_caught
    {frame : Frame} (inside : (caught frame).isSome) : frame.isUser := by
  unfold caught at inside
  split at inside
  · rfl
  · rfl
  · cases inside

private theorem Item.isSuspended_of_isUser
    (isUser : item.isUser = true) : item.isSuspended = true := by
  cases item with
  | call activation =>
      simp only [Item.isSuspended]
      split
      · rfl
      · exact isUser
  | setCallback cell new step => exact isUser
  | poll task cell step =>
      cases step with
      | load list => cases isUser
      | _ => exact isUser

/-- The frame of a suspended call is in code from outside. -/
theorem Activation.WorkOk.isUser
    (ok : activation.WorkOk)
    (suspended : (Item.call activation).isSuspended = true) :
    activation.frame.isUser = true := by
  unfold Activation.WorkOk Work.Fits at ok
  split at ok
  · rename_i work
    simpa [Item.isSuspended, Activation.isUser, work] using suspended
  · exact isUser_of_caught ok
  · exact isUser_of_invoked ok

/-- Below a suspended stack the cell sees code from outside. -/
private theorem atUserPoint_of_suspended
    (works : ∀ activation ∈ activations stack, activation.WorkOk)
    (suspended : ∀ item ∈ stack, item.isSuspended = true) :
    (Thread.cell ⟨tls, stack⟩).atUserPoint = true := by
  unfold Thread.cell Snapshot.Thread.atUserPoint
  dsimp only
  induction stack with
  | nil => rfl
  | cons top rest inductionHypothesis =>
      cases top with
      | call activation =>
          exact (works activation List.mem_cons_self).isUser
            (suspended _ List.mem_cons_self)
      | setCallback cell new step =>
          exact inductionHypothesis works fun item member =>
            suspended item (List.mem_cons_of_mem _ member)
      | poll task cell step =>
          exact inductionHypothesis works fun item member =>
            suspended item (List.mem_cons_of_mem _ member)

theorem Item.not_removal_of_isUser
    (isUser : item.isUser = true) : item.isRemoval = false := by
  cases item with
  | call activation =>
      simp only [Item.isUser, Activation.isUser, Item.isRemoval]
        at isUser ⊢
      split
      · rename_i work
        rw [work] at isUser
        cases isUser
      · rfl
  | setCallback | poll => rfl

theorem Chained.tail
    (chained : Chained (item :: rest)) : Chained rest := by
  cases rest with
  | nil => trivial
  | cons below rest => exact chained.2

theorem Chained.replace
    {item' : Item E P} (kind : item.isCall = true → item'.isCall = true)
    (chained : Chained (item :: rest)) : Chained (item' :: rest) := by
  cases rest with
  | nil => trivial
  | cons below rest =>
      exact ⟨fun removal => kind (chained.1 removal), chained.2⟩

/-- A call may be pushed on any stack. -/
theorem Chained.call
    (activation : Activation E P) (chained : Chained stack) :
    Chained (.call activation :: stack) := by
  cases stack with
  | nil => trivial
  | cons below rest => exact ⟨fun _ => rfl, chained⟩

/-- Code from outside may push anything. -/
theorem Chained.push
    (item : Item E P) (userPoint : Thread.atUserPoint ⟨tls, stack⟩ = true)
    (chained : Chained stack) : Chained (item :: stack) := by
  cases stack with
  | nil => trivial
  | cons below rest =>
      refine ⟨fun isRemoval => ?_, chained⟩
      rw [Item.not_removal_of_isUser userPoint] at isRemoval
      cases isRemoval

/-- A stack that differs only in what its top was told. -/
structure Below (rest rest' : List (Item E P)) : Prop where
  frames : frames rest' = frames rest
  guards : ∀ lock, guardCount lock rest' = guardCount lock rest
  suspended : (∀ item ∈ rest, item.isSuspended = true) →
    ∀ item ∈ rest', item.isSuspended = true
  destroys : ∀ item ∈ rest', item.isDestroy = true → item ∈ rest
  chained : ∀ above, Chained (above :: rest) → Chained (above :: rest')

theorem Below.refl (rest : List (Item E P)) : Below rest rest :=
  ⟨rfl, fun _ => rfl, id, fun _ member _ => member, fun _ => id⟩

theorem Below.cons
    {item' : Item E P} (frame : item'.frame? = item.frame?)
    (guard : item'.guard = item.guard)
    (suspended : item.isSuspended = true → item'.isSuspended = true)
    (destroys : item'.isDestroy = false)
    (removal : item'.isRemoval = true → item.isRemoval = true)
    (kind : item.isCall = true → item'.isCall = true)
    (rest : List (Item E P)) :
    Below (item :: rest) (item' :: rest) where
  frames := by
    simp [Reentrant.frames, List.filterMap_cons, frame]
  guards := by
    intro lock
    rw [guardCount_cons, guardCount_cons, guard]
  suspended := by
    intro all other member
    rcases List.mem_cons.mp member with isTop | below
    · rw [isTop]
      exact suspended (all item List.mem_cons_self)
    · exact all other (List.mem_cons_of_mem _ below)
  destroys := by
    intro other member isDestroy
    rcases List.mem_cons.mp member with isTop | below
    · rw [isTop, destroys] at isDestroy
      cases isDestroy
    · exact List.mem_cons_of_mem _ below
  chained := fun _ chained =>
    ⟨fun isRemoval => chained.1 (removal isRemoval),
      chained.2.replace kind⟩

private theorem callerAfter_below
    (memory : Snapshot.Memory) (rest : List (Item E P)) (frame : Frame) :
    Below rest (callerAfter memory rest frame) := by
  unfold callerAfter
  split
  · unfold receive
    split
    · apply Below.cons
      · rfl
      · rfl
      · exact fun _ => rfl
      · rfl
      · exact id
      · exact id
    · exact .refl _
  · exact .refl _

private theorem resume_below
    {exit : Option P} (resumed : resume exit rest = some rest') :
    Below rest rest' := by
  unfold resume at resumed
  split at resumed
  · cases resumed
    exact .refl _
  · split at resumed
    · rename_i work
      cases resumed
      apply Below.cons
      · rfl
      · simp [Item.guard, Work.guard, work]
      · exact fun _ => rfl
      · rfl
      · simp [Item.isRemoval, work]
      · exact id
    · cases resumed
    · cases resumed
      exact .refl _
  · cases resumed
    apply Below.cons
    · rfl
    · rfl
    · exact fun _ => rfl
    · rfl
    · exact id
    · exact id
  · cases resumed
    exact .refl _

end Suspension

/-! ### Steps -/

/-- The slots of registrations that have not been made are empty. -/
def SlotsFresh (memory : Memory) : Prop :=
  ∀ cell handler,
    (memory.cells.store.cells cell).registrations ≤ handler →
      (memory.shared.registries cell).slots handler = none

/-- The step drops the last reference to the installed callback, while the
write guard is alive. -/
def dropsLast (shared : Shared) (stack : List (Item E P))
    (act : Act E P) : Bool :=
  match stack, act with
  | .setCallback cell _ .dropOld :: _, .next =>
      (shared.registries cell).panicCallback.any
        fun old => shared.strong old == 1
  | _, _ => false

/-- One step of the cell, or none. -/
def CellStep (thread : Tid) (memory memory' : Snapshot.Memory)
    (locals locals' : Snapshot.Thread) : Prop :=
  (memory' = memory ∧ locals' = locals) ∨
    ∃ operation, Snapshot.program thread memory locals operation =
      some (memory', locals')

/-- What a step of a thread does to the cell, to its stack and to locks. -/
structure Turn (thread : Tid) (act : Act E P) (memory memory' : Memory)
    (locals locals' : Thread E P) : Prop where
  cells : CellStep thread memory.cells memory'.cells locals.cell
    locals'.cell
  suspended : ∀ item ∈ locals'.stack.tail, item.isSuspended = true
  held : LocksOk memory'.shared thread locals'.stack
  others : OthersHold thread memory.shared memory'.shared
  destroys : ∀ item ∈ locals'.stack, item.isDestroy = true →
    item ∈ locals.stack ∨ dropsLast memory.shared locals.stack act = true
  chained : Chained locals.stack → Chained locals'.stack

section Turns

variable {thread : Tid} {act : Act E P} {memory memory' : Memory}
variable {tls tls' : Tls} {locals locals' : Thread E P}
variable {activation : Activation E P} {item item' : Item E P}
variable {rest rest' stack : List (Item E P)}

private theorem program_of_frameStep
    {cells cells' : Snapshot.Memory} {frame : Frame} {below : List Frame}
    {operation : Snapshot.Act} {next : Option Frame}
    (stepped : frameStep cells ⟨thread, below.length⟩ tls frame operation =
      some (cells', tls', next)) :
    Snapshot.program thread cells ⟨tls, frame :: below⟩ operation =
      some (cells', ⟨tls', next.toList ++ below⟩) := by
  have notUser := frameStep_not_user stepped
  cases operation with
  | newCell | dropCell | call | dropHandle | exitThread => cases notUser
  | _ => simp [Snapshot.program, stepped]

private theorem program_of_userStep
    {cells cells' : Snapshot.Memory} {inner inner' : Snapshot.Thread}
    {operation : Snapshot.Act} (userPoint : inner.atUserPoint = true)
    (performed : Snapshot.userStep thread cells inner operation =
      some (cells', inner')) :
    Snapshot.program thread cells inner operation =
      some (cells', inner') := by
  cases operation with
  | newCell | dropCell | call | dropHandle | exitThread =>
      simp only [Snapshot.program, userPoint, if_true]
      exact performed
  | _ => cases performed

theorem LocksOk.below
    {shared : Shared} (held : LocksOk shared thread (item :: rest))
    (below : Below rest rest') : LocksOk shared thread (item :: rest') := by
  intro lock
  rw [held lock, guardCount_cons, guardCount_cons, below.guards]

/-- The top item changes. -/
theorem Turn.replace
    (cells : CellStep thread memory.cells memory'.cells
      ⟨tls, frames (item :: rest)⟩ ⟨tls', frames (item' :: rest')⟩)
    (below : Below rest rest')
    (kind : item.isCall = true → item'.isCall = true)
    (suspended : ∀ item ∈ rest, item.isSuspended = true)
    (held : LocksOk memory.shared thread (item :: rest))
    (move : LockMove thread memory.shared memory'.shared item.guard
      item'.guard)
    (destroys : item'.isDestroy = true →
      dropsLast memory.shared (item :: rest) act = true) :
    Turn thread act memory memory' ⟨tls, item :: rest⟩
      ⟨tls', item' :: rest'⟩ where
  cells := cells
  suspended := below.suspended suspended
  held := (held.move move).below below
  others := move.others
  destroys := by
    intro other member isDestroy
    rcases List.mem_cons.mp member with rfl | deeper
    · exact Or.inr (destroys isDestroy)
    · exact Or.inl (List.mem_cons_of_mem _
        (below.destroys other deeper isDestroy))
  chained := fun chained => (below.chained _ chained).replace kind

/-- A step of an item that goes on without destroying a callback. -/
theorem Turn.advance
    (cells : CellStep thread memory.cells memory'.cells
      ⟨tls, frames (item :: rest)⟩ ⟨tls', frames (item' :: rest')⟩)
    (below : Below rest rest')
    (kind : item.isCall = true → item'.isCall = true)
    (suspended : ∀ item ∈ rest, item.isSuspended = true)
    (held : LocksOk memory.shared thread (item :: rest))
    (move : LockMove thread memory.shared memory'.shared item.guard
      item'.guard)
    (spares : item'.isDestroy = false) :
    Turn thread act memory memory' ⟨tls, item :: rest⟩
      ⟨tls', item' :: rest'⟩ := by
  apply Turn.replace cells below kind suspended held move
  intro destroys
  rw [spares] at destroys
  cases destroys

/-- The top item is over. -/
theorem Turn.pop
    (cells : CellStep thread memory.cells memory'.cells
      ⟨tls, frames (item :: rest)⟩ ⟨tls', frames rest⟩)
    (below : Below rest rest')
    (suspended : ∀ item ∈ rest, item.isSuspended = true)
    (held : LocksOk memory.shared thread (item :: rest))
    (move : LockMove thread memory.shared memory'.shared item.guard none) :
    Turn thread act memory memory' ⟨tls, item :: rest⟩ ⟨tls', rest'⟩ where
  cells := by
    unfold Thread.cell
    dsimp only
    rw [below.frames]
    exact cells
  suspended := fun other member =>
    below.suspended suspended other (List.mem_of_mem_tail member)
  held := by
    intro lock
    have old := held lock
    have new := move.own lock
    rw [guardCount_cons] at old
    rw [below.guards]
    simp only [reduceCtorEq, if_false, Nat.add_zero] at new
    omega
  others := move.others
  destroys := fun other member isDestroy =>
    Or.inl (List.mem_cons_of_mem _ (below.destroys other member isDestroy))
  chained := fun chained => (below.chained _ chained).tail

/-- A new item on top. -/
theorem Turn.push
    (cells : CellStep thread memory.cells memory'.cells ⟨tls, frames stack⟩
      ⟨tls', frames (item :: stack)⟩)
    (suspended : ∀ item ∈ stack, item.isSuspended = true)
    (held : LocksOk memory.shared thread stack)
    (move : LockMove thread memory.shared memory'.shared none none)
    (free : item.guard = none) (notDestroy : item.isDestroy = false)
    (chained : Chained stack → Chained (item :: stack)) :
    Turn thread act memory memory' ⟨tls, stack⟩ ⟨tls', item :: stack⟩ where
  cells := cells
  suspended := suspended
  held := by
    intro lock
    have same := move.own lock
    simp only [reduceCtorEq, if_false, Nat.add_zero] at same
    rw [same]
    exact (held.push free) lock
  others := move.others
  destroys := by
    intro other member isDestroy
    rcases List.mem_cons.mp member with rfl | deeper
    · rw [notDestroy] at isDestroy
      cases isDestroy
    · exact Or.inl deeper
  chained := chained

/-- The stack stays as it is. -/
private theorem Turn.stay
    (cells : CellStep thread memory.cells memory'.cells locals.cell
      ⟨tls', frames locals.stack⟩)
    (suspended : ∀ item ∈ locals.stack, item.isSuspended = true)
    (held : LocksOk memory.shared thread locals.stack)
    (move : LockMove thread memory.shared memory'.shared none none) :
    Turn thread act memory memory' locals ⟨tls', locals.stack⟩ where
  cells := cells
  suspended := fun item member => suspended item (List.mem_of_mem_tail member)
  held := by
    intro lock
    have same := move.own lock
    simp only [reduceCtorEq, if_false, Nat.add_zero] at same
    rw [same]
    exact held lock
  others := move.others
  destroys := fun _ member _ => Or.inl member
  chained := id

/-- A guard is given back before the step proper. -/
theorem Turn.unlocked
    {shared : Shared} {before : Activation E P}
    (turn : Turn thread act (memory.withShared shared) memory'
      ⟨tls, .call activation :: rest⟩ locals')
    (others : OthersHold thread memory.shared shared)
    (frame : before.frame = activation.frame) :
    Turn thread act memory memory' ⟨tls, .call before :: rest⟩ locals' where
  cells := by
    have same : frames (.call before :: rest) =
        frames (.call activation :: rest) := by
      simp [frames, Item.frame?, frame]
    unfold Thread.cell
    rw [same]
    exact turn.cells
  suspended := turn.suspended
  held := turn.held
  others := fun other different lock =>
    (turn.others other different lock).trans (others other different lock)
  destroys := by
    intro item member isDestroy
    rcases turn.destroys item member isDestroy with old | drops
    · rcases List.mem_cons.mp old with rfl | deeper
      · cases isDestroy
      · exact Or.inl (List.mem_cons_of_mem _ deeper)
    · cases drops
  chained := fun chained =>
    turn.chained (Chained.replace (fun _ => rfl) chained)

private theorem workAfter_guard
    (shared : Shared) (frame after : Frame) (operation : Snapshot.Act)
    (meant : Act E P) :
    (workAfter (P := P) shared frame operation meant).guard after =
      none := by
  unfold workAfter
  split
  · split
    · split <;> rfl
    · rfl
  · split <;> rfl
  · rfl

private theorem sharedAfter_locks
    (fresh : SlotsFresh memory) (operation : Snapshot.Act) :
    LockMove thread memory.shared (sharedAfter memory activation operation)
      none none := by
  unfold sharedAfter
  split
  · exact lockMove_countPanic none
  · split
    · rename_i cell priority _ _
      have empty := fresh cell _ (Nat.le_refl _)
      have unheld : ∀ other, heldBy memory.shared other (cell,
          .slot (memory.cells.store.cells cell).registrations) = 0 := by
        intro other
        simp [heldBy, Registry.heldBy, empty]
      refine lockMove_setSlot false false ?_ ?_
      · rw [unheld]
        simp
      · intro other _
        rw [unheld]
        simp
    · exact .refl _ _

private theorem frameMove_turn
    {operation : Snapshot.Act} {meant : Act E P}
    (fresh : SlotsFresh memory)
    (suspended : ∀ item ∈ rest, item.isSuspended = true)
    (held : LocksOk memory.shared thread (.call activation :: rest))
    (plain : activation.work = .plain)
    (performed : frameMove thread memory tls activation rest operation
      meant = some (memory', locals')) :
    Turn thread act memory memory' ⟨tls, .call activation :: rest⟩
      locals' := by
  have free : (Item.call activation).guard = none := by
    simp [Item.guard, Work.guard, plain]
  unfold frameMove at performed
  split at performed
  · cases performed
  · rename_i cells after stepped
    obtain ⟨stack, resumed, same⟩ := Option.map_eq_some_iff.mp performed
    cases same
    refine .pop (Or.inr ⟨operation, program_of_frameStep stepped⟩)
      (resume_below resumed) suspended held ?_
    rw [free]
    exact .refl _ _
  · rename_i cells after frame stepped
    obtain ⟨unwinding, _, same⟩ := Option.map_eq_some_iff.mp performed
    cases same
    have below := callerAfter_below memory.cells rest activation.frame
    refine .advance ?_ below id suspended held ?_ rfl
    · refine Or.inr ⟨operation, ?_⟩
      have moved := program_of_frameStep stepped
      simp only [frames, List.filterMap_cons, Item.frame?] at moved ⊢
      have same := below.frames
      simp only [frames] at same
      rw [same]
      exact moved
    · rw [free]
      have quiet : (Item.call { activation with
          frame := frame
          work := workAfter memory.shared frame operation meant
          unwinding := unwinding }).guard = none :=
        workAfter_guard memory.shared frame frame operation meant
      rw [quiet]
      exact sharedAfter_locks fresh operation

/-- Code from outside calls an operation of the cell. -/
private theorem enterCall_turn
    {cell : CellId} {call : Snapshot.Call} {event : Option E} {once : Bool}
    (works : ∀ activation ∈ activations locals.stack, activation.WorkOk)
    (suspended : ∀ item ∈ locals.stack, item.isSuspended = true)
    (held : LocksOk memory.shared thread locals.stack)
    (performed : enterCall thread memory locals cell call event once =
      some (memory', locals')) :
    Turn thread act memory memory' locals locals' := by
  obtain ⟨⟨cells, inner⟩, entered, same⟩ :=
    Option.map_eq_some_iff.mp performed
  cases same
  have shape :
      inner = ⟨locals.tls, call.enter cell :: frames locals.stack⟩ := by
    cases userStep_rule entered
    rfl
  refine .push (Or.inr ⟨.call cell call, ?_⟩) suspended held (.refl _ _)
    rfl rfl (.call _)
  subst shape
  exact program_of_userStep (atUserPoint_of_suspended works suspended) entered

private theorem plainStep_turn
    (fresh : SlotsFresh memory)
    (suspended : ∀ item ∈ rest, item.isSuspended = true)
    (held : LocksOk memory.shared thread (.call activation :: rest))
    (plain : activation.work = .plain)
    (performed : plainStep thread memory tls activation rest act =
      some (memory', locals')) :
    Turn thread act memory memory' ⟨tls, .call activation :: rest⟩
      locals' := by
  unfold plainStep at performed
  split at performed
  · obtain ⟨_, _, same⟩ := Option.map_eq_some_iff.mp performed
    cases same
    exact .advance (Or.inl ⟨rfl, rfl⟩) (.refl rest) id suspended held
      (.refl _ _) rfl
  · obtain ⟨operation, _, moved⟩ := Option.bind_eq_some_iff.mp performed
    exact frameMove_turn fresh suspended held plain moved

theorem SlotsFresh.of_slots
    {shared : Shared} (fresh : SlotsFresh memory)
    (slots : ∀ cell handler,
      (memory.shared.registries cell).slots handler = none →
        (shared.registries cell).slots handler = none) :
    SlotsFresh (memory.withShared shared) :=
  fun cell handler beyond => slots cell handler (fresh cell handler beyond)

/-- A change of a slot that is in use. -/
theorem setSlot_none
    {shared : Shared} {target : CellId} {number : Nat} {old new : Slot}
    (inUse : (shared.registries target).slots number = some old)
    (cell : CellId) (handler : Nat)
    (empty : (shared.registries cell).slots handler = none) :
    ((shared.setSlot target number new).registries cell).slots handler =
      none := by
  by_cases sameCell : cell = target
  · subst sameCell
    by_cases sameSlot : handler = number
    · subst sameSlot
      rw [empty] at inUse
      cases inUse
    · simpa [Shared.setSlot, Shared.setRegistry, sameSlot] using empty
  · simpa [Shared.setSlot, Shared.setRegistry, sameCell] using empty

/-- The slot that a thread has locked. -/
private theorem holder_of_held
    {shared : Shared} {cell : CellId} {handler : Nat} {slot : Slot}
    (found : (shared.registries cell).slots handler = some slot)
    (held : 0 < heldBy shared thread (cell, .slot handler)) :
    slot.holder = some thread := by
  simp only [heldBy, Registry.heldBy, found, Option.bind_some] at held
  split at held
  · assumption
  · cases held

/-- The mutex of a slot is given back. -/
private theorem lockMove_releaseSlot
    {shared : Shared} {cell : CellId} {handler : Nat} {slot : Slot}
    (found : (shared.registries cell).slots handler = some slot)
    (held : 0 < heldBy shared thread (cell, .slot handler)) (full : Bool) :
    LockMove thread shared (shared.setSlot cell handler ⟨none, full⟩)
      (some (cell, .slot handler)) none := by
  have isHolder := holder_of_held found held
  refine lockMove_setSlot true false ?_ ?_
  · simp [heldBy, Registry.heldBy, found, isHolder]
  · intro other different
    simp [heldBy, Registry.heldBy, found, isHolder, different.symm]

private theorem onceStep_turn
    {cell : CellId} {entry : Entry}
    (fresh : SlotsFresh memory)
    (works : ∀ other ∈ activations rest, other.WorkOk)
    (suspended : ∀ item ∈ rest, item.isSuspended = true)
    (held : LocksOk memory.shared thread (.call activation :: rest))
    (inside : invoked activation.frame = some (cell, entry))
    (performed : onceStep thread memory tls activation rest cell entry
      activation.work act = some (memory', locals')) :
    Turn thread act memory memory' ⟨tls, .call activation :: rest⟩
      locals' := by
  have taking : (Item.call { activation with work := .take }).guard =
      some (cell, .slot entry.handler) := by
    simp [Item.guard, Work.guard, inside]
  -- The drop of `RemoveOnDrop` calls `unregister` below itself.
  have removing : ∀ panic, activation.work = .once →
      enterCall thread memory
          ⟨tls, .call { activation with work := .remove panic } :: rest⟩ cell
          (.unregister entry.id false) none false =
        some (memory', locals') →
      Turn thread act memory memory' ⟨tls, .call activation :: rest⟩
        locals' := by
    intro panic work entered
    have turn : Turn thread act (memory.withShared memory.shared) memory'
        ⟨tls, .call { activation with work := .remove panic } :: rest⟩
        locals' := by
      refine enterCall_turn ?_ ?_ ?_ entered
      · intro other member
        rcases List.mem_cons.mp member with rfl | deeper
        · simp [Activation.WorkOk, Work.Fits, inside]
        · exact works other deeper
      · intro item member
        rcases List.mem_cons.mp member with rfl | deeper
        · rfl
        · exact suspended item deeper
      · refine held.move ?_
        have free : (Item.call activation).guard = none := by
          simp [Item.guard, Work.guard, work]
        rw [free]
        exact .refl _ _
    exact turn.unlocked (fun _ _ _ => rfl) rfl
  -- The wrapper returns or goes on unwinding.
  have finishing : ∀ {panic operation meant},
      activation.work = .remove panic →
      frameMove thread memory tls { activation with work := .plain } rest
          operation meant = some (memory', locals') →
      Turn thread act memory memory' ⟨tls, .call activation :: rest⟩
        locals' := by
    intro panic operation meant work moved
    have free : (Item.call activation).guard = none := by
      simp [Item.guard, Work.guard, work]
    have turn : Turn thread act (memory.withShared memory.shared) memory'
        _ locals' :=
      frameMove_turn fresh suspended
        (held.move (by rw [free]; exact .refl _ _)) rfl moved
    exact turn.unlocked (fun _ _ _ => rfl) rfl
  unfold onceStep at performed
  split at performed
  · rename_i work
    split at performed
    · rename_i full free
      cases performed
      refine .advance (Or.inl ⟨rfl, rfl⟩) (.refl rest) id suspended held ?_
        rfl
      have before : (Item.call activation).guard = none := by
        simp [Item.guard, Work.guard, work]
      rw [before, taking]
      refine lockMove_setSlot false true ?_ ?_
      · simp [heldBy, Registry.heldBy, free]
      · intro other different
        simp [heldBy, Registry.heldBy, free, different.symm]
    · cases performed
  · rename_i work
    have same : (Item.call activation).guard =
        some (cell, .slot entry.handler) := by
      simp [Item.guard, Work.guard, work, inside]
    have locked := held.holds_top same
    dsimp only at performed
    split at performed
    · rename_i holder full
      cases performed
      refine .advance (Or.inl ⟨rfl, rfl⟩) (.refl rest) id suspended held ?_
        rfl
      rw [same]
      exact lockMove_releaseSlot full locked false
    · rename_i holder empty
      have move := lockMove_releaseSlot empty locked false
      have turn : Turn thread .next _ memory' _ locals' :=
        frameMove_turn (fresh.of_slots (setSlot_none empty)) suspended
          (held.move (by rw [same]; exact move)) rfl performed
      exact turn.unlocked move.others rfl
    · cases performed
  · rename_i work
    exact removing none work performed
  · rename_i payload work
    exact removing (some payload) work performed
  · rename_i work
    exact finishing work performed
  · rename_i payload work
    exact finishing work performed
  · cases performed

private theorem reportingStep_turn
    {info : PanicInfo P} {step : ReportStep P}
    (fresh : SlotsFresh memory)
    (suspended : ∀ item ∈ rest, item.isSuspended = true)
    (held : LocksOk memory.shared thread (.call activation :: rest))
    (work : activation.work = .report info step)
    (performed : reportingStep thread memory tls activation rest info step
      act = some (memory', locals')) :
    Turn thread act memory memory' ⟨tls, .call activation :: rest⟩
      locals' := by
  have same : (Item.call activation).guard =
      step.guard.map fun guard => (activation.frame.cellOf, guard) := by
    simp [Item.guard, Work.guard, work]
  have guards : ∀ guard, step.guard = some guard →
      0 < heldBy memory.shared thread (activation.frame.cellOf, guard) := by
    intro guard isGuard
    refine held.holds_top ?_
    rw [same, isGuard]
    rfl
  -- The last step of `handle_panic` gives back nothing.
  have finishing : ∀ {shared exit operation meant},
      reportStep memory.shared thread activation.frame.cellOf step act =
        some (shared, .inr exit) →
      frameMove thread (memory.withShared shared) tls
          { activation with work := .plain } rest operation meant =
        some (memory', locals') →
      Turn thread act memory memory' ⟨tls, .call activation :: rest⟩
        locals' := by
    intro shared exit operation meant stepped moved
    have move := reportStep_locks guards stepped
    have slots := (reportStep_kept stepped).slots
    have turn : Turn thread act (memory.withShared shared) memory' _
        locals' :=
      frameMove_turn
        (fresh.of_slots fun cell handler empty => by rw [slots]; exact empty)
        suspended (held.move (by rw [same]; exact move)) rfl moved
    exact turn.unlocked move.others rfl
  unfold reportingStep at performed
  split at performed
  · cases performed
  · rename_i shared next stepped
    cases performed
    refine .advance (Or.inl ⟨rfl, rfl⟩) (.refl rest) id suspended held ?_ rfl
    rw [same]
    exact reportStep_locks guards stepped
  · rename_i shared stepped
    exact finishing stepped performed
  · rename_i shared payload stepped
    exact finishing stepped performed

private theorem callStep_turn
    (fresh : SlotsFresh memory)
    (works : ∀ other ∈ activations rest, other.WorkOk)
    (suspended : ∀ item ∈ rest, item.isSuspended = true)
    (held : LocksOk memory.shared thread (.call activation :: rest))
    (performed : callStep thread memory tls activation rest act =
      some (memory', locals')) :
    Turn thread act memory memory' ⟨tls, .call activation :: rest⟩
      locals' := by
  unfold callStep at performed
  split at performed
  · rename_i work
    exact plainStep_turn fresh suspended held work performed
  · rename_i info step work
    exact reportingStep_turn fresh suspended held work performed
  · obtain ⟨⟨cell, entry⟩, inside, moved⟩ :=
      Option.bind_eq_some_iff.mp performed
    exact onceStep_turn fresh works suspended held inside moved

private theorem setStep_turn
    {cell : CellId} {new : Option CallbackId} {step : SetStep P}
    (suspended : ∀ item ∈ rest, item.isSuspended = true)
    (held : LocksOk memory.shared thread
      (.setCallback cell new step :: rest))
    (performed : setStep thread memory tls cell new rest step act =
      some (memory', locals')) :
    Turn thread act memory memory'
      ⟨tls, .setCallback cell new step :: rest⟩ locals' := by
  unfold setStep at performed
  split at performed
  · dsimp only at performed
    split at performed
    · rename_i free
      cases performed
      exact .advance (Or.inl ⟨rfl, rfl⟩) (.refl rest) id suspended held
        (lockMove_writeLock (by simpa using free.1)) rfl
    · cases performed
  · split at performed
    · cases performed
      exact .advance (Or.inl ⟨rfl, rfl⟩) (.refl rest) id suspended held
        (.refl _ _) rfl
    · rename_i old installed
      split at performed
      · rename_i last
        cases performed
        refine .replace (Or.inl ⟨rfl, rfl⟩) (.refl rest) id suspended held
          (.of_registries (by rfl) _) fun _ => ?_
        simp [dropsLast, installed, last]
      · cases performed
        exact .advance (Or.inl ⟨rfl, rfl⟩) (.refl rest) id suspended held
          (.of_registries (by rfl) _) rfl
  · cases performed
    exact .advance (Or.inl ⟨rfl, rfl⟩) (.refl rest) id suspended held
      (.refl _ _) rfl
  · cases performed
    exact .advance (Or.inl ⟨rfl, rfl⟩) (.refl rest) id suspended held
      (.refl _ _) rfl
  · obtain ⟨stack, resumed, same⟩ := Option.map_eq_some_iff.mp performed
    cases same
    exact .pop (Or.inl ⟨rfl, rfl⟩) (resume_below resumed) suspended held
      (lockMove_storeCallback (held.holds_top rfl))
  · cases performed

private theorem pollStep_turn
    {task : Nat} {cell : CellId} {step : PollStep P}
    (works : ∀ other ∈ activations rest, other.WorkOk)
    (suspended : ∀ item ∈ rest, item.isSuspended = true)
    (held : LocksOk memory.shared thread (.poll task cell step :: rest))
    (performed : pollStep thread memory tls task cell rest step act =
      some (memory', locals')) :
    Turn thread act memory memory' ⟨tls, .poll task cell step :: rest⟩
      locals' := by
  unfold pollStep at performed
  split at performed
  case h_1 =>
      cases performed
      exact .pop (Or.inl ⟨rfl, rfl⟩) (.refl rest) suspended held
        (.refl _ _)
  case h_4 =>
      cases performed
      exact .pop (Or.inl ⟨rfl, rfl⟩) (.refl rest) suspended held
        (.of_registries (by rfl) _)
  case h_7 =>
      rename_i step
      have guards : ∀ guard, step.guard = some guard →
          0 < heldBy memory.shared thread (cell, guard) := by
        intro guard isGuard
        refine held.holds_top ?_
        simp [Item.guard, PollStep.guard, isGuard]
      split at performed
      · cases performed
      · rename_i shared next stepped
        cases performed
        exact .advance (Or.inl ⟨rfl, rfl⟩) (.refl rest) id suspended held
          (reportStep_locks guards stepped) rfl
      · rename_i shared stepped
        cases performed
        exact .advance (Or.inl ⟨rfl, rfl⟩) (.refl rest) id suspended held
          (reportStep_locks guards stepped) rfl
      · rename_i shared payload stepped
        cases performed
        exact .advance (Or.inl ⟨rfl, rfl⟩) (.refl rest) id suspended held
          (reportStep_locks guards stepped) rfl
  case h_10 =>
      obtain ⟨⟨cells, inner⟩, dropped, same⟩ :=
        Option.map_eq_some_iff.mp performed
      cases same
      have stays : inner = ⟨tls, frames rest⟩ := by
        cases userStep_rule dropped
        rfl
      subst stays
      have userPoint :
          (Thread.cell (E := E) (P := P) ⟨tls, rest⟩).atUserPoint = true :=
        atUserPoint_of_suspended works suspended
      exact .advance
        (Or.inr ⟨_, program_of_userStep userPoint dropped⟩)
        (.refl rest) id suspended held (.refl _ _) rfl
  case h_11 =>
      obtain ⟨stack, resumed, same⟩ := Option.map_eq_some_iff.mp performed
      cases same
      exact .pop (Or.inl ⟨rfl, rfl⟩) (resume_below resumed) suspended held
        (.refl _ _)
  case h_13 => cases performed
  all_goals
      cases performed
      exact .advance (Or.inl ⟨rfl, rfl⟩) (.refl rest) id suspended held
        (.refl _ _) rfl

/-- The items of a stack at a user point are all suspended. -/
theorem ThreadOk.suspended_all
    (ok : ThreadOk locals) (userPoint : locals.atUserPoint = true) :
    ∀ item ∈ locals.stack, item.isSuspended = true := by
  have tail := ok.suspended
  unfold Thread.atUserPoint at userPoint
  cases shape : locals.stack with
  | nil =>
      intro item member
      cases member
  | cons top rest =>
      rw [shape] at tail userPoint
      intro item member
      rcases List.mem_cons.mp member with isTop | deeper
      · rw [isTop]
        exact Item.isSuspended_of_isUser userPoint
      · exact tail item deeper

private theorem frames_exit (below : List Frame) :
    frames (below.map fun frame =>
      (.call ⟨frame, none, false, .plain, none⟩ : Item E P)) = below := by
  induction below with
  | nil => rfl
  | cons frame below inductionHypothesis =>
      exact congrArg (frame :: ·) inductionHypothesis

/-- `Drop for Local` runs as a call of the cell. -/
private theorem exitThread_turn
    {cells : Snapshot.Memory} {after : Snapshot.Thread}
    (empty : locals.stack = []) (userPoint : locals.cell.atUserPoint = true)
    (held : LocksOk memory.shared thread locals.stack)
    (exited : Snapshot.userStep thread memory.cells locals.cell .exitThread =
      some (cells, after)) :
    Turn thread act memory (memory.withCells cells) locals
      ⟨after.tls, after.stack.map fun frame =>
        .call ⟨frame, none, false, .plain, none⟩⟩ := by
  have noFrames : locals.cell.stack = [] := by
    simp [Thread.cell, empty, frames]
  rw [empty] at held
  obtain ⟨_, _, stays⟩ := userStep_stack exited
  have short : after.stack.tail = [] ∧
      LocksOk memory.shared thread (after.stack.map fun frame =>
        (.call ⟨frame, none, false, .plain, none⟩ : Item E P)) ∧
      Chained (after.stack.map fun frame =>
        (.call ⟨frame, none, false, .plain, none⟩ : Item E P)) := by
    rcases stays with unchanged | ⟨frame, shape, _⟩
    · rw [unchanged, noFrames]
      exact ⟨rfl, held, trivial⟩
    · rw [shape, noFrames]
      exact ⟨rfl, held.push rfl, trivial⟩
  constructor
  · refine Or.inr ⟨.exitThread, ?_⟩
    simp only [Thread.cell, frames_exit]
    exact program_of_userStep userPoint exited
  · intro item member
    rw [← List.map_tail, short.1] at member
    cases member
  · exact short.2.1
  · exact fun _ _ _ => rfl
  · intro item member isDestroy
    obtain ⟨frame, _, rfl⟩ := List.mem_map.mp member
    cases isDestroy
  · exact fun _ => short.2.2

private theorem userStep_turn
    (ok : ThreadOk locals) (userPoint : locals.atUserPoint = true)
    (held : LocksOk memory.shared thread locals.stack)
    (performed : userStep thread memory locals act =
      some (memory', locals')) :
    Turn thread act memory memory' locals locals' := by
  have suspended := ok.suspended_all userPoint
  have inner : locals.cell.atUserPoint = true :=
    atUserPoint_of_suspended ok.works suspended
  cases act with
  | newCell cell address =>
      obtain ⟨⟨cells, after⟩, created, same⟩ :=
        Option.map_eq_some_iff.mp performed
      cases same
      have stays : after = locals.cell := by
        cases userStep_rule created
        rfl
      subst stays
      exact .stay (Or.inr ⟨_, program_of_userStep inner created⟩) suspended
        held (.refl _ _)
  | exitThread =>
      simp only [userStep] at performed
      split at performed
      · rename_i empty
        obtain ⟨⟨cells, after⟩, exited, same⟩ :=
          Option.map_eq_some_iff.mp performed
        cases same
        exact exitThread_turn (List.isEmpty_iff.mp empty) inner held exited
      · cases performed
  | call cell call =>
      simp only [userStep] at performed
      split at performed
      · exact enterCall_turn ok.works suspended held performed
      · cases performed
  | notify cell event =>
      exact enterCall_turn ok.works suspended held performed
  | registerOnce cell =>
      exact enterCall_turn ok.works suspended held performed
  | onPanic cell =>
      simp only [userStep] at performed
      split at performed
      · cases performed
        exact .push (Or.inl ⟨rfl, rfl⟩) suspended held
          (.of_registries (by rfl) _) rfl rfl (.push _ userPoint)
      · cases performed
  | clearPanicCallback cell =>
      simp only [userStep] at performed
      split at performed
      · cases performed
        exact .push (Or.inl ⟨rfl, rfl⟩) suspended held (.refl _ _) rfl rfl
          (.push _ userPoint)
      · cases performed
  | notifyAsync cell =>
      simp only [userStep] at performed
      split at performed
      · cases performed
        exact .stay (Or.inl ⟨rfl, rfl⟩) suspended held
          (.of_registries (by rfl) _)
      · cases performed
  | poll task =>
      simp only [userStep] at performed
      split at performed
      · cases performed
      · rename_i cell _
        have turn : Turn thread (.poll task)
            (memory.withShared (memory.shared.setTask task none)) memory'
            (locals.push (.poll task cell (.load none))) locals' := by
          refine enterCall_turn ok.works ?_ ?_ performed
          · intro item member
            rcases List.mem_cons.mp member with rfl | deeper
            · rfl
            · exact suspended item deeper
          · exact LocksOk.push held rfl
        refine ⟨turn.cells, turn.suspended, turn.held, turn.others, ?_,
          fun chained => turn.chained (chained.push _ userPoint)⟩
        intro item member isDestroy
        rcases turn.destroys item member isDestroy with old | drops
        · rcases List.mem_cons.mp old with rfl | deeper
          · cases isDestroy
          · exact Or.inl deeper
        · cases drops
      · cases performed
        exact .push (Or.inl ⟨rfl, rfl⟩) suspended held
          (.of_registries (by rfl) _) rfl rfl (.push _ userPoint)
  | dropTask task =>
      simp only [userStep] at performed
      split at performed
      · cases performed
      · cases performed
        exact .stay (Or.inl ⟨rfl, rfl⟩) suspended held
          (.of_registries (by rfl) _)
      · cases performed
        exact .push (Or.inl ⟨rfl, rfl⟩) suspended held
          (.of_registries (by rfl) _) rfl rfl (.push _ userPoint)
  | _ => cases performed

theorem program_turn
    (fresh : SlotsFresh memory) (ok : ThreadOk locals)
    (held : LocksOk memory.shared thread locals.stack)
    (performed : program E P thread memory locals act =
      some (memory', locals')) :
    Turn thread act memory memory' locals locals' := by
  rcases program_cases performed with
    ⟨userPoint, user⟩ | ⟨_, item, rest, shape, top⟩
  · exact userStep_turn ok userPoint held user
  · obtain ⟨tls, stack⟩ := locals
    dsimp only at shape
    subst shape
    cases item with
    | call activation =>
        exact callStep_turn fresh
          (fun other member => ok.works other (List.mem_cons_of_mem _ member))
          ok.suspended held top
    | setCallback cell new step => exact setStep_turn ok.suspended held top
    | poll task cell step =>
        exact pollStep_turn ok.works ok.suspended held top

end Turns

end RegistryIo.Reentrant
