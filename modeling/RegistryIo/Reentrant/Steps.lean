import RegistryIo.Reentrant.Machine

/-!
# What a step does to the calls of a thread

`Move` lists every way in which a step changes the calls of the cell that a
thread is in, with the conditions under which it happens.  Replacements of the
callback and polls only matter for calls as far as they leave them alone.
-/

namespace RegistryIo.Reentrant

open RegistryIo.Interleaving RegistryIo.Snapshot
open RegistryIo.Isolation (PanicInfo)

variable {E P : Type}

def Item.activation? : Item E P → Option (Activation E P)
  | .call activation => some activation
  | _ => none

/-- The calls of the cell on a stack, the innermost first. -/
def activations (stack : List (Item E P)) : List (Activation E P) :=
  stack.filterMap Item.activation?

theorem frames_eq (stack : List (Item E P)) :
    frames stack = (activations stack).map Activation.frame := by
  unfold frames activations
  rw [List.map_filterMap]
  congr 1
  funext item
  cases item <;> rfl

@[simp]
theorem activations_setCallback
    (cell : CellId) (new : Option CallbackId) (step : SetStep P)
    (rest : List (Item E P)) :
    activations (.setCallback cell new step :: rest) = activations rest :=
  rfl

@[simp]
theorem activations_poll
    (task : Nat) (cell : CellId) (step : PollStep P)
    (rest : List (Item E P)) :
    activations (.poll task cell step :: rest) = activations rest := rfl

private theorem activations_callerAfter
    (memory : Snapshot.Memory) (rest : List (Item E P)) (frame : Frame) :
    activations (callerAfter memory rest frame) = activations rest := by
  unfold callerAfter
  split
  · unfold receive
    split <;> rfl
  · rfl

/-- The operation does not touch the counter or a slot. -/
structure Kept (shared shared' : Shared) : Prop where
  panics : ∀ cell, (shared'.registries cell).panics =
    (shared.registries cell).panics
  slots : ∀ cell, (shared'.registries cell).slots =
    (shared.registries cell).slots

/-- How the caller of a call changes when the call is over. -/
inductive Resumed : Option P → List (Activation E P) →
    List (Activation E P) → Prop where
  | same (exit : Option P) (calls : List (Activation E P)) :
      Resumed exit calls calls
  | thrown (payload : P) (caller : Activation E P)
      (rest : List (Activation E P)) (work : caller.work = .remove none) :
      Resumed (some payload) (caller :: rest)
        ({ caller with work := .remove (some payload) } :: rest)

/-- How the closure of a call comes to perform an operation of the cell, with
the action it stands for and the shared memory that it leaves. -/
inductive Via (thread : Tid) (act : Act E P) (memory : Memory)
    (activation : Activation E P) :
    Snapshot.Act → Act E P → Shared → Prop where
  | plain {operation : Snapshot.Act} (work : activation.work = .plain)
      (isAct : cellAct memory.cells activation.frame act = some operation) :
      Via thread act memory activation operation act memory.shared
  | skipped {cell : CellId} {entry : Entry} {holder : Option Tid}
      (isNext : act = .next) (work : activation.work = .take)
      (inside : invoked activation.frame = some (cell, entry))
      (empty : (memory.shared.registries cell).slots entry.handler =
        some ⟨holder, false⟩) :
      Via thread act memory activation .handlerReturns .returns
        (memory.shared.setSlot cell entry.handler ⟨none, false⟩)
  | removed {cell : CellId} {entry : Entry}
      (isNext : act = .next) (work : activation.work = .remove none)
      (inside : invoked activation.frame = some (cell, entry)) :
      Via thread act memory activation .handlerReturns .returns
        memory.shared
  | removedPanicked {cell : CellId} {entry : Entry} {payload : P}
      (isNext : act = .next)
      (work : activation.work = .remove (some payload))
      (inside : invoked activation.frame = some (cell, entry)) :
      Via thread act memory activation .handlerPanics (.panics payload)
        memory.shared
  | reported {info : PanicInfo P} {step : ReportStep P} {shared : Shared}
      (work : activation.work = .report info step)
      (ended : reportStep memory.shared thread activation.frame.cellOf step
        act = some (shared, .inr none)) :
      Via thread act memory activation .callbackReturns .returns shared
  | reportedPanicked {info : PanicInfo P} {step : ReportStep P}
      {shared : Shared} {payload : P}
      (work : activation.work = .report info step)
      (ended : reportStep memory.shared thread activation.frame.cellOf step
        act = some (shared, .inr (some payload))) :
      Via thread act memory activation .unwind (.panics payload) shared

/-- The call that a step belongs to, if its top item is one. -/
def topCall (stack : List (Item E P)) : Option (Activation E P) :=
  stack.head?.bind Item.activation?

theorem activations_of_topCall
    {stack : List (Item E P)} {activation : Activation E P}
    (isTop : topCall stack = some activation) :
    ∃ rest, activations stack = activation :: rest := by
  cases stack with
  | nil => cases isTop
  | cons item rest =>
      cases item with
      | call top =>
          cases isTop
          exact ⟨activations rest, rfl⟩
      | setCallback | poll => cases isTop

/-- The step is taken by code from outside, but not to dispatch an event, or
by an item that is not a call of the cell. -/
structure Foreign (act : Act E P) (top : Option (Activation E P)) :
    Prop where
  elsewhere : act.isUser = true ∨ top = none
  notNotify : ∀ cell event, act ≠ .notify cell event

/-- The effect of a step on the calls of its thread; `top` is the call that
the step belongs to. -/
inductive Move (thread : Tid) (act : Act E P) (memory memory' : Memory)
    (tls : Tls) (top : Option (Activation E P)) :
    List (Activation E P) → List (Activation E P) → Prop where
  | outside (exit : Option P) {calls calls' : List (Activation E P)}
      (foreign : Foreign act top)
      (kept : Kept memory.shared memory'.shared)
      (resumed : Resumed exit calls calls') :
      Move thread act memory memory' tls top calls calls'
  | notified (cell : CellId) (event : E) (calls : List (Activation E P))
      (isNotify : act = .notify cell event)
      (shared : memory'.shared = memory.shared) :
      Move thread act memory memory' tls top calls
        (⟨.enter cell (.read true), some event, false, .plain, none⟩ ::
          calls)
  | called (frame : Frame) (once : Bool) (calls : List (Activation E P))
      (foreign : Foreign act top)
      (pushed : Pushed (calls.map Activation.frame) frame)
      (notDispatch : ∀ cell, frame ≠ .enter cell (.read true))
      (kept : Kept memory.shared memory'.shared) :
      Move thread act memory memory' tls top calls
        (⟨frame, none, once, .plain, none⟩ :: calls)
  | lockedSlot (activation : Activation E P)
      (rest : List (Activation E P))
      (isTop : top = some activation) (cell : CellId) (entry : Entry)
      (full : Bool) (isNext : act = .next)
      (work : activation.work = .lockSlot)
      (inside : invoked activation.frame = some (cell, entry))
      (free : (memory.shared.registries cell).slots entry.handler =
        some ⟨none, full⟩)
      (after : memory' = memory.withShared
        (memory.shared.setSlot cell entry.handler ⟨some thread, full⟩)) :
      Move thread act memory memory' tls top (activation :: rest)
        ({ activation with work := .take } :: rest)
  | took (activation : Activation E P) (rest : List (Activation E P))
      (isTop : top = some activation)
      (cell : CellId) (entry : Entry) (holder : Option Tid)
      (isNext : act = .next) (work : activation.work = .take)
      (inside : invoked activation.frame = some (cell, entry))
      (full : (memory.shared.registries cell).slots entry.handler =
        some ⟨holder, true⟩)
      (after : memory' = memory.withShared
        (memory.shared.setSlot cell entry.handler ⟨none, false⟩)) :
      Move thread act memory memory' tls top (activation :: rest)
        ({ activation with work := .once } :: rest)
  | removing (activation : Activation E P) (rest : List (Activation E P))
      (isTop : top = some activation)
      (cell : CellId) (entry : Entry) (panic : Option P)
      (ended : act = .returns ∧ panic = none ∨
        ∃ payload, act = .panics payload ∧ panic = some payload)
      (work : activation.work = .once)
      (inside : invoked activation.frame = some (cell, entry))
      (shared : memory'.shared = memory.shared) :
      Move thread act memory memory' tls top (activation :: rest)
        (⟨.lockWriter cell (.remove entry.id) false, none, false, .plain,
            none⟩ :: { activation with work := .remove panic } :: rest)
  | reporting (activation : Activation E P) (rest : List (Activation E P))
      (isTop : top = some activation)
      (info : PanicInfo P) (step next : ReportStep P) (shared : Shared)
      (work : activation.work = .report info step)
      (stepped : reportStep memory.shared thread activation.frame.cellOf
        step act = some (shared, .inl next))
      (after : memory' = memory.withShared shared) :
      Move thread act memory memory' tls top (activation :: rest)
        ({ activation with work := .report info next } :: rest)
  | thrown (activation : Activation E P) (rest : List (Activation E P))
      (isTop : top = some activation)
      (cell : CellId) (payload : P)
      (isPanic : act = .panics payload)
      (work : activation.work = .plain)
      (isFrame : activation.frame = .leaveFallback cell)
      (same : memory' = memory) :
      Move thread act memory memory' tls top (activation :: rest)
        ({ activation with unwinding := some payload } :: rest)
  | moved (activation : Activation E P) (rest : List (Activation E P))
      (isTop : top = some activation)
      (operation : Snapshot.Act) (meant : Act E P) (shared : Shared)
      (tls' : Tls) (frame : Frame) (unwinding : Option P)
      (via : Via thread act memory activation operation meant shared)
      (stepped : frameStep memory.cells ⟨thread, rest.length⟩ tls
        activation.frame operation = some (memory'.cells, tls', some frame))
      (after : memory'.shared = sharedAfter ⟨memory.cells, shared⟩
        activation operation)
      (unwinds : unwindingAfter activation.unwinding operation meant =
        some unwinding) :
      Move thread act memory memory' tls top (activation :: rest)
        ({ activation with
            frame := frame
            work := workAfter shared frame operation meant
            unwinding := unwinding } :: rest)
  | popped (activation : Activation E P)
      {rest rest' : List (Activation E P)}
      (isTop : top = some activation)
      (operation : Snapshot.Act) (meant : Act E P) (shared : Shared)
      (tls' : Tls)
      (via : Via thread act memory activation operation meant shared)
      (stepped : frameStep memory.cells ⟨thread, rest.length⟩ tls
        activation.frame operation = some (memory'.cells, tls', none))
      (after : memory'.shared = shared)
      (resumed : Resumed activation.unwinding rest rest') :
      Move thread act memory memory' tls top (activation :: rest) rest'

section Inversion

variable {thread : Tid} {memory memory' : Memory} {tls : Tls}
variable {locals locals' : Thread E P} {act : Act E P}
variable {rest : List (Item E P)} {activation : Activation E P}
variable {top : Option (Activation E P)}

private theorem Foreign.of_item (own : act.isUser = false) :
    Foreign act none := by
  refine ⟨Or.inr rfl, ?_⟩
  rintro cell event rfl
  cases own

theorem Kept.of_registries
    {shared shared' : Shared}
    (same : shared'.registries = shared.registries) :
    Kept shared shared' := by
  constructor
  · intro cell
    rw [same]
  · intro cell
    rw [same]

theorem Kept.refl (shared : Shared) : Kept shared shared :=
  .of_registries rfl

/-- Code from outside changes no call of the cell. -/
private theorem Move.of_user
    {calls : List (Activation E P)} (user : act.isUser = true)
    (notNotify : ∀ cell event, act ≠ .notify cell event)
    (kept : Kept memory.shared memory'.shared) :
    Move thread act memory memory' tls top calls calls :=
  .outside none ⟨Or.inl user, notNotify⟩ kept (.same _ _)

/-- An item that is not a call of the cell changes no call of it before the
item ends. -/
private theorem Move.of_item
    {calls : List (Activation E P)} (own : act.isUser = false)
    (kept : Kept memory.shared memory'.shared) :
    Move thread act memory memory' tls none calls calls :=
  .outside none (.of_item own) kept (.same _ _)

theorem Kept.setRegistry
    {shared : Shared} {cell : CellId} {registry : Registry}
    (panics : registry.panics = (shared.registries cell).panics)
    (slots : registry.slots = (shared.registries cell).slots) :
    Kept shared (shared.setRegistry cell registry) := by
  constructor
  · intro other
    by_cases same : other = cell
    · subst same
      simpa [Shared.setRegistry] using panics
    · simp [Shared.setRegistry, same]
  · intro other
    by_cases same : other = cell
    · subst same
      simpa [Shared.setRegistry] using slots
    · simp [Shared.setRegistry, same]

private theorem resume_resumed
    {exit : Option P} {stack stack' : List (Item E P)}
    (resumed : resume exit stack = some stack') :
    Resumed exit (activations stack) (activations stack') := by
  unfold resume at resumed
  split at resumed
  · cases resumed
    exact .same _ _
  · split at resumed
    · rename_i work
      cases resumed
      exact .thrown _ _ _ work
    · cases resumed
    · cases resumed
      exact .same _ _
  · cases resumed
    exact .same _ _
  · cases resumed
    exact .same _ _

/-- The rest of a step once it is clear which operation of the cell it
performs. -/
private theorem frameMove_move
    {operation : Snapshot.Act} {meant : Act E P} {shared : Shared}
    (work : Work P)
    (via : Via thread act memory activation operation meant shared)
    (performed : frameMove thread (memory.withShared shared) tls
      { activation with work := work } rest operation meant =
        some (memory', locals')) :
    Move thread act memory memory' tls (some activation)
      (activation :: activations rest) (activations locals'.stack) := by
  unfold frameMove at performed
  have level : (frames rest).length = (activations rest).length := by
    rw [frames_eq, List.length_map]
  rw [level] at performed
  split at performed
  · cases performed
  · rename_i cells tls' stepped
    obtain ⟨stack, resumed, same⟩ := Option.map_eq_some_iff.mp performed
    cases same
    exact .popped activation rfl operation meant shared tls' via stepped rfl
      (resume_resumed resumed)
  · rename_i cells tls' frame stepped
    obtain ⟨unwinding, unwinds, same⟩ := Option.map_eq_some_iff.mp performed
    cases same
    have rests :=
      activations_callerAfter memory.cells rest activation.frame
    have result : Move thread act memory
        ⟨cells, sharedAfter ⟨memory.cells, shared⟩ activation operation⟩ tls
        (some activation) (activation :: activations rest)
        ({ activation with
            frame := frame
            work := workAfter shared frame operation meant
            unwinding := unwinding } :: activations rest) :=
      .moved activation _ rfl operation meant shared tls' frame unwinding via
        stepped rfl unwinds
    rw [← rests] at result ⊢
    exact result

private theorem enterCall_eq
    {cell : CellId} {call : Snapshot.Call} {event : Option E} {once : Bool}
    (performed : enterCall thread memory locals cell call event once =
      some (memory', locals')) :
    memory'.shared = memory.shared ∧
      locals' = locals.push
        (.call ⟨call.enter cell, event, once, .plain, none⟩) := by
  obtain ⟨result, _, same⟩ := Option.map_eq_some_iff.mp performed
  cases same
  exact ⟨rfl, rfl⟩

private theorem plainStep_move
    (work : activation.work = .plain)
    (performed : plainStep thread memory tls activation rest act =
      some (memory', locals')) :
    Move thread act memory memory' tls (some activation)
      (activation :: activations rest) (activations locals'.stack) := by
  unfold plainStep at performed
  split at performed
  · rename_i cell payload isFrame
    obtain ⟨_, _, same⟩ := Option.map_eq_some_iff.mp performed
    cases same
    exact .thrown activation _ rfl cell payload rfl work isFrame rfl
  · obtain ⟨operation, isAct, moved⟩ :=
      Option.bind_eq_some_iff.mp performed
    exact frameMove_move activation.work (.plain work isAct) moved

private theorem onceStep_move
    {cell : CellId} {entry : Entry}
    (inside : invoked activation.frame = some (cell, entry))
    (performed : onceStep thread memory tls activation rest cell entry
      activation.work act = some (memory', locals')) :
    Move thread act memory memory' tls (some activation)
      (activation :: activations rest) (activations locals'.stack) := by
  unfold onceStep at performed
  split at performed
  · rename_i work
    split at performed
    · rename_i full free
      cases performed
      exact .lockedSlot activation _ rfl cell entry full rfl work inside free
        rfl
    · cases performed
  · rename_i work
    dsimp only at performed
    split at performed
    · rename_i holder full
      cases performed
      exact .took activation _ rfl cell entry holder rfl work inside full rfl
    · rename_i holder empty
      exact frameMove_move .plain (.skipped rfl work inside empty) performed
    · cases performed
  · rename_i work
    obtain ⟨shared, rfl⟩ := enterCall_eq performed
    exact .removing activation _ rfl cell entry none (Or.inl ⟨rfl, rfl⟩) work
      inside shared
  · rename_i payload work
    obtain ⟨shared, rfl⟩ := enterCall_eq performed
    exact .removing activation _ rfl cell entry (some payload)
      (Or.inr ⟨payload, rfl, rfl⟩) work inside shared
  · rename_i work
    exact frameMove_move .plain (.removed rfl work inside) performed
  · rename_i payload work
    exact frameMove_move .plain (.removedPanicked rfl work inside) performed
  · cases performed

private theorem reportingStep_move
    {info : PanicInfo P} {step : ReportStep P}
    (work : activation.work = .report info step)
    (performed : reportingStep thread memory tls activation rest info step
      act = some (memory', locals')) :
    Move thread act memory memory' tls (some activation)
      (activation :: activations rest) (activations locals'.stack) := by
  unfold reportingStep at performed
  split at performed
  · cases performed
  · rename_i shared next stepped
    cases performed
    exact .reporting activation _ rfl info step next shared work stepped rfl
  · rename_i shared ended
    exact frameMove_move .plain (.reported work ended) performed
  · rename_i shared payload ended
    exact frameMove_move .plain (.reportedPanicked work ended) performed

private theorem callStep_move
    (performed : callStep thread memory tls activation rest act =
      some (memory', locals')) :
    Move thread act memory memory' tls (some activation)
      (activation :: activations rest) (activations locals'.stack) := by
  unfold callStep at performed
  split at performed
  · rename_i work
    exact plainStep_move work performed
  · rename_i info step work
    exact reportingStep_move work performed
  · obtain ⟨⟨cell, entry⟩, inside, moved⟩ :=
      Option.bind_eq_some_iff.mp performed
    exact onceStep_move inside moved

private theorem setStep_move
    {cell : CellId} {new : Option CallbackId} {step : SetStep P}
    (own : act.isUser = false)
    (performed : setStep thread memory tls cell new rest step act =
      some (memory', locals')) :
    Move thread act memory memory' tls none (activations rest)
      (activations locals'.stack) := by
  unfold setStep at performed
  split at performed
  · dsimp only at performed
    split at performed
    · cases performed
      exact .of_item own (.setRegistry rfl rfl)
    · cases performed
  · split at performed
    · cases performed
      exact .of_item own (.refl _)
    · split at performed
      · cases performed
        exact .of_item own (.of_registries rfl)
      · cases performed
        exact .of_item own (.of_registries rfl)
  · cases performed
    exact .of_item own (.refl _)
  · cases performed
    exact .of_item own (.refl _)
  · obtain ⟨stack, resumed, same⟩ := Option.map_eq_some_iff.mp performed
    cases same
    exact .outside _ (.of_item own) (.setRegistry rfl rfl)
      (resume_resumed resumed)
  · cases performed

theorem reportStep_kept
    {shared shared' : Shared} {cell : CellId} {step : ReportStep P}
    {result : ReportStep P ⊕ Option P}
    (stepped : reportStep shared thread cell step act =
      some (shared', result)) : Kept shared shared' := by
  unfold reportStep at stepped
  split at stepped
  · split at stepped
    · cases stepped
      exact .setRegistry rfl rfl
    · cases stepped
  · cases stepped
    cases (shared.registries cell).panicCallback with
    | none => exact .refl _
    | some holder => exact .of_registries rfl
  case h_9 =>
      split at stepped
      · cases stepped
        exact .of_registries rfl
      · cases stepped
        exact .of_registries rfl
  case h_3 | h_4 =>
      cases stepped
      exact .setRegistry rfl rfl
  all_goals
      cases stepped
  all_goals exact .refl _

private theorem pollStep_move
    {task : Nat} {cell : CellId} {step : PollStep P}
    (own : act.isUser = false)
    (performed : pollStep thread memory tls task cell rest step act =
      some (memory', locals')) :
    Move thread act memory memory' tls none (activations rest)
      (activations locals'.stack) := by
  unfold pollStep at performed
  split at performed
  case h_7 =>
      split at performed
      · cases performed
      · rename_i shared next stepped
        cases performed
        exact .of_item own (reportStep_kept stepped)
      · rename_i shared stepped
        cases performed
        exact .of_item own (reportStep_kept stepped)
      · rename_i shared payload stepped
        cases performed
        exact .of_item own (reportStep_kept stepped)
  case h_10 =>
      obtain ⟨result, _, same⟩ := Option.map_eq_some_iff.mp performed
      cases same
      exact .of_item own (.refl _)
  case h_11 =>
      obtain ⟨stack, resumed, same⟩ := Option.map_eq_some_iff.mp performed
      cases same
      exact .outside _ (.of_item own) (.refl _) (resume_resumed resumed)
  case h_13 => cases performed
  all_goals
      cases performed
      exact .of_item own (.of_registries rfl)

private theorem enterCall_move
    {cell : CellId} {call : Snapshot.Call} {once : Bool}
    (foreign : Foreign act top) (notDispatch : call ≠ .read true)
    (performed : enterCall thread memory locals cell call none once =
      some (memory', locals')) :
    Move thread act memory memory' tls top (activations locals.stack)
      (activations locals'.stack) := by
  obtain ⟨same, rfl⟩ := enterCall_eq performed
  refine .called _ once _ foreign (Or.inl ⟨cell, call, rfl⟩) ?_ ?_
  · intro other isEnter
    cases call with
    | read notify =>
        cases isEnter
        exact notDispatch rfl
    | _ => cases isEnter
  · rw [same]
    exact .refl _

private theorem userStep_move
    (performed : userStep thread memory locals act =
      some (memory', locals')) :
    Move thread act memory memory' locals.tls top
      (activations locals.stack) (activations locals'.stack) := by
  cases act with
  | newCell cell address =>
      obtain ⟨result, _, same⟩ := Option.map_eq_some_iff.mp performed
      cases same
      exact .of_user rfl (by simp) (.refl _)
  | exitThread =>
      simp only [userStep] at performed
      split at performed
      · rename_i empty
        have isEmpty : locals.stack = [] := List.isEmpty_iff.mp empty
        have noFrames : locals.cell.stack = [] := by
          simp [Thread.cell, isEmpty, frames]
        obtain ⟨⟨cells, after⟩, inner, same⟩ :=
          Option.map_eq_some_iff.mp performed
        cases same
        cases userStep_rule inner with
        | exitUnclaimed =>
            rw [noFrames, isEmpty]
            exact .of_user rfl (by simp) (.refl _)
        | exitClaimed =>
            rw [isEmpty]
            exact .called _ false [] ⟨Or.inl rfl, by simp⟩
              (Or.inr (Or.inr ⟨rfl, _, rfl⟩)) (by simp) (.refl _)
      · cases performed
  | call cell call =>
      simp only [userStep] at performed
      split at performed
      · rename_i direct
        refine enterCall_move ⟨Or.inl rfl, by simp⟩ ?_ performed
        rintro rfl
        cases direct
      · cases performed
  | notify cell event =>
      obtain ⟨same, rfl⟩ := enterCall_eq performed
      exact .notified cell event _ rfl same
  | registerOnce cell =>
      exact enterCall_move ⟨Or.inl rfl, by simp⟩ (by simp) performed
  | onPanic cell =>
      simp only [userStep] at performed
      split at performed
      · cases performed
        exact .of_user rfl (by simp) (.of_registries rfl)
      · cases performed
  | clearPanicCallback cell =>
      simp only [userStep] at performed
      split at performed
      · cases performed
        exact .of_user rfl (by simp) (.refl _)
      · cases performed
  | notifyAsync cell =>
      simp only [userStep] at performed
      split at performed
      · cases performed
        exact .of_user rfl (by simp) (.of_registries rfl)
      · cases performed
  | poll task =>
      simp only [userStep] at performed
      split at performed
      · cases performed
      · obtain ⟨same, rfl⟩ := enterCall_eq performed
        refine .called _ false _ ⟨Or.inl rfl, by simp⟩
          (Or.inl ⟨_, .loadArcIf, rfl⟩) (by simp [Snapshot.Call.enter]) ?_
        rw [same]
        exact .of_registries rfl
      · cases performed
        exact .of_user rfl (by simp) (.of_registries rfl)
  | dropTask task =>
      simp only [userStep] at performed
      split at performed
      · cases performed
      · cases performed
        exact .of_user rfl (by simp) (.of_registries rfl)
      · cases performed
        exact .of_user rfl (by simp) (.of_registries rfl)
  | _ => cases performed

/-- A step is taken by code from outside or by the top item. -/
theorem program_cases
    (performed : program E P thread memory locals act =
      some (memory', locals')) :
    (locals.atUserPoint = true ∧
        userStep thread memory locals act = some (memory', locals')) ∨
      act.isUser = false ∧ ∃ item rest, locals.stack = item :: rest ∧
        itemStep thread memory locals.tls item rest act =
          some (memory', locals') := by
  unfold program at performed
  split at performed
  · split at performed
    · rename_i userPoint
      exact Or.inl ⟨userPoint, performed⟩
    · cases performed
  · rename_i own
    split at performed
    · cases performed
    · rename_i item rest shape
      exact Or.inr ⟨Bool.eq_false_iff.mpr own, item, rest, shape, performed⟩

/-- Every step is a move of the calls of its thread. -/
theorem program_move
    (performed : program E P thread memory locals act =
      some (memory', locals')) :
    Move thread act memory memory' locals.tls (topCall locals.stack)
      (activations locals.stack) (activations locals'.stack) := by
  rcases program_cases performed with
    ⟨_, user⟩ | ⟨own, item, rest, shape, top⟩
  · exact userStep_move user
  · rw [shape]
    cases item with
    | call activation => exact callStep_move top
    | setCallback cell new step =>
        rw [activations_setCallback]
        exact setStep_move own top
    | poll task cell step =>
        rw [activations_poll]
        exact pollStep_move own top

end Inversion

end RegistryIo.Reentrant
