import RegistryIo.Snapshot.Machine

/-!
# Registries with atomic operations

What the registries of a program are for.  A registry is a list of entries, a
generator of ids and the number of calls that borrow it.  A call takes effect
in one step: a read or a load takes the whole list, an insertion, a removal or
a clear replaces it.  Only a registration has two steps, since its id is drawn
before its entry is inserted.  There are no hazards, no locks, no versions and
no memory to reclaim.

The threads of this machine call the same operations as those of the program,
from the same places of user code.
-/

namespace RegistryIo.Atomic

open RegistryIo.Interleaving
open RegistryIo.Snapshot
  (Tid CellId CallId Entry Effect Phase Body Call Write bodyStep)

/-- What a call answers.  `done` is the answer of reads and loads, and of
every call that unwinds. -/
inductive Answer where
  | done
  | changed (effect : Effect)
  | unchanged
  deriving DecidableEq, Repr

structure Registry where
  phase : Phase
  list : List Entry
  idGenerator : HandlerIdGenerator
  registrations : Nat
  borrows : Nat
  deriving DecidableEq, Repr

abbrev Memory := CellId → Registry

/-- A call in progress: it was called, its id is drawn, it runs its closure on
a list, it has a list whose predicate is not evaluated yet, it is going to
hand out a list, or it is going to answer.  `internal` stands for the drop of
a registry and for the end of a thread. -/
inductive Activation where
  | called (cell : CellId) (operation : Call)
  | drawn (cell : CellId) (entry : Entry)
  | inside (cell : CellId) (body : Body)
  | loaded (cell : CellId) (list : List Entry)
  | kept (cell : CellId) (list : List Entry)
  | answered (cell : CellId) (answer : Answer)
  | internal
  deriving DecidableEq, Repr

/-- User code may run above the activation: in a closure, or in destructors
of values that are given up after the effect. -/
def Activation.isUser : Activation → Bool
  | .inside _ body => body.isUser
  | .kept _ _ => true
  | .answered _ _ => true
  | .internal => true
  | _ => false

inductive Act where
  | newCell (cell : CellId)
  | dropCell (cell : CellId)
  | call (cell : CellId) (operation : Call)
  | exitThread
  | draw
  | effect
  | body (act : Snapshot.Act)
  | keep (accepted : Bool)
  | hand
  | abandon
  | respond
  | pop
  deriving DecidableEq, Repr

namespace Registry

def initial : Registry := ⟨.unborn, [], .new, 0, 0⟩

def create (registry : Registry) : Registry :=
  { registry with phase := .alive }

def drop (registry : Registry) : Registry :=
  { registry with phase := .dropped }

def borrow (registry : Registry) : Registry :=
  { registry with borrows := registry.borrows + 1 }

def release (registry : Registry) : Registry :=
  { registry with borrows := registry.borrows - 1 }

/-- The entry of the next registration. -/
def entry (registry : Registry) (priority : Int) : Entry :=
  ⟨registry.idGenerator.next.1, priority, registry.registrations⟩

def draw (registry : Registry) : Registry :=
  { registry with
    idGenerator := registry.idGenerator.next.2
    registrations := registry.registrations + 1 }

/-- A write replaces the list or leaves it alone. -/
def write (registry : Registry) (write : Write) : Registry :=
  { registry with
    list := (write.apply registry.list).getD registry.list }

/-- The answer to a write. -/
def answer (registry : Registry) (write : Write) : Answer :=
  match write.apply registry.list with
  | none => .unchanged
  | some _ => .changed (write.effect registry.list)

theorem answer_of_some
    {registry : Registry} {write : Write} {value : List Entry}
    (computed : write.apply registry.list = some value) :
    registry.answer write = .changed (write.effect registry.list) ∧
      (registry.write write).list = value := by
  simp [Registry.answer, Registry.write, computed]

theorem answer_of_none
    {registry : Registry} {write : Write}
    (unchanged : write.apply registry.list = none) :
    registry.answer write = .unchanged ∧
      registry.write write = registry := by
  simp [Registry.answer, Registry.write, unchanged]

end Registry

section Steps

variable (memory : Memory)

def writeStep (cell : CellId) (write : Write) :
    Option (Memory × Option Activation) :=
  some (Function.update memory cell ((memory cell).write write),
    some (.answered cell ((memory cell).answer write)))

/-- The effect of a call. -/
def effectStep (cell : CellId) :
    Call → Option (Memory × Option Activation)
  | .read notify =>
      some (memory,
        some (.inside cell (Body.start notify (memory cell).list)))
  | .loadArcIf => some (memory, some (.loaded cell (memory cell).list))
  | .register _ => none
  | .unregister id _ => writeStep memory cell (.remove id)
  | .clear _ => writeStep memory cell .clear

/-- The closure of a read returns, unwinds or goes on. -/
def insideStep (cell : CellId) (body : Body) (act : Snapshot.Act) :
    Option (Memory × Option Activation) :=
  if (act = .finish ∧ body.finishes) ∨ (act = .unwind ∧ body.unwinds) then
    some (memory, some (.answered cell .done))
  else
    (bodyStep body act).map fun next => (memory, some (.inside cell next))

/-- One step of the innermost call. -/
def activationStep :
    Activation → Act → Option (Memory × Option Activation)
  | .called cell (.register priority), .draw =>
      some (Function.update memory cell (memory cell).draw,
        some (.drawn cell ((memory cell).entry priority)))
  | .called cell operation, .effect => effectStep memory cell operation
  | .drawn cell entry, .effect => writeStep memory cell (.insert entry)
  | .inside cell body, .body act => insideStep memory cell body act
  | .loaded cell list, .keep accepted =>
      some (memory,
        some (if accepted then .kept cell list else .answered cell .done))
  | .kept cell _, .hand => some (memory, some (.answered cell .done))
  | .kept cell _, .abandon => some (memory, some (.answered cell .done))
  | .answered cell _, .abandon => some (memory, some (.answered cell .done))
  | .answered cell _, .respond =>
      some (Function.update memory cell (memory cell).release, none)
  | .internal, .pop => some (memory, none)
  | _, _ => none

theorem insideStep_end
    {cell : CellId} {body : Body} {act : Snapshot.Act}
    (ends : (act = .finish ∧ body.finishes) ∨
      (act = .unwind ∧ body.unwinds)) :
    insideStep memory cell body act =
      some (memory, some (.answered cell .done)) := by
  rw [insideStep, if_pos ends]

/-- The loop of `notify` goes on. -/
theorem insideStep_body
    {cell : CellId} {body next : Body} {act : Snapshot.Act}
    (inside : bodyStep body act = some next) :
    insideStep memory cell body act =
      some (memory, some (.inside cell next)) := by
  have goesOn : ¬ ((act = .finish ∧ body.finishes) ∨
      (act = .unwind ∧ body.unwinds)) := by
    rintro (⟨rfl, _⟩ | ⟨rfl, _⟩) <;> cases body <;>
      simp [bodyStep] at inside
  rw [insideStep, if_neg goesOn, inside]
  rfl

end Steps

/-- User code may run: the stack is empty or its top is in user code. -/
def atUserPoint : List Activation → Bool
  | [] => true
  | activation :: _ => activation.isUser

def userStep (memory : Memory) (stack : List Activation) :
    Act → Option (Memory × List Activation)
  | .newCell cell =>
      if (memory cell).phase = .unborn then
        some (Function.update memory cell (memory cell).create, stack)
      else none
  | .dropCell cell =>
      if (memory cell).phase = .alive ∧ (memory cell).borrows = 0 then
        some (Function.update memory cell (memory cell).drop,
          .internal :: stack)
      else none
  | .call cell operation =>
      if (memory cell).phase = .alive then
        some (Function.update memory cell (memory cell).borrow,
          .called cell operation :: stack)
      else none
  | .exitThread =>
      if stack = [] then some (memory, [.internal]) else none
  | _ => none

def stackStep (memory : Memory) :
    List Activation → Act → Option (Memory × List Activation)
  | [], _ => none
  | activation :: rest, act =>
      (activationStep memory activation act).map
        fun (memory', next) => (memory', next.toList ++ rest)

/-- The program of every thread. -/
def program : Program Tid Memory (List Activation) Act :=
  fun _ memory stack act =>
    match act with
    | .newCell _ | .dropCell _ | .call _ _ | .exitThread =>
        if atUserPoint stack then userStep memory stack act else none
    | _ => stackStep memory stack act

abbrev State := Config Tid Memory (List Activation)

def initial : State := ⟨fun _ => .initial, fun _ => []⟩

/-! ### Everything a step can do -/

/-- The call is going to write: its id is drawn, or it is a removal. -/
inductive Writes (cell : CellId) : Activation → Write → Prop where
  | insert (entry : Entry) : Writes cell (.drawn cell entry) (.insert entry)
  | remove (id : HandlerId) (wait : Bool) :
      Writes cell (.called cell (.unregister id wait)) (.remove id)
  | clear (wait : Bool) : Writes cell (.called cell (.clear wait)) .clear

inductive Change where
  | draw (priority : Int)
  | write (write : Write)
  deriving DecidableEq, Repr

/-- What a step does to a registry. -/
def Activation.change : Activation → Act → Option (CellId × Change)
  | .called cell (.register priority), .draw => some (cell, .draw priority)
  | .called cell (.unregister id _), .effect =>
      some (cell, .write (.remove id))
  | .called cell (.clear _), .effect => some (cell, .write .clear)
  | .drawn cell entry, .effect => some (cell, .write (.insert entry))
  | _, _ => none

/-- A step of the innermost call draws an id, writes, or leaves all
registries alone but for the number of their borrowers. -/
inductive ActivationStep (memory : Memory) (activation : Activation)
    (act : Act) : Memory → Option Activation → Prop where
  | draws (cell : CellId) (priority : Int)
      (isRegister : activation = .called cell (.register priority))
      (changes : activation.change act = some (cell, .draw priority)) :
      ActivationStep memory activation act
        (Function.update memory cell (memory cell).draw)
        (some (.drawn cell ((memory cell).entry priority)))
  | writes (cell : CellId) (write : Write)
      (isWrite : Writes cell activation write)
      (changes : activation.change act = some (cell, .write write)) :
      ActivationStep memory activation act
        (Function.update memory cell ((memory cell).write write))
        (some (.answered cell ((memory cell).answer write)))
  | goesOn (next : Activation)
      (undrawn : ∀ cell entry, activation ≠ .drawn cell entry)
      (undrawnNext : ∀ cell entry, next ≠ .drawn cell entry)
      (unchanged : activation.change act = none) :
      ActivationStep memory activation act memory (some next)
  | returns (cell : CellId)
      (undrawn : ∀ cell entry, activation ≠ .drawn cell entry)
      (unchanged : activation.change act = none) :
      ActivationStep memory activation act
        (Function.update memory cell (memory cell).release) none
  | pops (undrawn : ∀ cell entry, activation ≠ .drawn cell entry)
      (unchanged : activation.change act = none) :
      ActivationStep memory activation act memory none

theorem activationStep_rule
    {memory memory' : Memory} {activation : Activation} {act : Act}
    {next : Option Activation}
    (moved : activationStep memory activation act = some (memory', next)) :
    ActivationStep memory activation act memory' next := by
  unfold activationStep at moved
  split at moved
  · cases moved
    exact .draws _ _ rfl rfl
  · rename_i cell operation
    cases operation with
    | read notify | loadArcIf =>
        cases moved
        exact .goesOn _ (by simp) (by simp) rfl
    | register priority => cases moved
    | unregister id wait =>
        cases moved
        exact .writes _ _ (.remove id wait) rfl
    | clear wait =>
        cases moved
        exact .writes _ _ (.clear wait) rfl
  · cases moved
    exact .writes _ _ (.insert _) rfl
  · unfold insideStep at moved
    split at moved
    · cases moved
      exact .goesOn _ (by simp) (by simp) rfl
    · obtain ⟨body, _, same⟩ := Option.map_eq_some_iff.mp moved
      cases same
      exact .goesOn _ (by simp) (by simp) rfl
  · rename_i cell list accepted
    cases moved
    refine .goesOn _ (by simp) ?_ rfl
    cases accepted <;> simp
  · cases moved
    exact .goesOn _ (by simp) (by simp) rfl
  · cases moved
    exact .goesOn _ (by simp) (by simp) rfl
  · cases moved
    exact .goesOn _ (by simp) (by simp) rfl
  · cases moved
    exact .returns _ (by simp) rfl
  · cases moved
    exact .pops (by simp) rfl
  · cases moved

theorem program_cases
    {thread : Tid} {memory memory' : Memory}
    {stack stack' : List Activation} {act : Act}
    (performed : program thread memory stack act = some (memory', stack')) :
    (atUserPoint stack = true ∧
        userStep memory stack act = some (memory', stack')) ∨
      ∃ activation rest next, stack = activation :: rest ∧
        activationStep memory activation act = some (memory', next) ∧
        stack' = next.toList ++ rest := by
  have user : (if atUserPoint stack then userStep memory stack act
      else none) = some (memory', stack') →
        atUserPoint stack = true ∧
          userStep memory stack act = some (memory', stack') := by
    intro ran
    split at ran
    · exact ⟨‹_›, ran⟩
    · cases ran
  have inner : stackStep memory stack act = some (memory', stack') →
      ∃ activation rest next, stack = activation :: rest ∧
        activationStep memory activation act = some (memory', next) ∧
        stack' = next.toList ++ rest := by
    intro ran
    cases stack with
    | nil => cases ran
    | cons activation rest =>
        obtain ⟨⟨memory'', next⟩, moved, same⟩ :=
          Option.map_eq_some_iff.mp ran
        cases same
        exact ⟨activation, rest, next, rfl, moved, rfl⟩
  cases act with
  | newCell | dropCell | call | exitThread => exact Or.inl (user performed)
  | _ => exact Or.inr (inner performed)

/-! ### What user code sees -/

/-- User code creates and drops registries and calls operations; closures and
handlers run; predicates of loads are asked about a list; handles are given
out; calls return. -/
inductive Event where
  | created (cell : CellId)
  | dropped (cell : CellId)
  | called (call : CallId) (cell : CellId) (operation : Call)
  | opened (call : CallId) (cell : CellId) (list : List Entry)
  | moved (call : CallId) (cell : CellId) (body : Body)
      (act : Snapshot.Act)
  | tested (call : CallId) (cell : CellId) (list : List Entry)
      (accepted : Bool)
  | handed (call : CallId) (cell : CellId) (list : List Entry)
  | returned (call : CallId) (cell : CellId) (answer : Answer)
  deriving DecidableEq, Repr

/-- The event of a step of the innermost call. -/
def Activation.event (memory : Memory) (call : CallId) :
    Activation → Act → Option Event
  | .called cell (.read _), .effect =>
      some (.opened call cell (memory cell).list)
  | .inside cell body, .body act => some (.moved call cell body act)
  | .loaded cell list, .keep accepted =>
      some (.tested call cell list accepted)
  | .kept cell list, .hand => some (.handed call cell list)
  | .answered cell answer, .respond => some (.returned call cell answer)
  | _, _ => none

def observe (state : State) (thread : Tid) (act : Act) : Option Event :=
  match act with
  | .newCell cell => some (.created cell)
  | .dropCell cell => some (.dropped cell)
  | .call cell operation =>
      some (.called ⟨thread, (state.threads thread).length⟩ cell operation)
  | act =>
      match state.threads thread with
      | [] => none
      | activation :: rest =>
          activation.event state.memory ⟨thread, rest.length⟩ act

/-- The order of the effects in a run: what user code sees, and between that
the steps in which calls draw an id and the steps in which writes take
effect. -/
inductive Point where
  | seen (event : Event)
  | drew (call : CallId)
  | wrote (call : CallId)
  deriving DecidableEq, Repr

def Point.event : Point → Option Event
  | .seen event => some event
  | _ => none

def Activation.point (memory : Memory) (call : CallId)
    (activation : Activation) (act : Act) : Option Point :=
  match activation.change act with
  | some (_, .draw _) => some (.drew call)
  | some (_, .write _) => some (.wrote call)
  | none => (activation.event memory call act).map .seen

/-- User code does not see the steps that change a registry. -/
theorem Activation.point_event
    (memory : Memory) (call : CallId) (activation : Activation) (act : Act) :
    (activation.point memory call act).bind Point.event =
      activation.event memory call act := by
  have seen : activation.change act = none →
      (activation.point memory call act).bind Point.event =
        activation.event memory call act := by
    intro unchanged
    rw [Activation.point, unchanged]
    cases activation.event memory call act <;> rfl
  unfold Activation.change at seen
  split at seen
  · rfl
  · rfl
  · rfl
  · rfl
  · exact seen rfl

def observePoints (state : State) (thread : Tid) (act : Act) :
    Option Point :=
  match act with
  | .newCell _ | .dropCell _ | .call _ _ | .exitThread =>
      (observe state thread act).map .seen
  | act =>
      match state.threads thread with
      | [] => none
      | activation :: rest =>
          activation.point state.memory ⟨thread, rest.length⟩ act

/-- What user code sees does not show where writes take effect. -/
theorem observePoints_event (state : State) (thread : Tid) (act : Act) :
    (observePoints state thread act).bind Point.event =
      observe state thread act := by
  cases act with
  | newCell | dropCell | call => rfl
  | exitThread =>
      simp only [observePoints]
      cases observe state thread .exitThread <;> rfl
  | _ =>
      simp only [observePoints, observe]
      split
      · rfl
      · exact Activation.point_event _ _ _ _

section Moves

variable {state : State} {thread : Tid} {memory' : Memory}
variable {stack : List Activation}

/-- A step of user code. -/
theorem step_user
    {act : Act} (userPoint : atUserPoint (state.threads thread) = true)
    (performed : userStep state.memory (state.threads thread) act =
      some (memory', stack)) :
    program.step state thread act =
      some ⟨memory', Function.update state.threads thread stack⟩ := by
  have ran : program thread state.memory (state.threads thread) act =
      some (memory', stack) := by
    cases act with
    | newCell | dropCell | call | exitThread =>
        simp only [program, userPoint, if_true]
        exact performed
    | _ => cases performed
  simp [Program.step, ran]

/-- A step of the innermost call. -/
theorem step_activation
    {activation : Activation} {rest : List Activation}
    {next : Option Activation} {act : Act}
    (shape : state.threads thread = activation :: rest)
    (moved : activationStep state.memory activation act =
      some (memory', next)) :
    program.step state thread act =
        some ⟨memory', Function.update state.threads thread
          (next.toList ++ rest)⟩ ∧
      observePoints state thread act =
        activation.point state.memory ⟨thread, rest.length⟩ act := by
  have ran : program thread state.memory (state.threads thread) act =
      some (memory', next.toList ++ rest) := by
    cases act with
    | newCell | dropCell | call | exitThread =>
        simp [activationStep] at moved
    | _ => simp [program, stackStep, shape, moved]
  refine ⟨by simp [Program.step, ran], ?_⟩
  cases act with
  | newCell | dropCell | call | exitThread =>
      simp [activationStep] at moved
  | _ => simp [observePoints, shape]

end Moves

end RegistryIo.Atomic
