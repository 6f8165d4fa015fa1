import RegistryIo.Atomic.Refinement
import RegistryIo.Registry
import RegistryIo.Snapshot.Identity

/-!
# The lists of one registry

Seen from one registry, the atomic machine is the registry whose list is
compared with the history of its draws, insertions and removals.  So the law
of that list holds of the lists of the program: whatever a closure works on is
sorted by descending priority, ties in the order of insertion, with one entry
for each id.
-/

namespace RegistryIo.Atomic

open RegistryIo.Interleaving
open RegistryIo.Snapshot (Tid CellId CallId Entry Write)

/-- The states of a registry with its history. -/
abbrev Recorded :=
  Config Nat (RegistryIo.Registry.Memory Nat) (Option (HandlerEntry Nat))

/-- The entry that the innermost call is going to insert into the cell. -/
def pendingOf (cell : CellId) : List Activation → Option Entry
  | .drawn target entry :: _ => if target = cell then some entry else none
  | _ => none

/-- The operation of a registry that is compared with its history; the
handlers of a cell are numbered by its registrations. -/
def Change.operation (number : Nat) :
    Change → RegistryIo.Registry.Act Nat
  | .draw priority => .draw priority number
  | .write (.insert _) => .insert
  | .write (.remove id) => .unregister .direct id
  | .write .clear => .clear

/-- The draws, insertions, removals and clears of one cell. -/
def listOperation (cell : CellId) (state : State) (thread : Tid)
    (act : Act) : Option (Tid × RegistryIo.Registry.Act Nat) :=
  match state.threads thread with
  | [] => none
  | activation :: _ =>
      match activation.change act with
      | none => none
      | some (target, change) =>
          if target = cell then
            some (thread,
              change.operation (state.memory cell).registrations)
          else none

/-- What the history of a registry records. -/
structure Records (memory : RegistryIo.Registry.Memory Nat)
    (registry : Registry) : Prop where
  handlers : memory.handlers = registry.list
  idGenerator : memory.idGenerator = registry.idGenerator
  registrations : RegistryIo.Registry.drawCount memory.history =
    registry.registrations

/-- The recorded registry goes along with the cell. -/
structure Follows (cell : CellId) (state : State) (recorded : Recorded) :
    Prop where
  suspended : ∀ thread, ∀ activation ∈ (state.threads thread).tail,
    activation.isUser = true
  records : Records recorded.memory (state.memory cell)
  pending : ∀ thread,
    recorded.threads thread = pendingOf cell (state.threads thread)

private theorem follows_initial (cell : CellId) :
    Follows cell initial (RegistryIo.Registry.initial Nat) where
  suspended := by simp [initial]
  records := ⟨rfl, rfl, rfl⟩
  pending := fun _ => rfl

section Pending

variable {cell : CellId} {activation : Activation}
variable {rest : List Activation}

private theorem pendingOf_of_undrawn
    (undrawn : ∀ target entry, activation ≠ .drawn target entry) :
    pendingOf cell (activation :: rest) = none := by
  unfold pendingOf
  split
  · rename_i target entry below shape
    exact absurd (List.cons.inj shape).1 (undrawn target entry)
  · rfl

private theorem pendingOf_of_user
    {stack : List Activation} (userPoint : atUserPoint stack = true) :
    pendingOf cell stack = none := by
  cases stack with
  | nil => rfl
  | cons activation rest =>
      refine pendingOf_of_undrawn ?_
      rintro target entry rfl
      cases userPoint

/-- Below the top of a stack user code is running. -/
private theorem atUserPoint_below
    (suspended : ∀ activation ∈ rest, activation.isUser = true) :
    atUserPoint rest = true := by
  cases rest with
  | nil => rfl
  | cons top below => exact suspended top List.mem_cons_self

end Pending

section Steps

variable {cell : CellId} {state : State} {recorded : Recorded}
variable {thread : Tid} {memory' : Memory} {stack' : List Activation}

theorem Follows.update
    {memory : RegistryIo.Registry.Memory Nat}
    (follows : Follows cell state recorded)
    (suspended : ∀ activation ∈ stack'.tail, activation.isUser = true)
    (records : Records memory (memory' cell)) :
    Follows cell ⟨memory', Function.update state.threads thread stack'⟩
      ⟨memory, Function.update recorded.threads thread
        (pendingOf cell stack')⟩ where
  suspended := by
    intro other
    by_cases same : other = thread
    · subst same
      simpa using suspended
    · simpa [Function.update_of_ne same] using follows.suspended other
  records := records
  pending := by
    intro other
    by_cases same : other = thread
    · subst same
      simp
    · simp only [Function.update_of_ne same]
      exact follows.pending other

/-- A step that does not concern the list of the cell. -/
theorem Follows.unseen
    (follows : Follows cell state recorded)
    (suspended : ∀ activation ∈ stack'.tail, activation.isUser = true)
    (records : Records recorded.memory (memory' cell))
    (pending : pendingOf cell stack' =
      pendingOf cell (state.threads thread)) :
    Follows cell ⟨memory', Function.update state.threads thread stack'⟩
      recorded := by
  have updated : Follows cell
      ⟨memory', Function.update state.threads thread stack'⟩
      ⟨recorded.memory, Function.update recorded.threads thread
        (pendingOf cell stack')⟩ := follows.update suspended records
  rw [pending, ← follows.pending thread, Function.update_eq_self] at updated
  exact updated

/-- A change of another cell, or of fields that the history does not
record. -/
theorem Records.update
    {memory : RegistryIo.Registry.Memory Nat} {atomic : Memory}
    {target : CellId} {registry : Registry}
    (records : Records memory (atomic cell))
    (same : target = cell → Records memory registry) :
    Records memory (Function.update atomic target registry cell) := by
  by_cases here : cell = target
  · subst here
    rw [Function.update_self]
    exact same rfl
  · rw [Function.update_of_ne here]
    exact records

/-- A draw is one step of the recorded registry. -/
private theorem draws_recorded
    {memory : RegistryIo.Registry.Memory Nat} {registry : Registry}
    (cell : CellId) (thread : Tid) (rest : List Activation)
    (priority : Int) (records : Records memory registry) :
    ∃ memory'',
      RegistryIo.Registry.program Nat thread memory none
          ((Change.draw priority).operation registry.registrations) =
        some (memory'',
          pendingOf cell (.drawn cell (registry.entry priority) :: rest)) ∧
        Records memory'' registry.draw := by
  obtain ⟨list, generator, count⟩ := records
  refine ⟨⟨memory.idGenerator.next.2, memory.handlers,
      memory.history ++ [.drawn memory.idGenerator.next.1]⟩, ?_, list, ?_,
    ?_⟩
  · simp [Change.operation, pendingOf, RegistryIo.Registry.program,
      Registry.entry, generator]
  · simp [Registry.draw, generator]
  · simp [Registry.draw, RegistryIo.Registry.Event.draws, count]

/-- A write is one step of the recorded registry. -/
private theorem writes_recorded
    {memory : RegistryIo.Registry.Memory Nat} {registry : Registry}
    {activation : Activation} {write : Write}
    (thread : Tid) (rest : List Activation) (number : Nat)
    (records : Records memory registry)
    (isWrite : Writes cell activation write) :
    ∃ memory'',
      RegistryIo.Registry.program Nat thread memory
          (pendingOf cell (activation :: rest))
          ((Change.write write).operation number) =
        some (memory'', none) ∧
        Records memory'' (registry.write write) := by
  obtain ⟨list, generator, count⟩ := records
  -- Only draws change the number of registrations.
  have counted : ∀ event : RegistryIo.Registry.Event Nat,
      event.draws = false →
        RegistryIo.Registry.drawCount (memory.history ++ [event]) =
          registry.registrations := by
    intro event quiet
    simp [quiet, count]
  cases isWrite with
  | insert entry =>
      refine ⟨⟨memory.idGenerator, entry.insert memory.handlers,
          memory.history ++ [.inserted entry]⟩, ?_, ?_, generator,
        counted _ rfl⟩
      · simp [Change.operation, pendingOf, RegistryIo.Registry.program]
      · rw [list]
        rfl
  | remove id wait =>
      cases found : HandlerEntry.removeId id memory.handlers with
      | none =>
          refine ⟨⟨memory.idGenerator, memory.handlers,
              memory.history ++ [.unregistered .direct id none]⟩, ?_, ?_,
            generator, counted _ rfl⟩
          · simp [Change.operation, pendingOf, RegistryIo.Registry.program,
              found]
          · rw [list] at found
            simp [Registry.write, Write.apply, found, list]
      | some next =>
          refine ⟨⟨memory.idGenerator, next,
              memory.history ++ [.unregistered .direct id
                (RegistryIo.Registry.removedEntry id memory.handlers)]⟩,
            ?_, ?_, generator, counted _ rfl⟩
          · simp [Change.operation, pendingOf, RegistryIo.Registry.program,
              found]
          · rw [list] at found
            simp [Registry.write, Write.apply, found]
  | clear wait =>
      cases found : HandlerEntry.removeAll memory.handlers with
      | none =>
          refine ⟨memory, ?_, ?_, generator, count⟩
          · simp [Change.operation, pendingOf, RegistryIo.Registry.program,
              found]
          · rw [list] at found
            simp [Registry.write, Write.apply, found, list]
      | some next =>
          refine ⟨⟨memory.idGenerator, next,
              memory.history ++ [.cleared memory.handlers]⟩, ?_, ?_,
            generator, counted _ rfl⟩
          · simp [Change.operation, pendingOf, RegistryIo.Registry.program,
              found]
          · rw [list] at found
            simp [Registry.write, Write.apply, found]

/-- The recorded registry takes the operation of the step, if there is
one. -/
def Recording (cell : CellId) (state : State) (thread : Tid) (act : Act)
    (recorded : Recorded) (next : State) : Prop :=
  ∃ recorded',
    (RegistryIo.Registry.program Nat).exec recorded
        (listOperation cell state thread act).toList = some recorded' ∧
      Follows cell next recorded'

private theorem Recording.of_unseen
    {act : Act} {next : State}
    (unseen : listOperation cell state thread act = none)
    (follows : Follows cell next recorded) :
    Recording cell state thread act recorded next := by
  refine ⟨recorded, ?_, follows⟩
  rw [unseen]
  rfl

/-- A step of the innermost call, seen from one cell. -/
private theorem activationStep_recorded
    {activation : Activation} {rest : List Activation} {act : Act}
    {next : Option Activation} (follows : Follows cell state recorded)
    (shape : state.threads thread = activation :: rest)
    (moved : activationStep state.memory activation act =
      some (memory', next)) :
    Recording cell state thread act recorded
      ⟨memory', Function.update state.threads thread
        (next.toList ++ rest)⟩ := by
  have suspended : ∀ below ∈ rest, below.isUser = true := by
    have all := follows.suspended thread
    rw [shape] at all
    exact all
  have records := follows.records
  have pending := follows.pending thread
  rw [shape] at pending
  have operation : listOperation cell state thread act =
      match activation.change act with
      | none => none
      | some (target, change) =>
          if target = cell then
            some (thread,
              change.operation (state.memory cell).registrations)
          else none := by
    rw [listOperation, shape]
  -- One step of the recorded registry.
  have answered : ∀ {change memory'' added},
      activation.change act = some (cell, change) →
      RegistryIo.Registry.program Nat thread recorded.memory
          (recorded.threads thread)
          (change.operation (state.memory cell).registrations) =
        some (memory'', pendingOf cell (added :: rest)) →
      Records memory'' (memory' cell) →
      Recording cell state thread act recorded
        ⟨memory', Function.update state.threads thread
          (added :: rest)⟩ := by
    intro change memory'' added changes ran recordsNext
    refine ⟨_, ?_, follows.update suspended recordsNext⟩
    rw [operation, changes]
    simp [Program.exec, Program.step, ran]
  cases activationStep_rule moved with
  | draws target priority isRegister changes =>
      by_cases here : target = cell
      · subst here
        obtain ⟨memory'', ran, recordsNext⟩ :=
          draws_recorded target thread rest priority records
        have idle : recorded.threads thread = none := by
          rw [pending, isRegister]
          rfl
        rw [← idle] at ran
        refine answered changes ran ?_
        rw [Function.update_self]
        exact recordsNext
      · refine .of_unseen (by simp [operation, changes, here])
          (follows.unseen suspended
            (records.update fun same => absurd same here) ?_)
        rw [shape, isRegister]
        simp [pendingOf, here]
  | writes target write isWrite changes =>
      by_cases here : target = cell
      · subst here
        obtain ⟨memory'', ran, recordsNext⟩ :=
          writes_recorded thread rest _ records isWrite
        rw [← pending] at ran
        refine answered changes ran ?_
        rw [Function.update_self]
        exact recordsNext
      · refine .of_unseen (by simp [operation, changes, here])
          (follows.unseen suspended
            (records.update fun same => absurd same here) ?_)
        rw [shape]
        cases isWrite <;> simp [pendingOf, here]
  | goesOn after undrawn undrawnNext unchanged =>
      refine .of_unseen (by simp [operation, unchanged])
        (follows.unseen suspended records ?_)
      rw [shape, pendingOf_of_undrawn undrawn]
      exact pendingOf_of_undrawn undrawnNext
  | returns target undrawn unchanged =>
      refine .of_unseen (by simp [operation, unchanged]) (follows.unseen
        (fun below member => suspended below (List.mem_of_mem_tail member))
        (records.update fun same => ?_) ?_)
      · subst same
        exact ⟨records.handlers, records.idGenerator, records.registrations⟩
      · rw [shape, pendingOf_of_undrawn undrawn]
        exact pendingOf_of_user (atUserPoint_below suspended)
  | pops undrawn unchanged =>
      refine .of_unseen (by simp [operation, unchanged]) (follows.unseen
        (fun below member => suspended below (List.mem_of_mem_tail member))
        records ?_)
      rw [shape, pendingOf_of_undrawn undrawn]
      exact pendingOf_of_user (atUserPoint_below suspended)

/-- User code does not touch the list of a cell. -/
private theorem userStep_recorded
    {act : Act} (follows : Follows cell state recorded)
    (userPoint : atUserPoint (state.threads thread) = true)
    (performed : userStep state.memory (state.threads thread) act =
      some (memory', stack')) :
    Follows cell ⟨memory', Function.update state.threads thread stack'⟩
      recorded := by
  have records := follows.records
  have idle : pendingOf cell (state.threads thread) = none :=
    pendingOf_of_user userPoint
  have suspended := follows.suspended thread
  have all : ∀ below ∈ state.threads thread, below.isUser = true := by
    intro below member
    cases shape : state.threads thread with
    | nil =>
        rw [shape] at member
        cases member
    | cons top rest =>
        rw [shape] at member userPoint suspended
        rcases List.mem_cons.mp member with same | later
        · rw [same]
          exact userPoint
        · exact suspended below later
  -- A new activation on top has no entry to insert.
  have pushed : ∀ {target registry added},
      (∀ target entry, added ≠ .drawn target entry) →
      (target = cell → Records recorded.memory registry) →
      Follows cell
        ⟨Function.update state.memory target registry,
          Function.update state.threads thread
            (added :: state.threads thread)⟩ recorded := by
    intro target registry added undrawn same
    refine follows.unseen all (records.update same) ?_
    rw [idle]
    exact pendingOf_of_undrawn undrawn
  cases act with
  | newCell target =>
      simp only [userStep] at performed
      split at performed
      · cases performed
        refine follows.unseen suspended (records.update fun same => ?_) rfl
        subst same
        exact ⟨records.handlers, records.idGenerator, records.registrations⟩
      · cases performed
  | dropCell target =>
      simp only [userStep] at performed
      split at performed
      · cases performed
        refine pushed (by simp) (fun same => ?_)
        subst same
        exact ⟨records.handlers, records.idGenerator, records.registrations⟩
      · cases performed
  | call target operation =>
      simp only [userStep] at performed
      split at performed
      · cases performed
        refine pushed (by simp) (fun same => ?_)
        subst same
        exact ⟨records.handlers, records.idGenerator, records.registrations⟩
      · cases performed
  | exitThread =>
      simp only [userStep] at performed
      split at performed
      · cases performed
        refine follows.unseen (by simp) records ?_
        rw [idle]
        rfl
      · cases performed
  | _ => cases performed

private theorem listOperation_of_user
    {act : Act}
    (performed : userStep state.memory (state.threads thread) act =
      some (memory', stack')) :
    listOperation cell state thread act = none := by
  have unchanged : ∀ activation : Activation,
      activation.change act = none := by
    intro activation
    cases act with
    | newCell | dropCell | call | exitThread =>
        unfold Activation.change
        split <;> first | rfl | contradiction
    | _ => cases performed
  unfold listOperation
  split
  · rfl
  · rw [unchanged]

/-- Every run of the atomic machine is, for each of its registries, a run of
the registry with its history. -/
private theorem follows_exec
    {operations : List (Tid × Act)} (cell : CellId)
    (executed : program.exec initial operations = some state) :
    ∃ recorded,
      (RegistryIo.Registry.program Nat).exec
          (RegistryIo.Registry.initial Nat)
          (program.events (listOperation cell) initial operations) =
        some recorded ∧
        Follows cell state recorded := by
  refine exec_induction
    (P := fun done state => ∃ recorded,
      (RegistryIo.Registry.program Nat).exec
          (RegistryIo.Registry.initial Nat)
          (program.events (listOperation cell) initial done) =
        some recorded ∧
        Follows cell state recorded)
    ?_ executed ⟨_, rfl, follows_initial cell⟩
  rintro done middle thread act next reached stepped
    ⟨recorded, ran, follows⟩
  have recording : Recording cell middle thread act recorded next := by
    obtain ⟨memory', stack', performed, rfl⟩ := step_eq_some stepped
    rcases program_cases performed with
      ⟨userPoint, user⟩ | ⟨activation, rest, next, shape, moved, rfl⟩
    · exact .of_unseen (listOperation_of_user user)
        (userStep_recorded follows userPoint user)
    · exact activationStep_recorded follows shape moved
  obtain ⟨recorded', continued, follows'⟩ := recording
  refine ⟨recorded', ?_, follows'⟩
  rw [events_snoc reached stepped, exec_append, ran]
  exact continued

end Steps

/-! ### The lists that user code sees -/

section Shown

/-- The list that an event shows to user code. -/
def Event.shows : Event → Option (CellId × List Entry)
  | .opened _ cell list => some (cell, list)
  | .tested _ cell list _ => some (cell, list)
  | .handed _ cell list => some (cell, list)
  | _ => none

/-- The list that a call has loaded. -/
def Activation.carries : Activation → Option (CellId × List Entry)
  | .loaded cell list => some (cell, list)
  | .kept cell list => some (cell, list)
  | _ => none

/-- A list that the registry had in the run. -/
def Known (operations : List (Tid × Act)) (shown : CellId × List Entry) :
    Prop :=
  ∃ before after recorded,
    program.events (listOperation shown.1) initial operations =
        before ++ after ∧
      (RegistryIo.Registry.program Nat).exec
          (RegistryIo.Registry.initial Nat) before = some recorded ∧
      recorded.memory.handlers = shown.2

variable {state : State} {memory memory' : Memory}

theorem Known.mono
    {operations more : List (Tid × Act)} {shown : CellId × List Entry}
    (known : Known operations shown)
    (executed : program.exec initial operations = some state) :
    Known (operations ++ more) shown := by
  obtain ⟨before, after, recorded, split, ran, list⟩ := known
  refine ⟨before, after ++
    program.events (listOperation shown.1) state more, recorded, ?_, ran,
    list⟩
  rw [events_append executed, split, List.append_assoc]

private theorem known_current
    {operations : List (Tid × Act)}
    (executed : program.exec initial operations = some state)
    (cell : CellId) :
    Known operations (cell, (state.memory cell).list) := by
  obtain ⟨recorded, ran, follows⟩ := follows_exec cell executed
  exact ⟨_, [], recorded, (List.append_nil _).symm, ran,
    follows.records.handlers⟩

variable {activation : Activation} {act : Act} {next : Option Activation}

/-- What a call shows or loads is its own list or a current one. -/
private theorem activationStep_shows
    (call : CallId)
    (moved : activationStep memory activation act = some (memory', next))
    {shown : CellId × List Entry}
    (visible : (activation.event memory call act).bind Event.shows =
        some shown ∨
      next.bind Activation.carries = some shown) :
    activation.carries = some shown ∨
      ∃ cell, shown = (cell, (memory cell).list) := by
  unfold activationStep at moved
  split at moved
  · cases moved
    simp [Activation.event, Activation.carries] at visible
  · rename_i cell operation
    cases operation with
    | read notify =>
        cases moved
        simp [Activation.event, Event.shows, Activation.carries] at visible
        exact Or.inr ⟨cell, visible.symm⟩
    | loadArcIf =>
        cases moved
        simp [Activation.event, Activation.carries] at visible
        exact Or.inr ⟨cell, visible.symm⟩
    | register priority => cases moved
    | unregister id wait | clear wait =>
        cases moved
        simp [Activation.event, Activation.carries] at visible
  · cases moved
    simp [Activation.event, Activation.carries] at visible
  · unfold insideStep at moved
    split at moved
    · cases moved
      simp [Activation.event, Event.shows, Activation.carries] at visible
    · obtain ⟨body, _, same⟩ := Option.map_eq_some_iff.mp moved
      cases same
      simp [Activation.event, Event.shows, Activation.carries] at visible
  · rename_i cell list accepted
    cases moved
    cases accepted <;>
      simpa [Activation.event, Event.shows, Activation.carries] using
        Or.inl visible
  · cases moved
    simpa [Activation.event, Event.shows, Activation.carries] using
      Or.inl visible
  · cases moved
    simp [Activation.event, Activation.carries] at visible
  · cases moved
    simp [Activation.event, Activation.carries] at visible
  · cases moved
    simp [Activation.event, Event.shows] at visible
  · cases moved
    simp [Activation.event] at visible
  · cases moved

/-- What user code pushes carries no list. -/
private theorem userStep_carries
    {stack stack' : List Activation}
    (performed : userStep memory stack act = some (memory', stack')) :
    ∀ activation ∈ stack', activation ∈ stack ∨
      activation.carries = none := by
  cases act with
  | newCell target =>
      simp only [userStep] at performed
      split at performed
      · cases performed
        exact fun _ => Or.inl
      · cases performed
  | dropCell target | call target operation =>
      simp only [userStep] at performed
      split at performed
      · cases performed
        intro added member
        rcases List.mem_cons.mp member with same | old
        · exact Or.inr (by rw [same]; rfl)
        · exact Or.inl old
      · cases performed
  | exitThread =>
      simp only [userStep] at performed
      split at performed
      · cases performed
        intro added member
        rw [List.mem_singleton.mp member]
        exact Or.inr rfl
      · cases performed
  | _ => cases performed

/-- Every list shown so far and every list a call has loaded is known. -/
structure ShownOk (operations : List (Tid × Act)) (state : State) :
    Prop where
  events : ∀ event ∈ program.events observe initial operations, ∀ shown,
    event.shows = some shown → Known operations shown
  calls : ∀ thread, ∀ activation ∈ state.threads thread, ∀ shown,
    activation.carries = some shown → Known operations shown

private theorem shownOk_step
    {done : List (Tid × Act)} {after : State} {thread : Tid}
    (executed : program.exec initial done = some state)
    (stepped : program.step state thread act = some after)
    (ok : ShownOk done state) :
    ShownOk (done ++ [(thread, act)]) after := by
  obtain ⟨memory', stack', performed, rfl⟩ := step_eq_some stepped
  -- It is enough to look at the new event and at the thread that moves.
  have assemble :
      (∀ event, observe state thread act = some event → ∀ shown,
        event.shows = some shown → Known done shown) →
      (∀ activation ∈ stack', ∀ shown,
        activation.carries = some shown → Known done shown) →
      ShownOk (done ++ [(thread, act)])
        ⟨memory', Function.update state.threads thread stack'⟩ := by
    intro emits loads
    refine ⟨?_, ?_⟩
    · intro event member shown shows
      rw [events_snoc executed stepped] at member
      rcases List.mem_append.mp member with old | new
      · exact (ok.events event old shown shows).mono executed
      · exact (emits event (Option.mem_toList.mp new) shown shows).mono
          executed
    · intro other activation member shown carries
      by_cases same : other = thread
      · subst same
        simp only [Function.update_self] at member
        exact (loads activation member shown carries).mono executed
      · simp only [Function.update_of_ne same] at member
        exact (ok.calls other activation member shown carries).mono executed
  rcases program_cases performed with
    ⟨userPoint, user⟩ | ⟨activation, rest, next, shape, moved, rfl⟩
  · refine assemble ?_ ?_
    · intro event emitted shown shows
      cases act with
      | newCell | dropCell | call =>
          cases emitted
          cases shows
      | exitThread =>
          simp only [observe, Activation.event] at emitted
          split at emitted <;> cases emitted
      | _ => cases user
    · intro activation member shown carries
      rcases userStep_carries user activation member with old | none
      · exact ok.calls thread activation old shown carries
      · rw [none] at carries
        cases carries
  · have known : ∀ shown, (activation.carries = some shown ∨
        ∃ cell, shown = (cell, (state.memory cell).list)) →
          Known done shown := by
      rintro shown (carries | ⟨cell, rfl⟩)
      · exact ok.calls thread activation (by simp [shape]) shown carries
      · exact known_current executed cell
    refine assemble ?_ ?_
    · intro event emitted shown shows
      rw [← observePoints_event, (step_activation shape moved).2,
        Activation.point_event] at emitted
      refine known shown (activationStep_shows ⟨thread, rest.length⟩ moved
        (Or.inl ?_))
      rw [emitted]
      exact shows
    · intro below member shown carries
      rcases List.mem_append.mp member with new | old
      · refine known shown (activationStep_shows ⟨thread, rest.length⟩ moved
          (Or.inr ?_))
        rw [Option.mem_toList.mp new]
        exact carries
      · exact ok.calls thread below (by simp [shape, old]) shown carries

private theorem shownOk_exec
    {operations : List (Tid × Act)}
    (executed : program.exec initial operations = some state) :
    ShownOk operations state := by
  refine exec_induction (P := ShownOk) ?_ executed
    ⟨by simp [Program.events], by simp [initial]⟩
  intro done middle thread act next reached stepped ok
  exact shownOk_step reached stepped ok

/-- A registry that has had a list draws at most the ids that it draws in the
whole run. -/
private theorem drawn_le
    {operations : List (Tid × Act)} {cell : CellId}
    {before after : List (Tid × RegistryIo.Registry.Act Nat)}
    (executed : program.exec initial operations = some state)
    (split : program.events (listOperation cell) initial operations =
      before ++ after) :
    (RegistryIo.Registry.specified before).drawn ≤
      (state.memory cell).registrations := by
  obtain ⟨last, ran, follows⟩ := follows_exec cell executed
  rw [split] at ran
  obtain ⟨middle, reached, rest⟩ := Option.bind_eq_some_iff.mp
    ((exec_append before after).symm.trans ran)
  obtain ⟨appended, grown⟩ := RegistryIo.Registry.history_of_exec rest
  rw [RegistryIo.Registry.drawn_eq reached, ← follows.records.registrations,
    grown, RegistryIo.Registry.drawCount, RegistryIo.Registry.drawCount,
    List.countP_append]
  exact Nat.le_add_right _ _

end Shown

end RegistryIo.Atomic

namespace RegistryIo.Snapshot

open RegistryIo.Interleaving

/-- Every list that a closure, a predicate or the caller of a load is shown
was the list of the registry at some time of the run.  One run of the atomic
machine, with the same calls, draws and writes in the same order, explains all
of them: the list is what a beginning of the draws, insertions, removals and
clears of the cell leaves live, by descending priority and with ties in the
order of insertion, with one entry for each id. -/
theorem shown_lists_sorted
    {state : State} {schedule : List (Tid × Act)}
    (executed : program.exec initial schedule = some state) :
    ∃ operations atomic,
      Atomic.program.exec Atomic.initial operations = some atomic ∧
        Atomic.program.events Atomic.observePoints Atomic.initial
            operations =
          program.events observePoints initial schedule ∧
        ∀ event ∈ program.events observeCalls initial schedule,
          ∀ cell list, event.shows = some (cell, list) →
            (state.memory.store.cells cell).registrations < 2 ^ 64 →
              ∃ before after recorded,
                Atomic.program.events (Atomic.listOperation cell)
                    Atomic.initial operations = before ++ after ∧
                  (Registry.program Nat).exec (Registry.initial Nat)
                    before = some recorded ∧
                  recorded.memory.handlers = list ∧
                  list = stableSort HandlerEntry.priority
                    (Registry.specified before).live ∧
                  Descending HandlerEntry.priority list ∧
                  (list.map HandlerEntry.id).Nodup := by
  obtain ⟨operations, atomic, ran, same, abstracts⟩ := exec_answered executed
  refine ⟨operations, atomic, ran, same, ?_⟩
  intro event member cell list shows few
  rw [← events_of_points same] at member
  obtain ⟨before, after, recorded, split, reached, isList⟩ :=
    (Atomic.shownOk_exec ran).events event member _ shows
  have fewBefore : (Registry.specified before).drawn < 2 ^ 64 := by
    refine Nat.lt_of_le_of_lt (Atomic.drawn_le ran split) ?_
    rw [(abstracts.cells cell).registrations]
    exact few
  have specifies := Registry.exec_specifies reached fewBefore
  have holds := Registry.reachable_consistent ⟨before, reached⟩
    (specifies.drawn ▸ fewBefore)
  have sorted : list = stableSort HandlerEntry.priority
      (Registry.specified before).live := by
    rw [specifies.live, ← holds.handlers_eq]
    exact isList.symm
  refine ⟨before, after, recorded, split, reached, isList, sorted, ?_, ?_⟩
  · rw [sorted]
    exact stableSort_descending _
  · rw [sorted, specifies.live]
    exact ((stableSort_perm _).map HandlerEntry.id).nodup_iff.mpr
      holds.live_nodup

/-- Thread `0` draws id `1`; thread `1` draws id `2` and inserts its handler
of the same priority first.  Then thread `1` reads the list. -/
def equalPriorities : List (Tid × Act) :=
  (0, .newCell 0 100) :: (0, .call 0 (.register 1)) :: (0, .next) ::
    registration 1 0 1 101 9 ++ (0, .next) :: (0, .alloc 102) ::
    nexts 0 7 ++ (1, .call 0 (.read false)) :: nexts 1 8

theorem shown_lists_sorted_two :
    ∃ operations atomic before after recorded,
      Atomic.program.exec Atomic.initial operations = some atomic ∧
        Atomic.program.events Atomic.observePoints Atomic.initial
            operations =
          [.seen (.created 0), .seen (.called ⟨0, 0⟩ 0 (.register 1)),
            .drew ⟨0, 0⟩, .seen (.called ⟨1, 0⟩ 0 (.register 1)),
            .drew ⟨1, 0⟩, .wrote ⟨1, 0⟩,
            .seen (.returned ⟨1, 0⟩ 0 (.changed ⟨[], some 1⟩)),
            .wrote ⟨0, 0⟩, .seen (.called ⟨1, 0⟩ 0 (.read false)),
            .seen (.opened ⟨1, 0⟩ 0 [⟨⟨2⟩, 1, 1⟩, ⟨⟨1⟩, 1, 0⟩])] ∧
        Atomic.program.events (Atomic.listOperation 0) Atomic.initial
          operations = before ++ after ∧
        (Registry.program Nat).exec (Registry.initial Nat) before =
          some recorded ∧
        recorded.memory.handlers = [⟨⟨2⟩, 1, 1⟩, ⟨⟨1⟩, 1, 0⟩] := by
  have evaluated :
      (program.exec initial equalPriorities).map
          (fun state => (state.memory.store.cells 0).registrations) =
        some 2 ∧
      Atomic.Event.opened ⟨1, 0⟩ 0 [⟨⟨2⟩, 1, 1⟩, ⟨⟨1⟩, 1, 0⟩] ∈
        program.events observeCalls initial equalPriorities ∧
      program.events observePoints initial equalPriorities =
        [.seen (.created 0), .seen (.called ⟨0, 0⟩ 0 (.register 1)),
          .drew ⟨0, 0⟩, .seen (.called ⟨1, 0⟩ 0 (.register 1)),
          .drew ⟨1, 0⟩, .wrote ⟨1, 0⟩,
          .seen (.returned ⟨1, 0⟩ 0 (.changed ⟨[], some 1⟩)),
          .wrote ⟨0, 0⟩, .seen (.called ⟨1, 0⟩ 0 (.read false)),
          .seen (.opened ⟨1, 0⟩ 0 [⟨⟨2⟩, 1, 1⟩, ⟨⟨1⟩, 1, 0⟩])] := by
    decide +kernel
  obtain ⟨state, executed, registrations⟩ :=
    Option.map_eq_some_iff.mp evaluated.1
  obtain ⟨operations, atomic, ran, same, shown⟩ :=
    shown_lists_sorted executed
  obtain ⟨before, after, recorded, split, reached, isList, _⟩ :=
    shown _ evaluated.2.1 0 _ rfl (by rw [registrations]; decide)
  exact ⟨operations, atomic, before, after, recorded, ran,
    same.trans evaluated.2.2, split, reached, isList⟩

end RegistryIo.Snapshot
