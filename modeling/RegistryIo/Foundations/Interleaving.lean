import Mathlib.Logic.Function.Basic
import Mathlib.Data.List.Basic
import Mathlib.Data.List.Induction

/-!
# Interleaved programs over a shared memory

A program says what one atomic operation of one thread does to the shared
memory and to the thread's own state.  Threads are run in any order, one
atomic operation at a time, so every execution is sequentially consistent.

The module contains runs, the invariant rule for runs, and the
rely/guarantee rule that splits an invariant into a part about the memory
and a part about each thread.
-/

namespace RegistryIo.Interleaving

universe u v w x y

/-- A shared memory together with the private state of every thread. -/
structure Config (Thread : Type u) (Memory : Type v) (Local : Type w) where
  memory : Memory
  threads : Thread → Local

/-- The effect of one atomic operation `act` of a thread, or `none` when the
thread cannot perform it. -/
abbrev Program (Thread : Type u) (Memory : Type v) (Local : Type w)
    (Act : Type x) :=
  Thread → Memory → Local → Act → Option (Memory × Local)

section Runs

variable {Thread : Type u} {Memory : Type v} {Local : Type w}
variable {Act : Type x} {Event : Type y} [DecidableEq Thread]

namespace Program

/-- One thread performs one atomic operation. -/
def step (program : Program Thread Memory Local Act)
    (config : Config Thread Memory Local) (thread : Thread) (act : Act) :
    Option (Config Thread Memory Local) :=
  (program thread config.memory (config.threads thread) act).map
    fun result =>
      ⟨result.1, Function.update config.threads thread result.2⟩

/-- A schedule names the thread and its operation at every step. -/
def exec (program : Program Thread Memory Local Act)
    (config : Config Thread Memory Local) :
    List (Thread × Act) → Option (Config Thread Memory Local)
  | [] => some config
  | (thread, act) :: rest =>
      (program.step config thread act).bind
        fun next => program.exec next rest

/-- The events of a run, as seen by an observer of single steps. -/
def events (program : Program Thread Memory Local Act)
    (observe : Config Thread Memory Local → Thread → Act → Option Event)
    (config : Config Thread Memory Local) :
    List (Thread × Act) → List Event
  | [] => []
  | (thread, act) :: rest =>
      match program.step config thread act with
      | none => []
      | some next =>
          (observe config thread act).toList ++
            program.events observe next rest

/-- A run in which every step is allowed at the point where it is taken. -/
def execWhere (program : Program Thread Memory Local Act)
    (allowed : Config Thread Memory Local → Thread → Act → Bool)
    (config : Config Thread Memory Local) :
    List (Thread × Act) → Option (Config Thread Memory Local)
  | [] => some config
  | (thread, act) :: rest =>
      if allowed config thread act then
        (program.step config thread act).bind
          fun next => program.execWhere allowed next rest
      else none

/-- A configuration that some schedule reaches from the initial one. -/
def Reachable (program : Program Thread Memory Local Act)
    (initial config : Config Thread Memory Local) : Prop :=
  ∃ schedule, program.exec initial schedule = some config

end Program

variable {program : Program Thread Memory Local Act}
variable {config next last : Config Thread Memory Local}

theorem step_eq_some
    {thread : Thread} {act : Act}
    (stepped : program.step config thread act = some next) :
    ∃ memory locals,
      program thread config.memory (config.threads thread) act =
          some (memory, locals) ∧
        next = ⟨memory, Function.update config.threads thread locals⟩ := by
  obtain ⟨⟨memory, locals⟩, performed, shape⟩ :=
    Option.map_eq_some_iff.mp stepped
  exact ⟨memory, locals, performed, shape.symm⟩

theorem exec_cons_eq_some
    {thread : Thread} {act : Act} {rest : List (Thread × Act)}
    (executed : program.exec config ((thread, act) :: rest) = some last) :
    ∃ next, program.step config thread act = some next ∧
      program.exec next rest = some last :=
  Option.bind_eq_some_iff.mp executed

theorem exec_cons
    {thread : Thread} {act : Act} {rest : List (Thread × Act)}
    (stepped : program.step config thread act = some next)
    (executed : program.exec next rest = some last) :
    program.exec config ((thread, act) :: rest) = some last :=
  Option.bind_eq_some_iff.mpr ⟨next, stepped, executed⟩

theorem exec_append
    (first second : List (Thread × Act)) :
    program.exec config (first ++ second) =
      (program.exec config first).bind
        fun middle => program.exec middle second := by
  induction first generalizing config with
  | nil => rfl
  | cons entry rest inductionHypothesis =>
      obtain ⟨thread, act⟩ := entry
      simp only [List.cons_append, Program.exec]
      cases program.step config thread act with
      | none => rfl
      | some next => exact inductionHypothesis

/-- The rest of a run starts where its first part ends. -/
theorem exec_rest
    {first second : List (Thread × Act)}
    (executed : program.exec config (first ++ second) = some last)
    (reached : program.exec config first = some next) :
    program.exec next second = some last := by
  rw [exec_append, reached] at executed
  exact executed

/-- A property kept by every step is kept by every run. -/
theorem exec_invariant
    {P : Config Thread Memory Local → Prop}
    (preserved :
      ∀ config thread act next,
        program.step config thread act = some next →
          P config → P next)
    {schedule : List (Thread × Act)}
    (executed : program.exec config schedule = some last)
    (initially : P config) :
    P last := by
  induction schedule generalizing config with
  | nil =>
      cases executed
      exact initially
  | cons entry rest inductionHypothesis =>
      obtain ⟨thread, act⟩ := entry
      obtain ⟨next, stepped, remaining⟩ := exec_cons_eq_some executed
      exact inductionHypothesis remaining
        (preserved config thread act next stepped initially)

/-- Induction over a run from its start, with the part of the schedule that
has been executed. -/
theorem exec_induction
    {P : List (Thread × Act) → Config Thread Memory Local → Prop}
    (extended :
      ∀ done middle thread act next,
        program.exec config done = some middle →
          program.step middle thread act = some next →
          P done middle → P (done ++ [(thread, act)]) next)
    {schedule : List (Thread × Act)}
    (executed : program.exec config schedule = some last)
    (initially : P [] config) :
    P schedule last := by
  induction schedule using List.reverseRecOn generalizing last with
  | nil =>
      cases executed
      exact initially
  | append_singleton done entry inductionHypothesis =>
      obtain ⟨thread, act⟩ := entry
      rw [exec_append] at executed
      obtain ⟨middle, reached, final⟩ := Option.bind_eq_some_iff.mp executed
      obtain ⟨next, stepped, same⟩ := exec_cons_eq_some final
      cases same
      exact extended done middle thread act _ reached stepped
        (inductionHypothesis reached)

/-- A run leaves alone the threads that do not take part in it. -/
theorem exec_threads
    {observer : Thread} {schedule : List (Thread × Act)}
    (executed : program.exec config schedule = some last)
    (absent : ∀ entry ∈ schedule, entry.1 ≠ observer) :
    last.threads observer = config.threads observer := by
  induction schedule generalizing config with
  | nil =>
      cases executed
      rfl
  | cons entry rest inductionHypothesis =>
      obtain ⟨thread, act⟩ := entry
      obtain ⟨next, stepped, remaining⟩ := exec_cons_eq_some executed
      obtain ⟨memory, locals, _, rfl⟩ := step_eq_some stepped
      have different : observer ≠ thread :=
        Ne.symm (absent _ List.mem_cons_self)
      rw [inductionHypothesis remaining fun other member =>
        absent other (List.mem_cons_of_mem _ member)]
      exact Function.update_of_ne different locals config.threads

theorem Program.Reachable.exec
    {initial : Config Thread Memory Local}
    (reachable : program.Reachable initial config)
    {schedule : List (Thread × Act)}
    (executed : program.exec config schedule = some last) :
    program.Reachable initial last := by
  obtain ⟨before, reached⟩ := reachable
  exact ⟨before ++ schedule, by
    rw [exec_append, reached]
    exact executed⟩

theorem Program.Reachable.step
    {initial : Config Thread Memory Local}
    (reachable : program.Reachable initial config)
    {thread : Thread} {act : Act}
    (stepped : program.step config thread act = some next) :
    program.Reachable initial next := by
  have executed :
      program.exec config [(thread, act)] = some next := by
    simp [Program.exec, stepped]
  exact reachable.exec executed

theorem reachable_invariant
    {P : Config Thread Memory Local → Prop}
    {initial : Config Thread Memory Local}
    (initially : P initial)
    (preserved :
      ∀ config thread act next,
        program.step config thread act = some next →
          P config → P next)
    (reachable : program.Reachable initial config) :
    P config := by
  obtain ⟨schedule, executed⟩ := reachable
  exact exec_invariant preserved executed initially

/-! ### Events and restricted runs -/

variable {observe : Config Thread Memory Local → Thread → Act → Option Event}
variable {allowed : Config Thread Memory Local → Thread → Act → Bool}

theorem execWhere_cons_eq_some
    {thread : Thread} {act : Act} {rest : List (Thread × Act)}
    (executed :
      program.execWhere allowed config ((thread, act) :: rest) =
        some last) :
    allowed config thread act = true ∧
      ∃ next, program.step config thread act = some next ∧
        program.execWhere allowed next rest = some last := by
  simp only [Program.execWhere] at executed
  split at executed
  · rename_i permitted
    exact ⟨permitted, Option.bind_eq_some_iff.mp executed⟩
  · cases executed

theorem execWhere_cons
    {thread : Thread} {act : Act} {rest : List (Thread × Act)}
    (permitted : allowed config thread act = true)
    (stepped : program.step config thread act = some next)
    (executed : program.execWhere allowed next rest = some last) :
    program.execWhere allowed config ((thread, act) :: rest) = some last := by
  rw [Program.execWhere, if_pos permitted, stepped]
  exact executed

theorem exec_of_execWhere
    {schedule : List (Thread × Act)}
    (executed : program.execWhere allowed config schedule = some last) :
    program.exec config schedule = some last := by
  induction schedule generalizing config with
  | nil => exact executed
  | cons entry rest inductionHypothesis =>
      obtain ⟨thread, act⟩ := entry
      obtain ⟨_, next, stepped, remaining⟩ :=
        execWhere_cons_eq_some executed
      simp only [Program.exec, stepped, Option.bind_some]
      exact inductionHypothesis remaining

/-- The entries of a restricted run are allowed ones. -/
theorem execWhere_forall
    {Q : Thread × Act → Prop}
    (only : ∀ config thread act,
      allowed config thread act = true → Q (thread, act))
    {schedule : List (Thread × Act)}
    (executed : program.execWhere allowed config schedule = some last) :
    ∀ entry ∈ schedule, Q entry := by
  induction schedule generalizing config with
  | nil => simp
  | cons entry rest inductionHypothesis =>
      obtain ⟨thread, act⟩ := entry
      obtain ⟨permitted, next, _, remaining⟩ :=
        execWhere_cons_eq_some executed
      exact List.forall_mem_cons.mpr
        ⟨only config thread act permitted, inductionHypothesis remaining⟩

/-- The same induction over a restricted run. -/
theorem execWhere_induction
    {P : List (Thread × Act) → Config Thread Memory Local → Prop}
    (extended :
      ∀ done middle thread act next,
        program.exec config done = some middle →
          allowed middle thread act = true →
          program.step middle thread act = some next →
          P done middle → P (done ++ [(thread, act)]) next)
    {schedule : List (Thread × Act)}
    (executed : program.execWhere allowed config schedule = some last)
    (initially : P [] config) :
    P schedule last := by
  have general :
      ∀ (rest done : List (Thread × Act)) (middle),
        program.exec config done = some middle → P done middle →
          program.execWhere allowed middle rest = some last →
            P (done ++ rest) last := by
    intro rest
    induction rest with
    | nil =>
        intro done middle _ holds remaining
        cases remaining
        simpa using holds
    | cons entry rest inductionHypothesis =>
        intro done middle reached holds remaining
        obtain ⟨thread, act⟩ := entry
        obtain ⟨permitted, next, stepped, remaining⟩ :=
          execWhere_cons_eq_some remaining
        have further :
            program.exec config (done ++ [(thread, act)]) = some next := by
          rw [exec_append, reached]
          simp [Program.exec, stepped]
        have result := inductionHypothesis (done ++ [(thread, act)]) next
          further
          (extended done middle thread act next reached permitted stepped
            holds)
          remaining
        simpa using result
  exact general schedule [] config rfl initially executed

theorem events_append
    {first second : List (Thread × Act)}
    (executed : program.exec config first = some next) :
    program.events observe config (first ++ second) =
      program.events observe config first ++
        program.events observe next second := by
  induction first generalizing config with
  | nil =>
      cases executed
      rfl
  | cons entry rest inductionHypothesis =>
      obtain ⟨thread, act⟩ := entry
      obtain ⟨middle, stepped, remaining⟩ := exec_cons_eq_some executed
      simp only [List.cons_append, Program.events, stepped]
      rw [inductionHypothesis remaining, List.append_assoc]

theorem events_snoc
    {done : List (Thread × Act)} {thread : Thread} {act : Act}
    (executed : program.exec config done = some next)
    (stepped : program.step next thread act = some last) :
    program.events observe config (done ++ [(thread, act)]) =
      program.events observe config done ++
        (observe next thread act).toList := by
  rw [events_append executed]
  simp [Program.events, stepped]

/-- An observer who sees less. -/
theorem events_bind
    {Seen : Type y} (see : Event → Option Seen)
    (schedule : List (Thread × Act)) :
    program.events
        (fun config thread act => (observe config thread act).bind see)
        config schedule =
      (program.events observe config schedule).filterMap see := by
  induction schedule generalizing config with
  | nil => rfl
  | cons entry rest inductionHypothesis =>
      obtain ⟨thread, act⟩ := entry
      simp only [Program.events]
      cases program.step config thread act with
      | none => rfl
      | some next =>
          simp only [List.filterMap_append, inductionHypothesis]
          cases observe config thread act with
          | none => rfl
          | some event => cases seen : see event <;> simp [seen]

/-- The potential method: when every step pays for its events with the
potential and with what it is charged, so does every run. -/
theorem execWhere_charged
    {P : Config Thread Memory Local → Prop}
    (potential : Config Thread Memory Local → Nat)
    (paid charged : Config Thread Memory Local → Thread → Act → Option Event)
    (pays :
      ∀ config thread act next,
        allowed config thread act = true →
          program.step config thread act = some next → P config →
          P next ∧ (paid config thread act).toList.length + potential next ≤
            potential config + (charged config thread act).toList.length)
    {schedule : List (Thread × Act)}
    (executed : program.execWhere allowed config schedule = some last)
    (initially : P config) :
    (program.events paid config schedule).length + potential last ≤
      potential config + (program.events charged config schedule).length := by
  induction schedule generalizing config with
  | nil =>
      cases executed
      simp [Program.events]
  | cons entry rest inductionHypothesis =>
      obtain ⟨thread, act⟩ := entry
      obtain ⟨permitted, next, stepped, remaining⟩ :=
        execWhere_cons_eq_some executed
      obtain ⟨holds, paying⟩ :=
        pays config thread act next permitted stepped initially
      have later := inductionHypothesis remaining holds
      simp only [Program.events, stepped, List.length_append]
      omega

/-- Every event of a run is the event of one of its steps. -/
theorem events_split
    {schedule : List (Thread × Act)} {before after : List Event}
    {event : Event}
    (split : program.events observe config schedule =
      before ++ event :: after) :
    ∃ done thread act rest middle next,
      schedule = done ++ (thread, act) :: rest ∧
        program.exec config done = some middle ∧
        program.events observe config done = before ∧
        program.step middle thread act = some next ∧
        observe middle thread act = some event := by
  induction schedule generalizing config before with
  | nil =>
      rw [Program.events] at split
      cases before <;> cases split
  | cons entry rest inductionHypothesis =>
      obtain ⟨thread, act⟩ := entry
      simp only [Program.events] at split
      cases stepped : program.step config thread act with
      | none =>
          rw [stepped] at split
          cases before <;> cases split
      | some next =>
          rw [stepped] at split
          dsimp only at split
          -- Either the event belongs to this step or to the rest.
          have later : ∀ {before'},
              program.events observe next rest = before' ++ event :: after →
                (observe config thread act).toList ++ before' = before →
                  ∃ done actor operation rest' middle last,
                    (thread, act) :: rest =
                        done ++ (actor, operation) :: rest' ∧
                      program.exec config done = some middle ∧
                      program.events observe config done = before ∧
                      program.step middle actor operation = some last ∧
                      observe middle actor operation = some event := by
            intro before' remaining shape
            obtain ⟨done, actor, operation, rest', middle, last, rfl,
              reached, emitted, moved, observed⟩ :=
                inductionHypothesis remaining
            refine ⟨(thread, act) :: done, actor, operation, rest', middle,
              last, rfl, exec_cons stepped reached, ?_, moved, observed⟩
            simp only [Program.events, stepped, emitted]
            exact shape
          cases observed : observe config thread act with
          | none =>
              rw [observed] at split later
              exact later split rfl
          | some first =>
              rw [observed] at split later
              cases before with
              | nil =>
                  cases split
                  exact ⟨[], thread, act, rest, config, next, rfl, rfl, rfl,
                    stepped, observed⟩
              | cons head tail =>
                  simp only [Option.toList_some, List.cons_append,
                    List.nil_append, List.cons.injEq] at split
                  refine later split.2 ?_
                  rw [split.1]
                  rfl

/-- What every step from a state with the invariant emits, every run
emits. -/
theorem events_forall
    {P : Config Thread Memory Local → Prop} {Q : Event → Prop}
    (preserved :
      ∀ config thread act next,
        program.step config thread act = some next →
          P config →
          P next ∧ ∀ event, observe config thread act = some event → Q event)
    (schedule : List (Thread × Act)) (initially : P config) :
    ∀ event ∈ program.events observe config schedule, Q event := by
  induction schedule generalizing config with
  | nil => simp [Program.events]
  | cons entry rest inductionHypothesis =>
      obtain ⟨thread, act⟩ := entry
      intro event member
      simp only [Program.events] at member
      split at member
      · cases member
      · rename_i next stepped
        obtain ⟨kept, emitted⟩ :=
          preserved config thread act next stepped initially
        rcases List.mem_append.mp member with now | later
        · exact emitted event (Option.mem_toList.mp now)
        · exact inductionHypothesis kept event later

/-- If a property can only be left by a step that emits an event of some kind,
a run that leaves it emits such an event. -/
theorem exists_event_of_left
    {P : Config Thread Memory Local → Prop} {Q : Event → Prop}
    (kept :
      ∀ config thread act next,
        program.step config thread act = some next →
          allowed config thread act = true → P config →
          P next ∨ ∃ event, observe config thread act = some event ∧ Q event)
    {schedule : List (Thread × Act)}
    (executed : program.execWhere allowed config schedule = some last)
    (initially : P config) (left : ¬ P last) :
    ∃ event ∈ program.events observe config schedule, Q event := by
  induction schedule generalizing config with
  | nil =>
      cases executed
      exact absurd initially left
  | cons entry rest inductionHypothesis =>
      obtain ⟨thread, act⟩ := entry
      obtain ⟨permitted, next, stepped, remaining⟩ :=
        execWhere_cons_eq_some executed
      simp only [Program.events, stepped]
      rcases kept config thread act next stepped permitted initially with
        still | ⟨event, emitted, wanted⟩
      · obtain ⟨event, member, wanted⟩ :=
          inductionHypothesis remaining still
        exact ⟨event, List.mem_append_right _ member, wanted⟩
      · refine ⟨event, List.mem_append_left _ ?_, wanted⟩
        exact Option.mem_toList.mpr emitted

end Runs

section RelyGuarantee

variable {Thread : Type u} {Memory : Type v} {Local : Type w}
variable {Act : Type x} [DecidableEq Thread]

/-- The memory invariant together with the invariant of every thread. -/
def Holds (memoryInvariant : Memory → Prop)
    (threadInvariant : Memory → Thread → Local → Prop)
    (config : Config Thread Memory Local) : Prop :=
  memoryInvariant config.memory ∧
    ∀ thread, threadInvariant config.memory thread (config.threads thread)

/-- Rely/guarantee.  A step needs only the memory invariant and the invariant
of the thread that takes it; it restores both and keeps its guarantee, under
which the invariants of all other threads are stable. -/
theorem relyGuarantee_step
    {program : Program Thread Memory Local Act}
    {memoryInvariant : Memory → Prop}
    {threadInvariant : Memory → Thread → Local → Prop}
    {guarantee : Thread → Memory → Memory → Prop}
    (sound :
      ∀ thread memory locals act memory' locals',
        program thread memory locals act = some (memory', locals') →
          memoryInvariant memory →
          threadInvariant memory thread locals →
          memoryInvariant memory' ∧
            threadInvariant memory' thread locals' ∧
            guarantee thread memory memory')
    (stable :
      ∀ actor observer memory memory' locals,
        actor ≠ observer →
          memoryInvariant memory →
          memoryInvariant memory' →
          guarantee actor memory memory' →
          threadInvariant memory observer locals →
          threadInvariant memory' observer locals)
    {config next : Config Thread Memory Local} {thread : Thread} {act : Act}
    (stepped : program.step config thread act = some next)
    (holds : Holds memoryInvariant threadInvariant config) :
    Holds memoryInvariant threadInvariant next := by
  obtain ⟨memory', locals', performed, rfl⟩ := step_eq_some stepped
  obtain ⟨memoryHolds, threadHolds, guaranteed⟩ :=
    sound thread config.memory (config.threads thread) act memory' locals'
      performed holds.1 (holds.2 thread)
  refine ⟨memoryHolds, fun observer => ?_⟩
  by_cases same : observer = thread
  · subst same
    simpa using threadHolds
  · have unchanged :
        Function.update config.threads thread locals' observer =
          config.threads observer :=
      Function.update_of_ne same locals' config.threads
    simp only [unchanged]
    exact stable thread observer config.memory memory' _
      (Ne.symm same) holds.1 memoryHolds guaranteed (holds.2 observer)

end RelyGuarantee

end RegistryIo.Interleaving
