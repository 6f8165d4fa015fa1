import RegistryIo.Foundations.Interleaving

/-!
# Refinement of interleaved programs

A concrete program refines an abstract one when every run of the concrete
program is a run of the abstract one for an observer who sees the events of
both.  It is proved step by step: from related configurations, a step of the
concrete program is answered by a run of the abstract program with the same
events that ends in related configurations.
-/

namespace RegistryIo.Interleaving

universe u v w x y

variable {Thread : Type u} {Event : Type y} [DecidableEq Thread]
variable {Concrete Abstract : Type v} {Locals Local : Type w}
variable {Act Operation : Type x}

/-- Every step from related configurations is answered. -/
def Simulates (concrete : Program Thread Concrete Locals Act)
    (abstract : Program Thread Abstract Local Operation)
    (observe : Config Thread Concrete Locals → Thread → Act → Option Event)
    (observe' : Config Thread Abstract Local → Thread → Operation →
      Option Event)
    (Related : Config Thread Concrete Locals →
      Config Thread Abstract Local → Prop) : Prop :=
  ∀ config config' thread act next,
    concrete.step config thread act = some next → Related config config' →
      ∃ operations next',
        abstract.exec config' operations = some next' ∧
          abstract.events observe' config' operations =
            (observe config thread act).toList ∧
          Related next next'

section Runs

variable {concrete : Program Thread Concrete Locals Act}
variable {abstract : Program Thread Abstract Local Operation}
variable {observe : Config Thread Concrete Locals → Thread → Act →
  Option Event}
variable {observe' : Config Thread Abstract Local → Thread → Operation →
  Option Event}
variable {Related : Config Thread Concrete Locals →
  Config Thread Abstract Local → Prop}
variable {config last : Config Thread Concrete Locals}
variable {config' next' : Config Thread Abstract Local}
variable {event : Option Event}

/-- A step that is one step of the abstract program. -/
theorem answered_by_step
    {thread : Thread} {operation : Operation}
    (stepped : abstract.step config' thread operation = some next')
    (same : observe' config' thread operation = event) :
    ∃ operations,
      abstract.exec config' operations = some next' ∧
        abstract.events observe' config' operations = event.toList := by
  refine ⟨[(thread, operation)], ?_, ?_⟩
  · simp [Program.exec, stepped]
  · simp [Program.events, stepped, same]

/-- A simulation answers whole runs. -/
theorem Simulates.exec
    (simulates : Simulates concrete abstract observe observe' Related)
    {schedule : List (Thread × Act)}
    (executed : concrete.exec config schedule = some last)
    (related : Related config config') :
    ∃ operations last',
      abstract.exec config' operations = some last' ∧
        abstract.events observe' config' operations =
          concrete.events observe config schedule ∧
        Related last last' := by
  refine exec_induction
    (P := fun done middle => ∃ operations middle',
      abstract.exec config' operations = some middle' ∧
        abstract.events observe' config' operations =
          concrete.events observe config done ∧
        Related middle middle')
    ?_ executed ⟨[], config', rfl, rfl, related⟩
  rintro done middle thread act next reached stepped
    ⟨operations, middle', answered, same, relatedMiddle⟩
  obtain ⟨more, next', moved, emitted, relatedNext⟩ :=
    simulates middle middle' thread act next stepped relatedMiddle
  refine ⟨operations ++ more, next', ?_, ?_, relatedNext⟩
  · rw [exec_append, answered]
    exact moved
  · rw [events_append answered, same, emitted, events_snoc reached stepped]

end Runs

end RegistryIo.Interleaving
