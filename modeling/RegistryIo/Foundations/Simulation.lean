import RegistryIo.Foundations.Interleaving

/-!
# A program inside another one

An outer program adds state and operations of its own to an inner program.  If
every step of the outer program is a step of the inner one, as seen through a
projection, or leaves the projection alone, then every run of the outer
program contains a run of the inner one, and what the inner program guarantees
over its runs holds for the outer program.
-/

namespace RegistryIo.Interleaving

universe u v w x

variable {Thread : Type u} {Outer Inner : Type v} {Locals Local : Type w}
variable {OuterAct InnerAct : Type x} [DecidableEq Thread]
variable {outer : Program Thread Outer Locals OuterAct}
variable {inner : Program Thread Inner Local InnerAct}

/-- Every step from a state with the invariant keeps it, and projects to a
step of the inner program or to nothing. -/
def Contains (outer : Program Thread Outer Locals OuterAct)
    (inner : Program Thread Inner Local InnerAct)
    (project : Config Thread Outer Locals → Config Thread Inner Local)
    (Inv : Config Thread Outer Locals → Prop) : Prop :=
  ∀ config thread act next,
    outer.step config thread act = some next → Inv config →
      Inv next ∧
        (project next = project config ∨
          ∃ operation, inner.step (project config) thread operation =
            some (project next))

section Runs

variable {project : Config Thread Outer Locals → Config Thread Inner Local}
variable {Inv : Config Thread Outer Locals → Prop}
variable {config last : Config Thread Outer Locals}
variable {schedule : List (Thread × OuterAct)}

theorem Contains.exec
    (contains : Contains outer inner project Inv)
    (executed : outer.exec config schedule = some last)
    (holds : Inv config) :
    Inv last ∧ ∃ operations,
      inner.exec (project config) operations = some (project last) := by
  refine exec_invariant
    (P := fun reached => Inv reached ∧ ∃ operations,
      inner.exec (project config) operations = some (project reached))
    ?_ executed ⟨holds, [], rfl⟩
  rintro reached thread act next stepped ⟨holds, operations, sofar⟩
  obtain ⟨kept, same | ⟨operation, moved⟩⟩ :=
    contains reached thread act next stepped holds
  · exact ⟨kept, operations, by rw [same]; exact sofar⟩
  · refine ⟨kept, operations ++ [(thread, operation)], ?_⟩
    rw [exec_append, sofar]
    simp [Program.exec, moved]

/-- The projection of a reachable state is reachable. -/
theorem Contains.reachable
    {initial : Config Thread Outer Locals}
    (contains : Contains outer inner project Inv)
    (reachable : outer.Reachable initial config)
    (holds : Inv initial) :
    Inv config ∧ inner.Reachable (project initial) (project config) := by
  obtain ⟨schedule, executed⟩ := reachable
  exact contains.exec executed holds

end Runs

end RegistryIo.Interleaving
