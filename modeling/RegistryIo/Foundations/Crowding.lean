import Mathlib.Data.Finset.Card

/-!
# Threads that walk past occupied places

Places are numbered from one.  Threads arrive at the last place and walk
towards the first one; a thread stays at a place that it finds free, and a
thread that has passed all places adds a new one behind the last.  A place is
passed only while another thread stays at it.

Then there are never more places than threads at one time.  The invariant
counts, for every place, the places behind it together with the threads that
have come as far as it.
-/

namespace RegistryIo

universe u

variable {Thread : Type u}

/-- At most `bound` threads have a position. -/
def AtMost (bound : Nat) (position : Thread → Option Nat) : Prop :=
  ∀ threads : Finset Thread,
    (∀ thread ∈ threads, (position thread).isSome) → threads.card ≤ bound

/-- The threads that have come as far as `place`. -/
def CameTo (position : Thread → Option Nat) (place : Nat)
    (thread : Thread) : Prop :=
  ∃ here, position thread = some here ∧ here ≤ place

/-- The places behind any place and the threads that have come as far as it
are together at most `bound`. -/
def Uncrowded (bound places : Nat) (position : Thread → Option Nat) : Prop :=
  ∀ place ≤ places, ∀ threads : Finset Thread,
    (∀ thread ∈ threads, CameTo position place thread) →
      places - place + threads.card ≤ bound

theorem CameTo.isSome
    {position : Thread → Option Nat} {place : Nat} {thread : Thread}
    (came : CameTo position place thread) : (position thread).isSome := by
  obtain ⟨here, found, _⟩ := came
  rw [found]
  rfl

namespace Uncrowded

variable {bound places : Nat} {position position' : Thread → Option Nat}
variable {thread : Thread}

theorem empty
    (absent : ∀ thread, position thread = none) :
    Uncrowded bound 0 position := by
  intro place _ threads came
  have none : threads = ∅ := by
    refine Finset.eq_empty_of_forall_notMem fun thread member => ?_
    have present := (came thread member).isSome
    rw [absent thread] at present
    cases present
  simp [none]

theorem places_le (holds : Uncrowded bound places position) :
    places ≤ bound := by
  have counted := holds 0 (Nat.zero_le places) ∅ (by simp)
  simpa using counted

/-- Threads may leave. -/
theorem leave
    (holds : Uncrowded bound places position)
    (left : ∀ thread, position' thread = position thread ∨
      position' thread = none) :
    Uncrowded bound places position' := by
  intro place bounded threads came
  refine holds place bounded threads fun thread member => ?_
  obtain ⟨here, found, reached⟩ := came thread member
  rcases left thread with same | gone
  · exact ⟨here, same.symm.trans found, reached⟩
  · rw [gone] at found
    cases found

/-- A thread arrives at the last place. -/
theorem arrive
    (holds : Uncrowded bound places position)
    (limited : AtMost bound position')
    (arrived : position' thread = some places)
    (others : ∀ other, other ≠ thread → position' other = position other) :
    Uncrowded bound places position' := by
  intro place bounded threads came
  by_cases last : place = places
  · subst last
    have counted := limited threads fun thread member =>
      (came thread member).isSome
    omega
  · refine holds place bounded threads fun other member => ?_
    obtain ⟨here, found, reached⟩ := came other member
    have different : other ≠ thread := by
      rintro rfl
      have same := Option.some.inj (arrived.symm.trans found)
      omega
    exact ⟨here, (others other different).symm.trans found, reached⟩

variable [DecidableEq Thread]

/-- A thread passes a place at which another thread stays. -/
theorem pass
    {place : Nat} {resident : Thread}
    (holds : Uncrowded bound places position)
    (bounded : place + 1 ≤ places)
    (different : resident ≠ thread)
    (stays : position resident = some (place + 1))
    (before : position thread = some (place + 1))
    (after : position' thread = some place)
    (others : ∀ other, other ≠ thread → position' other = position other) :
    Uncrowded bound places position' := by
  intro target inside threads came
  have old : ∀ other ∈ threads, other ≠ thread →
      CameTo position target other := by
    intro other member apart
    obtain ⟨here, found, reached⟩ := came other member
    exact ⟨here, (others other apart).symm.trans found, reached⟩
  by_cases concerned : target = place ∧ thread ∈ threads
  · obtain ⟨rfl, moved⟩ := concerned
    -- The resident of the place that was passed has not come to `target`.
    have absent : resident ∉ threads := by
      intro member
      obtain ⟨here, found, reached⟩ := old resident member different
      have same := Option.some.inj (stays.symm.trans found)
      omega
    have counted := holds (target + 1) bounded (insert resident threads) ?_
    · rw [Finset.card_insert_of_notMem absent] at counted
      omega
    · intro other member
      rcases Finset.mem_insert.mp member with rfl | listed
      · exact ⟨target + 1, stays, Nat.le_refl _⟩
      · by_cases same : other = thread
        · subst same
          exact ⟨target + 1, before, Nat.le_refl _⟩
        · obtain ⟨here, found, reached⟩ := old other listed same
          exact ⟨here, found, Nat.le_succ_of_le reached⟩
  · refine holds target inside threads fun other member => ?_
    by_cases same : other = thread
    · subst same
      obtain ⟨here, found, reached⟩ := came other member
      have isHere := Option.some.inj (after.symm.trans found)
      have apart : target ≠ place := fun equal =>
        concerned ⟨equal, member⟩
      exact ⟨place + 1, before, by omega⟩
    · exact old other member same

/-- A thread that has passed all places adds one and stays at it. -/
theorem extend
    (holds : Uncrowded bound places position)
    (limited : AtMost bound position')
    (before : position thread = some 0)
    (after : position' thread = some (places + 1))
    (others : ∀ other, other ≠ thread → position' other = position other) :
    Uncrowded bound (places + 1) position' := by
  intro place bounded threads came
  by_cases last : place = places + 1
  · subst last
    have counted := limited threads fun thread member =>
      (came thread member).isSome
    omega
  · have absent : thread ∉ threads := by
      intro member
      obtain ⟨here, found, reached⟩ := came thread member
      have same := Option.some.inj (after.symm.trans found)
      omega
    have counted := holds place (by omega) (insert thread threads) ?_
    · rw [Finset.card_insert_of_notMem absent] at counted
      omega
    · intro other member
      rcases Finset.mem_insert.mp member with rfl | listed
      · exact ⟨0, before, Nat.zero_le place⟩
      · obtain ⟨here, found, reached⟩ := came other listed
        have different : other ≠ thread := by
          rintro rfl
          exact absent listed
        exact ⟨here, (others other different).symm.trans found, reached⟩

end Uncrowded

end RegistryIo
