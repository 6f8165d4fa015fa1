import RegistryIo.Snapshot.Store

/-!
# The loop of `collect_unprotected`

The loop with its index, where an access behind the end of the retired list is
an outcome of its own, and so is a loop that has not ended after a number of
passes.  `Store.collectUnprotected`, which the threads of the program use, is
what it returns.
-/

namespace RegistryIo.Snapshot.Retired

variable {T : Type}

/-- How `collect_unprotected` ends: it returns with the remaining list and the
batch, it panics, or it is still in its loop. -/
inductive Collected (T : Type) where
  | returned (retired freed : List T)
  | outOfRange
  | running
  deriving DecidableEq, Repr

section Collect

variable (asPtr : T → Addr) (announced : List Addr)

/-- `while i < retired.len()`, for a number of passes. -/
def collectLoop : Nat → Nat → List T → List T → Collected T
  | 0, _, _, _ => .running
  | passes + 1, i, retired, freed =>
      if i < retired.length then
        match retired[i]? with
        | none => .outOfRange
        | some value =>
            if announced.contains (asPtr value) then
              collectLoop passes (i + 1) retired freed
            else
              match swapRemove? retired i with
              | none => .outOfRange
              | some (removed, rest) =>
                  collectLoop passes i rest (freed ++ [removed])
      else .returned retired freed

/-- `SnapCell::collect_unprotected`. -/
def collectUnprotected (passes : Nat) (retired : List T) : Collected T :=
  if retired.isEmpty then .returned retired []
  else collectLoop asPtr announced passes 0 retired []

end Collect

section Loop

variable {asPtr : T → Addr} {announced : List Addr}

private theorem collectLoop_ne_outOfRange
    (passes i : Nat) (retired freed : List T) :
    collectLoop asPtr announced passes i retired freed ≠ .outOfRange := by
  induction passes generalizing i retired freed with
  | zero => exact nofun
  | succ passes inductionHypothesis =>
      unfold collectLoop
      split
      · rename_i inRange
        simp only [List.getElem?_eq_getElem inRange, swapRemove?,
          Option.map_some]
        split
        · exact inductionHypothesis _ _ _
        · exact inductionHypothesis _ _ _
      · exact nofun

/-- After one pass for every position ahead the loop has ended, with the
result of `swapPartitionLoop`. -/
private theorem collectLoop_returned
    {passes i : Nat} {retired freed : List T}
    (enough : retired.length ≤ i + passes) :
    collectLoop asPtr announced (passes + 1) i retired freed =
      .returned
        (swapPartitionLoop (fun value => announced.contains (asPtr value))
          passes i retired freed).1
        (swapPartitionLoop (fun value => announced.contains (asPtr value))
          passes i retired freed).2 := by
  induction passes generalizing i retired freed with
  | zero =>
      have finished : ¬ i < retired.length := by omega
      simp only [collectLoop, finished, if_false, swapPartitionLoop]
  | succ passes inductionHypothesis =>
      unfold collectLoop swapPartitionLoop
      by_cases inRange : i < retired.length
      · have found := List.getElem?_eq_getElem inRange
        simp only [inRange, if_true, found, swapRemove?, Option.map_some]
        split
        · exact inductionHypothesis (by omega)
        · have shorter := length_swapRemove found
          exact inductionHypothesis (by omega)
      · have finished : retired[i]? = none :=
          List.getElem?_eq_none_iff.mpr (by omega)
        simp only [inRange, if_false, finished]

private theorem collectUnprotected_returned
    {passes : Nat} {retired : List T} (enough : retired.length < passes) :
    collectUnprotected asPtr announced passes retired =
      .returned
        (swapPartition (fun value => announced.contains (asPtr value))
          retired).1
        (swapPartition (fun value => announced.contains (asPtr value))
          retired).2 := by
  unfold collectUnprotected
  cases retired with
  | nil => rfl
  | cons first rest =>
      obtain ⟨extra, rfl⟩ := Nat.exists_eq_add_of_lt enough
      rw [List.isEmpty_cons, if_neg Bool.false_ne_true,
        collectLoop_returned (by omega)]
      rw [swapPartitionLoop_fuel extra (by omega)]
      rfl

/-- The threads of the program take the result of the loop. -/
theorem collectUnprotected_store
    {passes : Nat} {retired : List Addr} (enough : retired.length < passes) :
    collectUnprotected id announced passes retired =
      .returned (Store.collectUnprotected announced retired).1
        (Store.collectUnprotected announced retired).2 := by
  have keep : (fun value => announced.contains (id value)) =
      fun address => decide (address ∈ announced) := by
    funext address
    simp
  rw [collectUnprotected_returned enough, keep]
  rfl

end Loop

/-- The loop never leaves the retired list and ends after at most one pass for
every value and the last comparison.  It splits the list: the batch are the
values that are not announced, the remainder those that are, each value as
often as it was there. -/
theorem collect_unprotected_partitions
    (asPtr : T → Addr) (announced : List Addr) (retired : List T) :
    (∀ passes, collectUnprotected asPtr announced passes retired ≠
        .outOfRange) ∧
      ∃ remaining batch,
        (∀ passes, retired.length < passes →
          collectUnprotected asPtr announced passes retired =
            .returned remaining batch) ∧
        (batch ++ remaining).Perm retired ∧
        batch.Perm (retired.filter fun value => asPtr value ∉ announced) ∧
        remaining.Perm
          (retired.filter fun value => asPtr value ∈ announced) := by
  constructor
  · intro passes
    unfold collectUnprotected
    split
    · exact nofun
    · exact collectLoop_ne_outOfRange passes 0 retired []
  · refine ⟨_, _, fun passes enough => collectUnprotected_returned enough,
      List.perm_append_comm.trans (swapPartition_perm _ retired), ?_, ?_⟩
    · simpa using swapPartition_taken_perm
        (fun value => announced.contains (asPtr value)) retired
    · simpa using swapPartition_kept_perm
        (fun value => announced.contains (asPtr value)) retired

/-- The last value takes the position of the first one and is examined
there. -/
example : collectUnprotected id [2, 4] 5 [1, 2, 3, 4] =
    .returned [4, 2] [1, 3] := by
  decide

end RegistryIo.Snapshot.Retired
