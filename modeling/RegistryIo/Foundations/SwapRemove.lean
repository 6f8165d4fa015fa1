import Mathlib.Data.List.Induction
import Mathlib.Data.List.Perm.Basic

/-!
# Partitioning a vector with `swap_remove`

A loop walks a vector with an index.  It steps over the items it keeps, and
takes the others out by moving the last item into their position, so that the
index stays where it is.
-/

namespace RegistryIo

universe u

variable {α : Type u}

/-- `Vec::swap_remove` without the removed item: the last item takes its
position. -/
def swapRemove (items : List α) (index : Nat) : List α :=
  match items.getLast? with
  | none => items
  | some last => (items.set index last).dropLast

/-- `Vec::swap_remove`, which panics when the index is out of range. -/
def swapRemove? (items : List α) (index : Nat) : Option (α × List α) :=
  (items[index]?).map fun item => (item, swapRemove items index)

/-- The loop, with the items that were taken out so far. -/
def swapPartitionLoop (keep : α → Bool) :
    Nat → Nat → List α → List α → List α × List α
  | 0, _, items, taken => (items, taken)
  | fuel + 1, index, items, taken =>
      match items[index]? with
      | none => (items, taken)
      | some item =>
          if keep item then
            swapPartitionLoop keep fuel (index + 1) items taken
          else
            swapPartitionLoop keep fuel index (swapRemove items index)
              (taken ++ [item])

/-- The kept items and the items taken out. -/
def swapPartition (keep : α → Bool) (items : List α) : List α × List α :=
  swapPartitionLoop keep items.length 0 items []

private theorem swapRemove_split
    {items : List α} {index : Nat} {item : α}
    (found : items[index]? = some item) :
    ∃ before after rest,
      items = before ++ item :: after ∧
        swapRemove items index = before ++ rest ∧
        after.Perm rest ∧ before.length = index := by
  obtain ⟨bound, itemEq⟩ := List.getElem?_eq_some_iff.mp found
  have split : items =
      items.take index ++ item :: items.drop (index + 1) := by
    rw [← itemEq, List.getElem_cons_drop, List.take_append_drop]
  have length : (items.take index).length = index := by
    simp [Nat.le_of_lt bound]
  generalize items.take index = before at split length
  generalize items.drop (index + 1) = after at split
  subst split
  cases after using List.reverseRecOn with
  | nil =>
      refine ⟨before, [], [], rfl, ?_, List.Perm.refl _, length⟩
      subst length
      simp [swapRemove]
  | append_singleton initial last =>
      refine ⟨before, initial ++ [last], last :: initial, rfl, ?_,
        List.perm_append_singleton last initial, length⟩
      subst length
      have lastEq :
          (before ++ item :: (initial ++ [last])).getLast? = some last := by
        rw [← List.cons_append, ← List.append_assoc]
        exact List.getLast?_concat
      simp only [swapRemove, lastEq]
      rw [List.set_append_right _ _ (Nat.le_refl _), Nat.sub_self,
        List.set_cons_zero, ← List.cons_append, ← List.append_assoc,
        List.dropLast_concat]

private theorem swapRemove_perm
    {items : List α} {index : Nat} {item : α}
    (found : items[index]? = some item) :
    (item :: swapRemove items index).Perm items := by
  obtain ⟨before, after, rest, shape, removed, perm, _⟩ :=
    swapRemove_split found
  rw [removed, shape]
  exact (List.perm_middle.trans
    (List.Perm.cons item (List.Perm.append_left before perm))).symm

private theorem take_swapRemove
    {items : List α} {index : Nat} {item : α}
    (found : items[index]? = some item) :
    (swapRemove items index).take index = items.take index := by
  obtain ⟨before, after, rest, shape, removed, _, length⟩ :=
    swapRemove_split found
  rw [removed, shape]
  subst length
  simp

theorem length_swapRemove
    {items : List α} {index : Nat} {item : α}
    (found : items[index]? = some item) :
    (swapRemove items index).length + 1 = items.length := by
  simpa using (swapRemove_perm found).length_eq

section Loop

variable {keep : α → Bool}

private theorem swapPartitionLoop_perm
    (fuel index : Nat) (items taken : List α) :
    ((swapPartitionLoop keep fuel index items taken).1 ++
      (swapPartitionLoop keep fuel index items taken).2).Perm
        (items ++ taken) := by
  induction fuel generalizing index items taken with
  | zero => exact List.Perm.refl _
  | succ fuel inductionHypothesis =>
      simp only [swapPartitionLoop]
      split
      · exact List.Perm.refl _
      · rename_i item found
        split
        · exact inductionHypothesis (index + 1) items taken
        · refine (inductionHypothesis index _ _).trans ?_
          rw [← List.append_assoc]
          refine (List.perm_append_singleton item _).trans ?_
          rw [← List.cons_append]
          exact List.Perm.append_right taken (swapRemove_perm found)

private theorem swapPartitionLoop_taken
    {fuel index : Nat} {items taken : List α}
    (earlier : ∀ item ∈ taken, keep item = false) :
    ∀ item ∈ (swapPartitionLoop keep fuel index items taken).2,
      keep item = false := by
  induction fuel generalizing index items taken with
  | zero => exact earlier
  | succ fuel inductionHypothesis =>
      simp only [swapPartitionLoop]
      split
      · exact earlier
      · rename_i item found
        split
        · exact inductionHypothesis earlier
        · rename_i rejected
          refine inductionHypothesis ?_
          intro other member
          rcases List.mem_append.mp member with old | new
          · exact earlier other old
          · rw [List.mem_singleton.mp new]
            simpa using rejected

/-- With fuel for every position ahead, the loop only stops at the end of the
vector. -/
private theorem swapPartitionLoop_kept
    {fuel index : Nat} {items taken : List α}
    (enough : items.length ≤ index + fuel)
    (earlier : ∀ item ∈ items.take index, keep item = true) :
    ∀ item ∈ (swapPartitionLoop keep fuel index items taken).1,
      keep item = true := by
  induction fuel generalizing index items taken with
  | zero =>
      intro item member
      refine earlier item ?_
      rw [List.take_of_length_le (by omega)]
      exact member
  | succ fuel inductionHypothesis =>
      simp only [swapPartitionLoop]
      split
      · rename_i finished
        intro item member
        refine earlier item ?_
        rw [List.take_of_length_le (List.getElem?_eq_none_iff.mp finished)]
        exact member
      · rename_i item found
        split
        · rename_i accepted
          refine inductionHypothesis (by omega) ?_
          intro other member
          rw [List.take_add_one, found] at member
          rcases List.mem_append.mp member with old | new
          · exact earlier other old
          · simp only [Option.toList_some, List.mem_singleton] at new
            rw [new]
            exact accepted
        · have shorter := length_swapRemove found
          refine inductionHypothesis (by omega) ?_
          rw [take_swapRemove found]
          exact earlier

/-- More fuel than there are positions ahead makes no difference. -/
theorem swapPartitionLoop_fuel
    {fuel index : Nat} {items taken : List α} (extra : Nat)
    (enough : items.length ≤ index + fuel) :
    swapPartitionLoop keep (fuel + extra) index items taken =
      swapPartitionLoop keep fuel index items taken := by
  induction fuel generalizing index items taken with
  | zero =>
      have finished : items[index]? = none :=
        List.getElem?_eq_none_iff.mpr (by omega)
      cases extra with
      | zero => rfl
      | succ extra =>
          rw [Nat.zero_add]
          simp only [swapPartitionLoop, finished]
  | succ fuel inductionHypothesis =>
      rw [Nat.succ_add]
      simp only [swapPartitionLoop]
      split
      · rfl
      · rename_i item found
        split
        · exact inductionHypothesis (by omega)
        · have shorter := length_swapRemove found
          exact inductionHypothesis (by omega)

end Loop

section Partition

variable (keep : α → Bool) (items : List α)

theorem swapPartition_perm :
    ((swapPartition keep items).1 ++ (swapPartition keep items).2).Perm
      items := by
  have perm :
      ((swapPartition keep items).1 ++ (swapPartition keep items).2).Perm
        (items ++ []) :=
    swapPartitionLoop_perm items.length 0 items []
  simpa using perm

private theorem keep_of_mem_kept :
    ∀ item ∈ (swapPartition keep items).1, keep item = true :=
  swapPartitionLoop_kept (by omega) (by simp)

private theorem not_keep_of_mem_taken :
    ∀ item ∈ (swapPartition keep items).2, keep item = false :=
  swapPartitionLoop_taken (by simp)

variable {keep items} {item : α}

theorem mem_swapPartition_kept :
    item ∈ (swapPartition keep items).1 ↔
      item ∈ items ∧ keep item = true := by
  have perm := swapPartition_perm keep items
  constructor
  · intro member
    exact ⟨perm.mem_iff.mp (List.mem_append_left _ member),
      keep_of_mem_kept keep items item member⟩
  · rintro ⟨member, accepted⟩
    rcases List.mem_append.mp (perm.mem_iff.mpr member) with inKept | inTaken
    · exact inKept
    · rw [not_keep_of_mem_taken keep items item inTaken] at accepted
      cases accepted

theorem mem_swapPartition_taken :
    item ∈ (swapPartition keep items).2 ↔
      item ∈ items ∧ keep item = false := by
  have perm := swapPartition_perm keep items
  constructor
  · intro member
    exact ⟨perm.mem_iff.mp (List.mem_append_right _ member),
      not_keep_of_mem_taken keep items item member⟩
  · rintro ⟨member, rejected⟩
    rcases List.mem_append.mp (perm.mem_iff.mpr member) with inKept | inTaken
    · rw [keep_of_mem_kept keep items item inKept] at rejected
      cases rejected
    · exact inTaken

variable (keep items)

theorem swapPartition_kept_perm :
    (swapPartition keep items).1.Perm (items.filter keep) := by
  have perm := (swapPartition_perm keep items).filter keep
  have kept : (swapPartition keep items).1.filter keep =
      (swapPartition keep items).1 :=
    List.filter_eq_self.mpr (keep_of_mem_kept keep items)
  have taken : (swapPartition keep items).2.filter keep = [] := by
    refine List.filter_eq_nil_iff.mpr ?_
    intro item member
    simp [not_keep_of_mem_taken keep items item member]
  rw [List.filter_append, kept, taken, List.append_nil] at perm
  exact perm

theorem swapPartition_taken_perm :
    (swapPartition keep items).2.Perm
      (items.filter fun item => !keep item) := by
  have perm := (swapPartition_perm keep items).filter fun item => !keep item
  have kept : (swapPartition keep items).1.filter (fun item => !keep item) =
      [] := by
    refine List.filter_eq_nil_iff.mpr ?_
    intro item member
    simp [keep_of_mem_kept keep items item member]
  have taken : (swapPartition keep items).2.filter (fun item => !keep item) =
      (swapPartition keep items).2 := by
    refine List.filter_eq_self.mpr ?_
    intro item member
    simp [not_keep_of_mem_taken keep items item member]
  rw [List.filter_append, kept, taken, List.nil_append] at perm
  exact perm

end Partition

end RegistryIo
