import Mathlib.Data.List.Basic
import Mathlib.Data.List.Sort
import Mathlib.Order.Basic

/-!
# Binary search for a partition point, and stable insertion

`partitionPoint` is the branch-free binary search of the standard library:
the size of the window is halved until one element is left, and that element
decides the result.  It finds the boundary of every list on which the
predicate holds up to some position and fails from there on.

The second half of the module relates insertion at a partition point to
stable sorting: a list sorted by descending key stays the stable sort of
everything inserted so far.
-/

namespace RegistryIo

universe u v

section Search

variable {α : Type u}

/-- The window `[base, base + size)` is halved at most `fuel` times. -/
def searchWindow (holds : α → Bool) (items : List α) :
    Nat → Nat → Nat → Nat
  | 0, base, _ => base
  | fuel + 1, base, size =>
      if 1 < size then
        let middle := base + size / 2
        let base := if (items[middle]?).any holds then middle else base
        searchWindow holds items fuel base (size - size / 2)
      else
        base

/-- Index of the first element on which `holds` fails, when `items` is
partitioned by `holds`. -/
def partitionPoint (holds : α → Bool) (items : List α) : Nat :=
  if items.isEmpty then
    0
  else
    let base := searchWindow holds items items.length 0 items.length
    if (items[base]?).any holds then base + 1 else base

variable {holds : α → Bool}

private theorem any_getElem?_append
    {initial final : List α}
    (initialHolds : ∀ item ∈ initial, holds item = true)
    (finalFails : ∀ item ∈ final, holds item = false)
    {index : Nat} (bound : index < (initial ++ final).length) :
    ((initial ++ final)[index]?).any holds =
      decide (index < initial.length) := by
  by_cases inside : index < initial.length
  · have member : initial[index] ∈ initial := List.getElem_mem inside
    simp [List.getElem?_append_left inside, inside,
      initialHolds _ member]
  · have outside : initial.length ≤ index := Nat.le_of_not_lt inside
    have finalBound : index - initial.length < final.length := by
      simp only [List.length_append] at bound
      omega
    have member : final[index - initial.length] ∈ final :=
      List.getElem_mem finalBound
    simp [List.getElem?_append_right outside, inside,
      List.getElem?_eq_getElem finalBound, finalFails _ member]

/-- The window keeps the boundary strictly above its base, unless the base is
still zero. -/
private theorem searchWindow_spec
    {initial final : List α}
    (initialHolds : ∀ item ∈ initial, holds item = true)
    (finalFails : ∀ item ∈ final, holds item = false) :
    ∀ fuel base size : Nat,
      size ≤ fuel →
      0 < size →
      (base = 0 ∨ base < initial.length) →
      initial.length ≤ base + size →
      base + size ≤ (initial ++ final).length →
      let found := searchWindow holds (initial ++ final) fuel base size
      (found = 0 ∨ found < initial.length) ∧
        initial.length ≤ found + 1 ∧
        found < (initial ++ final).length
  | 0, _, _, enough, positive, _, _, _ => by
      omega
  | fuel + 1, base, size, enough, positive, low, high, bound => by
      by_cases large : 1 < size
      · have middleBound :
            base + size / 2 < (initial ++ final).length := by
          omega
        have step :=
          searchWindow_spec initialHolds finalFails fuel
            (if base + size / 2 < initial.length then
              base + size / 2 else base)
            (size - size / 2) (by omega) (by omega)
            (by split <;> omega) (by split <;> omega)
            (by split <;> omega)
        simpa [searchWindow, large,
          any_getElem?_append initialHolds finalFails middleBound]
          using step
      · simp only [searchWindow, large, if_false]
        exact ⟨low, by omega, by omega⟩

private theorem partitionPoint_append
    {initial final : List α}
    (initialHolds : ∀ item ∈ initial, holds item = true)
    (finalFails : ∀ item ∈ final, holds item = false) :
    partitionPoint holds (initial ++ final) = initial.length := by
  by_cases empty : initial ++ final = []
  · simp [partitionPoint, List.append_eq_nil_iff.mp empty]
  · have positive : 0 < (initial ++ final).length :=
      List.length_pos_of_ne_nil empty
    obtain ⟨low, high, bound⟩ :=
      searchWindow_spec initialHolds finalFails
        (initial ++ final).length 0 (initial ++ final).length
        (Nat.le_refl _) positive (Or.inl rfl) (by simp) (by simp)
    have notEmpty : (initial ++ final).isEmpty = false := by
      simpa using empty
    simp only [partitionPoint, notEmpty]
    rw [any_getElem?_append initialHolds finalFails bound]
    by_cases inside :
        searchWindow holds (initial ++ final)
          (initial ++ final).length 0 (initial ++ final).length <
            initial.length
    · simp only [inside, decide_true]
      simp only [Bool.false_eq_true, if_false, if_true]
      omega
    · simp only [inside, decide_false]
      simp only [Bool.false_eq_true, if_false]
      omega

end Search

section StableInsertion

variable {α : Type u} {κ : Type v} [LinearOrder κ] {key : α → κ}

/-- Insert after every item whose key is at least the new one. -/
def insertStable (key : α → κ) (item : α) (items : List α) : List α :=
  let position := partitionPoint (fun other => key item ≤ key other) items
  items.take position ++ item :: items.drop position

/-- Sorted by descending key. -/
abbrev Descending (key : α → κ) (items : List α) : Prop :=
  items.Pairwise fun earlier later => key later ≤ key earlier

/-- Items with equal keys keep their order. -/
def stableSort (key : α → κ) (items : List α) : List α :=
  items.mergeSort fun earlier later => decide (key later ≤ key earlier)

theorem stableSort_perm (items : List α) :
    (stableSort key items).Perm items :=
  List.mergeSort_perm items _

theorem stableSort_descending (items : List α) :
    Descending key (stableSort key items) := by
  have sorted :
      (stableSort key items).Pairwise
        (fun earlier later => decide (key later ≤ key earlier) = true) :=
    List.pairwise_mergeSort
      (fun first second third firstLe secondLe => by
        simp only [decide_eq_true_eq] at *
        exact le_trans secondLe firstLe)
      (fun first second => by
        simpa using le_total (key second) (key first))
      items
  exact sorted.imp (by simp)

private theorem stableSort_filter_key (items : List α) (value : κ) :
    (stableSort key items).filter (fun item => key item = value) =
      items.filter (fun item => key item = value) := by
  have class_pairwise :
      (items.filter (fun item => key item = value)).Pairwise
        (fun earlier later => decide (key later ≤ key earlier) = true) := by
    refine List.pairwise_iff_forall_sublist.mpr ?_
    intro earlier later pair
    have earlierMember := pair.subset (List.Mem.head [later])
    have laterMember :=
      pair.subset (List.Mem.tail earlier (List.Mem.head []))
    simp only [List.mem_filter, decide_eq_true_eq] at *
    rw [earlierMember.2, laterMember.2]
  have sublist :
      (items.filter (fun item => key item = value)).Sublist
        (stableSort key items) :=
    List.sublist_mergeSort
      (fun first second third firstLe secondLe => by
        simp only [decide_eq_true_eq] at *
        exact le_trans secondLe firstLe)
      (fun first second => by
        simpa using le_total (key second) (key first))
      class_pairwise List.filter_sublist
  have filtered := sublist.filter (fun item => key item = value)
  rw [List.filter_filter] at filtered
  simp only [Bool.and_self] at filtered
  exact
    (filtered.eq_of_length
      (((stableSort_perm items).filter _).length_eq).symm).symm

/-- A descending list is determined by its classes of equal keys. -/
private theorem descending_ext :
    ∀ {left right : List α},
      Descending key left →
      Descending key right →
      (∀ value,
        left.filter (fun item => key item = value) =
          right.filter (fun item => key item = value)) →
      left = right
  | [], [], _, _, _ => rfl
  | [], head :: tail, _, _, classes => by
      simpa using classes (key head)
  | head :: tail, [], _, _, classes => by
      simpa using classes (key head)
  | head :: tail, other :: rest, leftSorted, rightSorted, classes => by
      have headMember : head ∈ other :: rest := by
        have filtered :
            head ∈ (other :: rest).filter
              (fun item => key item = key head) := by
          rw [← classes (key head)]
          simp
        exact List.mem_of_mem_filter filtered
      have otherMember : other ∈ head :: tail := by
        have filtered :
            other ∈ (head :: tail).filter
              (fun item => key item = key other) := by
          rw [classes (key other)]
          simp
        exact List.mem_of_mem_filter filtered
      have sameKey : key other = key head := by
        apply le_antisymm
        · rcases List.mem_cons.mp otherMember with equal | later
          · rw [equal]
          · exact (List.pairwise_cons.mp leftSorted).1 other later
        · rcases List.mem_cons.mp headMember with equal | later
          · rw [equal]
          · exact (List.pairwise_cons.mp rightSorted).1 head later
      have heads := classes (key head)
      simp only [List.filter_cons, sameKey, decide_true, if_true,
        List.cons.injEq] at heads
      have tails :
          ∀ value,
            tail.filter (fun item => key item = value) =
              rest.filter (fun item => key item = value) := by
        intro value
        have whole := classes value
        by_cases equal : key head = value
        · subst equal
          exact heads.2
        · simpa [List.filter_cons, sameKey, equal] using whole
      rw [heads.1,
        descending_ext (List.pairwise_cons.mp leftSorted).2
          (List.pairwise_cons.mp rightSorted).2 tails]

/-- In a descending list the items with a key of at least `bound` come
first. -/
private theorem descending_split
    {items : List α} (sorted : Descending key items) (bound : κ) :
    ∃ initial final, items = initial ++ final ∧
      (∀ item ∈ initial, bound ≤ key item) ∧
      ∀ item ∈ final, key item < bound := by
  induction items with
  | nil => exact ⟨[], [], rfl, by simp, by simp⟩
  | cons head tail inductionHypothesis =>
      obtain ⟨initial, final, rfl, initialHigh, finalLow⟩ :=
        inductionHypothesis (List.pairwise_cons.mp sorted).2
      by_cases high : bound ≤ key head
      · refine ⟨head :: initial, final, rfl, ?_, finalLow⟩
        simpa using ⟨high, initialHigh⟩
      · refine ⟨[], head :: (initial ++ final), rfl, by simp, ?_⟩
        have headLow : key head < bound := lt_of_not_ge high
        intro item member
        rcases List.mem_cons.mp member with equal | later
        · rw [equal]
          exact headLow
        · exact lt_of_le_of_lt
            ((List.pairwise_cons.mp sorted).1 item later) headLow

theorem insertStable_split
    (item : α) {items : List α} (sorted : Descending key items) :
    ∃ initial final, items = initial ++ final ∧
      insertStable key item items = initial ++ item :: final ∧
      (∀ other ∈ initial, key item ≤ key other) ∧
      ∀ other ∈ final, key other < key item := by
  obtain ⟨initial, final, rfl, initialHigh, finalLow⟩ :=
    descending_split sorted (key item)
  refine ⟨initial, final, rfl, ?_, initialHigh, finalLow⟩
  have position :
      partitionPoint (fun other => decide (key item ≤ key other))
        (initial ++ final) = initial.length :=
    partitionPoint_append
      (fun other member => by simpa using initialHigh other member)
      (fun other member => by simpa using finalLow other member)
  simp [insertStable, position]

private theorem insertStable_descending
    {item : α} {items : List α} (sorted : Descending key items) :
    Descending key (insertStable key item items) := by
  obtain ⟨initial, final, rfl, shape, initialHigh, finalLow⟩ :=
    insertStable_split item sorted
  rw [shape]
  obtain ⟨initialSorted, finalSorted, crossing⟩ :=
    List.pairwise_append.mp sorted
  refine List.pairwise_append.mpr
    ⟨initialSorted, List.pairwise_cons.mpr ⟨?_, finalSorted⟩, ?_⟩
  · intro other member
    exact le_of_lt (finalLow other member)
  · intro earlier earlierMember later laterMember
    rcases List.mem_cons.mp laterMember with equal | member
    · rw [equal]
      exact initialHigh earlier earlierMember
    · exact crossing earlier earlierMember later member

/-- Inserting into a stable sort is the stable sort of the longer list. -/
theorem insertStable_stableSort (item : α) (items : List α) :
    insertStable key item (stableSort key items) =
      stableSort key (items ++ [item]) := by
  refine descending_ext
    (insertStable_descending (stableSort_descending items))
    (stableSort_descending _) (fun value => ?_)
  rw [stableSort_filter_key, List.filter_append,
    ← stableSort_filter_key items]
  have sorted : Descending key (stableSort key items) :=
    stableSort_descending items
  obtain ⟨initial, final, split, shape, initialHigh, finalLow⟩ :=
    insertStable_split item sorted
  rw [shape, split]
  by_cases equal : key item = value
  · have finalEmpty :
        final.filter (fun other => key other = value) = [] := by
      simp only [List.filter_eq_nil_iff, decide_eq_true_eq]
      intro other member same
      exact absurd (finalLow other member) (by
        rw [same, equal]
        exact lt_irrefl _)
    simp [List.filter_append, equal, finalEmpty]
  · simp [List.filter_append, equal]

/-- Removing items commutes with stable sorting. -/
theorem stableSort_filter
    (keep : α → Bool) (items : List α) :
    stableSort key (items.filter keep) =
      (stableSort key items).filter keep := by
  refine descending_ext (stableSort_descending _)
    ((stableSort_descending items).filter keep) (fun value => ?_)
  rw [stableSort_filter_key, List.filter_comm, ← stableSort_filter_key items,
    List.filter_comm]

end StableInsertion

end RegistryIo
