import Mathlib.Data.List.Nodup

/-!
# Singly linked nodes and traversals

A list of nodes in memory is given by a start pointer and the `next` pointer
of every node.  `Linked` relates them to the sequence of nodes they describe.
A traversal walks the nodes in order and reads a few slots of each;
`Ahead` says which slots a traversal at a given position has still to read.
-/

namespace RegistryIo

universe u

variable {α : Type u}

/-- Following `next` from `start` visits exactly `nodes` and then ends. -/
def Linked (next : α → Option α) : Option α → List α → Prop
  | start, [] => start = none
  | start, node :: rest => start = some node ∧ Linked next (next node) rest

namespace Linked

variable {next : α → Option α} {start : Option α} {nodes : List α}

theorem start_eq (linked : Linked next start nodes) :
    start = nodes.head? := by
  cases nodes with
  | nil => exact linked
  | cons node rest => exact linked.1

theorem congr
    {next' : α → Option α}
    (same : ∀ node ∈ nodes, next' node = next node)
    (linked : Linked next start nodes) :
    Linked next' start nodes := by
  induction nodes generalizing start with
  | nil => exact linked
  | cons node rest inductionHypothesis =>
      refine ⟨linked.1, ?_⟩
      rw [same node (List.Mem.head rest)]
      exact inductionHypothesis
        (fun other member => same other (List.Mem.tail node member))
        linked.2

end Linked

variable [DecidableEq α]

/-- The nodes behind the first occurrence of `node`. -/
def following (nodes : List α) (node : α) : List α :=
  (nodes.dropWhile fun other => other ≠ node).tail

@[simp]
theorem following_cons_self (node : α) (nodes : List α) :
    following (node :: nodes) node = nodes := by
  simp [following]

private theorem following_cons_of_ne
    {first node : α} (different : first ≠ node) (nodes : List α) :
    following (first :: nodes) node = following nodes node := by
  simp [following, different]

private theorem following_append_of_notMem
    {node : α} (added nodes : List α) (absent : node ∉ added) :
    following (added ++ nodes) node = following nodes node := by
  induction added with
  | nil => rfl
  | cons first rest inductionHypothesis =>
      simp only [List.mem_cons, not_or] at absent
      rw [List.cons_append, following_cons_of_ne (Ne.symm absent.1),
        inductionHypothesis absent.2]

theorem mem_of_mem_following
    {nodes : List α} {node other : α}
    (member : other ∈ following nodes node) :
    other ∈ nodes :=
  (List.dropWhile_sublist _).subset (List.mem_of_mem_tail member)

/-- The `next` pointer of a listed node is the node behind it. -/
theorem Linked.next_eq
    {next : α → Option α} {start : Option α} {nodes : List α}
    (linked : Linked next start nodes) {node : α} (member : node ∈ nodes) :
    next node = (following nodes node).head? := by
  induction nodes generalizing start with
  | nil => cases member
  | cons first rest inductionHypothesis =>
      by_cases same : first = node
      · subst same
        rw [following_cons_self]
        exact linked.2.start_eq
      · rw [following_cons_of_ne same]
        refine inductionHypothesis linked.2 ?_
        rcases List.mem_cons.mp member with equal | later
        · exact absurd equal.symm same
        · exact later

/-- In a duplicate-free list, the nodes behind `node` are the next node and
the nodes behind that. -/
private theorem following_eq_cons
    {nodes : List α} (nodup : nodes.Nodup) {node other : α}
    (successor : (following nodes node).head? = some other) :
    following nodes node = other :: following nodes other := by
  induction nodes with
  | nil => simp [following] at successor
  | cons first rest inductionHypothesis =>
      have restNodup := (List.nodup_cons.mp nodup).2
      have firstAbsent := (List.nodup_cons.mp nodup).1
      by_cases same : first = node
      · subst same
        rw [following_cons_self] at successor ⊢
        cases rest with
        | nil => simp at successor
        | cons second tail =>
            simp only [List.head?_cons, Option.some.injEq] at successor
            subst successor
            have apart : first ≠ second := by
              rintro rfl
              exact firstAbsent (List.Mem.head tail)
            rw [following_cons_of_ne apart, following_cons_self]
      · rw [following_cons_of_ne same] at successor ⊢
        have inRest : other ∈ rest := by
          have behind : other ∈ following rest node :=
            List.mem_of_mem_head? successor
          exact mem_of_mem_following behind
        have apart : first ≠ other := by
          rintro rfl
          exact firstAbsent inRest
        rw [following_cons_of_ne apart]
        exact inductionHypothesis restNodup successor

/-- The nodes a traversal at `cursor` has still to visit. -/
def toVisit (nodes : List α) : Option α → List α
  | none => []
  | some node => node :: following nodes node

theorem toVisit_head (nodes : List α) :
    toVisit nodes nodes.head? = nodes := by
  cases nodes with
  | nil => rfl
  | cons first rest => simp [toVisit]

theorem toVisit_next
    {nodes : List α} (nodup : nodes.Nodup) {node : α} {successor : Option α}
    (moved : successor = (following nodes node).head?) :
    node :: toVisit nodes successor = toVisit nodes (some node) := by
  cases target : (following nodes node).head? with
  | none =>
      rw [List.head?_eq_none_iff] at target
      rw [moved, target]
      simp [toVisit, target]
  | some other =>
      rw [moved, target]
      simp [toVisit, following_eq_cons nodup target]

/-- New nodes in front of the list are not visited. -/
theorem toVisit_append
    {added nodes : List α} {cursor : Option α}
    (absent : ∀ here, cursor = some here → here ∉ added) :
    toVisit (added ++ nodes) cursor = toVisit nodes cursor := by
  cases cursor with
  | none => rfl
  | some here =>
      simp only [toVisit]
      rw [following_append_of_notMem added nodes (absent here rfl)]

/-- How many nodes a traversal at `cursor` has still to visit. -/
def remaining (nodes : List α) : Option α → Nat
  | none => 0
  | some node => (following nodes node).length + 1

private theorem length_toVisit (nodes : List α) (cursor : Option α) :
    (toVisit nodes cursor).length = remaining nodes cursor := by
  cases cursor with
  | none => rfl
  | some here => rfl

theorem remaining_head (nodes : List α) :
    remaining nodes nodes.head? = nodes.length := by
  rw [← length_toVisit, toVisit_head]

theorem remaining_next
    {nodes : List α} (nodup : nodes.Nodup) {node : α} {successor : Option α}
    (moved : successor = (following nodes node).head?) :
    remaining nodes successor + 1 = remaining nodes (some node) := by
  rw [← length_toVisit, ← length_toVisit, ← toVisit_next nodup moved,
    List.length_cons]

theorem remaining_append
    {added nodes : List α} {cursor : Option α}
    (absent : ∀ here, cursor = some here → here ∉ added) :
    remaining (added ++ nodes) cursor = remaining nodes cursor := by
  rw [← length_toVisit, toVisit_append absent, length_toVisit]

theorem remaining_le
    {nodes : List α} {cursor : Option α}
    (listed : ∀ here, cursor = some here → here ∈ nodes) :
    remaining nodes cursor ≤ nodes.length := by
  cases cursor with
  | none => exact Nat.zero_le _
  | some here =>
      have member := listed here rfl
      clear listed
      induction nodes with
      | nil => cases member
      | cons first rest inductionHypothesis =>
          by_cases same : first = here
          · subst same
            simp [remaining]
          · have later : here ∈ rest := by
              rcases List.mem_cons.mp member with equal | later
              · exact absurd equal.symm same
              · exact later
            have bound := inductionHypothesis later
            simp only [remaining, List.length_cons] at bound ⊢
            rw [following_cons_of_ne same]
            omega

/-- The slots a traversal has still to read when it is about to read slot
`index` of the node at `cursor`. -/
def Ahead (nodes : List α) (cursor : Option α) (index : Nat)
    (node : α) (slot : Nat) : Prop :=
  match cursor with
  | none => False
  | some here =>
      (node = here ∧ index ≤ slot) ∨ node ∈ following nodes here

namespace Ahead

variable {nodes : List α} {cursor : Option α} {index slot : Nat}
variable {node here : α}

/-- A traversal that starts at the head has everything ahead. -/
theorem of_head (member : node ∈ nodes) :
    Ahead nodes nodes.head? 0 node slot := by
  cases nodes with
  | nil => cases member
  | cons first rest =>
      rcases List.mem_cons.mp member with equal | later
      · exact Or.inl ⟨equal, Nat.zero_le slot⟩
      · refine Or.inr ?_
        rw [following_cons_self]
        exact later

/-- Reading one slot leaves every other slot ahead. -/
theorem advance_slot
    (ahead : Ahead nodes (some here) index node slot) :
    (node = here ∧ slot = index) ∨
      Ahead nodes (some here) (index + 1) node slot := by
  rcases ahead with ⟨same, bound⟩ | later
  · rcases Nat.eq_or_lt_of_le bound with equal | smaller
    · exact Or.inl ⟨same, equal.symm⟩
    · exact Or.inr (Or.inl ⟨same, smaller⟩)
  · exact Or.inr (Or.inr later)

/-- Moving on after the slots of one node leaves all later nodes ahead. -/
theorem advance_node
    (nodup : nodes.Nodup)
    {successor : Option α}
    (moved : successor = (following nodes here).head?)
    (ahead : Ahead nodes (some here) index node slot)
    (apart : node ≠ here ∨ slot < index) :
    Ahead nodes successor 0 node slot := by
  rcases ahead with ⟨same, bound⟩ | later
  · rcases apart with different | smaller
    · exact absurd same different
    · omega
  · cases target : (following nodes here).head? with
    | none =>
        rw [List.head?_eq_none_iff] at target
        rw [target] at later
        cases later
    | some next =>
        rw [moved, target]
        rw [following_eq_cons nodup target] at later
        rcases List.mem_cons.mp later with equal | behind
        · exact Or.inl ⟨equal, Nat.zero_le slot⟩
        · exact Or.inr behind

/-- New nodes in front of the list do not concern a running traversal. -/
theorem prepend
    {added : List α}
    (absent : ∀ here, cursor = some here → here ∉ added)
    (ahead : Ahead nodes cursor index node slot) :
    Ahead (added ++ nodes) cursor index node slot := by
  cases cursor with
  | none => exact ahead
  | some here =>
      simp only [Ahead] at ahead ⊢
      rw [following_append_of_notMem added nodes (absent here rfl)]
      exact ahead

end Ahead

end RegistryIo
