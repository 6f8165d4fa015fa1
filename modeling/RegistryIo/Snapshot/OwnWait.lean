import RegistryIo.Snapshot.RecordBound
import RegistryIo.Snapshot.Waiting

/-!
# A waiter does not wait for itself

The announcements of a thread are all in its own record, which
`others_protect` skips, and while one of its fallback reads is on the stack
`FALLBACK_DEPTH` tells it to skip the check of the counter.  So the reads of
the waiter itself never fail its exit check.
-/

namespace RegistryIo.Snapshot

open RegistryIo.Interleaving

/-- The next operation of the frame starts another round of
`wait_for_retired_readers`, after `backoff`. -/
def Frame.backsOff (memory : Memory) : Frame → Bool
  | .waiting cell _ (.checkFallback onFallback) =>
      !(onFallback ||
        decide ((memory.store.cells cell).fallbackReaders = 0))
  | .waiting _ _ (.scan _ _ _ none _ found) => found
  | _ => false

/-- The thread does not start another round. -/
def sameRound (state : State) (thread : Tid) (_ : Act) : Bool :=
  !(state.threads thread).stack.head?.any (Frame.backsOff state.memory)

/-- Run alone, the thread gets to a state of the given kind without another
round. -/
def Passes (thread : Tid) (state : State) (goal : State → Prop) : Prop :=
  ∃ count final,
    program.execWhere sameRound state (nexts thread count) = some final ∧
      goal final

/-- The thread is at the top frame of the stack, with the given memory. -/
def At (thread : Tid) (memory : Memory) (tls : Tls) (stack : List Frame)
    (state : State) : Prop :=
  state.memory = memory ∧ state.threads thread = ⟨tls, stack⟩

section Passing

variable {thread : Tid} {state : State} {goal : State → Prop}
variable {memory memory' : Memory} {tls tls' : Tls} {frame frame' : Frame}
variable {rest : List Frame}

theorem Passes.done (reached : goal state) : Passes thread state goal :=
  ⟨0, state, rfl, reached⟩

/-- One operation that does not start another round. -/
theorem Passes.step
    (located : At thread memory tls (frame :: rest) state)
    (moved : frameStep memory ⟨thread, rest.length⟩ tls frame .next =
      some (memory', tls', some frame'))
    (stays : frame.backsOff memory = false)
    (onward : ∀ next, At thread memory' tls' (frame' :: rest) next →
      Passes thread next goal) : Passes thread state goal := by
  obtain ⟨rfl, locals⟩ := located
  have stepped : program.step state thread .next =
      some ⟨memory', Function.update state.threads thread
        ⟨tls', frame' :: rest⟩⟩ :=
    step_of_frameStep (by rw [locals]) (by rw [locals]; exact moved)
  obtain ⟨count, final, run, reached⟩ := onward
    ⟨memory', Function.update state.threads thread ⟨tls', frame' :: rest⟩⟩
    ⟨rfl, Function.update_self ..⟩
  have permitted : sameRound state thread .next = true := by
    simp [sameRound, locals, stays]
  refine ⟨count + 1, final, ?_, reached⟩
  simp only [nexts, List.replicate_succ, Program.execWhere, permitted,
    stepped, Option.bind_some, if_true]
  exact run

end Passing

section Round

variable {thread : Tid} {state : State} {goal : State → Prop}
variable {memory : Memory} {tls : Tls} {rest : List Frame}
variable {cell : CellId} {removed : List Nat} {onFallback : Bool}
variable {address : Addr} {retired : List Addr}

/-- No record but the own one announces the address. -/
def Unprotected (domain : Domain) (tls : Tls) (address : Addr) : Prop :=
  ∀ record ∈ domain.published, tls.record ≠ some record →
    ∀ index, index < SLOTS →
      (domain.slot record index).map Announcement.address ≠ some address

/-- `others_protect` finds nothing. -/
private theorem scan_passes
    (inv : MemInv memory)
    (unprotected : Unprotected memory.domain tls address)
    (onward : ∀ next,
      At thread memory tls
          (.waiting cell removed (.each onFallback retired) :: rest) next →
        Passes thread next goal)
    (left : Nat) {cursor : Option RecordId} {index : Nat}
    (measured : left =
      (SLOTS + 1) * remaining memory.domain.published cursor +
        (SLOTS - index))
    (listed : CursorOk memory cursor)
    (located : At thread memory tls
      (.waiting cell removed
        (.scan onFallback address retired cursor index false) :: rest)
      state) :
    Passes thread state goal := by
  induction left using Nat.strong_induction_on
      generalizing state cursor index with
  | _ left inductionHypothesis =>
      cases cursor with
      | none => exact Passes.step located rfl rfl onward
      | some record =>
          have member : record ∈ memory.domain.published := listed record rfl
          by_cases skip : tls.record = some record ∨ SLOTS ≤ index
          · have next := inv.domain.remaining_next member
            have moved : frameStep memory ⟨thread, rest.length⟩ tls
                (.waiting cell removed (.scan onFallback address retired
                  (some record) index false)) .next =
                some (memory, tls, some (.waiting cell removed
                  (.scan onFallback address retired
                    (memory.domain.records record).next 0 false))) := by
              simp only [frameStep, waitStep, if_pos skip]
            refine Passes.step located moved rfl fun after there =>
              inductionHypothesis _ ?_ rfl (cursorOk_next inv member) there
            rw [measured, ← next, Nat.mul_add]
            omega
          · have inside : index < SLOTS := by
              rw [not_or] at skip
              omega
            have foreign : tls.record ≠ some record := fun own =>
              skip (Or.inl own)
            have other := unprotected record member foreign index inside
            have moved : frameStep memory ⟨thread, rest.length⟩ tls
                (.waiting cell removed (.scan onFallback address retired
                  (some record) index false)) .next =
                some (memory, tls, some (.waiting cell removed
                  (.scan onFallback address retired
                    (some record) (index + 1) false))) := by
              simp only [frameStep, waitStep, if_neg skip, if_neg other]
            refine Passes.step located moved rfl fun after there =>
              inductionHypothesis _ ?_ rfl listed there
            rw [measured]
            omega

/-- No retired value is protected by another record. -/
private theorem each_passes
    (inv : MemInv memory)
    (unprotected : ∀ address ∈ retired,
      Unprotected memory.domain tls address)
    (onward : ∀ next,
      At thread memory tls
          (.returned cell (.waited onFallback removed) :: rest) next →
        Passes thread next goal)
    (located : At thread memory tls
      (.waiting cell removed (.each onFallback retired) :: rest) state) :
    Passes thread state goal := by
  induction retired generalizing state with
  | nil => exact Passes.step located rfl rfl onward
  | cons address retired inductionHypothesis =>
      refine Passes.step located rfl rfl fun next there => ?_
      refine scan_passes inv (unprotected address List.mem_cons_self) ?_ _
        rfl (cursorOk_head inv) there
      intro after back
      exact inductionHypothesis
        (fun other member =>
          unprotected other (List.mem_cons_of_mem address member)) back

private theorem unlock_lock
    {call : CallId} (free : (memory.store.cells cell).writer = none) :
    (memory.withStore (memory.store.lock cell call)).withStore
        ((memory.store.lock cell call).unlock cell) = memory := by
  have same : { memory.store.cells cell with writer := none } =
      memory.store.cells cell := by
    rw [← free]
  simp [Memory.withStore, Store.lock, Store.unlock, Store.setCell, same]

/-- A whole round. -/
private theorem round_passes
    (inv : MemInv memory)
    (free : (memory.store.cells cell).writer = none)
    (counter : 0 < tls.fallbackDepth ∨
      (memory.store.cells cell).fallbackReaders = 0)
    (unprotected : ∀ address ∈ (memory.store.cells cell).retired,
      Unprotected memory.domain tls address)
    (onward : ∀ next,
      At thread memory tls
          (.returned cell
            (.waited (decide (0 < tls.fallbackDepth)) removed) :: rest)
          next →
        Passes thread next goal)
    (located : At thread memory tls
      (.waiting cell removed .start :: rest) state) :
    Passes thread state goal := by
  have clear : decide (0 < tls.fallbackDepth) = true ∨
      (memory.store.cells cell).fallbackReaders = 0 := by
    simpa using counter
  refine Passes.step located rfl rfl fun checking there => ?_
  have checked : frameStep memory ⟨thread, rest.length⟩ tls
      (.waiting cell removed
        (.checkFallback (decide (0 < tls.fallbackDepth)))) .next =
      some (memory, tls, some (.waiting cell removed
        (.lock (decide (0 < tls.fallbackDepth))))) := by
    simp only [frameStep, waitStep, if_pos clear]
  refine Passes.step there checked ?_ fun locking there => ?_
  · simp only [Frame.backsOff, Bool.not_eq_false', Bool.or_eq_true,
      decide_eq_true_eq]
    exact counter
  have locked : frameStep memory ⟨thread, rest.length⟩ tls
      (.waiting cell removed (.lock (decide (0 < tls.fallbackDepth))))
      .next =
      some (memory.withStore (memory.store.lock cell ⟨thread, rest.length⟩),
        tls, some (.waiting cell removed
          (.copy (decide (0 < tls.fallbackDepth))))) := by
    simp [frameStep, waitStep, free]
  refine Passes.step there locked rfl fun copying there => ?_
  have copied : frameStep
      (memory.withStore (memory.store.lock cell ⟨thread, rest.length⟩))
      ⟨thread, rest.length⟩ tls
      (.waiting cell removed (.copy (decide (0 < tls.fallbackDepth))))
      .next =
      some (memory, tls, some (.waiting cell removed
        (.each (decide (0 < tls.fallbackDepth))
          (memory.store.cells cell).retired))) := by
    refine congrArg some (Prod.ext (unlock_lock free) ?_)
    simp [Memory.withStore, Store.lock, Store.setCell]
  refine Passes.step there copied rfl fun scanning there => ?_
  exact each_passes inv unprotected onward there

end Round

section Check

variable {state : State} {cell : CellId} {thread : Tid}

/-- No slot of another thread holds the address of a retired value of the
cell, and no other thread is inside a fallback read of the cell. -/
structure OthersClear (state : State) (cell : CellId) (thread : Tid) :
    Prop where
  slots : ∀ other record index announcement,
    (state.memory.domain.records record).owner = some other →
      other ≠ thread →
        state.memory.domain.slot record index = some announcement →
          announcement.address ∉ (state.memory.store.cells cell).retired
  fallback : ∀ other frame, other ≠ thread →
    frame ∈ (state.threads other).stack → .fallback cell ∉ frame.holding

/-- Every blocker is another thread. -/
theorem OthersClear.blockers
    (clear : OthersClear state cell thread)
    (reachable : program.Reachable initial state) :
    blockers state cell thread = [] := by
  have holds := invariant_reachable reachable
  by_contra blocked
  obtain ⟨blocker, member⟩ := List.exists_mem_of_ne_nil _ blocked
  have different := blocker_ne reachable member
  rcases mem_blockers member with
    ⟨_, call, counted, rfl⟩ |
    ⟨record, index, announcement, _, used, retired, rfl⟩
  · have held : state.memory.Held call (.fallback cell) := counted
    obtain ⟨frame, found, listed⟩ := holds.frame_of_held held
    exact clear.fallback call.thread frame different (mem_of_frameAt found)
      listed
  · exact clear.slots _ record index announcement
      (holds.1.domain.announced record index announcement used).1 different
      used retired

/-- Without blockers nothing fails the check of the counter. -/
private theorem fallback_check_of_blockers
    (holds : Invariant state) (clear : blockers state cell thread = []) :
    0 < (state.threads thread).tls.fallbackDepth ∨
      (state.memory.store.cells cell).fallbackReaders = 0 := by
  by_cases deep : 0 < (state.threads thread).tls.fallbackDepth
  · exact Or.inl deep
  · have counted := (List.append_eq_nil_iff.mp clear).1
    rw [if_neg deep, List.map_eq_nil_iff] at counted
    rw [(holds.1.store.cells cell).fallback_count, counted]
    exact Or.inr rfl

/-- Without blockers no other record announces a retired value. -/
private theorem unprotected_of_blockers
    (clear : blockers state cell thread = []) {address : Addr}
    (retired : address ∈ (state.memory.store.cells cell).retired) :
    Unprotected state.memory.domain (state.threads thread).tls address := by
  intro record listed foreign index inside announces
  obtain ⟨announcement, used, rfl⟩ := Option.map_eq_some_iff.mp announces
  have announced := (List.append_eq_nil_iff.mp clear).2
  rw [List.flatMap_eq_nil_iff] at announced
  have silent := announced record
    (List.mem_filter.mpr ⟨listed, by simpa using foreign⟩)
  have blocks : announcement.call.thread ∈
      ((List.range SLOTS).filterMap
        (state.memory.domain.slot record)).filterMap
          fun announcement =>
            if announcement.address ∈
                (state.memory.store.cells cell).retired then
              some announcement.call.thread
            else none := by
    refine List.mem_filterMap.mpr ⟨announcement, ?_, by simp [retired]⟩
    exact List.mem_filterMap.mpr ⟨index, List.mem_range.mpr inside, used⟩
  rw [silent] at blocks
  cases blocks

end Check

/-- A waiter is never blocked by itself.  If the other threads are clear of
the cell, nothing fails the exit check of the waiter; and if it is about to
start its first round and the lock is free, its own operations lead to the
return without another round. -/
theorem waiter_passes_first_round
    {state : State} {cell : CellId} {thread : Tid}
    (reachable : program.Reachable initial state)
    (clear : OthersClear state cell thread) :
    blockers state cell thread = [] ∧
      ∀ removed rest,
        (state.threads thread).stack =
            .waiting cell removed .start :: rest →
          (state.memory.store.cells cell).writer = none →
            ∃ count final onFallback,
              program.execWhere sameRound state (nexts thread count) =
                some final ∧
              (final.threads thread).stack =
                .returned cell (.waited onFallback removed) :: rest := by
  have unblocked := clear.blockers reachable
  refine ⟨unblocked, fun removed rest shape free => ?_⟩
  have holds := invariant_reachable reachable
  have located : At thread state.memory (state.threads thread).tls
      (.waiting cell removed .start :: rest) state := by
    refine ⟨rfl, ?_⟩
    rw [← shape]
  have passes : Passes thread state fun final =>
      (final.threads thread).stack =
        .returned cell (.waited
          (decide (0 < (state.threads thread).tls.fallbackDepth))
          removed) :: rest := by
    refine round_passes holds.1 free
      (fallback_check_of_blockers holds unblocked)
      (fun address => unprotected_of_blockers unblocked) ?_ located
    intro final there
    refine Passes.done ?_
    rw [there.2]
  obtain ⟨count, final, run, returned⟩ := passes
  exact ⟨count, final, _, run, returned⟩

/-- A handler removes itself and is about to wait, inside its own dispatch of
the list that it has just retired. -/
def removesItself : List (Tid × Act) :=
  (0, .newCell 0 100) :: registration 0 0 1 101 9 ++
    (0, .call 0 (.read true)) :: nexts 0 8 ++ (0, .invoke) ::
    (0, .call 0 (.unregister ⟨1⟩ true)) :: nexts 0 1 ++
    (0, .alloc 102) :: nexts 0 16

theorem waiter_passes_own_dispatch :
    ∃ state, program.exec initial removesItself = some state ∧
      (state.memory.store.cells 0).retired = [101] ∧
      (state.memory.domain.slot 0 0).map Announcement.address = some 101 ∧
      ∃ count final onFallback,
        program.execWhere sameRound state (nexts 0 count) = some final ∧
        (final.threads 0).stack =
          [.returned 0 (.waited onFallback [0]),
            .reading 0 101 1 ⟨0, 0⟩ (.handler ⟨⟨1⟩, 1, 0⟩ [])] := by
  have evaluated :
      (program.exec initial removesItself).map
          (fun state => ((state.memory.store.cells 0).retired,
            (state.memory.domain.slot 0 0).map Announcement.address,
            (state.threads 0).stack,
            (state.memory.store.cells 0).writer)) =
        some ([101], some 101,
          [.waiting 0 [0] .start,
            .reading 0 101 1 ⟨0, 0⟩ (.handler ⟨⟨1⟩, 1, 0⟩ [])], none) := by
    decide +kernel
  obtain ⟨state, reached, view⟩ := Option.map_eq_some_iff.mp evaluated
  simp only [Prod.mk.injEq] at view
  obtain ⟨retired, announced, stack, free⟩ := view
  have alone : ∀ other, other ≠ 0 →
      state.threads other = initial.threads other := by
    intro other different
    refine exec_threads reached ?_
    have only : ∀ entry ∈ removesItself, entry.1 = 0 := by decide
    intro entry member isOther
    exact different (isOther.symm.trans (only entry member))
  have clear : OthersClear state 0 0 := by
    constructor
    · intro other record index announcement owned different _ _
      have known := ((ownersOk_reachable ⟨_, reached⟩).knows other
        record).mp owned
      rw [alone other different] at known
      cases known
    · intro other frame different member
      rw [alone other different] at member
      cases member
  exact ⟨state, reached, retired, announced,
    (waiter_passes_first_round ⟨_, reached⟩ clear).2 _ _ stack free⟩

end RegistryIo.Snapshot
