import RegistryIo.Snapshot.Calls

/-!
# Hazard safety

No reader ever works on a value that has been destroyed, whatever the other
threads do and whichever addresses the allocator hands out again.
-/

namespace RegistryIo.Snapshot

open RegistryIo.Interleaving

/-- The value that a call dereferences or is about to reference-count: a
validated pointer, or a pointer read under the writer lock. -/
def Frame.inUse : Frame → Option (Addr × Claim)
  | .reading cell address version _ _ => some (address, ⟨cell, version⟩)
  | .keeping cell address version _ => some (address, ⟨cell, version⟩)
  | .counted cell address version _ => some (address, ⟨cell, version⟩)
  | .locked cell _ (.increment address version) =>
      some (address, ⟨cell, version⟩)
  | .locked cell _ (.unlock address version) =>
      some (address, ⟨cell, version⟩)
  | .fallbackReading cell address version _ =>
      some (address, ⟨cell, version⟩)
  | .lockedKeep cell address version => some (address, ⟨cell, version⟩)
  | _ => none

section Safety

variable {state : State} {call : CallId} {frame : Frame} {address : Addr}
variable {claim : Claim} {memory : Memory}

/-- A value in use is still at its address. -/
theorem FrameOk.refers
    (inv : MemInv memory) (ok : FrameOk memory call frame)
    (uses : frame.inUse = some (address, claim)) :
    Refers memory claim.cell address claim.version := by
  cases frame with
  | reading cell location version pin body =>
      cases uses
      exact Announces.found inv ok.facts.1
  | keeping cell location version pin =>
      cases uses
      exact Announces.found inv ok.facts
  | counted cell location version pin =>
      cases uses
      exact Announces.found inv ok.facts
  | locked cell reader step =>
      have active : memory.Held call (.active cell) :=
        (ok.held _).mpr (by simp [Frame.holding])
      obtain ⟨inner, found, isCell, _, isVersion⟩ :=
        current_of_locked inv active
      have stepOk : LockedStepOk memory cell step := ok.facts
      cases step with
      | increment location version =>
          obtain ⟨_, rfl, rfl⟩ := stepOk
          cases uses
          exact ⟨inner, found, isCell, isVersion⟩
      | unlock location version =>
          obtain ⟨_, rfl, rfl⟩ := stepOk
          cases uses
          exact ⟨inner, found, isCell, isVersion⟩
      | _ => cases uses
  | fallbackReading cell location version body =>
      cases uses
      exact ok.facts.1
  | lockedKeep cell location version =>
      cases uses
      exact ok.facts
  | _ => cases uses

/-- The entries that a dispatch has still to walk are in its list. -/
theorem FrameOk.remaining_suffix
    {body : Body} (ok : FrameOk memory call frame)
    (inside : frame.stage = .inside claim body) :
    body.remaining <:+ memory.store.values claim.version := by
  rcases Frame.of_inside inside with ⟨location, pin, rfl⟩ | ⟨location, rfl⟩
  · exact ok.facts.2
  · exact ok.facts.2

/-- Hazard safety.  In every reachable state the value a reader works on is
allocated at the address the reader has, with a positive count, and it is the
value that the reader got: neither destroyed nor replaced by a later value at
the same address. -/
theorem hazard_safety
    (reachable : program.Reachable initial state)
    (found : frameOf state call = some frame)
    (uses : frame.inUse = some (address, claim)) :
    ∃ inner, state.memory.store.heap address = some inner ∧
      inner.cell = claim.cell ∧ inner.version = claim.version ∧
      0 < inner.strong ∧
      ∀ body, frame.stage = .inside claim body →
        body.remaining <:+ inner.value := by
  have holds := invariant_reachable reachable
  have ok := holds.frameOk found
  obtain ⟨inner, stored, isCell, isVersion⟩ := ok.refers holds.1 uses
  have arc := holds.1.store.arcs address inner stored
  refine ⟨inner, stored, isCell, isVersion, ?_, ?_⟩
  · rw [arc.strong_eq]
    exact List.length_pos_iff.mpr arc.owned
  · intro body inside
    rw [← arc.value_eq, isVersion]
    exact ok.remaining_suffix inside

end Safety

/-- A thread performs `count` operations of its top frame. -/
def nexts (thread : Tid) (count : Nat) : List (Tid × Act) :=
  List.replicate count (thread, .next)

/-- A registration; the new list is allocated at `address`. -/
def registration (thread : Tid) (cell : CellId) (priority : Int)
    (address : Addr) (count : Nat) : List (Tid × Act) :=
  (thread, .call cell (.register priority)) :: nexts thread 2 ++
    (thread, .alloc address) :: nexts thread count

/-- Thread `0` is inside a handler of a list that thread `1` has replaced
meanwhile; the list is kept in the retired list. -/
def replacedWhileReading : List (Tid × Act) :=
  (0, .newCell 0 100) :: registration 0 0 1 101 9 ++
    (0, .call 0 (.read true)) :: nexts 0 8 ++
    (0, .invoke) :: registration 1 0 0 102 17

theorem hazard_safety_replaced :
    ∃ state, program.exec initial replacedWhileReading = some state ∧
      (state.memory.store.cells 0).retired = [101] ∧
      ∃ inner, state.memory.store.heap 101 = some inner ∧
        inner.version = 1 ∧ 0 < inner.strong := by
  have evaluated :
      (program.exec initial replacedWhileReading).map
          (fun state => ((state.memory.store.cells 0).retired,
            frameOf state ⟨0, 0⟩)) =
        some ([101], some (.reading 0 101 1 ⟨0, 0⟩
          (.handler ⟨⟨1⟩, 1, 0⟩ []))) := by
    decide +kernel
  obtain ⟨state, reached, view⟩ := Option.map_eq_some_iff.mp evaluated
  obtain ⟨retired, reading⟩ := Prod.mk.inj view
  obtain ⟨inner, stored, _, isVersion, counted, _⟩ :=
    hazard_safety ⟨replacedWhileReading, reached⟩ reading rfl
  exact ⟨state, reached, retired, inner, stored, isVersion, counted⟩

end RegistryIo.Snapshot
