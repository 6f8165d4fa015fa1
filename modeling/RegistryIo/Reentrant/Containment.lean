import RegistryIo.Foundations.Simulation
import RegistryIo.Reentrant.Turns
import RegistryIo.Snapshot.Identity

/-!
# Every run of the registries contains a run of the cells

The conditions under which a step is a turn hold in every reachable state.  A
run of the registries therefore projects to a run of the cells, and the
invariant of the cells holds in it.
-/

namespace RegistryIo.Reentrant

open RegistryIo.Interleaving RegistryIo.Snapshot

variable {E P : Type}

section Works

variable {thread : Tid} {act : Act E P} {memory memory' : Memory}
variable {tls : Tls} {top : Option (Activation E P)}
variable {calls calls' : List (Activation E P)}

private theorem workAfter_fits
    (shared : Shared) (frame : Frame) (operation : Snapshot.Act)
    (meant : Act E P) :
    (workAfter (P := P) shared frame operation meant).Fits frame := by
  unfold workAfter
  split
  · split
    · rename_i inside
      split
      · simp [Work.Fits, inside]
      · trivial
    · trivial
  · split
    · rename_i inside
      simp [Work.Fits, inside]
    · trivial
  · trivial

theorem Resumed.works
    {exit : Option P} (resumed : Resumed exit calls calls')
    (ok : ∀ activation ∈ calls, activation.WorkOk) :
    ∀ activation ∈ calls', activation.WorkOk := by
  cases resumed with
  | same => exact ok
  | thrown payload caller rest work =>
      intro activation member
      rcases List.mem_cons.mp member with isTop | deeper
      · have old := ok caller List.mem_cons_self
        unfold Activation.WorkOk at old
        rw [work] at old
        rw [isTop]
        exact old
      · exact ok activation (List.mem_cons_of_mem _ deeper)

theorem Move.works
    (move : Move thread act memory memory' tls top calls calls')
    (ok : ∀ activation ∈ calls, activation.WorkOk) :
    ∀ activation ∈ calls', activation.WorkOk := by
  -- In most cases only the top changes.
  have replaced : ∀ {top top' : Activation E P} {rest},
      (∀ activation ∈ top :: rest, activation.WorkOk) → top'.WorkOk →
        ∀ activation ∈ top' :: rest, activation.WorkOk := by
    intro top top' rest all isOk activation member
    rcases List.mem_cons.mp member with rfl | deeper
    · exact isOk
    · exact all activation (List.mem_cons_of_mem _ deeper)
  have pushed : ∀ {top' : Activation E P}, top'.WorkOk →
      ∀ activation ∈ top' :: calls, activation.WorkOk := by
    intro top' isOk activation member
    rcases List.mem_cons.mp member with rfl | deeper
    · exact isOk
    · exact ok activation deeper
  cases move with
  | outside exit foreign kept resumed => exact resumed.works ok
  | notified => exact pushed trivial
  | called => exact pushed trivial
  | lockedSlot activation rest isTop cell entry full isNext work inside =>
      exact replaced ok (by simp [Activation.WorkOk, Work.Fits, inside])
  | took activation rest isTop cell entry holder isNext work inside =>
      exact replaced ok (by simp [Activation.WorkOk, Work.Fits, inside])
  | removing activation rest isTop cell entry panic ended work inside =>
      intro other member
      rcases List.mem_cons.mp member with rfl | deeper
      · trivial
      · exact replaced ok
          (by simp [Activation.WorkOk, Work.Fits, inside]) other deeper
  | reporting activation rest isTop info step next shared work =>
      have old := ok activation List.mem_cons_self
      unfold Activation.WorkOk at old
      rw [work] at old
      exact replaced ok old
  | thrown activation rest isTop cell payload isPanic work =>
      exact replaced ok (ok activation List.mem_cons_self)
  | moved => exact replaced ok (workAfter_fits _ _ _ _)
  | popped activation isTop operation meant shared after via stepped same
      resumed =>
      exact resumed.works fun other member =>
        ok other (List.mem_cons_of_mem _ member)

/-- What a closure does before an operation of the cell empties no slot for a
registration that has not been made. -/
theorem Via.slots
    {activation : Activation E P} {operation : Snapshot.Act}
    {meant : Act E P} {shared : Shared}
    (via : Via thread act memory activation operation meant shared)
    (cell : CellId) (handler : Nat)
    (empty : (memory.shared.registries cell).slots handler = none) :
    (shared.registries cell).slots handler = none := by
  cases via with
  | plain => exact empty
  | skipped isNext work inside found => exact setSlot_none found _ _ empty
  | removed => exact empty
  | removedPanicked => exact empty
  | reported work ended =>
      rw [(reportStep_kept ended).slots]
      exact empty
  | reportedPanicked work ended =>
      rw [(reportStep_kept ended).slots]
      exact empty

private theorem Kept.slotsFresh
    (kept : Kept memory.shared memory'.shared)
    (grows : ∀ cell, (memory.cells.store.cells cell).registrations ≤
      (memory'.cells.store.cells cell).registrations)
    (fresh : SlotsFresh memory) : SlotsFresh memory' := by
  intro cell handler beyond
  rw [kept.slots]
  exact fresh cell handler (Nat.le_trans (grows cell) beyond)

private theorem Move.slotsFresh
    (move : Move thread act memory memory' tls top calls calls')
    (grows : ∀ cell, (memory.cells.store.cells cell).registrations ≤
      (memory'.cells.store.cells cell).registrations)
    (fresh : SlotsFresh memory) : SlotsFresh memory' := by
  cases move with
  | outside exit foreign kept => exact kept.slotsFresh grows fresh
  | notified cell event calls isNotify shared =>
      exact Kept.slotsFresh (shared ▸ .refl _) grows fresh
  | called frame once calls foreign pushed notDispatch kept =>
      exact kept.slotsFresh grows fresh
  | lockedSlot activation rest isTop cell entry full isNext work inside free
      after =>
      subst after
      exact fresh.of_slots (setSlot_none free)
  | took activation rest isTop cell entry holder isNext work inside full
      after =>
      subst after
      exact fresh.of_slots (setSlot_none full)
  | removing activation rest isTop cell entry panic ended work inside shared =>
      exact Kept.slotsFresh (shared ▸ .refl _) grows fresh
  | reporting activation rest isTop info step next shared work stepped after =>
      subst after
      exact (reportStep_kept stepped).slotsFresh grows fresh
  | thrown activation rest isTop cell payload isPanic work isFrame same =>
      rw [same]
      exact fresh
  | popped activation isTop operation meant shared after via stepped same
      resumed =>
      intro cell handler beyond
      rw [same]
      exact via.slots cell handler
        (fresh cell handler (Nat.le_trans (grows cell) beyond))
  | moved activation rest isTop operation meant shared after frame unwinding via
      stepped same unwinds =>
      intro cell handler beyond
      have old := via.slots cell handler
        (fresh cell handler (Nat.le_trans (grows cell) beyond))
      rw [same]
      unfold sharedAfter
      split
      · by_cases here : cell = activation.frame.cellOf
        · subst here
          simpa [Shared.countPanic, Shared.setRegistry] using old
        · simpa [Shared.countPanic, Shared.setRegistry, here] using old
      · split
        · rename_i target priority isFrame _
          by_cases here : cell = target
          · subst here
            -- The draw has made this registration.
            have drawn : (memory'.cells.store.cells cell).registrations =
                (memory.cells.store.cells cell).registrations + 1 := by
              rw [isFrame] at stepped
              cases operation with
              | next =>
                  simp only [frameStep, Option.some.injEq, Prod.mk.injEq]
                    at stepped
                  rw [← stepped.1]
                  simp [Memory.withStore, Store.nextId, Store.setCell]
              | _ => cases stepped
            have apart : handler ≠
                (memory.cells.store.cells cell).registrations := by
              omega
            simpa [Shared.setSlot, Shared.setRegistry, apart] using old
          · simpa [Shared.setSlot, Shared.setRegistry, here] using old
        · exact old

end Works

/-- Every thread is suspended in its outer calls, unused slots are empty, and
the stacks name the locks that are held. -/
structure StateOk (state : State E P) : Prop where
  threads : ∀ thread, ThreadOk (state.threads thread)
  fresh : SlotsFresh state.memory
  held : ∀ thread, LocksOk state.memory.shared thread
    (state.threads thread).stack

/-- The cells, and what every thread does with them. -/
def project (state : State E P) : Snapshot.State :=
  ⟨state.memory.cells, fun thread => (state.threads thread).cell⟩

section Runs

variable {state next : State E P} {thread : Tid} {act : Act E P}

private theorem stateOk_initial : StateOk (initial E P) where
  threads := by
    intro thread
    constructor
    · intro activation member
      cases member
    · intro item member
      cases member
    · trivial
  fresh := fun _ _ _ => rfl
  held := by
    rintro thread ⟨cell, guard⟩
    cases guard <;> rfl

/-- A step of a thread is a turn. -/
theorem step_turn
    (ok : StateOk state)
    (stepped : (program E P).step state thread act = some next) :
    Turn thread act state.memory next.memory (state.threads thread)
      (next.threads thread) := by
  obtain ⟨memory', locals', performed, rfl⟩ := step_eq_some stepped
  dsimp only
  rw [Function.update_self]
  exact program_turn ok.fresh (ok.threads thread) (ok.held thread) performed

theorem step_move
    (stepped : (program E P).step state thread act = some next) :
    Move thread act state.memory next.memory (state.threads thread).tls
      (topCall (state.threads thread).stack)
      (activations (state.threads thread).stack)
      (activations (next.threads thread).stack) := by
  obtain ⟨memory', locals', performed, rfl⟩ := step_eq_some stepped
  dsimp only
  rw [Function.update_self]
  exact program_move performed

theorem step_others
    (stepped : (program E P).step state thread act = some next)
    {other : Tid} (different : other ≠ thread) :
    next.threads other = state.threads other := by
  obtain ⟨memory', locals', _, rfl⟩ := step_eq_some stepped
  exact Function.update_of_ne different locals' state.threads

theorem project_step
    (ok : StateOk state)
    (stepped : (program E P).step state thread act = some next) :
    project next = project state ∨
      ∃ operation, Snapshot.program.step (project state) thread operation =
        some (project next) := by
  have turn := step_turn ok stepped
  have threads : (project next).threads =
      Function.update (project state).threads thread
        (next.threads thread).cell := by
    funext other
    by_cases same : other = thread
    · subst same
      simp [project]
    · simp [project, same, step_others stepped same]
  rcases turn.cells with ⟨memory, locals⟩ | ⟨operation, performed⟩
  · left
    have unchanged : (project next).threads = (project state).threads := by
      rw [threads, locals]
      exact Function.update_eq_self thread (project state).threads
    unfold project at unchanged ⊢
    rw [memory]
    exact congrArg (Config.mk state.memory.cells) unchanged
  · right
    refine ⟨operation, ?_⟩
    refine Option.map_eq_some_iff.mpr ⟨_, performed, ?_⟩
    exact congrArg (Config.mk next.memory.cells) threads.symm

theorem registrations_step
    (ok : StateOk state)
    (stepped : (program E P).step state thread act = some next)
    (cell : CellId) :
    (state.memory.cells.store.cells cell).registrations ≤
      (next.memory.cells.store.cells cell).registrations := by
  rcases project_step ok stepped with unchanged | ⟨operation, performed⟩
  · exact Nat.le_of_eq (congrArg
      (fun config => (config.memory.store.cells cell).registrations)
      unchanged.symm)
  · exact registrations_le performed cell

/-- Every run of the registries contains a run of the cells. -/
private theorem contains_cells :
    Contains (program E P) Snapshot.program project StateOk := by
  intro state thread act next stepped ok
  have turn := step_turn ok stepped
  have move := step_move stepped
  refine ⟨⟨fun other => ?_, ?_, fun other => ?_⟩, project_step ok stepped⟩
  · by_cases same : other = thread
    · subst same
      exact ⟨move.works (ok.threads other).works, turn.suspended,
        turn.chained (ok.threads other).chained⟩
    · rw [step_others stepped same]
      exact ok.threads other
  · exact move.slotsFresh (registrations_step ok stepped) ok.fresh
  · by_cases same : other = thread
    · subst same
      exact turn.held
    · rw [step_others stepped same]
      intro lock
      rw [turn.others other same lock]
      exact ok.held other lock

theorem stateOk_reachable
    (reachable : (program E P).Reachable (initial E P) state) :
    StateOk state :=
  (contains_cells.reachable reachable stateOk_initial).1

/-- The cells of a reachable state are those of a reachable state of the
cell. -/
theorem project_reachable
    (reachable : (program E P).Reachable (initial E P) state) :
    Snapshot.program.Reachable Snapshot.initial (project state) :=
  (contains_cells.reachable reachable stateOk_initial).2

end Runs

end RegistryIo.Reentrant
