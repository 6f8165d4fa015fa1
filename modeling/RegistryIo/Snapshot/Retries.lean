import RegistryIo.Snapshot.Progress

/-!
# Retries of `protect`

The loop of `protect` goes round again when the pointer it announced is no
longer the current one.  A write of the same registry must have been installed
in between, so a read can be delayed only by writers that make progress.
-/

namespace RegistryIo.Snapshot

open RegistryIo.Interleaving

/-- The pointer that the frame is about to validate. -/
def Frame.candidate : Frame → Option Addr
  | .pinning _ _ address _ => some address
  | .validate _ _ address _ => some address
  | .republish _ _ address _ => some address
  | _ => none

/-- The operation fails the validation of the call. -/
def retried (call : CallId) (state : State) (thread : Tid) (_act : Act) :
    Option Unit :=
  match frameOf state call with
  | some (.validate cell _ address _) =>
      if thread = call.thread ∧
          (state.memory.store.cells cell).current ≠ address then
        some ()
      else none
  | _ => none

/-- The operation installs a new list in the cell. -/
def installs (cell : CellId) (state : State) (thread : Tid) (_act : Act) :
    Option Unit :=
  match (state.threads thread).stack with
  | .installing target _ _ _ :: _ => if target = cell then some () else none
  | _ => none

/-- Whether the pointer to validate is no longer the current one. -/
def Frame.stale (store : Store) (frame : Frame) : Nat :=
  match frame.candidate with
  | some address =>
      if (store.cells frame.cellOf).current = address then 0 else 1
  | none => 0

section Steps

variable {memory memory' : Memory} {call : CallId} {tls tls' : Tls}
variable {frame after : Frame} {act : Act} {next : Option Frame}
variable {cell : CellId}

private theorem current_setCell
    {store : Store} {target : CellId} {snap : SnapCell}
    (same : snap.current = (store.cells target).current) :
    ((store.setCell target snap).cells cell).current =
      (store.cells cell).current := by
  unfold Store.setCell
  by_cases here : cell = target
  · subst here
    simpa using same
  · simp [here]

/-- Only an installation replaces the pointer of a cell. -/
private theorem frameStep_current
    (stepped : frameStep memory call tls frame act =
      some (memory', tls', next))
    (other : ∀ wait effect new, frame ≠ .installing cell wait effect new) :
    (memory'.store.cells cell).current =
      (memory.store.cells cell).current := by
  cases frameStep_rule stepped with
  | @install target wait effect new =>
      have different : cell ≠ target := by
        rintro rfl
        exact other wait effect new rfl
      simp [Memory.withStore, Store.install, Store.setCell, Store.relink,
        Store.move, different]
  | tryLockTaken | lockWriter | lockedLock | waitLock | collectLen
  | collectUnlock | unlockUnchanged | lockedRead | lockedKeep | waitCopy
  | draw | enterFallback | leaveFallback | returned | retire | collectEnd =>
      exact current_setCell rfl
  | keep | lockedCountLoad | lockedCountRead =>
      simp [Memory.withStore, Store.cells_addOwner]
  | dropValue | dropPanics | dropHandle | fallbackFinish
  | fallbackUnwind =>
      simp [Memory.withStore, (dropOwner_cells _ _ _).1]
  | handOver =>
      simp only [Memory.withStore, Store.giveHandle]
      split <;> rfl
  | _ => rfl

private theorem userStep_current
    {thread : Tid} {locals locals' : Thread}
    (performed : userStep thread memory locals act =
      some (memory', locals'))
    (alive : (memory.store.cells cell).phase = .alive) :
    (memory'.store.cells cell).current =
      (memory.store.cells cell).current := by
  cases userStep_rule performed with
  | @newCell target address unborn free =>
      have different : cell ≠ target := by
        rintro rfl
        rw [alive] at unborn
        cases unborn
      simp [Memory.withStore, Store.newCell, Store.setCell, Store.allocArc,
        different]
  | dropCell | call => exact current_setCell rfl
  | dropHandle =>
      simp [Memory.withStore, Store.dropHandle, (dropOwner_cells _ _ _).1]
  | exitUnclaimed | exitClaimed => rfl

/-- The pointer is loaded anew exactly when the validation fails. -/
private theorem frameStep_stale
    (stepped : frameStep memory call tls frame act =
      some (memory', tls', some after))
    (calm : ∀ cell reader address pin,
      frame = .validate cell reader address pin →
        (memory.store.cells cell).current = address) :
    after.stale memory.store ≤ frame.stale memory.store := by
  cases frameStep_rule stepped with
  | enter => simp [Frame.stale, Frame.candidate, Frame.cellOf]
  | invalid replaced => exact absurd (calm _ _ _ _ rfl) replaced
  | @pinGone _ reader | @pinFull _ reader =>
      cases reader <;> exact Nat.zero_le _
  | @nothingRetired _ result | @tryLockBusy _ result
  | @dropReclaimed _ result =>
      cases result <;> exact Nat.zero_le _
  | _ => first | exact Nat.le_refl _ | exact Nat.zero_le _

private theorem stale_congr
    {store store' : Store}
    (same : (store'.cells frame.cellOf).current =
      (store.cells frame.cellOf).current) :
    frame.stale store' = frame.stale store := by
  simp [Frame.stale, same]

private theorem stale_le_one (store : Store) : frame.stale store ≤ 1 := by
  unfold Frame.stale
  split
  · split <;> omega
  · omega

private theorem stale_of_not_candidate
    (store : Store) (settled : frame.candidate = none) :
    frame.stale store = 0 := by
  simp [Frame.stale, settled]

/-- A call that validates a pointer keeps its cell alive. -/
private theorem alive_of_candidate
    (inv : MemInv memory) (ok : FrameOk memory call frame)
    (seeks : frame.candidate ≠ none) :
    (memory.store.cells frame.cellOf).phase = .alive := by
  cases frame with
  | pinning | validate | republish =>
      exact ok.alive inv (by simp [Frame.holding, Frame.cellOf])
  | _ => exact absurd rfl seeks

end Steps

section Runs

variable {state next : State} {thread : Tid} {act : Act} {call : CallId}
variable {frame : Frame}

def staleOf (call : CallId) (state : State) : Nat :=
  match frameOf state call with
  | some frame => frame.stale state.memory.store
  | none => 0

/-- A failed validation loads the current pointer. -/
private theorem retry_charged
    {cell : CellId} {reader : Reader} {address : Addr} {pin : Pin}
    {memory memory' : Memory} {tls tls' : Tls} {after : Option Frame}
    (moved : frameStep memory call tls (.validate cell reader address pin)
      act = some (memory', tls', after))
    (replaced : (memory.store.cells cell).current ≠ address) :
    ∃ later, after = some later ∧ later.stale memory'.store = 0 := by
  cases frameStep_rule moved with
  | validRead current | validLoad current => exact absurd current replaced
  | invalid => exact ⟨_, rfl, by simp [Frame.stale, Frame.candidate,
      Frame.cellOf]⟩

private theorem install_charged
    {cell : CellId} {wait : Bool} {effect : Effect} {new : Addr}
    {memory memory' : Memory} {tls tls' : Tls} {after : Frame}
    (moved : frameStep memory call tls (.installing cell wait effect new)
      act = some (memory', tls', some after)) : after.candidate = none := by
  cases frameStep_rule moved with
  | install => rfl

private theorem frameStep_charged
    {memory memory' : Memory} {tls tls' : Tls} {after : Frame}
    (inv : MemInv memory) (ok : FrameOk memory call frame)
    (moved : frameStep memory call tls frame act =
      some (memory', tls', some after))
    (calm : ∀ cell reader address pin,
      frame = .validate cell reader address pin →
        (memory.store.cells cell).current = address) :
    after.stale memory'.store ≤ frame.stale memory.store := by
  by_cases seeks : after.candidate = none
  · rw [stale_of_not_candidate _ seeks]
    exact Nat.zero_le _
  · have isCell := (frameStep_refs inv ok moved).cell
    refine Nat.le_trans (Nat.le_of_eq (stale_congr ?_))
      (frameStep_stale moved calm)
    refine frameStep_current moved ?_
    intro wait effect new shape
    rw [shape] at moved
    exact seeks (install_charged moved)

/-- An operation of the call itself. -/
private theorem own_charged
    {rest : List Frame} {tls' : Tls}
    (holds : Invariant state)
    (shape : (state.threads call.thread).stack = frame :: rest)
    (level : call.depth = rest.length)
    (moved : frameStep state.memory call (state.threads call.thread).tls
      frame act = some (next.memory, tls', frameOf next call)) :
    (retried call state call.thread act).toList.length + staleOf call next ≤
      staleOf call state := by
  have found := frameOf_top rfl shape level
  have ok := holds.frameOk found
  by_cases fails : ∃ cell reader address pin,
      frame = .validate cell reader address pin ∧
        (state.memory.store.cells cell).current ≠ address
  · obtain ⟨cell, reader, address, pin, rfl, replaced⟩ := fails
    obtain ⟨later, isLater, fresh⟩ := retry_charged moved replaced
    have spent : staleOf call state = 1 := by
      simp [staleOf, found, Frame.stale, Frame.candidate, Frame.cellOf,
        replaced]
    rw [spent, staleOf, isLater]
    simp [retried, found, fresh, replaced]
  · have calm : ∀ cell reader address pin,
        frame = .validate cell reader address pin →
          (state.memory.store.cells cell).current = address := by
      intro cell reader address pin shape
      by_contra replaced
      exact fails ⟨cell, reader, address, pin, shape, replaced⟩
    have quiet : retried call state call.thread act = none := by
      unfold retried
      rw [found]
      split
      · rename_i cell reader address pin same
        rw [if_neg fun failed =>
          failed.2 (calm _ _ _ _ (Option.some.inj same))]
      · rfl
    rw [quiet]
    unfold staleOf
    rw [found]
    cases isAfter : frameOf next call with
    | none => simp
    | some after =>
        rw [isAfter] at moved
        simpa using frameStep_charged holds.1 ok moved calm

/-- An operation of another call. -/
private theorem other_charged
    {actor : CallId} (holds : Invariant state)
    (step : ActorStep state next thread act actor)
    (found : frameOf state call = some frame)
    (same : frameOf next call = some frame) :
    staleOf call next ≤ staleOf call state +
      (installs frame.cellOf state thread act).toList.length := by
  simp only [staleOf, found, same]
  by_cases seeks : frame.candidate = none
  · rw [stale_of_not_candidate _ seeks]
    exact Nat.zero_le _
  · have alive := alive_of_candidate holds.1 (holds.frameOk found) seeks
    cases step with
    | user level userPoint performed after =>
        rw [stale_congr (userStep_current performed alive)]
        exact Nat.le_add_right _ _
    | top top rest tls shape level moved =>
        by_cases writes : ∃ wait effect new,
            top = .installing frame.cellOf wait effect new
        · obtain ⟨wait, effect, new, rfl⟩ := writes
          have one : frame.stale next.memory.store ≤ 1 := stale_le_one _
          simp only [installs, shape, if_true, Option.toList_some,
            List.length_singleton]
          omega
        · rw [stale_congr (frameStep_current moved fun wait effect new same =>
            writes ⟨wait, effect, new, same⟩)]
          exact Nat.le_add_right _ _

/-- A call that validates is on top of its stack, so its thread does not act
for another call. -/
private theorem retried_other
    {actor : CallId} (holds : Invariant state)
    (isThread : actor.thread = thread)
    (step : ActorStep state next thread act actor)
    (different : call ≠ actor) : retried call state thread act = none := by
  unfold retried
  split
  · rename_i cell reader address pin found
    rw [if_neg]
    rintro ⟨sameThread, _⟩
    obtain ⟨rest, shape, level⟩ := holds.shape_of_not_user found rfl
    rw [← sameThread] at shape
    cases step with
    | user level userPoint performed after =>
        simp [Thread.atUserPoint, shape, Frame.isUser] at userPoint
    | top top below tls shape' level' moved =>
        rw [shape] at shape'
        cases shape'
        exact different (CallId.ext (sameThread.symm.trans isThread.symm)
          (level.trans level'.symm))
  · rfl

private theorem step_charged
    (holds : Invariant state)
    (stepped : program.step state thread act = some next)
    (found : frameOf state call = some frame) :
    (retried call state thread act).toList.length + staleOf call next ≤
      staleOf call state +
        (installs frame.cellOf state thread act).toList.length := by
  obtain ⟨actor, isThread, step, others⟩ := actorStep stepped
  by_cases own : call = actor
  · subst own
    subst isThread
    cases step with
    | user level userPoint performed after =>
        rw [frameOf_vacant rfl level] at found
        cases found
    | top top rest tls shape level moved =>
        exact Nat.le_trans (own_charged holds shape level moved)
          (Nat.le_add_right _ _)
  · rw [retried_other holds isThread step own]
    simpa using other_charged holds step found ((others call own).trans found)

/-- The cell of a call stays the same. -/
private theorem cellOf_step
    {after : Frame} (holds : Invariant state)
    (stepped : program.step state thread act = some next)
    (found : frameOf state call = some frame)
    (later : frameOf next call = some after) :
    after.cellOf = frame.cellOf := by
  cases callStep stepped call with
  | other same quiet =>
      rw [same, found] at later
      cases later
      rfl
  | own top tls isThread before level moved =>
      rw [found] at before
      cases before
      rw [later] at moved
      exact (frameStep_refs holds.1 (holds.frameOk found) moved).cell
  | pushed top isThread before =>
      rw [found] at before
      cases before

/-- While a call is in progress, each failed validation of its pointer is
preceded by an installation of its own: a call retries at most as often as
lists of its registry are installed. -/
theorem retries_le_installs
    {started last : State} {cell : CellId} {operation : Call}
    {schedule : List (Tid × Act)}
    (reachable : program.Reachable initial started)
    (called : frameOf started call = some (operation.enter cell))
    (executed : program.execWhere (fun state _ _ => inProgress call state)
      started schedule = some last) :
    (program.events (retried call) started schedule).length ≤
      (program.events (installs cell) started schedule).length := by
  have pays := execWhere_charged
    (P := fun state => Invariant state ∧ ∀ frame,
      frameOf state call = some frame → frame.cellOf = cell)
    (staleOf call) (retried call) (installs cell) ?_ executed ?_
  · have fresh : staleOf call started = 0 := by
      rw [staleOf, called]
      cases operation <;> rfl
    omega
  · rintro state thread act next permitted stepped ⟨holds, isCell⟩
    obtain ⟨frame, found⟩ := Option.isSome_iff_exists.mp permitted
    refine ⟨⟨invariant_step stepped holds, fun after later => ?_⟩, ?_⟩
    · rw [cellOf_step holds stepped found later]
      exact isCell frame found
    · have charged := step_charged holds stepped found
      rwa [isCell frame found] at charged
  · refine ⟨invariant_reachable reachable, fun frame found => ?_⟩
    rw [called] at found
    cases found
    cases operation <;> rfl

/-- A registration replaces the list between the load and the validation. -/
def interrupted : List (Tid × Act) :=
  (0, .next) :: registration 1 0 1 101 8 ++ nexts 0 9

theorem retries_le_installs_interrupted :
    ∃ started last,
      program.exec initial [(0, .newCell 0 100), (0, .call 0 (.read true))] =
          some started ∧
        program.execWhere (fun state _ _ => inProgress ⟨0, 0⟩ state) started
          interrupted = some last ∧
        (program.events (retried ⟨0, 0⟩) started interrupted).length = 1 ∧
        1 ≤ (program.events (installs 0) started interrupted).length := by
  have evaluated :
      (program.exec initial
          [(0, .newCell 0 100), (0, .call 0 (.read true))]).map
          (fun started => (frameOf started ⟨0, 0⟩,
            (program.execWhere (fun state _ _ => inProgress ⟨0, 0⟩ state)
              started interrupted).isSome,
            (program.events (retried ⟨0, 0⟩) started interrupted).length)) =
        some (some (Call.enter 0 (.read true)), true, 1) := by
    decide +kernel
  obtain ⟨started, run, view⟩ := Option.map_eq_some_iff.mp evaluated
  simp only [Prod.mk.injEq] at view
  obtain ⟨called, continues, once⟩ := view
  obtain ⟨last, executed⟩ := Option.isSome_iff_exists.mp continues
  have bounded := retries_le_installs ⟨_, run⟩ called executed
  rw [once] at bounded
  exact ⟨started, last, run, executed, once, bounded⟩

end Runs

end RegistryIo.Snapshot
