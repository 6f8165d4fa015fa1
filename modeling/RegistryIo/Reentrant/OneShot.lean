import RegistryIo.Reentrant.Slots

/-!
# One-shot handlers

The wrapper that has called its function unregisters itself before it returns
or goes on unwinding.  As long as ids are unique, this removes the handler of
the wrapper and no other, and its id does not come back.
-/

namespace RegistryIo.Reentrant

open RegistryIo.Interleaving RegistryIo.Snapshot
open RegistryIo.Isolation (PanicInfo)

variable {E P : Type}

/-- How far the unregistration of a wrapper has got: the call above the
wrapper is doing it, or it is done. -/
def SelfRemoval (memory : Snapshot.Memory) (cell : CellId) (entry : Entry) :
    Option Frame → Prop
  | none => (memory.store.cells cell).status entry.handler = .removed
  | some frame => Unregisters memory cell entry frame

/-- The wrappers of a registry that are unregistering themselves, with the
frame above the first call. -/
def RemovalsOk (memory : Snapshot.Memory) (cell : CellId) :
    Option Frame → List (Activation E P) → Prop
  | _, [] => True
  | above, activation :: rest =>
      (∀ panic entry, activation.work = .remove panic →
          invoked activation.frame = some (cell, entry) →
            SelfRemoval memory cell entry above) ∧
        RemovalsOk memory cell (some activation.frame) rest

section Removals

variable {thread : Tid} {act : Act E P} {memory memory' : Memory}
variable {tls : Tls} {activation : Activation E P} {cell : CellId}
variable {calls calls' rest : List (Activation E P)}
variable {top : Option (Activation E P)} {above : Option Frame}
variable {cells cells' : Snapshot.Memory}

theorem SelfRemoval.mono
    {entry : Entry}
    (grows : ∀ handler, (cells.store.cells cell).status handler = .removed →
      (cells'.store.cells cell).status handler = .removed)
    (removal : SelfRemoval cells cell entry above) :
    SelfRemoval cells' cell entry above := by
  cases above with
  | none => exact grows _ removal
  | some frame =>
      rcases removal with takes | ⟨settles, removed⟩
      · exact Or.inl takes
      · exact Or.inr ⟨settles, grows _ removed⟩

theorem RemovalsOk.mono
    (grows : ∀ handler, (cells.store.cells cell).status handler = .removed →
      (cells'.store.cells cell).status handler = .removed)
    (ok : RemovalsOk cells cell above calls) :
    RemovalsOk cells' cell above calls := by
  induction calls generalizing above with
  | nil => trivial
  | cons activation rest inductionHypothesis =>
      refine ⟨fun panic entry work inside => ?_,
        inductionHypothesis ok.2⟩
      exact (ok.1 panic entry work inside).mono grows

/-- The frame above a call that is not unregistering itself is free. -/
private theorem RemovalsOk.reframe
    (quiet : ∀ caller below, calls = caller :: below →
      ∀ panic, caller.work ≠ .remove panic)
    (other : Option Frame) (ok : RemovalsOk cells cell above calls) :
    RemovalsOk cells cell other calls := by
  cases calls with
  | nil => trivial
  | cons caller below =>
      refine ⟨fun panic entry work _ => ?_, ok.2⟩
      exact absurd work (quiet caller below rfl panic)

/-- The call above the wrapper performs an operation. -/
theorem RemovalsOk.advance
    {frame : Frame} {next : Option Frame}
    (ok : RemovalsOk cells cell (some frame) rest)
    (grows : ∀ handler, (cells.store.cells cell).status handler = .removed →
      (cells'.store.cells cell).status handler = .removed)
    (performs : ∀ activation below, rest = activation :: below →
      ∀ entry, invoked activation.frame = some (cell, entry) →
        Unregisters cells cell entry frame →
          UnregisterStep cell entry cells cells' next) :
    RemovalsOk cells' cell next rest := by
  cases rest with
  | nil => trivial
  | cons activation below =>
      refine ⟨fun panic entry work inside => ?_, ok.2.mono grows⟩
      have step := performs activation below rfl entry inside
        (ok.1 panic entry work inside)
      cases next with
      | none => exact step.ends rfl
      | some frame => exact step.goesOn frame rfl

private theorem Resumed.removals
    {exit : Option P} (resumed : Resumed exit calls calls')
    (ok : RemovalsOk cells cell above calls) :
    RemovalsOk cells cell above calls' := by
  cases resumed with
  | same => exact ok
  | thrown payload caller rest work =>
      refine ⟨fun panic entry _ inside => ?_, ok.2⟩
      exact ok.1 none entry work inside

private theorem workAfter_ne_remove
    {shared : Shared} {frame : Frame} {operation : Snapshot.Act}
    {meant : Act E P} (panic : Option P) :
    workAfter shared frame operation meant ≠ .remove panic := by
  unfold workAfter
  split
  · split
    · split <;> exact nofun
    · exact nofun
  · split <;> exact nofun
  · exact nofun

private theorem Move.removals
    (move : Move thread act memory memory' tls top calls calls')
    (inv : MemInv memory.cells)
    (frameOk : ∀ activation rest, calls = activation :: rest →
      FrameOk memory.cells ⟨thread, rest.length⟩ activation.frame)
    (owns : ∀ activation ∈ calls, ∀ entry,
      invoked activation.frame = some (cell, entry) →
        Owns memory.cells cell entry)
    (grows : ∀ handler,
      (memory.cells.store.cells cell).status handler = .removed →
        (memory'.cells.store.cells cell).status handler = .removed)
    (ready : act.isUser = true ∨ top = none →
      ∀ caller below, calls = caller :: below →
        ∀ panic, caller.work ≠ .remove panic)
    (ok : RemovalsOk memory.cells cell none calls) :
    RemovalsOk memory'.cells cell none calls' := by
  -- The top is replaced by a call that is not unregistering itself.
  have replaced : ∀ {old new : Activation E P} {below},
      calls = old :: below → new.frame = old.frame →
      (∀ panic, new.work ≠ .remove panic) →
        RemovalsOk memory'.cells cell none (new :: below) := by
    rintro old new below rfl same quiet
    refine ⟨fun panic entry work _ => absurd work (quiet panic), ?_⟩
    rw [same]
    exact ok.2.mono grows
  cases move with
  | outside exit foreign kept resumed =>
      exact resumed.removals (ok.mono grows)
  | notified target event calls isNotify =>
      subst isNotify
      exact ⟨nofun, (ok.reframe (ready (Or.inl rfl)) _).mono grows⟩
  | called frame once calls foreign =>
      exact ⟨nofun, (ok.reframe (ready foreign.elsewhere) _).mono grows⟩
  | lockedSlot => exact replaced rfl rfl nofun
  | took => exact replaced rfl rfl nofun
  | reporting => exact replaced rfl rfl nofun
  | thrown activation rest isTop target payload isPanic work =>
      refine replaced rfl rfl fun panic isRemove => ?_
      exact absurd (work.symm.trans isRemove) nofun
  | removing activation rest isTop target entry panic ended work inside =>
      refine ⟨nofun, fun _ other _ found => ?_, ok.2.mono grows⟩
      cases inside.symm.trans found
      exact Or.inl (.locks false)
  | moved activation rest isTop operation meant shared after frame unwinding
      via stepped =>
      refine ⟨fun panic entry isRemove => ?_, ?_⟩
      · exact absurd isRemove (workAfter_ne_remove panic)
      · refine ok.2.advance grows ?_
        rintro caller below rfl entry inside unregisters
        exact unregisters.step inv (frameOk _ _ rfl)
          (owns caller (List.mem_cons_of_mem _ List.mem_cons_self) entry
            inside) stepped
  | popped activation isTop operation meant shared after via stepped same
      resumed =>
      refine resumed.removals (ok.2.advance grows ?_)
      rintro caller below rfl entry inside unregisters
      exact unregisters.step inv (frameOk _ _ rfl)
        (owns caller (List.mem_cons_of_mem _ List.mem_cons_self) entry
          inside) stepped

/-- A step of the unregistration leaves the other handlers alone. -/
theorem Move.others
    {callee caller : Activation E P} {entry : Entry}
    (move : Move thread act memory memory' tls (some callee)
      (callee :: caller :: rest) calls')
    (own : act.isUser = false) (inv : MemInv memory.cells)
    (frameOk : FrameOk memory.cells ⟨thread, (caller :: rest).length⟩
      callee.frame)
    (owns : Owns memory.cells cell entry)
    (unregisters : Unregisters memory.cells cell entry callee.frame)
    (target : CellId) (handler : Nat)
    (apart : ¬ (target = cell ∧ handler = entry.handler)) :
    (memory'.cells.store.cells target).status handler =
        (memory.cells.store.cells target).status handler ∧
      (memory'.cells.store.cells target).phase =
        (memory.cells.store.cells target).phase := by
  -- Code from outside does not act here.
  have notForeign : ¬ Foreign act (some callee) := by
    intro foreign
    rcases foreign.elsewhere with isUser | noCall
    · rw [own] at isUser
      cases isUser
    · cases noCall
  -- Neither does a handler.
  have notInside : ∀ found, invoked callee.frame ≠ some found := by
    intro found inside
    obtain ⟨claim, pending, _, stage⟩ := stage_of_invoked inside
    rcases Frame.of_inside stage with
      ⟨address, pin, isFrame⟩ | ⟨address, isFrame⟩
    · rw [isFrame] at unregisters
      rcases unregisters with takes | ⟨settles, _⟩
      · cases takes
      · cases settles
    · rw [isFrame] at unregisters
      rcases unregisters with takes | ⟨settles, _⟩
      · cases takes
      · cases settles
  generalize isTop : some callee = top at move
  cases move with
  | outside exit foreign => exact absurd (isTop ▸ foreign) notForeign
  | called frame once calls foreign =>
      exact absurd (isTop ▸ foreign) notForeign
  | notified target event calls isNotify =>
      rw [isNotify] at own
      cases own
  | lockedSlot _ _ _ _ _ _ _ _ inside => exact absurd inside (notInside _)
  | took _ _ _ _ _ _ _ _ inside => exact absurd inside (notInside _)
  | removing _ _ _ _ _ _ _ _ inside => exact absurd inside (notInside _)
  | reporting _ _ _ _ _ _ _ _ _ after =>
      rw [after]
      exact ⟨rfl, rfl⟩
  | thrown _ _ _ _ _ _ _ _ same =>
      rw [same]
      exact ⟨rfl, rfl⟩
  | moved _ _ _ _ _ _ _ _ _ _ stepped =>
      have step := unregisters.step inv frameOk owns stepped
      exact ⟨step.others target handler apart, step.phase target⟩
  | popped _ _ _ _ _ _ _ stepped =>
      have step := unregisters.step inv frameOk owns stepped
      exact ⟨step.others target handler apart, step.phase target⟩

end Removals

/-! ### Runs -/

/-- The list of a registry. -/
def currentList (memory : Snapshot.Memory) (cell : CellId) : List Entry :=
  if (memory.store.cells cell).phase = .alive then
    memory.store.deref (memory.store.cells cell).current
  else []

/-- At most `2 ^ 64` ids have been drawn from the generator of a registry. -/
def FewIds (state : State E P) (cell : CellId) : Prop :=
  (state.memory.cells.store.cells cell).registrations ≤ 2 ^ 64

/-- A call of `unregister` with the id finds nothing, and returns `false`. -/
def UnregisterFails (state : State E P) (cell : CellId) (id : HandlerId) :
    Prop :=
  ∀ call wait tls operation result,
    frameOf (project state) call = some (.compute cell (.remove id) wait) →
      frameStep state.memory.cells call tls (.compute cell (.remove id) wait)
          operation = some result →
        result = (state.memory.cells, tls, some (.unlockUnchanged cell))

/-- The wrapper that the top call of a stack unregisters. -/
def selfRemoval : List (Item E P) → Option (CellId × Entry)
  | .call _ :: .call caller :: _ =>
      match caller.work with
      | .remove _ => invoked caller.frame
      | _ => none
  | _ => none

/-- The law of one-shot handlers in a state, with the events of the run that
has led to it. -/
structure OnceLaw (state : State E P) (once : List OnceEvent)
    (traces : List (Traced E P)) : Prop where
  atMostOnce : ∀ cell handler,
    once.countP (OnceEvent.isCall cell handler) ≤ 1
  exactlyOnce : ∀ traced ∈ traces, ∀ entry, traced.what.processes entry →
    (fullness state.memory.shared traced.cell entry.handler).isSome →
      once.countP (OnceEvent.isCall traced.cell entry.handler) = 1
  gone : ∀ cell entry, FewIds state cell → .ended cell entry ∈ once →
    (∀ other ∈ currentList state.memory.cells cell, other.id ≠ entry.id) ∧
      UnregisterFails state cell entry.id
  alone : ∀ thread act next cell entry,
    (program E P).step state thread act = some next → act.isUser = false →
      selfRemoval (state.threads thread).stack = some (cell, entry) →
        FewIds state cell → ∀ target handler,
          ¬ (target = cell ∧ handler = entry.handler) →
            handler ∈ handlersOf
                (currentList state.memory.cells target) →
              handler ∈ handlersOf (currentList next.memory.cells target)

section Runs

variable {state next : State E P} {thread : Tid} {act : Act E P}
variable {activation : Activation E P} {cell : CellId} {entry : Entry}
variable {once : List OnceEvent} {traces : List (Traced E P)}

private theorem mem_currentList_iff
    {state : Snapshot.State} (holds : Invariant state) (handler : Nat) :
    handler ∈ handlersOf (currentList state.memory cell) ↔
      (state.memory.store.cells cell).phase = .alive ∧
        (state.memory.store.cells cell).status handler = .live := by
  unfold currentList
  split
  · rename_i alive
    rw [(holds.current_list alive).live_iff]
    exact (and_iff_right alive).symm
  · rename_i dead
    exact ⟨nofun, fun both => absurd both.1 dead⟩

private theorem cellGrows_step
    (reachable : (program E P).Reachable (initial E P) state)
    (stepped : (program E P).step state thread act = some next)
    (cell : CellId) : CellGrows cell (project state) (project next) := by
  have holds := invariant_reachable (project_reachable reachable)
  rcases project_step (stateOk_reachable reachable) stepped with
    unchanged | ⟨operation, performed⟩
  · rw [unchanged]
    exact .refl
  · exact CellGrows.refl.step holds performed

/-- A wrapper that is unregistering itself is below its call or on top. -/
private theorem Chained.top_of_removal
    {stack : List (Item E P)} {caller : Activation E P}
    {below : List (Activation E P)} {panic : Option P}
    (chained : Chained stack)
    (shape : activations stack = caller :: below)
    (work : caller.work = .remove panic) :
    ∃ rest, stack = .call caller :: rest := by
  induction stack with
  | nil => cases shape
  | cons item rest inductionHypothesis =>
      have deeper : activations rest = caller :: below →
          item.isCall = false → False := by
        intro isRest notCall
        obtain ⟨others, rfl⟩ := inductionHypothesis chained.tail isRest
        have isCall := chained.1 (by simp [Item.isRemoval, work])
        rw [notCall] at isCall
        cases isCall
      cases item with
      | call activation =>
          cases shape
          exact ⟨rest, rfl⟩
      | setCallback | poll => exact (deeper shape rfl).elim

/-- Nobody calls past a wrapper that is unregistering itself. -/
private theorem ready_of_step
    (ok : StateOk state)
    (stepped : (program E P).step state thread act = some next)
    (outside : act.isUser = true ∨
      topCall (state.threads thread).stack = none)
    {caller : Activation E P} {below : List (Activation E P)}
    (shape : activations (state.threads thread).stack = caller :: below)
    (panic : Option P) : caller.work ≠ .remove panic := by
  intro work
  obtain ⟨rest, isStack⟩ :=
    (ok.threads thread).chained.top_of_removal shape work
  rcases outside with isUser | noCall
  · obtain ⟨memory', locals', performed, _⟩ := step_eq_some stepped
    simp only [program, isUser, if_true, Thread.atUserPoint, isStack]
      at performed
    split at performed
    · rename_i userPoint
      have notRemoval := Item.not_removal_of_isUser userPoint
      simp [Item.isRemoval, work] at notRemoval
    · cases performed
  · rw [isStack] at noCall
    cases noCall

private theorem owns_of_invoked
    (reachable : (program E P).Reachable (initial E P) state)
    (few : FewIds state cell)
    (member : activation ∈ activations (state.threads thread).stack)
    (inside : invoked activation.frame = some (cell, entry)) :
    Owns state.memory.cells cell entry := by
  have inner := project_reachable reachable
  obtain ⟨entryOk, alive⟩ := entryOk_of_invoked reachable member inside
  exact entryOk.owns (invariant_reachable inner) (idsOk_reachable inner)
    alive few

private theorem observedOnce_ended
    {memory : Memory} {top : Option (Activation E P)}
    (emitted : observedOnce memory top act = some (.ended cell entry)) :
    ∃ activation panic, top = some activation ∧
      activation.work = .remove panic ∧
        invoked activation.frame = some (cell, entry) := by
  obtain ⟨activation, isTop, emitted⟩ := Option.bind_eq_some_iff.mp emitted
  unfold Activation.onceEvent at emitted
  split at emitted
  · split at emitted
    · split at emitted <;> cases emitted
    · rename_i panic target other work inside
      cases emitted
      exact ⟨activation, panic, isTop, work, inside⟩
    · cases emitted
  · cases emitted

/-- What the events of a run say about its wrappers. -/
structure WrappersOk (state : State E P) (once : List OnceEvent) :
    Prop where
  removals : ∀ cell, FewIds state cell → ∀ thread,
    RemovalsOk state.memory.cells cell none
      (activations (state.threads thread).stack)
  ended : ∀ cell entry, .ended cell entry ∈ once →
    EntryOk state.memory.cells cell entry ∧ (FewIds state cell →
      (state.memory.cells.store.cells cell).status entry.handler =
        .removed)

private theorem wrappersOk_initial : WrappersOk (initial E P) [] where
  removals := fun _ _ _ => trivial
  ended := by
    intro cell entry member
    cases member

private theorem wrappersOk_step
    (reachable : (program E P).Reachable (initial E P) state)
    (stepped : (program E P).step state thread act = some next)
    (ok : WrappersOk state once) :
    WrappersOk next (once ++ (observeOnce state thread act).toList) := by
  have inv := (invariant_reachable (project_reachable reachable)).1
  have stateOk := stateOk_reachable reachable
  have grows := cellGrows_step reachable stepped
  have fewBefore : ∀ cell, FewIds next cell → FewIds state cell :=
    fun cell few =>
      Nat.le_trans (registrations_step stateOk stepped cell) few
  constructor
  · intro cell few other
    have before := ok.removals cell (fewBefore cell few) other
    by_cases same : other = thread
    · subst same
      exact (step_move stepped).removals inv (top_frameOk reachable other)
        (fun _ member _ inside =>
          owns_of_invoked reachable (fewBefore cell few) member inside)
        (grows cell).removed
        (fun outside _ _ shape =>
          ready_of_step stateOk stepped outside shape) before
    · rw [step_others stepped same]
      exact before.mono (grows cell).removed
  · intro cell entry member
    have known : EntryOk state.memory.cells cell entry ∧
        (FewIds state cell →
          (state.memory.cells.store.cells cell).status entry.handler =
            .removed) := by
      rcases List.mem_append.mp member with old | new
      · exact ok.ended cell entry old
      · obtain ⟨activation, panic, isTop, work, inside⟩ :=
          observedOnce_ended (Option.mem_toList.mp new)
        obtain ⟨below, shape⟩ := activations_of_topCall isTop
        refine ⟨(entryOk_of_invoked reachable (by
          rw [shape]
          exact List.mem_cons_self) inside).1, fun few => ?_⟩
        have removals := ok.removals cell few thread
        rw [shape] at removals
        exact removals.1 panic entry work inside
    refine ⟨⟨(grows cell).installed _ known.1.installed, known.1.named⟩,
      fun few => ?_⟩
    exact (grows cell).removed _ (known.2 (fewBefore cell few))

private theorem gone_of_removed
    (reachable : (program E P).Reachable (initial E P) state)
    (few : FewIds state cell)
    (entryOk : EntryOk state.memory.cells cell entry)
    (removed : (state.memory.cells.store.cells cell).status entry.handler =
      .removed) :
    (∀ other ∈ currentList state.memory.cells cell, other.id ≠ entry.id) ∧
      UnregisterFails state cell entry.id := by
  have inner := project_reachable reachable
  have holds := invariant_reachable inner
  have absent : (state.memory.cells.store.cells cell).phase = .alive →
      ∀ other ∈ state.memory.cells.store.deref
        (state.memory.cells.store.cells cell).current,
          other.id ≠ entry.id :=
    fun alive => Owns.ne_of_removed holds.1 alive
      (entryOk.owns holds (idsOk_reachable inner) alive few) removed
  constructor
  · unfold currentList
    split
    · rename_i alive
      exact absent alive
    · intro other member
      cases member
  · intro call wait tls operation result found stepped
    have alive : ((project state).memory.store.cells cell).phase = .alive :=
      (holds.frameOk found).alive holds.1 (by simp [Frame.holding])
    have none : Write.apply (.remove entry.id)
        (state.memory.cells.store.deref
          (state.memory.cells.store.cells cell).current) = none := by
      refine HandlerEntry.removeId_eq_none_iff.mpr fun listed => ?_
      obtain ⟨other, member, same⟩ := List.mem_map.mp listed
      exact absent alive other member same
    cases operation with
    | next =>
        simp only [frameStep, computeStep, none] at stepped
        exact (Option.some.inj stepped).symm
    | alloc address => simp [frameStep, computeStep, none] at stepped
    | _ => cases stepped

private theorem alone_of_step
    (reachable : (program E P).Reachable (initial E P) state)
    (stepped : (program E P).step state thread act = some next)
    (own : act.isUser = false)
    (removes : selfRemoval (state.threads thread).stack =
      some (cell, entry))
    (few : FewIds state cell)
    (removals : RemovalsOk state.memory.cells cell none
      (activations (state.threads thread).stack))
    (target : CellId) (handler : Nat)
    (apart : ¬ (target = cell ∧ handler = entry.handler))
    (listed : handler ∈ handlersOf
      (currentList state.memory.cells target)) :
    handler ∈ handlersOf (currentList next.memory.cells target) := by
  have inner := project_reachable reachable
  have innerNext := project_reachable (reachable.step stepped)
  have move := step_move stepped
  have frameOk := top_frameOk reachable thread
  unfold selfRemoval at removes
  split at removes
  · rename_i callee caller below shape
    split at removes
    · rename_i panic work
      have member : caller ∈ activations (state.threads thread).stack := by
        rw [shape]
        exact List.mem_cons_of_mem _ List.mem_cons_self
      have owns := owns_of_invoked reachable few member removes
      rw [shape] at move removals frameOk
      have kept := move.others own (invariant_reachable inner).1
        (frameOk _ _ rfl) owns (removals.2.1 panic entry work removes)
        target handler apart
      have before :=
        (mem_currentList_iff (invariant_reachable inner) handler).mp listed
      refine (mem_currentList_iff
        (invariant_reachable innerNext) handler).mpr ?_
      exact ⟨kept.2.trans before.1, kept.1.trans before.2⟩
    · cases removes
  · cases removes

/-- One-shot handlers: over every run the function given to `register_once`
is called at most once, and exactly once if a dispatch is done with its entry.
With at most `2 ^ 64` ids, the id of a wrapper that has called its function
and is over is in no list any more and cannot be unregistered, and the
unregistration by the wrapper removes no other handler. -/
theorem one_shot_handlers
    {schedule : List (Tid × Act E P)}
    (executed : (program E P).exec (initial E P) schedule = some state) :
    OnceLaw state
      ((program E P).events observeOnce (initial E P) schedule)
      ((program E P).events observe (initial E P) schedule) := by
  obtain ⟨slots, wrappers⟩ :
      SlotsOk state
          ((program E P).events observeOnce (initial E P) schedule)
          ((program E P).events observe (initial E P) schedule) ∧
        WrappersOk state
          ((program E P).events observeOnce (initial E P) schedule) := by
    refine exec_induction
      (P := fun done state =>
        SlotsOk state ((program E P).events observeOnce (initial E P) done)
            ((program E P).events observe (initial E P) done) ∧
          WrappersOk state
            ((program E P).events observeOnce (initial E P) done))
      ?_ executed ⟨slotsOk_initial, wrappersOk_initial⟩
    intro done middle thread act next reached stepped ok
    rw [events_snoc reached stepped, events_snoc reached stepped]
    exact ⟨slotsOk_step ⟨done, reached⟩ stepped ok.1,
      wrappersOk_step ⟨done, reached⟩ stepped ok.2⟩
  have reachable : (program E P).Reachable (initial E P) state :=
    ⟨schedule, executed⟩
  constructor
  · intro cell handler
    rw [slots.calls]
    split <;> omega
  · intro traced member entry passes isSlot
    obtain ⟨full, isFull⟩ := Option.isSome_iff_exists.mp isSlot
    have notFull := (slots.processed traced member entry passes).1
    rw [slots.calls]
    rw [isFull] at notFull ⊢
    cases full with
    | false => rfl
    | true => exact absurd rfl notFull
  · intro cell entry few member
    obtain ⟨entryOk, removed⟩ := wrappers.ended cell entry member
    exact gone_of_removed reachable few entryOk (removed few)
  · intro thread act next cell entry stepped own removes few
    exact alone_of_step reachable stepped own removes few
      (wrappers.removals cell few thread)

end Runs

/-- A dispatch calls a one-shot handler, which dispatches once more and then
returns. -/
def runsOnce : List (Tid × Act Nat Nat) :=
  paced 0
    [(.newCell 0 100, 0), (.registerOnce 0, 2), (.alloc 101, 9),
      (.notify 0 7, 11), (.notify 0 8, 9), (.returns, 1), (.alloc 102, 37)]

theorem one_shot_handlers_nested :
    ∃ state : State Nat Nat,
      (program Nat Nat).exec (initial Nat Nat) runsOnce = some state ∧
        OnceLaw state
          ((program Nat Nat).events observeOnce (initial Nat Nat) runsOnce)
          ((program Nat Nat).events observe (initial Nat Nat) runsOnce) ∧
        (program Nat Nat).events observeOnce (initial Nat Nat) runsOnce =
          [.called 0 ⟨⟨1⟩, 0, 0⟩, .ended 0 ⟨⟨1⟩, 0, 0⟩] := by
  have run : ((program Nat Nat).exec (initial Nat Nat) runsOnce).isSome := by
    decide +kernel
  obtain ⟨state, executed⟩ := Option.isSome_iff_exists.mp run
  exact ⟨state, executed, one_shot_handlers executed, by decide +kernel⟩

section Wrapping

variable {state : State Nat Nat} {thread : Tid} {count : Nat}

/-- A call that has nothing to do with a dispatch. -/
def simpleCall (frame : Frame) : Item Nat Nat :=
  .call ⟨frame, none, false, .plain, none⟩

/-- A thread has started a registration. -/
def registering (state : State Nat Nat) (thread : Tid) : State Nat Nat :=
  ⟨state.memory.withCells (state.memory.cells.withStore
      (state.memory.cells.store.beginCall 0 ⟨thread, 0⟩)),
    Function.update state.threads thread
      ⟨(state.threads thread).tls, [simpleCall (.draw 0 0)]⟩⟩

private theorem register_step
    (idle : (state.threads thread).stack = [])
    (alive : (state.memory.cells.store.cells 0).phase = .alive) :
    (program Nat Nat).step state thread (.call 0 (.register 0)) =
      some (registering state thread) := by
  simp [Program.step, program, Act.isUser, Thread.atUserPoint, idle,
    userStep, isDirect, enterCall, Snapshot.userStep, alive, Thread.push,
    Thread.cell, frames, simpleCall, Call.enter, registering]

/-- The only call of a thread has moved on. -/
def advanced (state : State Nat Nat) (thread : Tid)
    (cells : Snapshot.Memory) (tls : Tls) (frame : Frame) :
    State Nat Nat :=
  ⟨⟨cells, state.memory.shared⟩,
    Function.update state.threads thread ⟨tls, [simpleCall frame]⟩⟩

@[simp]
theorem advanced_cells
    (cells : Snapshot.Memory) (tls : Tls) (frame : Frame) :
    (advanced state thread cells tls frame).memory.cells = cells :=
  rfl

private theorem advanced_locals
    (state : State Nat Nat) (thread : Tid)
    (cells : Snapshot.Memory) (tls : Tls) (frame : Frame) :
    (advanced state thread cells tls frame).threads thread =
      ⟨tls, [simpleCall frame]⟩ :=
  Function.update_self ..

/-- The only call of a thread performs an operation of the cell. -/
private theorem simpleCall_step
    {tls tls' : Tls} {frame frame' : Frame} {cells' : Snapshot.Memory}
    (act : Act Nat Nat) (operation : Snapshot.Act)
    (locals : state.threads thread = ⟨tls, [simpleCall frame]⟩)
    (own : act.isUser = false)
    (isMove : itemStep thread state.memory tls (simpleCall frame) [] act =
      frameMove thread state.memory tls ⟨frame, none, false, .plain, none⟩
        [] operation act)
    (stepped : frameStep state.memory.cells ⟨thread, 0⟩ tls frame operation =
      some (cells', tls', some frame'))
    (unwinds : unwindingAfter (none : Option Nat) operation act = some none)
    (work : workAfter state.memory.shared frame' operation act = .plain)
    (shared : sharedAfter state.memory
      (⟨frame, none, false, .plain, none⟩ : Activation Nat Nat) operation =
        state.memory.shared) :
    (program Nat Nat).step state thread act =
      some (advanced state thread cells' tls' frame') := by
  have rests : callerAfter state.memory.cells ([] : List (Item Nat Nat))
      frame = [] := by
    unfold callerAfter
    split <;> rfl
  simp only [Program.step, program, own, locals, isMove, frameMove, frames,
    List.filterMap_nil, List.length_nil, stepped, unwinds, work, shared,
    rests, Option.map_some]
  rfl

/-- Registry `0` is empty and nobody writes to it; `count` threads have drawn
an id since its first registration, and the others have done nothing. -/
structure Idle (count : Nat) (state : State Nat Nat) : Prop where
  alive : (state.memory.cells.store.cells 0).phase = .alive
  free : (state.memory.cells.store.cells 0).writer = none
  empty : state.memory.cells.store.deref
    (state.memory.cells.store.cells 0).current = []
  unallocated : state.memory.cells.store.heap 200 = none
  drawn : (state.memory.cells.store.cells 0).registrations = count + 1
  fresh : ∀ thread, count < thread → (state.threads thread).stack = []

/-- A thread starts a registration and draws its id. -/
def drawsId (thread : Tid) : List (Tid × Act Nat Nat) :=
  [(thread, .call 0 (.register 0)), (thread, .next)]

/-- Threads `1` to `count` draw an id each. -/
def drawIds : Nat → List (Tid × Act Nat Nat)
  | 0 => []
  | count + 1 => drawIds count ++ drawsId (count + 1)

theorem Idle.draw (idle : Idle count state) :
    ∃ next tls id,
      (program Nat Nat).exec state (drawsId (count + 1)) = some next ∧
        Idle (count + 1) next ∧
        next.threads (count + 1) = ⟨tls, [simpleCall
          (.lockWriter 0 (.insert ⟨id, 0, count + 1⟩) false)]⟩ := by
  have first := register_step (idle.fresh (count + 1) (Nat.lt_succ_self _))
    idle.alive
  have locals : (registering state (count + 1)).threads (count + 1) =
      ⟨(state.threads (count + 1)).tls, [simpleCall (.draw 0 0)]⟩ :=
    Function.update_self ..
  have second := simpleCall_step .next .next locals rfl rfl rfl rfl rfl rfl
  have serial : ((registering state (count + 1)).memory.cells.store.cells
      0).registrations = count + 1 := by
    simpa [registering, Memory.withCells, Snapshot.Memory.withStore,
      Store.beginCall, Store.setCell] using idle.drawn
  rw [serial] at second
  refine ⟨_, _, _, exec_cons first (exec_cons second rfl), ?_,
    Function.update_self ..⟩
  constructor
  · simpa [registering, Memory.withCells, Snapshot.Memory.withStore,
      Store.beginCall, Store.nextId, Store.setCell] using idle.alive
  · simpa [registering, Memory.withCells, Snapshot.Memory.withStore,
      Store.beginCall, Store.nextId, Store.setCell] using idle.free
  · simpa [registering, Memory.withCells, Snapshot.Memory.withStore,
      Store.beginCall, Store.nextId, Store.setCell, Store.deref] using
        idle.empty
  · exact idle.unallocated
  · simpa [registering, Memory.withCells, Snapshot.Memory.withStore,
      Store.beginCall, Store.nextId, Store.setCell] using idle.drawn
  · intro thread later
    have apart : thread ≠ count + 1 := by omega
    simpa [registering, advanced, apart] using idle.fresh thread (by omega)

theorem Idle.draws (idle : Idle 0 state) (count : Nat) :
    ∃ next, (program Nat Nat).exec state (drawIds count) = some next ∧
      Idle count next := by
  induction count with
  | zero => exact ⟨state, rfl, idle⟩
  | succ count inductionHypothesis =>
      obtain ⟨middle, drawn, stillIdle⟩ := inductionHypothesis
      obtain ⟨next, _, _, draws, after, _⟩ := stillIdle.draw
      refine ⟨next, ?_, after⟩
      rw [drawIds, exec_append, drawn]
      exact draws

/-- A thread that has an id writes its list. -/
def installs (thread : Tid) : List (Tid × Act Nat Nat) :=
  [(thread, .next), (thread, .alloc 200), (thread, .next)]

theorem Idle.locks
    {tls : Tls} {write : Write} (idle : Idle count state)
    (locals : state.threads thread =
      ⟨tls, [simpleCall (.lockWriter 0 write false)]⟩) :
    ∃ locked, (program Nat Nat).step state thread .next =
        some (advanced state thread locked tls (.compute 0 write false)) ∧
      (locked.store.cells 0).phase = .alive ∧
      locked.store.heap 200 = none := by
  have stepped : frameStep state.memory.cells ⟨thread, 0⟩ tls
      (.lockWriter 0 write false) .next =
        some (state.memory.cells.withStore
          (state.memory.cells.store.lock 0 ⟨thread, 0⟩), tls,
            some (.compute 0 write false)) := by
    simp [frameStep, idle.free]
  refine ⟨_, simpleCall_step .next .next locals rfl rfl stepped rfl rfl rfl,
    ?_, idle.unallocated⟩
  simpa [Snapshot.Memory.withStore, Store.lock, Store.setCell] using
    idle.alive

private theorem allocates_step
    {tls : Tls} {entry : Entry}
    (locals : state.threads thread =
      ⟨tls, [simpleCall (.compute 0 (.insert entry) false)]⟩)
    (alive : (state.memory.cells.store.cells 0).phase = .alive)
    (unallocated : state.memory.cells.store.heap 200 = none) :
    ∃ allocated, (program Nat Nat).step state thread (.alloc 200) =
        some (advanced state thread allocated tls
          (.installing 0 false ⟨[], some entry.handler⟩ 200)) ∧
      (allocated.store.cells 0).phase = .alive ∧
      entry ∈ allocated.store.deref 200 := by
  have stepped : frameStep state.memory.cells ⟨thread, 0⟩ tls
      (.compute 0 (.insert entry) false) (.alloc 200) =
        some (state.memory.cells.withStore
          (state.memory.cells.store.allocArc 200 0
            (entry.insert (state.memory.cells.store.deref
              (state.memory.cells.store.cells 0).current))
            (.fresh ⟨thread, 0⟩)), tls,
          some (.installing 0 false ⟨[], some entry.handler⟩ 200)) := by
    simp [frameStep, computeStep, Write.apply, Write.effect, unallocated]
  refine ⟨_, simpleCall_step (.alloc 200) (.alloc 200) locals rfl rfl
    stepped rfl rfl rfl, alive, ?_⟩
  simp [Snapshot.Memory.withStore, Store.deref, Store.allocArc,
    (HandlerEntry.insert_perm entry _).mem_iff]

private theorem installs_step
    {tls : Tls} {entry : Entry} {effect : Effect}
    (locals : state.threads thread =
      ⟨tls, [simpleCall (.installing 0 false effect 200)]⟩)
    (alive : (state.memory.cells.store.cells 0).phase = .alive)
    (listed : entry ∈ state.memory.cells.store.deref 200) :
    ∃ next, (program Nat Nat).step state thread .next = some next ∧
      entry ∈ currentList next.memory.cells 0 := by
  refine ⟨_, simpleCall_step .next .next locals rfl rfl rfl rfl rfl rfl, ?_⟩
  simpa [currentList, Snapshot.Memory.withStore, Store.install,
    SnapCell.installed, Store.deref, Store.setCell, Store.relink,
    Store.move, alive, Function.comp_def] using listed

private theorem Idle.installs_listed
    {tls : Tls} {entry : Entry} (idle : Idle count state)
    (locals : state.threads thread =
      ⟨tls, [simpleCall (.lockWriter 0 (.insert entry) false)]⟩) :
    ∃ next, (program Nat Nat).exec state (installs thread) = some next ∧
      entry ∈ currentList next.memory.cells 0 := by
  obtain ⟨locked, first, alive, unallocated⟩ := idle.locks locals
  obtain ⟨allocated, second, stillAlive, member⟩ :=
    allocates_step (advanced_locals state thread locked tls _)
      alive unallocated
  obtain ⟨next, third, listed⟩ :=
    installs_step (advanced_locals _ thread allocated tls _)
      stillAlive member
  exact ⟨next, exec_cons first (exec_cons second (exec_cons third rfl)),
    listed⟩

private theorem idle_after_runsOnce :
    ∃ state, (program Nat Nat).exec (initial Nat Nat) runsOnce =
      some state ∧ Idle 0 state := by
  have summary :
      ((program Nat Nat).exec (initial Nat Nat) runsOnce).map (fun state =>
        let snap := state.memory.cells.store.cells 0
        (snap.phase, snap.writer.isNone,
          state.memory.cells.store.deref snap.current,
          (state.memory.cells.store.heap 200).isNone,
          snap.registrations)) =
        some (.alive, true, [], true, 1) := by
    decide +kernel
  obtain ⟨state, executed, known⟩ := Option.map_eq_some_iff.mp summary
  simp only [Prod.mk.injEq, Option.isNone_iff_eq_none] at known
  obtain ⟨alive, free, empty, unallocated, drawn⟩ := known
  refine ⟨state, executed,
    ⟨alive, free, empty, unallocated, drawn, ?_⟩⟩
  intro thread later
  have onlyZero : ∀ step ∈ runsOnce, step.1 = 0 := by decide +kernel
  rw [exec_threads executed fun step member same =>
    absurd ((onlyZero step member).symm.trans same) later.ne]
  rfl

/-- The run of a one-shot handler, then `count + 1` registrations of which
the last one writes its list. -/
def wrapsAround (count : Nat) : List (Tid × Act Nat Nat) :=
  runsOnce ++ (drawIds count ++
    (drawsId (count + 1) ++ installs (count + 1)))

private theorem exec_wrapsAround (count : Nat) :
    ∃ state entry,
      (program Nat Nat).exec (initial Nat Nat) (wrapsAround count) =
          some state ∧
        entry ∈ currentList state.memory.cells 0 ∧
        entry.handler = count + 1 := by
  obtain ⟨first, ranOnce, idle⟩ := idle_after_runsOnce
  obtain ⟨second, drawn, stillIdle⟩ := idle.draws count
  obtain ⟨third, _, id, draws, idleAgain, locals⟩ := stillIdle.draw
  obtain ⟨last, installed, listed⟩ := idleAgain.installs_listed locals
  refine ⟨last, _, ?_, listed, rfl⟩
  rw [wrapsAround, exec_append, ranOnce, Option.bind_some, exec_append,
    drawn, Option.bind_some, exec_append, draws, Option.bind_some]
  exact installed

private theorem ended_in_wrapsAround (count : Nat) :
    .ended 0 ⟨⟨1⟩, 0, 0⟩ ∈ (program Nat Nat).events observeOnce
      (initial Nat Nat) (wrapsAround count) := by
  obtain ⟨state, ranOnce, _⟩ := idle_after_runsOnce
  rw [wrapsAround, events_append ranOnce]
  refine List.mem_append_left _ ?_
  decide +kernel

private theorem named_of_listed
    {cell : CellId} {entry : Entry}
    (reachable : (program Nat Nat).Reachable (initial Nat Nat) state)
    (listed : entry ∈ currentList state.memory.cells cell) :
    entry.id = idOf entry.handler := by
  have inner := project_reachable reachable
  unfold currentList at listed
  split at listed
  · exact deref_named (invariant_reachable inner) (idsOk_reachable inner)
      listed
  · cases listed

/-- After `2 ^ 64` more registrations the generator hands out the id of a
one-shot handler that has removed itself, and the id is listed again. -/
theorem one_shot_id_returns :
    ∃ (schedule : List (Tid × Act Nat Nat)) (state : State Nat Nat)
        (gone other : Entry),
      (program Nat Nat).exec (initial Nat Nat) schedule = some state ∧
        .ended 0 gone ∈ (program Nat Nat).events observeOnce
          (initial Nat Nat) schedule ∧
        other ∈ currentList state.memory.cells 0 ∧
        other.id = gone.id := by
  obtain ⟨state, other, executed, listed, serial⟩ :=
    exec_wrapsAround (2 ^ 64 - 1)
  refine ⟨_, state, ⟨⟨1⟩, 0, 0⟩, other, executed,
    ended_in_wrapsAround (2 ^ 64 - 1), listed, ?_⟩
  have wrapped : other.handler = 0 + 2 ^ 64 := by omega
  rw [named_of_listed ⟨_, executed⟩ listed, wrapped, idOf_add]
  rfl

end Wrapping

end RegistryIo.Reentrant
