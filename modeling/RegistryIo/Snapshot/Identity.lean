import RegistryIo.Snapshot.Custody

/-!
# Ids and serial numbers

A registration draws its id from the generator of its registry.  The serial
number of its handler counts the draws, so the id is the serial number plus
one modulo `2 ^ 64`, for every entry of every list that ever existed.  With
fewer than `2 ^ 64` draws an id belongs to one registration.
-/

namespace RegistryIo.Snapshot

open RegistryIo.Interleaving

/-- The id of the registration with a serial number; the first id is `1`. -/
def idOf (serial : Nat) : HandlerId := ⟨(serial + 1) % 2 ^ 64⟩

theorem idOf_inj
    {first second bound : Nat} (few : bound ≤ 2 ^ 64)
    (isFirst : first < bound) (isSecond : second < bound)
    (same : idOf first = idOf second) : first = second := by
  have equal : (first + 1) % 2 ^ 64 = (second + 1) % 2 ^ 64 :=
    congrArg HandlerId.raw same
  omega

/-- The generator starts again after `2 ^ 64` ids. -/
theorem idOf_add (serial : Nat) : idOf (serial + 2 ^ 64) = idOf serial := by
  unfold idOf
  rw [Nat.add_right_comm, Nat.add_mod_right]

/-- The entry that a write is going to insert. -/
def Write.inserting : Write → Option Entry
  | .insert entry => some entry
  | _ => none

/-- The entry that a call is going to insert. -/
def Frame.inserting : Frame → Option Entry
  | .lockWriter _ write _ => write.inserting
  | .compute _ write _ => write.inserting
  | _ => none

/-- The generator and the number of draws. -/
def SnapCell.draws (snap : SnapCell) : HandlerIdGenerator × Nat :=
  (snap.idGenerator, snap.registrations)

/-- What a step of a call does to ids: nothing, a draw, or a new list that is
computed from the current one. -/
inductive IdStep (call : CallId) (frame : Frame) (store : Store) :
    Store → Option Frame → Prop where
  | same {store' : Store} {next : Option Frame}
      (values : store'.values = store.values)
      (draws : ∀ cell, (store'.cells cell).draws = (store.cells cell).draws)
      (entry : next.bind Frame.inserting = none ∨
        next.bind Frame.inserting = frame.inserting) :
      IdStep call frame store store' next
  | drawn (cell : CellId) (priority : Int)
      (isDraw : frame = .draw cell priority) :
      IdStep call frame store (store.nextId cell call)
        (some (.lockWriter cell
          (.insert ⟨(store.cells cell).idGenerator.next.1, priority,
            (store.cells cell).registrations⟩) false))
  | computed (cell : CellId) (write : Write) (wait : Bool)
      (address : Addr) (value : List Entry)
      (isCompute : frame = .compute cell write wait)
      (result : write.apply (store.deref (store.cells cell).current) =
        some value) :
      IdStep call frame store
        (store.allocArc address cell value (.fresh call))
        (some (.installing cell wait
          (write.effect (store.deref (store.cells cell).current)) address))

section Steps

variable {memory memory' : Memory} {call : CallId} {tls tls' : Tls}
variable {cell : CellId} {act : Act} {frame : Frame} {next : Option Frame}
variable {store : Store}

/-- The entries of a computed list. -/
private theorem Write.mem_apply
    {write : Write} {list value : List Entry} {entry : Entry}
    (result : write.apply list = some value) (member : entry ∈ value) :
    entry ∈ list ∨ write.inserting = some entry := by
  cases write with
  | insert new =>
      cases result
      rcases List.mem_cons.mp
        ((HandlerEntry.insert_perm new list).mem_iff.mp member) with
        isNew | old
      · exact Or.inr (congrArg some isNew.symm)
      · exact Or.inl old
  | remove id =>
      obtain ⟨before, removed, after, split, rfl, _⟩ :=
        HandlerEntry.removeId_eq_some result
      refine Or.inl ?_
      rw [split]
      rcases List.mem_append.mp member with left | right
      · exact List.mem_append_left _ left
      · exact List.mem_append_right _ (List.mem_cons_of_mem _ right)
  | clear =>
      obtain ⟨_, rfl⟩ := HandlerEntry.removeAll_eq_some result
      cases member

/-- A step that leaves the store alone. -/
theorem IdStep.of_same
    (entry : next.bind Frame.inserting = none) :
    IdStep call frame store store next :=
  .same rfl (fun _ => rfl) (Or.inl entry)

/-- A step that changes other fields of a cell. -/
theorem IdStep.of_update
    {store' : Store} {snap : SnapCell}
    (values : store'.values = store.values)
    (cells : store'.cells = Function.update store.cells cell snap)
    (same : snap.draws = (store.cells cell).draws)
    (entry : next.bind Frame.inserting = none ∨
      next.bind Frame.inserting = frame.inserting) :
    IdStep call frame store store' next := by
  refine .same values (fun other => ?_) entry
  rw [cells]
  by_cases here : other = cell
  · subst here
    simpa using same
  · simp [here]

private theorem IdStep.of_setCell
    {snap : SnapCell} (same : snap.draws = (store.cells cell).draws)
    (entry : next.bind Frame.inserting = none ∨
      next.bind Frame.inserting = frame.inserting) :
    IdStep call frame store (store.setCell cell snap) next :=
  .of_update rfl rfl same entry

private theorem IdStep.of_addOwner
    {address : Addr} {owner : Owner}
    (entry : next.bind Frame.inserting = none) :
    IdStep call frame store (store.addOwner address owner) next := by
  refine .same ?_ (fun _ => ?_) (Or.inl entry)
  · unfold Store.addOwner
    split <;> rfl
  · unfold Store.addOwner
    split <;> rfl

private theorem dropOwner_values
    (store : Store) (address : Addr) (owner : Owner) :
    (store.dropOwner address owner).values = store.values := by
  unfold Store.dropOwner
  split
  · rfl
  · split <;> rfl

private theorem IdStep.of_dropOwner
    {address : Addr} {owner : Owner}
    (entry : next.bind Frame.inserting = none) :
    IdStep call frame store (store.dropOwner address owner) next := by
  refine .same (dropOwner_values store address owner) (fun _ => ?_)
    (Or.inl entry)
  rw [(dropOwner_cells store address owner).1]

private theorem afterRelease_entry (cell : CellId) (result : Option Addr) :
    (afterRelease cell result).inserting = none := by
  cases result <;> rfl

private theorem slowPath_entry (cell : CellId) (reader : Reader) :
    (slowPath cell reader).inserting = none := by
  cases reader <;> rfl

private theorem IdStep.of_giveHandle
    {address : Addr} (entry : next.bind Frame.inserting = none) :
    IdStep call frame store (store.giveHandle address call) next := by
  refine .same ?_ (fun _ => ?_) (Or.inl entry)
  · unfold Store.giveHandle
    split <;> rfl
  · unfold Store.giveHandle
    split <;> rfl

private theorem frameStep_ids
    (stepped : frameStep memory call tls frame act =
      some (memory', tls', next)) :
    IdStep call frame memory.store memory'.store next := by
  cases frameStep_rule stepped with
  | pinGone | pinFull => exact .of_same (slowPath_entry _ _)
  | nothingRetired | tryLockBusy | dropReclaimed =>
      exact .of_same (afterRelease_entry _ _)
  | lockWriter => exact .of_setCell rfl (Or.inr rfl)
  | tryLockTaken | lockedLock | waitLock | collectLen | collectUnlock
  | unlockUnchanged | lockedRead | lockedKeep | waitCopy | enterFallback
  | leaveFallback | returned => exact .of_setCell rfl (Or.inl rfl)
  | collectEnd | install | retire =>
      exact .of_update rfl rfl rfl (Or.inl rfl)
  | keep | lockedCountRead | lockedCountLoad => exact .of_addOwner rfl
  | dropValue | dropPanics | dropHandle | fallbackFinish
  | fallbackUnwind => exact .of_dropOwner rfl
  | handOver => exact .of_giveHandle rfl
  | @draw cell priority => exact .drawn cell priority rfl
  | @computeSome cell write wait address value computed =>
      exact .computed cell write wait address value rfl computed
  | _ => exact .of_same rfl

/-- User code draws no id; a new cell starts with the empty list. -/
private theorem userStep_ids
    {thread : Tid} {locals locals' : Thread}
    (performed : userStep thread memory locals act =
      some (memory', locals')) :
    (∀ other, (memory'.store.cells other).draws =
        (memory.store.cells other).draws) ∧
      (memory'.store.values = memory.store.values ∨
        memory'.store.values =
          Function.update memory.store.values memory.store.versions []) := by
  have update : ∀ {store' : Store} {target : CellId} {snap : SnapCell},
      store'.cells = Function.update memory.store.cells target snap →
        snap.draws = (memory.store.cells target).draws →
          ∀ other, (store'.cells other).draws =
            (memory.store.cells other).draws := by
    intro store' target snap cells same other
    rw [cells]
    by_cases here : other = target
    · subst here
      simpa using same
    · simp [here]
  cases userStep_rule performed with
  | newCell => exact ⟨update rfl rfl, Or.inr rfl⟩
  | dropCell | call => exact ⟨update rfl rfl, Or.inl rfl⟩
  | @dropHandle handle address =>
      refine ⟨fun other => ?_, Or.inl (dropOwner_values _ _ _)⟩
      exact congrArg (fun cells => (cells other).draws)
        (dropOwner_cells memory.store address (.user handle)).1
  | exitUnclaimed | exitClaimed => exact ⟨fun _ => rfl, Or.inl rfl⟩

theorem Pushed.entry
    {stack : List Frame} (pushed : Pushed stack frame) :
    frame.inserting = none := by
  rcases pushed with ⟨cell, operation, rfl⟩ | ⟨cell, freed, rfl⟩ |
    ⟨_, record, rfl⟩
  · cases operation <;> rfl
  · rfl
  · rfl

end Steps

/-! ### Over whole runs -/

/-- The id of an entry is that of its handler. -/
def NamedOk (entry : Entry) : Prop := entry.id = idOf entry.handler

/-- Ids are serial numbers, in every list and in every pending insertion. -/
structure IdsOk (state : State) : Prop where
  generator : ∀ cell,
    (state.memory.store.cells cell).idGenerator.counter =
      ((state.memory.store.cells cell).registrations + 1) % 2 ^ 64
  values : ∀ version, ∀ entry ∈ state.memory.store.values version,
    NamedOk entry
  pending : ∀ call frame entry, frameOf state call = some frame →
    frame.inserting = some entry → NamedOk entry

section Run

variable {state next : State} {thread : Tid} {act : Act}

theorem idsOk_initial : IdsOk initial where
  generator := fun _ => rfl
  values := by
    intro version entry member
    cases member
  pending := by
    intro call frame entry found
    cases found

/-- The generator after a step that draws nothing. -/
private theorem generator_of_draws
    (ok : IdsOk state)
    (draws : ∀ cell, (next.memory.store.cells cell).draws =
      (state.memory.store.cells cell).draws) (cell : CellId) :
    (next.memory.store.cells cell).idGenerator.counter =
      ((next.memory.store.cells cell).registrations + 1) % 2 ^ 64 := by
  have same := Prod.mk.inj (draws cell)
  rw [same.1, same.2]
  exact ok.generator cell

theorem deref_named
    {address : Addr} {entry : Entry} (holds : Invariant state)
    (ok : IdsOk state)
    (member : entry ∈ state.memory.store.deref address) :
    NamedOk entry := by
  unfold Store.deref at member
  cases found : state.memory.store.heap address with
  | none =>
      rw [found] at member
      cases member
  | some inner =>
      rw [found, Option.map_some, Option.getD_some,
        ← (holds.1.store.arcs address inner found).value_eq] at member
      exact ok.values inner.version entry member

/-- Only the actor's own pending insertion can change. -/
private theorem pending_of_actor
    {actor : CallId} (ok : IdsOk state)
    (others : ∀ call, call ≠ actor → frameOf next call = frameOf state call)
    (own : ∀ frame entry, frameOf next actor = some frame →
      frame.inserting = some entry → NamedOk entry) :
    ∀ call frame entry, frameOf next call = some frame →
      frame.inserting = some entry → NamedOk entry := by
  intro call frame entry found inserts
  by_cases same : call = actor
  · subst same
    exact own frame entry found inserts
  · exact ok.pending call frame entry
      ((others call same).symm.trans found) inserts

theorem idsOk_step
    (holds : Invariant state)
    (stepped : program.step state thread act = some next)
    (ok : IdsOk state) : IdsOk next := by
  obtain ⟨actor, isThread, step, others⟩ := actorStep stepped
  cases step with
  | user level userPoint performed after =>
      obtain ⟨draws, values⟩ := userStep_ids performed
      refine ⟨generator_of_draws ok draws, ?_,
        pending_of_actor ok others ?_⟩
      · intro version entry member
        rcases values with same | grown
        · rw [same] at member
          exact ok.values version entry member
        · rw [grown] at member
          by_cases isNew : version = state.memory.store.versions
          · subst isNew
            simp at member
          · rw [Function.update_of_ne isNew] at member
            exact ok.values version entry member
      · intro frame entry found inserts
        rcases after with vacant | ⟨pushed, isPushed, fresh⟩
        · cases found.symm.trans vacant
        · cases Option.some.inj (found.symm.trans isPushed)
          cases inserts.symm.trans fresh.entry
  | top before rest tls shape level moved =>
      have foundBefore := frameOf_top isThread shape level
      have ids := frameStep_ids moved
      have pending := pending_of_actor ok others
      generalize isNext : frameOf next actor = result at ids pending
      generalize isStore : next.memory.store = store' at ids
      cases ids with
      | same values draws entry =>
          subst isStore
          refine ⟨generator_of_draws ok draws, ?_, pending ?_⟩
          · rw [values]
            exact ok.values
          · rintro frame new rfl inserts
            rw [Option.bind_some, inserts] at entry
            rcases entry with quiet | kept
            · cases quiet
            · exact ok.pending actor before new foundBefore kept.symm
      | drawn cell priority isDraw =>
          refine ⟨fun other => ?_, ?_, pending ?_⟩
          · rw [isStore]
            by_cases here : other = cell
            · subst here
              have old := ok.generator other
              simp only [Store.nextId, Store.setCell, Function.update_self,
                HandlerIdGenerator.next, old]
              omega
            · simpa [Store.nextId, Store.setCell, here] using
                ok.generator other
          · rw [isStore]
            exact ok.values
          · rintro frame new isFrame inserts
            cases isFrame
            cases inserts
            exact congrArg HandlerId.mk (ok.generator cell)
      | computed cell write wait address value isCompute computed =>
          refine ⟨fun other => ?_, ?_, pending ?_⟩
          · rw [isStore]
            exact ok.generator other
          · intro version entry member
            rw [isStore] at member
            by_cases isNew : version = state.memory.store.versions
            · subst isNew
              simp only [Store.allocArc, Function.update_self] at member
              rcases Write.mem_apply computed member with old | inserted
              · exact deref_named holds ok old
              · refine ok.pending actor before entry foundBefore ?_
                rw [isCompute]
                exact inserted
            · simp only [Store.allocArc, Function.update_of_ne isNew]
                at member
              exact ok.values version entry member
          · rintro frame new isFrame inserts
            cases isFrame
            cases inserts

theorem registrations_le
    (stepped : program.step state thread act = some next) (cell : CellId) :
    (state.memory.store.cells cell).registrations ≤
      (next.memory.store.cells cell).registrations := by
  have kept : ∀ {store' : Store},
      (store'.cells cell).draws = (state.memory.store.cells cell).draws →
        (state.memory.store.cells cell).registrations ≤
          (store'.cells cell).registrations :=
    fun same => Nat.le_of_eq (congrArg Prod.snd same).symm
  obtain ⟨actor, isThread, step, _⟩ := actorStep stepped
  cases step with
  | user level userPoint performed after =>
      exact kept ((userStep_ids performed).1 cell)
  | top frame rest tls shape level moved =>
      have ids := frameStep_ids moved
      generalize frameOf next actor = result at ids
      generalize next.memory.store = store' at ids ⊢
      cases ids with
      | same values draws entry => exact kept (draws cell)
      | drawn target priority isDraw =>
          by_cases here : cell = target
          · subst here
            simp [Store.nextId, Store.setCell]
          · simp [Store.nextId, Store.setCell, here]
      | computed => exact Nat.le_refl _

theorem idsOk_reachable
    (reachable : program.Reachable initial state) : IdsOk state := by
  have both : Invariant state ∧ IdsOk state := by
    refine reachable_invariant
      (P := fun state => Invariant state ∧ IdsOk state)
      ⟨invariant_initial, idsOk_initial⟩ ?_ reachable
    intro state thread act next stepped holds
    exact ⟨invariant_step stepped holds.1,
      idsOk_step holds.1 stepped holds.2⟩
  exact both.2

end Run

end RegistryIo.Snapshot
