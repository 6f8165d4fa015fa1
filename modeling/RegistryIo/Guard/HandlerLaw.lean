import RegistryIo.Foundations.Simulation
import RegistryIo.Guard.Lifetime

/-!
# What guards do to the list of handlers

The runs of the registry inside the `Arc` are runs of `RegistryIo.Registry`,
so its list law holds.  Each id of `register_guard` has one guard, and the
guard removes that id and no other: a handler stays in the list until its
guard is dropped or user code removes it, and it is not there any more when
the drop has returned.
-/

namespace RegistryIo.Guard

open RegistryIo.Interleaving RegistryIo.ReferenceCount
open RegistryIo.Registry (Remover drawCount insertedIds removedIds)

universe u

variable {H : Type u}

/-! ### The registry inside -/

/-- The registry and the registrations that are between their two steps. -/
def project (state : State H) :
    Config Nat (Registry.Memory H) (Option (HandlerEntry H)) :=
  ⟨state.memory.registry, fun task => (state.threads task).pending⟩

section Inside

variable {task : Task} {memory memory' : Memory H}
variable {activity activity' : Activity H} {act : Act H}
variable {state next : State H}

/-- A step performs an operation of the registry or leaves it alone. -/
private theorem step_registry
    (step : Step task memory activity act memory' activity') :
    (memory'.registry = memory.registry ∧
        activity'.pending = activity.pending) ∨
      ∃ operation, Registry.program H task memory.registry activity.pending
        operation = some (memory'.registry, activity'.pending) := by
  cases step with
  | register held performed => exact Or.inr ⟨_, performed⟩
  | insertPlain performed | insertGuard performed | insertOnce performed
  | unregister performed | clear performed =>
      exact Or.inr ⟨_, performed⟩
  | @remove remover id registry performed =>
      refine Or.inr ⟨.unregister remover id, ?_⟩
      cases remover <;> exact performed
  | @upgradeFails remover id failed =>
      cases remover <;> exact Or.inl ⟨rfl, rfl⟩
  | dropArc | dropStrong | dropImplicit =>
      refine Or.inl ⟨rfl, ?_⟩
      split <;> rfl
  | _ => exact Or.inl ⟨rfl, rfl⟩

private theorem project_update
    (state : State H) (task : Task) (memory' : Memory H)
    (activity' : Activity H) :
    project ⟨memory', Function.update state.threads task activity'⟩ =
      ⟨memory'.registry,
        Function.update (project state).threads task activity'.pending⟩ := by
  unfold project
  congr 1
  funext other
  by_cases same : other = task
  · subst same
    simp
  · simp [same]

/-- Every run contains a run of the registry. -/
private theorem program_contains :
    Contains (program H) (Registry.program H) project fun _ => True := by
  intro state task act next stepped _
  obtain ⟨memory', activity', performed, rfl⟩ := step_eq_some stepped
  refine ⟨trivial, ?_⟩
  rw [project_update]
  rcases step_registry (program_rule performed) with
    ⟨same, pending⟩ | ⟨operation, ran⟩
  · left
    have kept : Function.update (project state).threads task
        activity'.pending = (project state).threads := by
      rw [pending]
      exact Function.update_eq_self task _
    rw [same, kept]
    rfl
  · right
    refine ⟨operation, ?_⟩
    simp only [Program.step]
    rw [show Registry.program H task (project state).memory
      ((project state).threads task) operation = _ from ran]
    rfl

private theorem consistent_reachable
    (reachable : (program H).Reachable (initial H) state)
    (few : drawCount state.memory.registry.history < 2 ^ 64) :
    Registry.Consistent (project state) := by
  have inside := (program_contains.reachable reachable trivial).2
  exact Registry.reachable_consistent inside few

/-- The history of the registry grows. -/
private theorem history_exec
    {schedule : List (Task × Act H)} {last : State H}
    (executed : (program H).exec state schedule = some last) :
    ∃ appended, last.memory.registry.history =
      state.memory.registry.history ++ appended := by
  refine exec_invariant
    (P := fun later : State H => ∃ appended,
      later.memory.registry.history =
        state.memory.registry.history ++ appended)
    ?_ executed ⟨[], by simp⟩
  rintro later actor act next stepped ⟨appended, isHistory⟩
  obtain ⟨memory', activity', performed, rfl⟩ := step_eq_some stepped
  rcases step_registry (program_rule performed) with
    ⟨same, _⟩ | ⟨operation, ran⟩
  · exact ⟨appended, by simpa only [same] using isHistory⟩
  · obtain ⟨more, isMore⟩ := Registry.program_history ran
    refine ⟨appended ++ more, ?_⟩
    rw [← List.append_assoc, ← isHistory]
    exact isMore

private theorem drawCount_exec
    {schedule : List (Task × Act H)} {last : State H}
    (executed : (program H).exec state schedule = some last) :
    drawCount state.memory.registry.history ≤
      drawCount last.memory.registry.history := by
  obtain ⟨appended, isHistory⟩ := history_exec executed
  rw [isHistory, drawCount, drawCount, List.countP_append]
  exact Nat.le_add_right _ _

end Inside

/-! ### The guard of an id -/

/-- What is known about ids. -/
structure IdInv (state : State H) : Prop where
  inserted : ∀ id, state.memory.status id ≠ .unknown →
    id ∈ insertedIds state.memory.registry.history
  guard : ∀ name id, ⟨name, .guard, id⟩ ∈ state.memory.holders ↔
    state.memory.status id = .guarded (.token name)
  once : ∀ name id, ⟨name, .once, id⟩ ∈ state.memory.holders →
    state.memory.status id = .once
  task : ∀ task id, (state.threads task).guarded = some id ↔
    state.memory.status id = .guarded (.task task)
  removal : ∀ task remover id,
    (state.threads task).removal = some (remover, id) →
      remover = .guard ∨
        remover = .oneShot ∧ state.memory.status id = .once
  guardRemoved : ∀ id entry,
    .unregistered .guard id entry ∈ state.memory.registry.history →
      state.memory.status id = .ended
  onceRemoved : ∀ id entry,
    .unregistered .oneShot id entry ∈ state.memory.registry.history →
      state.memory.status id = .once
  ended : ∀ id, state.memory.status id = .ended →
    id ∈ removedIds state.memory.registry.history ∨
      state.memory.shared.owners = []

private theorem idInv_initial : IdInv (initial H) := by
  constructor <;>
    simp [initial, Registry.initial, Activity.guarded, Activity.removal]

section Ids

variable {task : Task} {state : State H} {memory' : Memory H}
variable {activity' : Activity H}

/-- The handlers in the list are those that were inserted and not removed. -/
private theorem mem_handlers_iff
    {config : Config Nat (Registry.Memory H) (Option (HandlerEntry H))}
    (consistent : Registry.Consistent config) (id : HandlerId) :
    id ∈ config.memory.handlers.map HandlerEntry.id ↔
      id ∈ insertedIds config.memory.history ∧
        id ∉ removedIds config.memory.history := by
  rw [consistent.handlers_eq, ← consistent.live_iff id]
  exact ((stableSort_perm _).map HandlerEntry.id).mem_iff

/-- What a step adds to the history: besides direct ones, only removals that
are `removable`. -/
structure Recorded (removable : Remover → HandlerId → Prop)
    (before after : List (Registry.Event H)) : Prop where
  inserted : ∀ id ∈ insertedIds before, id ∈ insertedIds after
  removed : ∀ id ∈ removedIds before, id ∈ removedIds after
  indirect : ∀ remover id entry,
    .unregistered remover id entry ∈ after → remover ≠ .direct →
      .unregistered remover id entry ∈ before ∨ removable remover id

private theorem recorded_refl
    (removable : Remover → HandlerId → Prop)
    (history : List (Registry.Event H)) :
    Recorded removable history history :=
  ⟨fun _ member => member, fun _ member => member,
    fun _ _ _ member _ => Or.inl member⟩

private theorem recorded_append
    {removable : Remover → HandlerId → Prop}
    {history after : List (Registry.Event H)} {event : Registry.Event H}
    (appended : after = history ++ [event])
    (allowed : ∀ remover id entry,
      event = .unregistered remover id entry → remover ≠ .direct →
        removable remover id) :
    Recorded removable history after := by
  subst appended
  constructor
  · intro id member
    simp [member]
  · intro id member
    simp [member]
  · intro remover id entry member indirect
    rcases List.mem_append.mp member with older | newest
    · exact Or.inl older
    · have isEvent := (List.mem_singleton.mp newest).symm
      exact Or.inr (allowed remover id entry isEvent indirect)

/-- The guards stay, and no closure is added. -/
structure KeptHolders (before after : List Holder) : Prop where
  guard : ∀ name id, ⟨name, .guard, id⟩ ∈ after ↔
    ⟨name, .guard, id⟩ ∈ before
  once : ∀ name id, ⟨name, .once, id⟩ ∈ after → ⟨name, .once, id⟩ ∈ before

private theorem keptHolders_refl (holders : List Holder) :
    KeptHolders holders holders :=
  ⟨fun _ _ => Iff.rfl, fun _ _ member => member⟩

/-- A step that changes no status. -/
private theorem idInv_same
    {activity : Activity H} (ids : IdInv state)
    (isActivity : state.threads task = activity)
    (recorded : Recorded
      (fun remover id => remover = .oneShot ∧
        state.memory.status id = .once)
      state.memory.registry.history memory'.registry.history)
    (status : memory'.status = state.memory.status)
    (holders : KeptHolders state.memory.holders memory'.holders)
    (owners : state.memory.shared.owners = [] →
      memory'.shared.owners = [])
    (guarded : activity'.guarded = activity.guarded)
    (removal : ∀ remover id, activity'.removal = some (remover, id) →
      remover = .guard ∨
        remover = .oneShot ∧ state.memory.status id = .once) :
    IdInv ⟨memory', Function.update state.threads task activity'⟩ := by
  constructor
  · intro id known
    rw [status] at known
    exact recorded.inserted id (ids.inserted id known)
  · intro name id
    rw [status]
    exact (holders.guard name id).trans (ids.guard name id)
  · intro name id member
    rw [status]
    exact ids.once name id (holders.once name id member)
  · intro other id
    rw [status]
    by_cases same : other = task
    · subst same
      simp only [Function.update_self, guarded, ← isActivity]
      exact ids.task other id
    · simp only [Function.update_of_ne same]
      exact ids.task other id
  · intro other remover id removes
    rw [status]
    by_cases same : other = task
    · subst same
      simp only [Function.update_self] at removes
      exact removal remover id removes
    · simp only [Function.update_of_ne same] at removes
      exact ids.removal other remover id removes
  · intro id entry member
    rw [status]
    rcases recorded.indirect _ id entry member (by simp) with
      older | ⟨impossible, _⟩
    · exact ids.guardRemoved id entry older
    · cases impossible
  · intro id entry member
    rw [status]
    rcases recorded.indirect _ id entry member (by simp) with
      older | ⟨_, isOnce⟩
    · exact ids.onceRemoved id entry older
    · exact isOnce
  · intro id isEnded
    rw [status] at isEnded
    rcases ids.ended id isEnded with removed | gone
    · exact Or.inl (recorded.removed id removed)
    · exact Or.inr (owners gone)

/-- A step that changes the status of one id, which is not that of a one-shot
handler and whose guard has not ended. -/
private theorem idInv_mark
    {id : HandlerId} {new : Status} (ids : IdInv state)
    (status : memory'.status =
      Function.update state.memory.status id new)
    (notEnded : state.memory.status id ≠ .ended)
    (notOnce : state.memory.status id ≠ .once)
    (notOther : ∀ other, other ≠ task →
      state.memory.status id ≠ .guarded (.task other))
    (isInserted : id ∈ insertedIds memory'.registry.history)
    (recorded : Recorded
      (fun remover other => remover = .guard ∧ other = id ∧ new = .ended)
      state.memory.registry.history memory'.registry.history)
    (guards : ∀ name other, other ≠ id →
      (⟨name, .guard, other⟩ ∈ memory'.holders ↔
        ⟨name, .guard, other⟩ ∈ state.memory.holders))
    (ownGuard : ∀ name, ⟨name, .guard, id⟩ ∈ memory'.holders ↔
      new = .guarded (.token name))
    (onces : ∀ name other, ⟨name, .once, other⟩ ∈ memory'.holders →
      ⟨name, .once, other⟩ ∈ state.memory.holders ∨
        other = id ∧ new = .once)
    (guarded : ∀ other, other ≠ id →
      (activity'.guarded = some other ↔
        (state.threads task).guarded = some other))
    (ownTask : ∀ other, new = .guarded (.task other) ↔
      other = task ∧ activity'.guarded = some id)
    (removal : ∀ remover other,
      activity'.removal = some (remover, other) → remover = .guard)
    (owners : state.memory.shared.owners = [] →
      memory'.shared.owners = [])
    (ended : new = .ended →
      id ∈ removedIds memory'.registry.history ∨
        memory'.shared.owners = []) :
    IdInv ⟨memory', Function.update state.threads task activity'⟩ := by
  have own : memory'.status id = new := by
    rw [status, Function.update_self]
  have rest : ∀ other, other ≠ id →
      memory'.status other = state.memory.status other := by
    intro other different
    rw [status, Function.update_of_ne different]
  constructor
  · intro other known
    by_cases same : other = id
    · rw [same]
      exact isInserted
    · rw [rest other same] at known
      exact recorded.inserted other (ids.inserted other known)
  · intro name other
    by_cases same : other = id
    · subst same
      rw [own]
      exact ownGuard name
    · rw [rest other same]
      exact (guards name other same).trans (ids.guard name other)
  · intro name other member
    rcases onces name other member with older | ⟨rfl, isNew⟩
    · have isOnce := ids.once name other older
      have different : other ≠ id := by
        rintro rfl
        exact notOnce isOnce
      rw [rest other different]
      exact isOnce
    · rw [own]
      exact isNew
  · intro actor other
    by_cases sameTask : actor = task
    · subst sameTask
      simp only [Function.update_self]
      by_cases same : other = id
      · subst same
        rw [own, ownTask]
        simp
      · rw [rest other same]
        exact (guarded other same).trans (ids.task actor other)
    · simp only [Function.update_of_ne sameTask]
      by_cases same : other = id
      · subst same
        rw [own, ids.task, ownTask]
        simp [notOther actor sameTask, sameTask]
      · rw [rest other same]
        exact ids.task actor other
  · intro actor remover other removes
    by_cases sameTask : actor = task
    · subst sameTask
      simp only [Function.update_self] at removes
      exact Or.inl (removal remover other removes)
    · simp only [Function.update_of_ne sameTask] at removes
      rcases ids.removal actor remover other removes with
        isGuard | ⟨isOneShot, isOnce⟩
      · exact Or.inl isGuard
      · have different : other ≠ id := by
          rintro rfl
          exact notOnce isOnce
        exact Or.inr ⟨isOneShot, (rest other different).trans isOnce⟩
  · intro other entry member
    rcases recorded.indirect _ other entry member (by simp) with
      older | ⟨_, rfl, isEnded⟩
    · have wasEnded := ids.guardRemoved other entry older
      have different : other ≠ id := by
        rintro rfl
        exact notEnded wasEnded
      exact (rest other different).trans wasEnded
    · exact own.trans isEnded
  · intro other entry member
    have isOnce : state.memory.status other = .once := by
      rcases recorded.indirect _ other entry member (by simp) with
        older | ⟨impossible, _⟩
      · exact ids.onceRemoved other entry older
      · cases impossible
    have different : other ≠ id := by
      rintro rfl
      exact notOnce isOnce
    exact (rest other different).trans isOnce
  · intro other isEnded
    by_cases same : other = id
    · subst same
      rw [own] at isEnded
      exact ended isEnded
    · rw [rest other same] at isEnded
      rcases ids.ended other isEnded with isRemoved | gone
      · exact Or.inl (recorded.removed other isRemoved)
      · exact Or.inr (owners gone)

end Ids

section Operations

variable {task : Task} {registry registry' : Registry.Memory H}

private theorem perform_draw
    {priority : Int} {handler : H} {entry : HandlerEntry H}
    (performed : Registry.program H task registry none
      (.draw priority handler) = some (registry', some entry)) :
    registry'.history = registry.history ++ [.drawn entry.id] := by
  simp only [Registry.program, Option.some.injEq, Prod.mk.injEq]
    at performed
  obtain ⟨rfl, rfl⟩ := performed
  rfl

private theorem perform_insert
    {entry : HandlerEntry H}
    (performed : Registry.program H task registry (some entry) .insert =
      some (registry', none)) :
    registry'.history = registry.history ++ [.inserted entry] := by
  simp only [Registry.program, Option.some.injEq, Prod.mk.injEq]
    at performed
  obtain ⟨rfl, _⟩ := performed
  rfl

private theorem perform_unregister
    {remover : Remover} {id : HandlerId}
    (performed : Registry.program H task registry none
      (.unregister remover id) = some (registry', none)) :
    ∃ entry, registry'.history =
        registry.history ++ [.unregistered remover id entry] ∧
      (id ∈ registry.handlers.map HandlerEntry.id →
        ∃ removed, entry = some removed ∧ removed.id = id) := by
  rcases Registry.program_cases performed with
    ⟨entry, -, impossible, -⟩ | ⟨entry, impossible, -⟩ |
    ⟨remover', id', same, -, -, absent, rfl⟩ |
    ⟨remover', before, entry, after, same, -, -, split, rfl⟩ |
    ⟨impossible, -⟩ | ⟨impossible, -⟩
  · cases impossible
  · cases impossible
  · cases same
    exact ⟨none, rfl, fun present => absurd present absent⟩
  · cases same
    exact ⟨some entry, rfl, fun _ => ⟨entry, rfl, rfl⟩⟩
  · cases impossible
  · cases impossible

private theorem perform_clear
    (performed : Registry.program H task registry none .clear =
      some (registry', none)) :
    registry'.history = registry.history ∨
      registry'.history = registry.history ++ [.cleared registry.handlers] := by
  simp only [Registry.program] at performed
  split at performed
  · cases performed
    exact Or.inl rfl
  · cases performed
    exact Or.inr rfl

end Operations

section Preservation

variable {task : Task} {state : State H} {memory' : Memory H}
variable {activity' : Activity H} {act : Act H}

/-- An id that is drawn and not inserted is unknown. -/
private theorem status_pending
    {entry : HandlerEntry H} (consistent : Registry.Consistent (project state))
    (ids : IdInv state) (pending : (state.threads task).pending = some entry) :
    state.memory.status entry.id = .unknown := by
  by_contra known
  exact consistent.pending_fresh task entry pending
    (ids.inserted entry.id known)

private theorem idInv_inserted
    (entry : HandlerEntry H) {new : Status} {registry : Registry.Memory H}
    (consistent : Registry.Consistent (project state)) (ids : IdInv state)
    (pending : (state.threads task).pending = some entry)
    (unguarded : (state.threads task).guarded = none)
    (performed : Registry.program H task state.memory.registry (some entry)
      .insert = some (registry, none))
    (isRegistry : memory'.registry = registry)
    (status : memory'.status =
      Function.update state.memory.status entry.id new)
    (owners : state.memory.shared.owners = [] →
      memory'.shared.owners = [])
    (guards : ∀ name other,
      ⟨name, .guard, other⟩ ∈ memory'.holders ↔
        ⟨name, .guard, other⟩ ∈ state.memory.holders)
    (onces : ∀ name other, ⟨name, .once, other⟩ ∈ memory'.holders →
      ⟨name, .once, other⟩ ∈ state.memory.holders ∨
        other = entry.id ∧ new = .once)
    (untaken : ∀ name, new ≠ .guarded (.token name))
    (ownTask : ∀ other, new = .guarded (.task other) ↔
      other = task ∧ activity'.guarded = some entry.id)
    (onlyOwn : ∀ other, activity'.guarded = some other → other = entry.id)
    (removal : activity'.removal = none) (unended : new ≠ .ended) :
    IdInv ⟨memory', Function.update state.threads task activity'⟩ := by
  have unknown := status_pending consistent ids pending
  have history : memory'.registry.history =
      state.memory.registry.history ++ [.inserted entry] := by
    rw [isRegistry]
    exact perform_insert performed
  refine idInv_mark ids status (by simp [unknown]) (by simp [unknown])
    (by simp [unknown]) ?_ ?_ (fun name other _ => guards name other) ?_
    onces ?_ ownTask ?_ owners (fun ended => absurd ended unended)
  · simp [history, Registry.Event.insertedId]
  · exact recorded_append history (by simp)
  · intro name
    rw [guards name entry.id, ids.guard, unknown]
    simp [untaken name]
  · intro other different
    rw [unguarded]
    constructor
    · intro isOther
      exact absurd (onlyOwn other isOther) different
    · intro impossible
      cases impossible
  · intro remover other removes
    rw [removal] at removes
    cases removes

/-- A removal by id takes the id out of the list, or it was taken out
before. -/
private theorem removed_of_unregister
    {remover : Remover} {id : HandlerId} {registry : Registry.Memory H}
    (consistent : Registry.Consistent (project state))
    (isInserted : id ∈ insertedIds state.memory.registry.history)
    (performed : Registry.program H task state.memory.registry none
      (.unregister remover id) = some (registry, none)) :
    id ∈ removedIds registry.history := by
  obtain ⟨entry, history, found⟩ := perform_unregister performed
  rw [history, Registry.removedIds_append, List.mem_append]
  by_cases present :
      id ∈ state.memory.registry.handlers.map HandlerEntry.id
  · obtain ⟨removed, rfl, same⟩ := found present
    right
    simp [Registry.Event.removedIds, same]
  · left
    by_contra notRemoved
    exact present
      ((mem_handlers_iff consistent id).mpr ⟨isInserted, notRemoved⟩)

/-- User code gives up a guard. -/
private theorem idInv_given
    {guard : Holder} {new : Status} (holds : Invariant state)
    (ids : IdInv state) (isActivity : state.threads task = .idle)
    (member : guard ∈ state.memory.holders)
    (isGuard : guard.kind = .guard)
    (registry : memory'.registry = state.memory.registry)
    (status : memory'.status =
      Function.update state.memory.status guard.id new)
    (holders : memory'.holders = state.memory.holders.erase guard)
    (owners : state.memory.shared.owners = [] →
      memory'.shared.owners = [])
    (untaken : ∀ name, new ≠ .guarded (.token name))
    (ownTask : ∀ other, new = .guarded (.task other) ↔
      other = task ∧ activity'.guarded = some guard.id)
    (onlyOwn : ∀ other, activity'.guarded = some other → other = guard.id)
    (removal : ∀ remover other,
      activity'.removal = some (remover, other) → remover = .guard)
    (unended : new ≠ .ended) :
    IdInv ⟨memory', Function.update state.threads task activity'⟩ := by
  have same : (⟨guard.name, .guard, guard.id⟩ : Holder) = guard := by
    rw [← isGuard]
  have guarded := (ids.guard guard.name guard.id).mp (by rwa [same])
  have distinct : state.memory.holders.Nodup :=
    List.Nodup.of_map Holder.name holds.1.holder_nodup
  refine idInv_mark ids status (by simp [guarded]) (by simp [guarded])
    (by simp [guarded]) ?_ ?_ ?_ ?_ ?_ ?_ ownTask removal owners
    (fun ended => absurd ended unended)
  · rw [registry]
    exact ids.inserted guard.id (by simp [guarded])
  · rw [registry]
    exact recorded_refl _ _
  · intro name other different
    rw [holders]
    apply List.mem_erase_of_ne
    rintro rfl
    exact different rfl
  · intro name
    rw [holders, distinct.mem_erase_iff, ids.guard, guarded]
    constructor
    · rintro ⟨apart, isName⟩
      cases isName
      exact absurd same apart
    · intro taken
      exact absurd taken (untaken name)
  · intro name other listed
    rw [holders] at listed
    exact Or.inl (List.mem_of_mem_erase listed)
  · intro other different
    rw [isActivity]
    constructor
    · intro isOther
      exact absurd (onlyOwn other isOther) different
    · intro impossible
      cases impossible

/-- The guard of an id has done its work. -/
private theorem idInv_ended
    {id : HandlerId} (ids : IdInv state)
    (isGuarded : (state.threads task).guarded = some id)
    (status : memory'.status =
      Function.update state.memory.status id .ended)
    (holders : memory'.holders = state.memory.holders)
    (recorded : Recorded
      (fun remover other => remover = .guard ∧ other = id ∧
        Status.ended = .ended)
      state.memory.registry.history memory'.registry.history)
    (owners : state.memory.shared.owners = [] →
      memory'.shared.owners = [])
    (guarded : activity'.guarded = none) (removal : activity'.removal = none)
    (done : id ∈ removedIds memory'.registry.history ∨
      memory'.shared.owners = []) :
    IdInv ⟨memory', Function.update state.threads task activity'⟩ := by
  have own := (ids.task task id).mp isGuarded
  refine idInv_mark ids status (by simp [own]) (by simp [own]) ?_ ?_
    recorded (by simp [holders]) ?_ ?_ ?_ (by simp [guarded])
    (by simp [removal]) owners (fun _ => done)
  · intro other different same
    rw [own] at same
    cases same
    exact different rfl
  · exact recorded.inserted id (ids.inserted id (by simp [own]))
  · intro name
    rw [holders, ids.guard, own]
    simp
  · intro name other listed
    rw [holders] at listed
    exact Or.inl listed
  · intro other different
    rw [guarded, isGuarded]
    simp [Ne.symm different]

private theorem idInv_step
    {next : State H} (consistent : Registry.Consistent (project state))
    (holds : Invariant state) (ids : IdInv state)
    (stepped : (program H).step state task act = some next) :
    IdInv next := by
  obtain ⟨memory', activity', performed, rfl⟩ := step_eq_some stepped
  have step := program_rule performed
  have owners : state.memory.shared.owners = [] →
      memory'.shared.owners = [] :=
    fun gone => (registry_frozen holds.1 (holds.2 task) step gone).2
  generalize isActivity : state.threads task = activity at step
  have unchanged := keptHolders_refl state.memory.holders
  cases step with
  | clone | enter | observe | leave | dropValue | dropWeak =>
      exact idInv_same ids isActivity (recorded_refl _ _) rfl unchanged owners
        rfl (by simp [Activity.removal])
  | dropArc | dropStrong | dropImplicit =>
      refine idInv_same ids isActivity (recorded_refl _ _) rfl unchanged
        owners ?_ ?_
      · split <;> rfl
      · intro remover id removes
        split at removes <;> cases removes
  | register held drawn =>
      exact idInv_same ids isActivity
        (recorded_append (perform_draw drawn) (by simp)) rfl unchanged owners
        rfl (by simp [Activity.removal])
  | unregister removed =>
      obtain ⟨entry, history, _⟩ := perform_unregister removed
      exact idInv_same ids isActivity (recorded_append history (by simp))
        rfl unchanged owners rfl (by simp [Activity.removal])
  | clear cleared =>
      refine idInv_same ids isActivity ?_ rfl unchanged owners rfl
        (by simp [Activity.removal])
      rcases perform_clear cleared with same | appended
      · simp only [same]
        exact recorded_refl _ _
      · exact recorded_append appended (by simp)
  | @upgrade remover id shared upgraded =>
      refine idInv_same ids isActivity (recorded_refl _ _) rfl unchanged
        owners ?_ ?_
      · cases remover <;> rfl
      · intro remover' id' removes
        refine ids.removal task remover' id' ?_
        rw [isActivity]
        exact removes
  | @runOnce closure member isOnce =>
      refine idInv_same ids isActivity (recorded_refl _ _) rfl unchanged
        owners rfl ?_
      intro remover id removes
      cases removes
      refine Or.inr ⟨rfl, ids.once closure.name closure.id ?_⟩
      rw [← isOnce]
      exact member
  | @dropClosure closure member isOnce =>
      refine idInv_same ids isActivity (recorded_refl _ _) rfl ?_ owners rfl
        (by simp [Activity.removal])
      constructor
      · intro name id
        apply List.mem_erase_of_ne
        rintro rfl
        cases isOnce
      · intro name id listed
        exact List.mem_of_mem_erase listed
  | @insertPlain handle entry registry ran =>
      refine idInv_inserted entry consistent ids (by rw [isActivity]; rfl)
        (by rw [isActivity]; rfl) ran rfl rfl
        owners (fun _ _ => Iff.rfl) (fun _ _ => Or.inl) (by simp) ?_ ?_ rfl
        (by simp)
      · intro other
        simp [Activity.guarded]
      · intro other isOther
        cases isOther
  | @insertGuard handle entry registry ran =>
      refine idInv_inserted entry consistent ids (by rw [isActivity]; rfl)
        (by rw [isActivity]; rfl) ran rfl rfl
        owners (fun _ _ => Iff.rfl) (fun _ _ => Or.inl) (by simp) ?_ ?_ rfl
        (by simp)
      · intro other
        simp [Activity.guarded, eq_comm]
      · intro other isOther
        exact (Option.some.inj isOther).symm
  | @insertOnce handle entry registry ran =>
      refine idInv_inserted entry consistent ids (by rw [isActivity]; rfl)
        (by rw [isActivity]; rfl) ran rfl rfl
        owners ?_ ?_ (by simp) ?_ ?_ rfl (by simp)
      · intro name other
        simp [Memory.newClosure, Memory.release, Memory.mark]
      · intro name other listed
        rcases List.mem_cons.mp listed with same | older
        · cases same
          exact Or.inr ⟨rfl, rfl⟩
        · exact Or.inl older
      · intro other
        simp [Activity.guarded]
      · intro other isOther
        cases isOther
  | @newGuard handle id =>
      have guarded : state.memory.status id = .guarded (.task task) :=
        (ids.task task id).mp (by rw [isActivity]; rfl)
      refine idInv_mark ids rfl (by simp [guarded]) (by simp [guarded]) ?_
        (ids.inserted id (by simp [guarded])) (recorded_refl _ _) ?_ ?_ ?_ ?_
        ?_ (by simp [Activity.removal]) owners (by simp)
      · intro other different same
        rw [guarded] at same
        cases same
        exact different rfl
      · intro name other different
        simp [Memory.newGuard, Memory.mark, Memory.release, different]
      · intro name
        have absent : (⟨name, .guard, id⟩ : Holder) ∉ state.memory.holders := by
          rw [ids.guard, guarded]
          simp
        simp [Memory.newGuard, Memory.mark, Memory.release, absent, eq_comm]
      · intro name other listed
        rcases List.mem_cons.mp listed with same | older
        · cases same
        · exact Or.inl older
      · intro other different
        rw [isActivity]
        simp [Activity.guarded, Ne.symm different]
      · simp [Activity.guarded]
  | dropGuard member isGuard =>
      refine idInv_given holds ids isActivity member isGuard rfl rfl rfl
        owners (by simp) ?_ ?_ ?_ (by simp)
      · intro other
        simp [Activity.guarded, eq_comm]
      · intro other isOther
        exact (Option.some.inj isOther).symm
      · intro remover other removes
        cases removes
        rfl
  | forget member isGuard =>
      exact idInv_given holds ids isActivity member isGuard rfl rfl rfl
        owners (by simp) (by simp [Activity.guarded])
        (by simp [Activity.guarded]) (by simp [Activity.removal]) (by simp)
  | @upgradeFails remover id failed =>
      have gone := holds.1.balanced.upgrade_eq_none_iff.mp failed
      rcases ids.removal task remover id (by rw [isActivity]; rfl) with
        rfl | ⟨rfl, _⟩
      · exact idInv_ended ids (by rw [isActivity]; rfl) rfl rfl
          (recorded_refl _ _) owners rfl rfl (Or.inr gone)
      · exact idInv_same ids isActivity (recorded_refl _ _) rfl unchanged
          owners rfl (by simp [Activity.removal])
  | @remove remover id registry ran =>
      obtain ⟨entry, history, found⟩ := perform_unregister ran
      rcases ids.removal task remover id (by rw [isActivity]; rfl) with
        rfl | ⟨rfl, isOnce⟩
      · have guarded : (state.threads task).guarded = some id := by
          rw [isActivity]
          rfl
        refine idInv_ended ids guarded rfl rfl (recorded_append history ?_)
          owners rfl rfl (Or.inl ?_)
        · rintro remover other entry' same indirect
          cases same
          exact ⟨rfl, rfl, rfl⟩
        · refine removed_of_unregister consistent ?_ ran
          have known := (ids.task task id).mp guarded
          exact ids.inserted id (by simp [known])
      · refine idInv_same ids isActivity (recorded_append history ?_) rfl
          unchanged owners rfl (by simp [Activity.removal])
        rintro remover other entry' same indirect
        cases same
        exact ⟨rfl, isOnce⟩

end Preservation

section Results

variable {state : State H}

private theorem idInv_reachable
    (reachable : (program H).Reachable (initial H) state)
    (few : drawCount state.memory.registry.history < 2 ^ 64) :
    IdInv state := by
  obtain ⟨schedule, executed⟩ := reachable
  refine exec_induction
    (P := fun _ (reached : State H) =>
      drawCount reached.memory.registry.history < 2 ^ 64 → IdInv reached)
    ?_ executed (fun _ => idInv_initial) few
  intro done middle task act next reached stepped before fewNext
  have single : (program H).exec middle [(task, act)] = some next :=
    exec_cons stepped rfl
  have fewMiddle := Nat.lt_of_le_of_lt (drawCount_exec single) fewNext
  have reachable : (program H).Reachable (initial H) middle :=
    ⟨done, reached⟩
  exact idInv_step (consistent_reachable reachable fewMiddle)
    (invariant_reachable reachable) (before fewMiddle) stepped

/-- User code took the id out of the list itself, by `unregister` or by
`clear`. -/
def removedDirectly (history : List (Registry.Event H)) (id : HandlerId) :
    Prop :=
  (∃ entry, .unregistered .direct id (some entry) ∈ history) ∨
    ∃ entries, .cleared entries ∈ history ∧
      id ∈ entries.map HandlerEntry.id

/-- While user code holds the guard, and also after it forgot it, the handler
is registered unless user code removed it itself or the registry was dropped:
no other guard and no one-shot handler removes it. -/
theorem guard_keeps_handler
    {id : HandlerId}
    (reachable : (program H).Reachable (initial H) state)
    (few : drawCount state.memory.registry.history < 2 ^ 64)
    (kept : (∃ name, ⟨name, .guard, id⟩ ∈ state.memory.holders) ∨
      state.memory.status id = .forgotten) :
    id ∈ state.memory.registered.map HandlerEntry.id ∨
      removedDirectly state.memory.registry.history id ∨
      state.memory.shared.dropped = true := by
  by_cases gone : state.memory.shared.dropped = true
  · exact Or.inr (Or.inr gone)
  have present : state.memory.registered = state.memory.registry.handlers :=
    if_neg gone
  have ids := idInv_reachable reachable few
  have consistent := consistent_reachable reachable few
  have known : state.memory.status id ≠ .unknown ∧
      state.memory.status id ≠ .ended ∧ state.memory.status id ≠ .once := by
    rcases kept with ⟨name, listed⟩ | forgotten
    · simp [(ids.guard name id).mp listed]
    · simp [forgotten]
  by_cases removed : id ∈ removedIds state.memory.registry.history
  · refine Or.inr (Or.inl ?_)
    obtain ⟨event, member, isRemoved⟩ := List.mem_flatMap.mp removed
    cases event with
    | drawn | inserted => cases isRemoved
    | cleared entries => exact Or.inr ⟨entries, member, isRemoved⟩
    | unregistered remover other entry =>
        cases entry with
        | none => cases isRemoved
        | some entry =>
            have matched :=
              (consistent.unregistered_inserted remover other entry member).1
            have same : id = other := by
              simpa [Registry.Event.removedIds, matched] using isRemoved
            subst same
            cases remover with
            | direct => exact Or.inl ⟨entry, member⟩
            | guard =>
                exact absurd (ids.guardRemoved id _ member) known.2.1
            | oneShot =>
                exact absurd (ids.onceRemoved id _ member) known.2.2
  · left
    rw [present]
    exact (mem_handlers_iff consistent id).mpr
      ⟨ids.inserted id known.1, removed⟩

/-- `register_guard` through the first strong reference. -/
def guardedHandler : List (Task × Act Unit) :=
  [(0, .register 0 .guard 5 ()), (0, .insert), (0, .downgrade)]

/-- The registry is dropped while the guard is held. -/
def registryDrop : List (Task × Act Unit) :=
  [(1, .dropArc 0), (1, .dropValue)]

theorem guard_keeps_handler_registered :
    ∃ state last : State Unit,
      (program Unit).exec (initial Unit) guardedHandler = some state ∧
        ⟨1, .guard, ⟨1⟩⟩ ∈ state.memory.holders ∧
        ⟨1⟩ ∈ state.memory.registered.map HandlerEntry.id ∧
        (program Unit).exec (initial Unit)
          (guardedHandler ++ registryDrop) = some last ∧
        ⟨1, .guard, ⟨1⟩⟩ ∈ last.memory.holders ∧
        last.memory.registered = [] ∧
        (⟨1⟩ ∈ last.memory.registered.map HandlerEntry.id ∨
          removedDirectly last.memory.registry.history ⟨1⟩ ∨
          last.memory.shared.dropped = true) := by
  have registers :
      ((program Unit).exec (initial Unit) guardedHandler).map
          (fun state => (state.memory.holders,
            state.memory.registry.history, state.memory.shared.dropped)) =
        some ([⟨1, .guard, ⟨1⟩⟩],
          [.drawn ⟨1⟩, .inserted ⟨⟨1⟩, 5, ()⟩], false) := rfl
  have drops :
      ((program Unit).exec (initial Unit)
          (guardedHandler ++ registryDrop)).map
          (fun state => (state.memory.holders,
            drawCount state.memory.registry.history,
            state.memory.registered)) =
        some ([⟨1, .guard, ⟨1⟩⟩], 1, []) := by
    decide +kernel
  obtain ⟨state, run, view⟩ := Option.map_eq_some_iff.mp registers
  obtain ⟨last, further, view'⟩ := Option.map_eq_some_iff.mp drops
  simp only [Prod.mk.injEq] at view view'
  obtain ⟨holders, history, present⟩ := view
  obtain ⟨holders', draws, empty⟩ := view'
  have listed : (⟨1, .guard, ⟨1⟩⟩ : Holder) ∈ state.memory.holders := by
    simp [holders]
  have listed' : (⟨1, .guard, ⟨1⟩⟩ : Holder) ∈ last.memory.holders := by
    simp [holders']
  refine ⟨state, last, run, listed, ?_, further, listed', empty,
    guard_keeps_handler ⟨_, further⟩ (by rw [draws]; decide)
      (Or.inl ⟨1, listed'⟩)⟩
  rcases guard_keeps_handler ⟨_, run⟩ (by rw [history]; decide)
    (Or.inl ⟨1, listed⟩) with registered | removed | dropped
  · exact registered
  · simp [removedDirectly, history] at removed
  · rw [present] at dropped
    cases dropped

/-- The guard of the id was dropped and its drop has returned. -/
def guardDropped (state : State H) (id : HandlerId) : Prop :=
  state.memory.status id ≠ .unknown ∧ state.memory.status id ≠ .plain ∧
    state.memory.status id ≠ .once ∧ state.memory.status id ≠ .forgotten ∧
    (∀ name, ⟨name, .guard, id⟩ ∉ state.memory.holders) ∧
    ∀ task, (state.threads task).guarded ≠ some id

/-- When the drop of a guard has returned and the registry is still owned, the
handler is not registered, in this state and in every later one. -/
theorem dropped_guard_unregisters
    {id : HandlerId} {schedule : List (Task × Act H)} {last : State H}
    (reachable : (program H).Reachable (initial H) state)
    (dropped : guardDropped state id)
    (alive : 0 < state.memory.shared.strong)
    (executed : (program H).exec state schedule = some last)
    (few : drawCount last.memory.registry.history < 2 ^ 64) :
    id ∉ state.memory.registry.handlers.map HandlerEntry.id ∧
      id ∉ last.memory.registry.handlers.map HandlerEntry.id := by
  have fewState := Nat.lt_of_le_of_lt (drawCount_exec executed) few
  have ids := idInv_reachable reachable fewState
  obtain ⟨known, notPlain, notOnce, notForgotten, unheld, idle⟩ := dropped
  have isEnded : state.memory.status id = .ended := by
    cases status : state.memory.status id with
    | unknown => exact absurd status known
    | plain => exact absurd status notPlain
    | once => exact absurd status notOnce
    | forgotten => exact absurd status notForgotten
    | ended => rfl
    | guarded owner =>
        cases owner with
        | token name =>
            exact absurd ((ids.guard name id).mpr status) (unheld name)
        | task task =>
            exact absurd ((ids.task task id).mpr status) (idle task)
  have removed : id ∈ removedIds state.memory.registry.history := by
    rcases ids.ended id isEnded with removed | gone
    · exact removed
    · rw [(invariant_reachable reachable).1.balanced.strong, gone] at alive
      cases alive
  obtain ⟨appended, isHistory⟩ := history_exec executed
  constructor
  · intro listed
    exact ((mem_handlers_iff (consistent_reachable reachable fewState)
      id).mp listed).2 removed
  · intro listed
    have absent := ((mem_handlers_iff
      (consistent_reachable (reachable.exec executed) few) id).mp listed).2
    apply absent
    change id ∈ removedIds last.memory.registry.history
    rw [isHistory, removedIds, List.flatMap_append, List.mem_append]
    exact Or.inl removed

/-- The drop of the guard. -/
def guardDrop : List (Task × Act Unit) :=
  [(1, .dropGuard 1), (1, .upgrade), (1, .remove), (1, .dropStrong),
    (1, .dropWeak)]

/-- Another guard is made, and the registry is cleared. -/
def goesOn : List (Task × Act Unit) :=
  [(0, .register 0 .guard 3 ()), (0, .insert), (0, .downgrade),
    (1, .enter 0), (1, .clear), (1, .leave)]

theorem dropped_guard_unregisters_one :
    ∃ state last : State Unit,
      (program Unit).exec (initial Unit) (guardedHandler ++ guardDrop) =
          some state ∧
        guardDropped state ⟨1⟩ ∧
        (program Unit).exec state goesOn = some last ∧
        ⟨1⟩ ∉ state.memory.registry.handlers.map HandlerEntry.id ∧
        ⟨1⟩ ∉ last.memory.registry.handlers.map HandlerEntry.id := by
  have evaluated :
      (((program Unit).exec (initial Unit) (guardedHandler ++ guardDrop)).map
          (fun state => ((state.memory.status ⟨1⟩, state.memory.holders,
              state.memory.shared.strong),
            state.threads 0, state.threads 1)) =
        some ((.ended, [], 1), .idle, .idle)) ∧
      ((program Unit).exec (initial Unit)
          ((guardedHandler ++ guardDrop) ++ goesOn)).map
          (fun state => drawCount state.memory.registry.history) =
        some 2 := by
    decide +kernel
  obtain ⟨state, run, view⟩ := Option.map_eq_some_iff.mp evaluated.1
  obtain ⟨last, whole, draws⟩ := Option.map_eq_some_iff.mp evaluated.2
  simp only [Prod.mk.injEq] at view
  obtain ⟨⟨ended, unheld, strong⟩, first, second⟩ := view
  have further : (program Unit).exec state goesOn = some last := by
    rw [exec_append, run] at whole
    exact whole
  have idle : ∀ task, (state.threads task).guarded ≠ some ⟨1⟩ := by
    intro task
    by_cases zero : task = 0
    · simp [zero, first, Activity.guarded]
    · by_cases one : task = 1
      · simp [one, second, Activity.guarded]
      · rw [exec_threads run (by
          simp [guardedHandler, guardDrop, Ne.symm zero, Ne.symm one])]
        simp [initial, Activity.guarded]
  have dropped : guardDropped state ⟨1⟩ := by
    refine ⟨?_, ?_, ?_, ?_, by simp [unheld], idle⟩ <;> simp [ended]
  exact ⟨state, last, run, dropped, further,
    dropped_guard_unregisters ⟨_, run⟩ dropped (by rw [strong]; decide)
      further (by rw [draws]; decide)⟩

end Results

end RegistryIo.Guard
