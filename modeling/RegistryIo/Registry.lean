import RegistryIo.Foundations.Interleaving
import RegistryIo.HandlerList

/-!
# The registry list under concurrent writers

`SnapCell::update` serializes its closures on the writer lock, so at this
level a write is one atomic replacement of the list.  Registration is still
two steps: the id is drawn from the generator first, without the lock, and
the entry is inserted later.  Threads may interleave these steps in any way
with removals by id and with `clear`.

The memory carries a history of what happened.  The history is never read by
the program; it states what the list is compared with.
-/

namespace RegistryIo.Registry

open RegistryIo.Interleaving

universe u

/-- Every removal by id ends in `remove_id`: a direct `unregister`, the drop
of a guard whose registry is alive, and the drop of `RemoveOnDrop` after a
one-shot handler. -/
inductive Remover where
  | direct
  | guard
  | oneShot
  deriving DecidableEq, Repr

/-- What one atomic step did. -/
inductive Event (H : Type u) where
  | drawn (id : HandlerId)
  | inserted (entry : HandlerEntry H)
  | unregistered (remover : Remover) (id : HandlerId)
      (entry : Option (HandlerEntry H))
  | cleared (entries : List (HandlerEntry H))

namespace Event

variable {H : Type u}

def draws : Event H → Bool
  | .drawn _ => true
  | _ => false

def insertedId : Event H → Option HandlerId
  | .inserted entry => some entry.id
  | _ => none

def removedIds : Event H → List HandlerId
  | .unregistered _ _ (some entry) => [entry.id]
  | .cleared entries => entries.map HandlerEntry.id
  | _ => []

/-- The effect of an event on the registrations that are alive, in the order
in which they were inserted. -/
def apply (live : List (HandlerEntry H)) : Event H → List (HandlerEntry H)
  | .inserted entry => live ++ [entry]
  | .unregistered _ _ (some entry) =>
      live.filter fun other => other.id ≠ entry.id
  | .cleared _ => []
  | _ => live

end Event

section History

variable {H : Type u}

/-- The number of ids drawn so far. -/
def drawCount (history : List (Event H)) : Nat :=
  history.countP Event.draws

def insertedIds (history : List (Event H)) : List HandlerId :=
  history.filterMap Event.insertedId

def removedIds (history : List (Event H)) : List HandlerId :=
  history.flatMap Event.removedIds

/-- The live registrations in insertion order. -/
def liveRegistrations (history : List (Event H)) : List (HandlerEntry H) :=
  history.foldl Event.apply []

@[simp]
theorem liveRegistrations_append
    (history : List (Event H)) (event : Event H) :
    liveRegistrations (history ++ [event]) =
      Event.apply (liveRegistrations history) event := by
  simp [liveRegistrations]

@[simp]
theorem drawCount_append
    (history : List (Event H)) (event : Event H) :
    drawCount (history ++ [event]) =
      drawCount history + if event.draws then 1 else 0 := by
  simp [drawCount, List.countP_cons]

@[simp]
theorem insertedIds_append
    (history : List (Event H)) (event : Event H) :
    insertedIds (history ++ [event]) =
      insertedIds history ++ event.insertedId.toList := by
  cases event <;> simp [insertedIds, Event.insertedId]

@[simp]
theorem removedIds_append
    (history : List (Event H)) (event : Event H) :
    removedIds (history ++ [event]) =
      removedIds history ++ event.removedIds := by
  simp [removedIds]

end History

/-- The shared part of a registry: `id_generator`, the current list of
`handlers`, and the history. -/
structure Memory (H : Type u) where
  idGenerator : HandlerIdGenerator
  handlers : List (HandlerEntry H)
  history : List (Event H)

inductive Act (H : Type u) where
  | draw (priority : Int) (handler : H)
  | insert
  | unregister (remover : Remover) (id : HandlerId)
  | clear

/-- The result of `remove_id` on the current list: the entry it takes out. -/
def removedEntry {H : Type u} (id : HandlerId)
    (handlers : List (HandlerEntry H)) : Option (HandlerEntry H) :=
  handlers.find? fun entry => entry.id = id

/-- `register_with_priority` is `draw` followed by `insert`; between the two
the thread holds the new entry. -/
def program (H : Type u) :
    Program Nat (Memory H) (Option (HandlerEntry H)) (Act H) :=
  fun _ memory pending act =>
    match act, pending with
    | .draw priority handler, none =>
        let (id, generator) := memory.idGenerator.next
        some
          ({ memory with
              idGenerator := generator
              history := memory.history ++ [.drawn id] },
            some ⟨id, priority, handler⟩)
    | .insert, some entry =>
        some
          ({ memory with
              handlers := entry.insert memory.handlers
              history := memory.history ++ [.inserted entry] },
            none)
    | .unregister remover id, none =>
        match HandlerEntry.removeId id memory.handlers with
        | none =>
            some
              ({ memory with
                  history :=
                    memory.history ++ [.unregistered remover id none] },
                none)
        | some next =>
            some
              ({ memory with
                  handlers := next
                  history := memory.history ++
                    [.unregistered remover id
                      (removedEntry id memory.handlers)] },
                none)
    | .clear, none =>
        match HandlerEntry.removeAll memory.handlers with
        | none => some (memory, none)
        | some next =>
            some
              ({ memory with
                  handlers := next
                  history :=
                    memory.history ++ [.cleared memory.handlers] },
                none)
    | _, _ => none

/-- `SyncRegistry::new` and `AsyncRegistry::new`. -/
def initial (H : Type u) :
    Config Nat (Memory H) (Option (HandlerEntry H)) :=
  ⟨⟨.new, [], []⟩, fun _ => none⟩

private theorem removedEntry_eq_some
    {H : Type u} {id : HandlerId} {entry : HandlerEntry H}
    {before after : List (HandlerEntry H)}
    (matched : entry.id = id)
    (first : id ∉ before.map HandlerEntry.id) :
    removedEntry id (before ++ entry :: after) = some entry := by
  have absent : before.find? (fun other => other.id = id) = none := by
    simpa using first
  simp [removedEntry, List.find?_append, absent, matched]

section Steps

variable {H : Type u} {thread : Nat} {memory memory' : Memory H}
variable {pending pending' : Option (HandlerEntry H)} {act : Act H}

/-- Everything one step can do. -/
theorem program_cases
    (performed :
      program H thread memory pending act = some (memory', pending')) :
    (∃ entry : HandlerEntry H,
      pending = none ∧ pending' = some entry ∧
        entry.id = ⟨memory.idGenerator.counter⟩ ∧
        memory' =
          ⟨⟨(memory.idGenerator.counter + 1) % 2 ^ 64⟩, memory.handlers,
            memory.history ++ [.drawn entry.id]⟩) ∨
    (∃ entry : HandlerEntry H,
      pending = some entry ∧ pending' = none ∧
        memory' =
          ⟨memory.idGenerator, entry.insert memory.handlers,
            memory.history ++ [.inserted entry]⟩) ∨
    (∃ remover id,
      act = .unregister remover id ∧ pending = none ∧ pending' = none ∧
        id ∉ memory.handlers.map HandlerEntry.id ∧
        memory' =
          ⟨memory.idGenerator, memory.handlers,
            memory.history ++ [.unregistered remover id none]⟩) ∨
    (∃ remover before entry after,
      act = .unregister remover entry.id ∧
        pending = none ∧ pending' = none ∧
        memory.handlers = before ++ entry :: after ∧
        memory' =
          ⟨memory.idGenerator, before ++ after,
            memory.history ++
              [.unregistered remover entry.id (some entry)]⟩) ∨
    (act = .clear ∧ pending = none ∧ pending' = none ∧
      memory.handlers = [] ∧ memory' = memory) ∨
    (act = .clear ∧ pending = none ∧ pending' = none ∧
      memory' =
        ⟨memory.idGenerator, [],
          memory.history ++ [.cleared memory.handlers]⟩) := by
  cases act with
  | draw priority handler =>
      cases pending with
      | some entry => simp [program] at performed
      | none =>
          simp only [program, HandlerIdGenerator.next,
            Option.some.injEq, Prod.mk.injEq] at performed
          obtain ⟨rfl, rfl⟩ := performed
          exact Or.inl ⟨_, rfl, rfl, rfl, rfl⟩
  | insert =>
      cases pending with
      | none => simp [program] at performed
      | some entry =>
          simp only [program, Option.some.injEq, Prod.mk.injEq] at performed
          obtain ⟨rfl, rfl⟩ := performed
          exact Or.inr (Or.inl ⟨entry, rfl, rfl, rfl⟩)
  | unregister remover id =>
      cases pending with
      | some entry => simp [program] at performed
      | none =>
          cases found : HandlerEntry.removeId id memory.handlers with
          | none =>
              simp only [program, found, Option.some.injEq,
                Prod.mk.injEq] at performed
              obtain ⟨rfl, rfl⟩ := performed
              exact Or.inr (Or.inr (Or.inl
                ⟨remover, id, rfl, rfl, rfl,
                  HandlerEntry.removeId_eq_none_iff.mp found, rfl⟩))
          | some next =>
              obtain ⟨before, entry, after, split, rfl, rfl, first⟩ :=
                HandlerEntry.removeId_eq_some found
              simp only [program, found, Option.some.injEq,
                Prod.mk.injEq] at performed
              obtain ⟨rfl, rfl⟩ := performed
              refine Or.inr (Or.inr (Or.inr (Or.inl
                ⟨remover, before, entry, after, rfl, rfl, rfl, split, ?_⟩)))
              rw [split, removedEntry_eq_some rfl first]
  | clear =>
      cases pending with
      | some entry => simp [program] at performed
      | none =>
          cases found : HandlerEntry.removeAll memory.handlers with
          | none =>
              simp only [program, found, Option.some.injEq,
                Prod.mk.injEq] at performed
              obtain ⟨rfl, rfl⟩ := performed
              have empty : memory.handlers = [] := by
                simpa [HandlerEntry.removeAll] using found
              exact Or.inr (Or.inr (Or.inr (Or.inr (Or.inl
                ⟨rfl, rfl, rfl, empty, rfl⟩))))
          | some next =>
              simp only [program, found, Option.some.injEq,
                Prod.mk.injEq] at performed
              obtain ⟨rfl, rfl⟩ := performed
              rw [(HandlerEntry.removeAll_eq_some found).2]
              exact Or.inr (Or.inr (Or.inr (Or.inr (Or.inr
                ⟨rfl, rfl, rfl, rfl⟩))))

/-- A step appends at most one event to the history. -/
theorem program_history
    (performed :
      program H thread memory pending act = some (memory', pending')) :
    ∃ appended, memory'.history = memory.history ++ appended := by
  rcases program_cases performed with
    ⟨entry, -, -, -, rfl⟩ | ⟨entry, -, -, rfl⟩ |
    ⟨remover, id, -, -, -, -, rfl⟩ |
    ⟨remover, before, entry, after, -, -, -, -, rfl⟩ |
    ⟨-, -, -, -, rfl⟩ | ⟨-, -, -, rfl⟩
  · exact ⟨_, rfl⟩
  · exact ⟨_, rfl⟩
  · exact ⟨_, rfl⟩
  · exact ⟨_, rfl⟩
  · exact ⟨[], by simp⟩
  · exact ⟨_, rfl⟩

end Steps

section Law

variable {H : Type u}

/-- Registrations, ids and the list agree with the history. -/
structure Consistent
    (config : Config Nat (Memory H) (Option (HandlerEntry H))) : Prop where
  generator :
    config.memory.idGenerator.counter =
      (1 + drawCount config.memory.history) % 2 ^ 64
  handlers_eq :
    config.memory.handlers =
      stableSort HandlerEntry.priority
        (liveRegistrations config.memory.history)
  inserted_nodup : (insertedIds config.memory.history).Nodup
  removed_nodup : (removedIds config.memory.history).Nodup
  live_nodup :
    ((liveRegistrations config.memory.history).map HandlerEntry.id).Nodup
  live_iff : ∀ id,
    id ∈ (liveRegistrations config.memory.history).map HandlerEntry.id ↔
      id ∈ insertedIds config.memory.history ∧
        id ∉ removedIds config.memory.history
  removed_inserted : ∀ id ∈ removedIds config.memory.history,
    id ∈ insertedIds config.memory.history
  inserted_drawn : ∀ id ∈ insertedIds config.memory.history,
    0 < id.raw ∧ id.raw ≤ drawCount config.memory.history
  live_inserted : ∀ entry ∈ liveRegistrations config.memory.history,
    .inserted entry ∈ config.memory.history
  unregistered_inserted : ∀ remover id entry,
    .unregistered remover id (some entry) ∈ config.memory.history →
      entry.id = id ∧ .inserted entry ∈ config.memory.history
  pending_drawn : ∀ thread entry, config.threads thread = some entry →
    0 < entry.id.raw ∧ entry.id.raw ≤ drawCount config.memory.history
  pending_fresh : ∀ thread entry, config.threads thread = some entry →
    entry.id ∉ insertedIds config.memory.history
  pending_distinct : ∀ first second entry other,
    config.threads first = some entry →
      config.threads second = some other →
      first ≠ second → entry.id ≠ other.id

private theorem consistent_initial : Consistent (initial H) where
  generator := by simp [initial, drawCount, HandlerIdGenerator.new]
  handlers_eq := by simp [initial, liveRegistrations, stableSort]
  inserted_nodup := by simp [initial, insertedIds]
  removed_nodup := by simp [initial, removedIds]
  live_nodup := by simp [initial, liveRegistrations]
  live_iff := by simp [initial, liveRegistrations, insertedIds]
  removed_inserted := by simp [initial, removedIds]
  inserted_drawn := by simp [initial, insertedIds]
  live_inserted := by simp [initial, liveRegistrations]
  unregistered_inserted := by simp [initial]
  pending_drawn := by simp [initial]
  pending_fresh := by simp [initial]
  pending_distinct := by simp [initial]

variable {config : Config Nat (Memory H) (Option (HandlerEntry H))}
variable {thread : Nat}

private theorem pending_of_update_none
    {other : Nat} {entry : HandlerEntry H}
    (found :
      Function.update config.threads thread none other = some entry) :
    config.threads other = some entry := by
  by_cases same : other = thread
  · subst same
    simp at found
  · simpa [Function.update_of_ne same] using found

private theorem consistent_draw
    (holds : Consistent config)
    (few : drawCount config.memory.history + 1 < 2 ^ 64)
    {entry : HandlerEntry H}
    (issued : entry.id = ⟨config.memory.idGenerator.counter⟩) :
    Consistent
      ⟨⟨⟨(config.memory.idGenerator.counter + 1) % 2 ^ 64⟩,
          config.memory.handlers,
          config.memory.history ++ [.drawn entry.id]⟩,
        Function.update config.threads thread (some entry)⟩ := by
  have raw : entry.id.raw = 1 + drawCount config.memory.history := by
    rw [issued, holds.generator]
    exact Nat.mod_eq_of_lt (by omega)
  have notInserted : entry.id ∉ insertedIds config.memory.history := by
    intro member
    have bound := (holds.inserted_drawn entry.id member).2
    omega
  constructor
  · simp only [holds.generator, drawCount_append, Event.draws, if_true]
    rw [Nat.mod_add_mod, Nat.add_assoc]
  · simpa [Event.apply] using holds.handlers_eq
  · simpa [Event.insertedId] using holds.inserted_nodup
  · simpa [Event.removedIds] using holds.removed_nodup
  · simpa [Event.apply] using holds.live_nodup
  · simpa [Event.apply, Event.insertedId, Event.removedIds]
      using holds.live_iff
  · simpa [Event.insertedId, Event.removedIds]
      using holds.removed_inserted
  · intro id member
    have bound :=
      holds.inserted_drawn id (by simpa [Event.insertedId] using member)
    simp only [drawCount_append, Event.draws, if_true]
    omega
  · intro live member
    have earlier :=
      holds.live_inserted live (by simpa [Event.apply] using member)
    simp [earlier]
  · intro remover id removed member
    have earlier :=
      holds.unregistered_inserted remover id removed (by simpa using member)
    simp [earlier]
  · intro other found foundAt
    simp only [drawCount_append, Event.draws, if_true]
    by_cases same : other = thread
    · subst same
      simp only [Function.update_self, Option.some.injEq] at foundAt
      subst foundAt
      omega
    · have bound :=
        holds.pending_drawn other found
          (by simpa [Function.update_of_ne same] using foundAt)
      omega
  · intro other found foundAt
    simp only [insertedIds_append, Event.insertedId, Option.toList_none,
      List.append_nil]
    by_cases same : other = thread
    · subst same
      simp only [Function.update_self, Option.some.injEq] at foundAt
      subst foundAt
      exact notInserted
    · exact holds.pending_fresh other found
        (by simpa [Function.update_of_ne same] using foundAt)
  · intro first second left right leftAt rightAt different
    have older :
        ∀ other found, other ≠ thread →
          Function.update config.threads thread (some entry) other =
              some found →
            found.id.raw ≤ drawCount config.memory.history := by
      intro other found apart foundAt
      exact (holds.pending_drawn other found
        (by simpa [Function.update_of_ne apart] using foundAt)).2
    by_cases firstSame : first = thread
    · subst firstSame
      simp only [Function.update_self, Option.some.injEq] at leftAt
      subst leftAt
      have bound := older second right (Ne.symm different) rightAt
      intro equal
      rw [equal] at raw
      omega
    · by_cases secondSame : second = thread
      · subst secondSame
        simp only [Function.update_self, Option.some.injEq] at rightAt
        subst rightAt
        have bound := older first left firstSame leftAt
        intro equal
        rw [← equal] at raw
        omega
      · exact holds.pending_distinct first second left right
          (by simpa [Function.update_of_ne firstSame] using leftAt)
          (by simpa [Function.update_of_ne secondSame] using rightAt)
          different

private theorem consistent_insert
    (holds : Consistent config)
    {entry : HandlerEntry H}
    (pending : config.threads thread = some entry) :
    Consistent
      ⟨⟨config.memory.idGenerator,
          entry.insert config.memory.handlers,
          config.memory.history ++ [.inserted entry]⟩,
        Function.update config.threads thread none⟩ := by
  have fresh := holds.pending_fresh thread entry pending
  have notLive :
      entry.id ∉ (liveRegistrations config.memory.history).map
        HandlerEntry.id := by
    intro member
    exact fresh ((holds.live_iff entry.id).mp member).1
  have notRemoved : entry.id ∉ removedIds config.memory.history := by
    intro member
    exact fresh (holds.removed_inserted entry.id member)
  constructor
  · simpa [Event.draws] using holds.generator
  · simp only [HandlerEntry.insert, holds.handlers_eq,
      liveRegistrations_append, Event.apply]
    exact insertStable_stableSort entry _
  · simp only [insertedIds_append, Event.insertedId, Option.toList_some]
    exact List.nodup_append_comm.mp
      (List.nodup_cons.mpr ⟨fresh, holds.inserted_nodup⟩)
  · simpa [Event.removedIds] using holds.removed_nodup
  · simp only [liveRegistrations_append, Event.apply, List.map_append,
      List.map_cons, List.map_nil]
    exact List.nodup_append_comm.mp
      (List.nodup_cons.mpr ⟨notLive, holds.live_nodup⟩)
  · intro id
    have earlier := holds.live_iff id
    simp only [liveRegistrations_append, Event.apply, List.map_append,
      List.map_cons, List.map_nil, List.mem_append, List.mem_singleton,
      insertedIds_append, Event.insertedId, Option.toList_some,
      removedIds_append, Event.removedIds, List.append_nil]
    constructor
    · rintro (member | rfl)
      · exact ⟨Or.inl (earlier.mp member).1, (earlier.mp member).2⟩
      · exact ⟨Or.inr rfl, notRemoved⟩
    · rintro ⟨member | rfl, alive⟩
      · exact Or.inl (earlier.mpr ⟨member, alive⟩)
      · exact Or.inr rfl
  · intro id member
    have earlier :=
      holds.removed_inserted id (by simpa [Event.removedIds] using member)
    simp [earlier]
  · intro id member
    simp only [insertedIds_append, Event.insertedId, Option.toList_some,
      List.mem_append, List.mem_singleton] at member
    simp only [drawCount_append, Event.draws]
    rcases member with earlier | rfl
    · exact holds.inserted_drawn id earlier
    · exact holds.pending_drawn thread entry pending
  · intro live member
    simp only [liveRegistrations_append, Event.apply, List.mem_append,
      List.mem_singleton] at member
    rcases member with earlier | rfl
    · simp [holds.live_inserted live earlier]
    · simp
  · intro remover id removed member
    have earlier :=
      holds.unregistered_inserted remover id removed (by simpa using member)
    simp [earlier]
  · intro other found foundAt
    simpa [Event.draws] using
      holds.pending_drawn other found (pending_of_update_none foundAt)
  · intro other found foundAt
    have older := pending_of_update_none foundAt
    have apart : other ≠ thread := by
      rintro rfl
      simp at foundAt
    simp only [insertedIds_append, Event.insertedId, Option.toList_some,
      List.mem_append, List.mem_singleton, not_or]
    exact ⟨holds.pending_fresh other found older,
      holds.pending_distinct other thread found entry older pending apart⟩
  · intro first second left right leftAt rightAt different
    exact holds.pending_distinct first second left right
      (pending_of_update_none leftAt) (pending_of_update_none rightAt)
      different

/-- Both kinds of removal take a set of live ids out of the list. -/
private theorem consistent_remove
    (holds : Consistent config)
    {event : Event H} {handlers : List (HandlerEntry H)}
    (keep : HandlerEntry H → Bool)
    (notDraw : event.draws = false)
    (notInsert : event.insertedId = none)
    (applied :
      event.apply (liveRegistrations config.memory.history) =
        (liveRegistrations config.memory.history).filter keep)
    (handlersEq : handlers = config.memory.handlers.filter keep)
    (eventNodup : event.removedIds.Nodup)
    (removedEq : ∀ id, id ∈ event.removedIds ↔
      ∃ entry ∈ config.memory.handlers, entry.id = id ∧ keep entry = false)
    (unregistered : ∀ remover id entry,
      event = .unregistered remover id (some entry) →
        entry.id = id ∧ entry ∈ config.memory.handlers) :
    Consistent
      ⟨⟨config.memory.idGenerator, handlers,
          config.memory.history ++ [event]⟩,
        Function.update config.threads thread none⟩ := by
  have sameMembers : ∀ entry,
      entry ∈ config.memory.handlers ↔
        entry ∈ liveRegistrations config.memory.history := by
    intro entry
    rw [holds.handlers_eq]
    exact (stableSort_perm _).mem_iff
  have liveOf : ∀ id, id ∈ event.removedIds →
      id ∈ insertedIds config.memory.history ∧
        id ∉ removedIds config.memory.history := by
    intro id member
    obtain ⟨entry, inList, same, -⟩ := (removedEq id).mp member
    exact (holds.live_iff id).mp
      (List.mem_map.mpr ⟨entry, (sameMembers entry).mp inList, same⟩)
  constructor
  · simpa [notDraw] using holds.generator
  · simp only [liveRegistrations_append]
    rw [applied, stableSort_filter, handlersEq, holds.handlers_eq]
  · simpa [notInsert] using holds.inserted_nodup
  · simp only [removedIds_append]
    refine List.nodup_append.mpr
      ⟨holds.removed_nodup, eventNodup, ?_⟩
    rintro id earlier _ now rfl
    exact (liveOf id now).2 earlier
  · simp only [liveRegistrations_append]
    rw [applied]
    exact holds.live_nodup.sublist
      (List.Sublist.map HandlerEntry.id List.filter_sublist)
  · intro id
    simp only [liveRegistrations_append, insertedIds_append, notInsert,
      Option.toList_none, List.append_nil, removedIds_append,
      List.mem_append, not_or]
    rw [applied]
    constructor
    · intro member
      obtain ⟨entry, kept, rfl⟩ := List.mem_map.mp member
      obtain ⟨alive, keeps⟩ := List.mem_filter.mp kept
      obtain ⟨inserted, notRemoved⟩ :=
        (holds.live_iff entry.id).mp
          (List.mem_map.mpr ⟨entry, alive, rfl⟩)
      refine ⟨inserted, notRemoved, ?_⟩
      intro now
      obtain ⟨other, inList, same, dropped⟩ :=
        (removedEq entry.id).mp now
      have equal : other = entry :=
        List.inj_on_of_nodup_map holds.live_nodup
          ((sameMembers other).mp inList) alive same
      rw [equal, keeps] at dropped
      cases dropped
    · rintro ⟨inserted, notRemoved, notNow⟩
      obtain ⟨entry, alive, rfl⟩ :=
        List.mem_map.mp ((holds.live_iff id).mpr ⟨inserted, notRemoved⟩)
      refine List.mem_map.mpr ⟨entry, List.mem_filter.mpr ⟨alive, ?_⟩, rfl⟩
      by_contra dropped
      exact notNow ((removedEq entry.id).mpr
        ⟨entry, (sameMembers entry).mpr alive, rfl, by simpa using dropped⟩)
  · intro id member
    simp only [removedIds_append, List.mem_append] at member
    simp only [insertedIds_append, notInsert, Option.toList_none,
      List.append_nil]
    rcases member with earlier | now
    · exact holds.removed_inserted id earlier
    · exact (liveOf id now).1
  · simpa [notInsert, notDraw] using holds.inserted_drawn
  · intro entry member
    simp only [liveRegistrations_append] at member
    rw [applied] at member
    have earlier :=
      holds.live_inserted entry (List.mem_of_mem_filter member)
    simp [earlier]
  · intro remover id entry member
    rcases List.mem_append.mp member with earlier | now
    · obtain ⟨same, inserted⟩ :=
        holds.unregistered_inserted remover id entry earlier
      exact ⟨same, List.mem_append_left _ inserted⟩
    · obtain ⟨same, inList⟩ :=
        unregistered remover id entry (List.mem_singleton.mp now).symm
      exact ⟨same, List.mem_append_left _
        (holds.live_inserted entry ((sameMembers entry).mp inList))⟩
  · intro other found foundAt
    simpa [notDraw] using
      holds.pending_drawn other found (pending_of_update_none foundAt)
  · intro other found foundAt
    simpa [notInsert] using
      holds.pending_fresh other found (pending_of_update_none foundAt)
  · intro first second left right leftAt rightAt different
    exact holds.pending_distinct first second left right
      (pending_of_update_none leftAt) (pending_of_update_none rightAt)
      different

private theorem consistent_unregister_absent
    (holds : Consistent config) (remover : Remover) (id : HandlerId) :
    Consistent
      ⟨⟨config.memory.idGenerator, config.memory.handlers,
          config.memory.history ++ [.unregistered remover id none]⟩,
        Function.update config.threads thread none⟩ := by
  refine consistent_remove holds (fun _ => true) rfl rfl ?_ ?_ ?_ ?_ ?_
  · simp [Event.apply]
  · simp
  · simp [Event.removedIds]
  · simp [Event.removedIds]
  · intro remover id entry equal
    cases equal

private theorem consistent_unregister
    (holds : Consistent config) (remover : Remover)
    {before after : List (HandlerEntry H)} {entry : HandlerEntry H}
    (split : config.memory.handlers = before ++ entry :: after) :
    Consistent
      ⟨⟨config.memory.idGenerator, before ++ after,
          config.memory.history ++
            [.unregistered remover entry.id (some entry)]⟩,
        Function.update config.threads thread none⟩ := by
  have nodup : (config.memory.handlers.map HandlerEntry.id).Nodup := by
    rw [holds.handlers_eq]
    exact ((stableSort_perm _).map HandlerEntry.id).nodup_iff.mpr
      holds.live_nodup
  have others : ∀ other ∈ before ++ after, other.id ≠ entry.id := by
    intro other member same
    rw [split] at nodup
    have middle :
        ((entry :: (before ++ after)).map HandlerEntry.id).Nodup :=
      ((List.perm_middle.map HandlerEntry.id).nodup_iff).mp nodup
    rw [List.map_cons] at middle
    exact (List.nodup_cons.mp middle).1
      (List.mem_map.mpr ⟨other, member, same⟩)
  refine consistent_remove holds
    (fun other => decide (other.id ≠ entry.id)) rfl rfl rfl ?_ ?_ ?_ ?_
  · rw [split, List.filter_append, List.filter_cons]
    simp only [ne_eq, not_true_eq_false, decide_false,
      Bool.false_eq_true, if_false]
    rw [← List.filter_append, List.filter_eq_self.mpr]
    intro other member
    simpa using others other member
  · simp [Event.removedIds]
  · intro id
    simp only [Event.removedIds, List.mem_singleton, decide_eq_false_iff_not,
      not_not]
    constructor
    · rintro rfl
      exact ⟨entry, by simp [split], rfl, rfl⟩
    · rintro ⟨other, -, rfl, same⟩
      exact same
  · intro remover id removed equal
    cases equal
    exact ⟨rfl, by simp [split]⟩

private theorem consistent_clear
    (holds : Consistent config) :
    Consistent
      ⟨⟨config.memory.idGenerator, [],
          config.memory.history ++ [.cleared config.memory.handlers]⟩,
        Function.update config.threads thread none⟩ := by
  refine consistent_remove holds (fun _ => false) rfl rfl ?_ ?_ ?_ ?_ ?_
  · simp [Event.apply]
  · simp
  · simp only [Event.removedIds]
    rw [holds.handlers_eq]
    exact ((stableSort_perm _).map HandlerEntry.id).nodup_iff.mpr
      holds.live_nodup
  · intro id
    simp [Event.removedIds]
  · intro remover id entry equal
    cases equal

private theorem drawCount_le_of_step
    {act : Act H}
    {next : Config Nat (Memory H) (Option (HandlerEntry H))}
    (stepped : (program H).step config thread act = some next) :
    drawCount config.memory.history ≤ drawCount next.memory.history := by
  obtain ⟨memory, pending, performed, rfl⟩ := step_eq_some stepped
  obtain ⟨appended, grown⟩ := program_history performed
  simp only [grown, drawCount, List.countP_append]
  exact Nat.le_add_right _ _

/-- One step keeps the list, the ids and the history consistent, as long as
the generator has not wrapped. -/
private theorem consistent_step
    {act : Act H}
    {next : Config Nat (Memory H) (Option (HandlerEntry H))}
    (stepped : (program H).step config thread act = some next)
    (few : drawCount next.memory.history < 2 ^ 64)
    (holds : Consistent config) :
    Consistent next := by
  obtain ⟨memory, pending, performed, rfl⟩ := step_eq_some stepped
  rcases program_cases performed with
    ⟨entry, idle, rfl, issued, rfl⟩ | ⟨entry, held, rfl, rfl⟩ |
    ⟨remover, id, -, idle, rfl, absent, rfl⟩ |
    ⟨remover, before, entry, after, -, idle, rfl, split, rfl⟩ |
    ⟨-, idle, rfl, empty, rfl⟩ | ⟨-, idle, rfl, rfl⟩
  · refine consistent_draw holds ?_ issued
    simpa [Event.draws] using few
  · exact consistent_insert holds held
  · exact consistent_unregister_absent holds remover id
  · exact consistent_unregister holds remover split
  · have unchanged :
        Function.update config.threads thread none = config.threads := by
      rw [← idle]
      exact Function.update_eq_self thread config.threads
    rw [unchanged]
    exact holds
  · exact consistent_clear holds

theorem reachable_consistent
    (reachable : (program H).Reachable (initial H) config)
    (few : drawCount config.memory.history < 2 ^ 64) :
    Consistent config := by
  have implication :
      drawCount config.memory.history < 2 ^ 64 → Consistent config := by
    refine reachable_invariant
      (P := fun config =>
        drawCount config.memory.history < 2 ^ 64 → Consistent config)
      (fun _ => consistent_initial) ?_ reachable
    intro before thread act after stepped earlier fewAfter
    exact consistent_step stepped fewAfter
      (earlier (lt_of_le_of_lt (drawCount_le_of_step stepped) fewAfter))
  exact implication few

/-- The history of a run only grows. -/
theorem history_of_exec
    {later : Config Nat (Memory H) (Option (HandlerEntry H))}
    {schedule : List (Nat × Act H)}
    (executed : (program H).exec config schedule = some later) :
    ∃ appended,
      later.memory.history = config.memory.history ++ appended := by
  refine exec_invariant
    (P := fun reached =>
      ∃ appended,
        reached.memory.history = config.memory.history ++ appended)
    ?_ executed ⟨[], by simp⟩
  rintro reached thread act next stepped ⟨appended, grown⟩
  obtain ⟨memory, pending, performed, rfl⟩ := step_eq_some stepped
  obtain ⟨more, grownMore⟩ := program_history performed
  exact ⟨appended ++ more, by simp [grownMore, grown]⟩

/-- What the acts of a run ask for: the number of draws, the registration that
every thread holds between its draw and its insertion, and the live
registrations in order of insertion. -/
structure Specified (H : Type u) where
  drawn : Nat
  pending : Nat → Option (HandlerEntry H)
  live : List (HandlerEntry H)

namespace Specified

def initial : Specified H :=
  ⟨0, fun _ => none, []⟩

def apply (spec : Specified H) (thread : Nat) : Act H → Specified H
  | .draw priority handler =>
      { spec with
        drawn := spec.drawn + 1
        pending := Function.update spec.pending thread
          (some ⟨⟨spec.drawn + 1⟩, priority, handler⟩) }
  | .insert =>
      { spec with
        pending := Function.update spec.pending thread none
        live := spec.live ++ (spec.pending thread).toList }
  | .unregister _ id =>
      { spec with live := spec.live.filter fun entry => entry.id ≠ id }
  | .clear => { spec with live := [] }

end Specified

/-- Read off a schedule, whatever the program makes of it. -/
def specified (schedule : List (Nat × Act H)) : Specified H :=
  schedule.foldl (fun spec entry => spec.apply entry.1 entry.2) .initial

private theorem specified_append (schedule : List (Nat × Act H)) (act : Act H) :
    specified (schedule ++ [(thread, act)]) =
      (specified schedule).apply thread act := by
  simp [specified]

def Act.inserts : Act H → Bool
  | .insert => true
  | _ => false

/-- The list law of a registry after a run: what holds of the current list, of
the next step by any thread, and of every later state. -/
structure ListLaw (schedule : List (Nat × Act H))
    (config : Config Nat (Memory H) (Option (HandlerEntry H))) : Prop where
  /-- The list is the live registrations, stably sorted by descending
  priority; ties are in order of insertion. -/
  sorted :
    config.memory.handlers =
      stableSort HandlerEntry.priority (specified schedule).live
  /-- The history tells the same. -/
  recorded :
    liveRegistrations config.memory.history = (specified schedule).live
  distinct : (config.memory.handlers.map HandlerEntry.id).Nodup
  /-- A thread inserts after it has drawn; it can do anything else at other
  times. -/
  enabled : ∀ thread act,
    ((program H).step config thread act).isSome =
      (act.inserts == ((specified schedule).pending thread).isSome)
  /-- A draw gives a new id and leaves the list alone. -/
  draw : ∀ thread priority handler next,
    (program H).step config thread (.draw priority handler) = some next →
      (specified schedule).drawn + 1 < 2 ^ 64 →
        next.threads thread =
            some ⟨⟨(specified schedule).drawn + 1⟩, priority, handler⟩ ∧
          next.memory.handlers = config.memory.handlers
  /-- An insertion adds the entry that was drawn, behind the entries of equal
  or higher priority. -/
  insert : ∀ thread next,
    (program H).step config thread .insert = some next →
      ∃ before entry after,
        (specified schedule).pending thread = some entry ∧
          config.memory.handlers = before ++ after ∧
          next.memory.handlers = before ++ entry :: after ∧
          (∀ other ∈ before, entry.priority ≤ other.priority) ∧
          (∀ other ∈ after, other.priority < entry.priority) ∧
          next.memory.history =
            config.memory.history ++ [.inserted entry]
  /-- A removal by id returns `true` exactly when the id is in the list; it
  then takes out that one entry and keeps the order of the others. -/
  unregister : ∀ thread remover id next,
    (program H).step config thread (.unregister remover id) = some next →
      (∃ before entry after,
        entry.id = id ∧
          config.memory.handlers = before ++ entry :: after ∧
          next.memory.handlers = before ++ after ∧
          next.memory.history = config.memory.history ++
            [.unregistered remover id (some entry)]) ∨
      (id ∉ config.memory.handlers.map HandlerEntry.id ∧
        next.memory.handlers = config.memory.handlers ∧
        next.memory.history = config.memory.history ++
          [.unregistered remover id none])
  /-- After `clear` the list is empty. -/
  clear : ∀ thread next,
    (program H).step config thread .clear = some next →
      next.memory.handlers = [] ∧
        next.memory.history = config.memory.history ++
          if config.memory.handlers = [] then []
          else [.cleared config.memory.handlers]
  /-- Every registration has its own id. -/
  inserted_once : (insertedIds config.memory.history).Nodup
  /-- No registration is removed twice. -/
  removed_once : (removedIds config.memory.history).Nodup
  /-- What a removal by id took out was registered under that id. -/
  removed_own : ∀ remover id entry,
    .unregistered remover id (some entry) ∈ config.memory.history →
      entry.id = id ∧ .inserted entry ∈ config.memory.history
  /-- A removed id is in no later list, so a stale guard removes nothing. -/
  removed_forever : ∀ id ∈ removedIds config.memory.history,
    ∀ more later,
      (program H).exec config more = some later →
        (specified (schedule ++ more)).drawn < 2 ^ 64 →
          id ∉ later.memory.handlers.map HandlerEntry.id
  /-- A registration that was live once and is not any more is in no later
  list. -/
  gone_forever : ∀ before after, schedule = before ++ after →
    ∀ entry ∈ (specified before).live,
      entry.id ∉ (specified schedule).live.map HandlerEntry.id →
        ∀ more later, (program H).exec config more = some later →
          (specified (schedule ++ more)).drawn < 2 ^ 64 →
            entry.id ∉ later.memory.handlers.map HandlerEntry.id

private theorem draw_step
    {priority : Int} {handler : H}
    {next : Config Nat (Memory H) (Option (HandlerEntry H))}
    (stepped : (program H).step config thread (.draw priority handler) =
      some next) :
    next = ⟨⟨config.memory.idGenerator.next.2, config.memory.handlers,
        config.memory.history ++
          [.drawn config.memory.idGenerator.next.1]⟩,
      Function.update config.threads thread
        (some ⟨config.memory.idGenerator.next.1, priority, handler⟩)⟩ := by
  obtain ⟨memory, pending, performed, rfl⟩ := step_eq_some stepped
  cases held : config.threads thread with
  | some entry => simp [program, held] at performed
  | none =>
      simp only [program, held, Option.some.injEq,
        Prod.mk.injEq] at performed
      obtain ⟨rfl, rfl⟩ := performed
      rfl

private theorem insert_step
    {next : Config Nat (Memory H) (Option (HandlerEntry H))}
    (stepped : (program H).step config thread .insert = some next) :
    ∃ entry, config.threads thread = some entry ∧
      next = ⟨⟨config.memory.idGenerator,
          entry.insert config.memory.handlers,
          config.memory.history ++ [.inserted entry]⟩,
        Function.update config.threads thread none⟩ := by
  obtain ⟨memory, pending, performed, rfl⟩ := step_eq_some stepped
  cases held : config.threads thread with
  | none => simp [program, held] at performed
  | some entry =>
      simp only [program, held, Option.some.injEq,
        Prod.mk.injEq] at performed
      obtain ⟨rfl, rfl⟩ := performed
      exact ⟨entry, rfl, rfl⟩

/-- `clear` replaces the list unless it is empty already. -/
private theorem clear_step
    {next : Config Nat (Memory H) (Option (HandlerEntry H))}
    (stepped : (program H).step config thread .clear = some next) :
    next.threads = config.threads ∧ next.memory.handlers = [] ∧
      next.memory.history = config.memory.history ++
        if config.memory.handlers = [] then []
        else [.cleared config.memory.handlers] := by
  obtain ⟨memory, pending, performed, rfl⟩ := step_eq_some stepped
  have unchanged : config.threads thread = none →
      Function.update config.threads thread none = config.threads := by
    intro idle
    rw [← idle]
    exact Function.update_eq_self thread config.threads
  cases held : config.threads thread with
  | some entry => simp [program, held] at performed
  | none =>
      cases found : HandlerEntry.removeAll config.memory.handlers with
      | none =>
          simp only [program, held, found, Option.some.injEq,
            Prod.mk.injEq] at performed
          obtain ⟨rfl, rfl⟩ := performed
          have empty : config.memory.handlers = [] := by
            simpa [HandlerEntry.removeAll] using found
          exact ⟨unchanged held, empty, by simp [empty]⟩
      | some list =>
          obtain ⟨nonempty, rfl⟩ := HandlerEntry.removeAll_eq_some found
          simp only [program, held, found, Option.some.injEq,
            Prod.mk.injEq] at performed
          obtain ⟨rfl, rfl⟩ := performed
          exact ⟨unchanged held, rfl, by simp [nonempty]⟩

private theorem unregister_step_cases
    {remover : Remover} {id : HandlerId}
    {next : Config Nat (Memory H) (Option (HandlerEntry H))}
    (stepped :
      (program H).step config thread (.unregister remover id) = some next) :
    (∃ before entry after,
      entry.id = id ∧
        config.memory.handlers = before ++ entry :: after ∧
        next.memory.handlers = before ++ after ∧
        next.memory.history = config.memory.history ++
          [.unregistered remover id (some entry)]) ∨
    (id ∉ config.memory.handlers.map HandlerEntry.id ∧
      next.memory.handlers = config.memory.handlers ∧
      next.memory.history = config.memory.history ++
        [.unregistered remover id none]) := by
  obtain ⟨memory, pending, performed, rfl⟩ := step_eq_some stepped
  cases held : config.threads thread with
  | some entry => simp [program, held] at performed
  | none =>
      rw [held] at performed
      cases found : HandlerEntry.removeId id config.memory.handlers with
      | none =>
          simp only [program, found, Option.some.injEq,
            Prod.mk.injEq] at performed
          obtain ⟨rfl, rfl⟩ := performed
          exact Or.inr
            ⟨HandlerEntry.removeId_eq_none_iff.mp found, rfl, rfl⟩
      | some list =>
          obtain ⟨before, entry, after, split, rfl, rfl, first⟩ :=
            HandlerEntry.removeId_eq_some found
          simp only [program, found, Option.some.injEq,
            Prod.mk.injEq] at performed
          obtain ⟨rfl, rfl⟩ := performed
          refine Or.inl ⟨before, entry, after, rfl, split, rfl, ?_⟩
          rw [split, removedEntry_eq_some rfl first]

private theorem unregister_threads
    {remover : Remover} {id : HandlerId}
    {next : Config Nat (Memory H) (Option (HandlerEntry H))}
    (stepped :
      (program H).step config thread (.unregister remover id) = some next) :
    next.threads = config.threads := by
  obtain ⟨memory, pending, performed, rfl⟩ := step_eq_some stepped
  cases held : config.threads thread with
  | some entry => simp [program, held] at performed
  | none =>
      have isNone : pending = none := by
        rw [held] at performed
        cases found : HandlerEntry.removeId id config.memory.handlers with
        | none =>
            simp only [program, found, Option.some.injEq,
              Prod.mk.injEq] at performed
            exact performed.2.symm
        | some list =>
            simp only [program, found, Option.some.injEq,
              Prod.mk.injEq] at performed
            exact performed.2.symm
      rw [isNone, ← held]
      exact Function.update_eq_self thread config.threads

private theorem step_isSome (thread : Nat) (act : Act H) :
    ((program H).step config thread act).isSome =
      (act.inserts == (config.threads thread).isSome) := by
  unfold Program.step
  rw [Option.isSome_map]
  cases act with
  | draw priority handler =>
      cases config.threads thread <;> rfl
  | insert => cases config.threads thread <;> rfl
  | unregister remover id =>
      cases config.threads thread with
      | some entry => rfl
      | none =>
          simp only [program]
          cases HandlerEntry.removeId id config.memory.handlers <;> rfl
  | clear =>
      cases config.threads thread with
      | some entry => rfl
      | none =>
          simp only [program]
          cases HandlerEntry.removeAll config.memory.handlers <;> rfl

private theorem removed_not_listed
    (holds : Consistent config) {id : HandlerId}
    (removed : id ∈ removedIds config.memory.history) :
    id ∉ config.memory.handlers.map HandlerEntry.id := by
  rw [holds.handlers_eq,
    ((stableSort_perm _).map HandlerEntry.id).mem_iff]
  intro member
  exact ((holds.live_iff id).mp member).2 removed

/-- The state of a registry is what its acts ask for. -/
structure Specifies (spec : Specified H)
    (config : Config Nat (Memory H) (Option (HandlerEntry H))) : Prop where
  drawn : spec.drawn = drawCount config.memory.history
  pending : spec.pending = config.threads
  live : spec.live = liveRegistrations config.memory.history

private theorem handlers_perm (holds : Consistent config) :
    (config.memory.handlers).Perm
      (liveRegistrations config.memory.history) := by
  rw [holds.handlers_eq]
  exact stableSort_perm _

private theorem specifies_id
    {spec : Specified H} (specifies : Specifies spec config)
    (holds : Consistent config) (few : spec.drawn + 1 < 2 ^ 64) :
    config.memory.idGenerator.next.1 = ⟨spec.drawn + 1⟩ := by
  rw [HandlerIdGenerator.next, holds.generator, ← specifies.drawn,
    Nat.mod_eq_of_lt (by omega), Nat.add_comm]

private theorem specifies_step
    {act : Act H} {spec : Specified H}
    {next : Config Nat (Memory H) (Option (HandlerEntry H))}
    (stepped : (program H).step config thread act = some next)
    (few : drawCount next.memory.history < 2 ^ 64)
    (holds : Consistent config) (specifies : Specifies spec config) :
    Specifies (spec.apply thread act) next := by
  have ⟨drawn, pending, live⟩ := specifies
  cases act with
  | draw priority handler =>
      obtain rfl := draw_step stepped
      simp only [drawCount_append, Event.draws, if_true, ← drawn] at few
      have raw := specifies_id specifies holds few
      refine ⟨?_, ?_, ?_⟩
      · simp [Specified.apply, drawn, Event.draws]
      · simp [Specified.apply, pending, raw]
      · simp [Specified.apply, live, Event.apply]
  | insert =>
      obtain ⟨entry, held, rfl⟩ := insert_step stepped
      refine ⟨?_, ?_, ?_⟩
      · simp [Specified.apply, drawn, Event.draws]
      · simp [Specified.apply, pending]
      · simp [Specified.apply, live, pending, held, Event.apply]
  | unregister remover id =>
      have threads := unregister_threads stepped
      have members := handlers_perm holds
      rcases unregister_step_cases stepped with
        ⟨before, entry, after, rfl, split, _, grown⟩ | ⟨absent, _, grown⟩
      · refine ⟨?_, ?_, ?_⟩
        · simp [Specified.apply, drawn, grown, Event.draws]
        · simp [Specified.apply, pending, threads]
        · simp [Specified.apply, live, grown, Event.apply]
      · refine ⟨?_, ?_, ?_⟩
        · simp [Specified.apply, drawn, grown, Event.draws]
        · simp [Specified.apply, pending, threads]
        · rw [(members.map HandlerEntry.id).mem_iff] at absent
          simp only [Specified.apply, live, grown, liveRegistrations_append,
            Event.apply]
          apply List.filter_eq_self.mpr
          intro other member
          apply decide_eq_true
          rintro rfl
          exact absent (List.mem_map_of_mem member)
  | clear =>
      obtain ⟨threads, _, grown⟩ := clear_step stepped
      by_cases empty : config.memory.handlers = []
      · rw [if_pos empty, List.append_nil] at grown
        have members := handlers_perm holds
        rw [empty] at members
        refine ⟨?_, ?_, ?_⟩
        · simp [Specified.apply, drawn, grown]
        · simp [Specified.apply, pending, threads]
        · rw [grown]
          exact members.symm.eq_nil.symm
      · rw [if_neg empty] at grown
        refine ⟨?_, ?_, ?_⟩
        · simp [Specified.apply, drawn, grown, Event.draws]
        · simp [Specified.apply, pending, threads]
        · simp [Specified.apply, grown, Event.apply]

theorem drawn_eq
    {schedule : List (Nat × Act H)}
    (run : (program H).exec (initial H) schedule = some config) :
    (specified schedule).drawn = drawCount config.memory.history := by
  refine exec_induction
    (P := fun done config =>
      (specified done).drawn = drawCount config.memory.history) ?_ run rfl
  intro done middle thread act next _ stepped same
  rw [specified_append]
  cases act with
  | draw priority handler =>
      obtain rfl := draw_step stepped
      simp [Specified.apply, same, Event.draws]
  | insert =>
      obtain ⟨entry, _, rfl⟩ := insert_step stepped
      simp [Specified.apply, same, Event.draws]
  | unregister remover id =>
      rcases unregister_step_cases stepped with
        ⟨_, _, _, _, _, _, grown⟩ | ⟨_, _, grown⟩
      · simp [Specified.apply, same, grown, Event.draws]
      · simp [Specified.apply, same, grown, Event.draws]
  | clear =>
      obtain ⟨_, _, grown⟩ := clear_step stepped
      rw [grown]
      split
      · simp [Specified.apply, same]
      · simp [Specified.apply, same, Event.draws]

/-- A run does what its acts ask for. -/
theorem exec_specifies
    {schedule : List (Nat × Act H)}
    (run : (program H).exec (initial H) schedule = some config)
    (few : (specified schedule).drawn < 2 ^ 64) :
    Specifies (specified schedule) config := by
  rw [drawn_eq run] at few
  have implication : drawCount config.memory.history < 2 ^ 64 →
      Specifies (specified schedule) config := by
    refine exec_induction
      (P := fun done config => drawCount config.memory.history < 2 ^ 64 →
        Specifies (specified done) config) ?_ run ?_
    · intro done middle thread act next reached stepped earlier fewNext
      have fewer :=
        lt_of_le_of_lt (drawCount_le_of_step stepped) fewNext
      rw [specified_append]
      exact specifies_step stepped fewNext
        (reachable_consistent ⟨done, reached⟩ fewer) (earlier fewer)
    · exact fun _ => ⟨rfl, rfl, rfl⟩
  exact implication few

/-- A removed id is in no later list. -/
private theorem exec_removed
    {schedule more : List (Nat × Act H)}
    {later : Config Nat (Memory H) (Option (HandlerEntry H))}
    (run : (program H).exec (initial H) schedule = some config)
    (executed : (program H).exec config more = some later)
    (few : (specified (schedule ++ more)).drawn < 2 ^ 64)
    {id : HandlerId} (removed : id ∈ removedIds config.memory.history) :
    id ∉ later.memory.handlers.map HandlerEntry.id := by
  have whole : (program H).exec (initial H) (schedule ++ more) =
      some later := by
    rw [exec_append, run]
    exact executed
  obtain ⟨appended, grown⟩ := history_of_exec executed
  rw [drawn_eq whole] at few
  refine removed_not_listed (reachable_consistent ⟨_, whole⟩ few) ?_
  rw [grown, removedIds, List.flatMap_append]
  exact List.mem_append_left _ removed

/-- What was live once and is not any more has been removed. -/
private theorem exec_gone
    {before after : List (Nat × Act H)}
    (run : (program H).exec (initial H) (before ++ after) = some config)
    (few : (specified (before ++ after)).drawn < 2 ^ 64)
    {entry : HandlerEntry H}
    (wasLive : entry ∈ (specified before).live)
    (isGone :
      entry.id ∉ (specified (before ++ after)).live.map HandlerEntry.id) :
    entry.id ∈ removedIds config.memory.history := by
  have specifies := exec_specifies run few
  have fewDrawn := few
  rw [specifies.drawn] at fewDrawn
  have holds := reachable_consistent ⟨_, run⟩ fewDrawn
  obtain ⟨middle, reached, rest⟩ := Option.bind_eq_some_iff.mp
    ((exec_append before after).symm.trans run)
  obtain ⟨appended, grown⟩ := history_of_exec rest
  have fewBefore : (specified before).drawn < 2 ^ 64 := by
    rw [drawn_eq reached]
    rw [grown, drawCount, List.countP_append] at fewDrawn
    exact lt_of_le_of_lt (Nat.le_add_right _ _) fewDrawn
  have specifiesBefore := exec_specifies reached fewBefore
  have holdsBefore := reachable_consistent ⟨before, reached⟩
    (specifiesBefore.drawn ▸ fewBefore)
  rw [specifiesBefore.live] at wasLive
  rw [specifies.live] at isGone
  have inserted : entry.id ∈ insertedIds config.memory.history := by
    rw [grown, insertedIds, List.filterMap_append]
    exact List.mem_append_left _
      ((holdsBefore.live_iff entry.id).mp (List.mem_map_of_mem wasLive)).1
  by_contra kept
  exact isGone ((holds.live_iff entry.id).mpr ⟨inserted, kept⟩)

/-- Registry list law, for every number of threads and every interleaving of
draws, insertions and removals with fewer than `2 ^ 64` draws. -/
theorem registry_list_law
    {schedule : List (Nat × Act H)}
    (run : (program H).exec (initial H) schedule = some config)
    (few : (specified schedule).drawn < 2 ^ 64) :
    ListLaw schedule config := by
  have specifies := exec_specifies run few
  have fewDrawn := few
  rw [specifies.drawn] at fewDrawn
  have holds := reachable_consistent ⟨schedule, run⟩ fewDrawn
  constructor
  · rw [specifies.live]
    exact holds.handlers_eq
  · exact specifies.live.symm
  · rw [holds.handlers_eq]
    exact ((stableSort_perm _).map HandlerEntry.id).nodup_iff.mpr
      holds.live_nodup
  · intro thread act
    rw [specifies.pending]
    exact step_isSome thread act
  · intro thread priority handler next stepped fewNext
    obtain rfl := draw_step stepped
    exact ⟨by simp [specifies_id specifies holds fewNext], rfl⟩
  · intro thread next stepped
    obtain ⟨entry, held, rfl⟩ := insert_step stepped
    have sorted : Descending HandlerEntry.priority
        config.memory.handlers := by
      rw [holds.handlers_eq]
      exact stableSort_descending _
    obtain ⟨before, after, split, shape, high, low⟩ :=
      insertStable_split entry sorted
    rw [specifies.pending]
    exact ⟨before, entry, after, held, split, shape, high, low, rfl⟩
  · intro thread remover id next stepped
    exact unregister_step_cases stepped
  · intro thread next stepped
    exact (clear_step stepped).2
  · exact holds.inserted_nodup
  · exact holds.removed_nodup
  · exact holds.unregistered_inserted
  · intro id removed more later executed fewLater
    exact exec_removed run executed fewLater removed
  · rintro before after rfl entry wasLive isGone more later executed fewLater
    exact exec_removed run executed fewLater
      (exec_gone run few wasLive isGone)

end Law

/-- Two threads draw ids `1` and `2` and insert them in the opposite order at
the same priority; a later high priority entry comes first. -/
def twoThreads : List (Nat × Act Unit) :=
  [(0, .draw 0 ()), (1, .draw 0 ()), (1, .insert), (0, .insert),
    (0, .draw 7 ()), (0, .insert), (1, .unregister .guard ⟨1⟩)]

/-- The same run, a `clear` and a registration after it. -/
def clearsAndGoesOn : List (Nat × Act Unit) :=
  twoThreads ++ [(1, .clear), (0, .draw 3 ()), (0, .insert)]

theorem registry_list_law_two_threads :
    ∃ config cleared,
      (program Unit).exec (initial Unit) twoThreads = some config ∧
      config.memory.handlers = [⟨⟨3⟩, 7, ()⟩, ⟨⟨2⟩, 0, ()⟩] ∧
      ListLaw twoThreads config ∧
      (program Unit).exec (initial Unit) clearsAndGoesOn = some cleared ∧
      cleared.memory.handlers = [⟨⟨4⟩, 3, ()⟩] ∧
      ListLaw clearsAndGoesOn cleared :=
  ⟨_, _, rfl, rfl, registry_list_law rfl (by decide), rfl, rfl,
    registry_list_law rfl (by decide)⟩

end RegistryIo.Registry
