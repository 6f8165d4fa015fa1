import RegistryIo.Snapshot.Steps.Reclaim

/-!
# Steps of `update`

Drawing an id, computing the new list under the writer lock, installing it and
retiring the old one.
-/

namespace RegistryIo.Snapshot

section Write

variable {list value : List Entry}

/-- What a successful write does to the handlers of a list. -/
structure WriteSpec (effect : Effect) (list value : List Entry) : Prop where
  removed : ∀ handler ∈ effect.removed, handler ∈ handlersOf list
  nodup : (handlersOf value).Nodup
  members : ∀ handler, handler ∈ handlersOf value ↔
    (handler ∈ handlersOf list ∧ handler ∉ effect.removed) ∨
      effect.inserted = some handler

private theorem handlersOf_insert_perm (entry : Entry) :
    (handlersOf (entry.insert list)).Perm
      (entry.handler :: handlersOf list) :=
  (HandlerEntry.insert_perm entry list).map HandlerEntry.handler

private theorem insert_spec
    {entry : Entry} (nodup : (handlersOf list).Nodup)
    (fresh : entry.handler ∉ handlersOf list) :
    WriteSpec ⟨[], some entry.handler⟩ list (entry.insert list) where
  removed := by simp
  nodup :=
    (handlersOf_insert_perm entry).nodup_iff.mpr
      (List.nodup_cons.mpr ⟨fresh, nodup⟩)
  members := by
    intro handler
    rw [(handlersOf_insert_perm entry).mem_iff]
    simp [or_comm, eq_comm]

private theorem remove_spec
    {id : HandlerId} (nodup : (handlersOf list).Nodup)
    (removed : HandlerEntry.removeId id list = some value) :
    WriteSpec ((Write.remove id).effect list) list value := by
  obtain ⟨initial, entry, final, shape, isValue, sameId, earlier⟩ :=
    HandlerEntry.removeId_eq_some removed
  have found : (list.find? fun entry => entry.id = id) = some entry := by
    rw [shape, List.find?_append, List.find?_eq_none.mpr, Option.none_or]
    · simp [sameId]
    · intro other member same
      refine earlier (List.mem_map.mpr ⟨other, member, ?_⟩)
      simpa using same
  have effect : (Write.remove id).effect list = ⟨[entry.handler], none⟩ := by
    simp [Write.effect, found, handlersOf]
  have split : handlersOf list =
      handlersOf initial ++ entry.handler :: handlersOf final := by
    simp [shape, handlersOf]
  have rest : handlersOf value =
      handlersOf initial ++ handlersOf final := by
    simp [isValue, handlersOf]
  have perm : (handlersOf list).Perm
      (entry.handler :: handlersOf value) := by
    rw [split, rest]
    exact List.perm_middle
  have parts := List.nodup_cons.mp (perm.nodup_iff.mp nodup)
  rw [effect]
  refine ⟨?_, parts.2, ?_⟩
  · intro handler member
    rw [List.mem_singleton.mp member, perm.mem_iff]
    exact List.Mem.head _
  · intro handler
    rw [perm.mem_iff]
    constructor
    · intro member
      refine Or.inl ⟨List.Mem.tail _ member, ?_⟩
      intro same
      rw [List.mem_singleton.mp same] at member
      exact parts.1 member
    · rintro (⟨member, different⟩ | impossible)
      · rcases List.mem_cons.mp member with same | inside
        · exact absurd (List.mem_singleton.mpr same) different
        · exact inside
      · cases impossible

private theorem clear_spec
    (removed : HandlerEntry.removeAll list = some value) :
    WriteSpec (Write.clear.effect list) list value := by
  obtain ⟨_, rfl⟩ := HandlerEntry.removeAll_eq_some removed
  refine ⟨fun _ member => member, List.nodup_nil, ?_⟩
  intro handler
  simp [handlersOf, Write.effect]

private theorem apply_spec
    {write : Write} (nodup : (handlersOf list).Nodup)
    (fresh : ∀ handler, (write.effect list).inserted = some handler →
      handler ∉ handlersOf list)
    (applied : write.apply list = some value) :
    WriteSpec (write.effect list) list value := by
  cases write with
  | insert entry =>
      cases applied
      exact insert_spec nodup (fresh entry.handler rfl)
  | remove id => exact remove_spec nodup applied
  | clear => exact clear_spec applied

end Write

variable {memory : Memory} {call : CallId} {tls : Tls} {cell : CellId}

section Update

variable (inv : MemInv memory)
variable (own : ∀ record, tls.record = some record →
  OwnRecord memory call.thread record)

include inv

/-- The writer lock is free only while the counter is right. -/
theorem lenOk_lock
    (free : (memory.store.cells cell).writer = none) :
    LenOk (memory.withStore (memory.store.lock cell call)) cell := by
  have length := (inv.store.cells cell).retired_len free
  simpa [LenOk, Memory.withStore, Store.lock, Store.setCell] using length

include own

theorem draw_sound
    {priority : Int} (ok : FrameOk memory call (.draw cell priority)) :
    Sound memory call
      (memory.withStore (memory.store.nextId cell call), tls,
        some (.lockWriter cell
          (.insert ⟨(memory.store.cells cell).idGenerator.next.1, priority,
            (memory.store.cells cell).registrations⟩) false)) := by
  refine Sound.of_frame ok (advance_nextId inv) ?_ trivial
    (fun record same => (own record same).withStore _)
  intro holding
  simp [Frame.holding, Write.holding]

theorem lockWriter_sound
    {write : Write} {wait : Bool}
    (ok : FrameOk memory call (.lockWriter cell write wait))
    (free : (memory.store.cells cell).writer = none) :
    Sound memory call
      (memory.withStore (memory.store.lock cell call), tls,
        some (.compute cell write wait)) := by
  have active : memory.Held call (.active cell) :=
    (ok.held _).mpr (by simp [Frame.holding])
  refine Sound.of_frame ok (advance_lock inv free active) ?_
    (lenOk_lock inv free) (fun record same => (own record same).withStore _)
  intro holding
  simp only [Frame.holding, List.mem_cons, List.not_mem_nil, or_false]
  tauto

theorem unlockUnchanged_sound
    (ok : FrameOk memory call (.unlockUnchanged cell)) :
    Sound memory call
      (memory.withStore (memory.store.unlock cell), tls,
        some (.returned cell .unchanged)) := by
  have locked : memory.Held call (.writer cell) :=
    (ok.held _).mpr (by simp [Frame.holding])
  have advance := advance_unlock inv locked ok.facts
    (fun address => by rw [ok.held]; simp [Frame.holding])
    (fun address => by rw [ok.held]; simp [Frame.holding])
  refine Sound.of_frame ok advance ?_ trivial
    (fun record same => (own record same).withStore _)
  intro holding
  cases holding <;> simp [Frame.holding]

omit own in
/-- The writer may install the value it has just allocated. -/
private theorem installOk_alloc
    {write : Write} {wait : Bool} {address : Addr} {value : List Entry}
    (ok : FrameOk memory call (.compute cell write wait))
    (applied : write.apply
      (memory.store.deref (memory.store.cells cell).current) = some value) :
    InstallOk
      (memory.store.allocArc address cell value (.fresh call)) cell
      (write.effect
        (memory.store.deref (memory.store.cells cell).current)) call
      ⟨cell, memory.store.versions, value, 1, [.cell], .fresh call⟩ := by
  have alive : (memory.store.cells cell).phase = .alive :=
    ok.alive inv (by simp [Frame.holding])
  have older := inv.store.version_lt_versions alive
  have list := (inv.store.cells cell).list_ok alive
  have drawn : ∀ handler,
      (write.effect (memory.store.deref
        (memory.store.cells cell).current)).inserted = some handler →
        (memory.store.cells cell).status handler = .drawn call := by
    intro handler same
    cases write with
    | insert entry =>
        cases same
        exact (ok.held (.drawn cell entry.handler)).mpr (by
          simp [Frame.holding, Write.holding])
    | remove id => cases same
    | clear => cases same
  rw [deref_current inv alive] at applied drawn ⊢
  have spec := apply_spec list.nodup (by
    intro handler same member
    have live := (list.live_iff handler).mp member
    rw [drawn handler same] at live
    cases live) applied
  have values :
      (memory.store.allocArc address cell value (.fresh call)).values
          (memory.store.cells cell).version =
        memory.store.values (memory.store.cells cell).version :=
    Function.update_of_ne (Nat.ne_of_lt older) _ _
  refine ⟨rfl, rfl, older, ?_, drawn, spec.nodup, ?_⟩
  · intro handler member
    rw [show (memory.store.allocArc address cell value
      (.fresh call)).cells cell = memory.store.cells cell from rfl, values]
    exact spec.removed handler member
  · intro handler
    rw [show (memory.store.allocArc address cell value
      (.fresh call)).cells cell = memory.store.cells cell from rfl, values]
    exact spec.members handler

theorem computeNone_sound
    {write : Write} {wait : Bool}
    (ok : FrameOk memory call (.compute cell write wait))
    (unchanged : write.apply
      (memory.store.deref (memory.store.cells cell).current) = none) :
    Sound memory call (memory, tls, some (.unlockUnchanged cell)) := by
  refine Sound.of_same inv ok ?_ ok.facts own
  cases write with
  | insert entry => cases unchanged
  | remove id => simp [Frame.holding, Write.holding]
  | clear => simp [Frame.holding, Write.holding]

theorem computeSome_sound
    {write : Write} {wait : Bool} {address : Addr} {value : List Entry}
    (ok : FrameOk memory call (.compute cell write wait))
    (applied : write.apply
      (memory.store.deref (memory.store.cells cell).current) = some value)
    (free : memory.store.heap address = none) :
    Sound memory call
      (memory.withStore
          (memory.store.allocArc address cell value (.fresh call)), tls,
        some (.installing cell wait
          (write.effect
            (memory.store.deref (memory.store.cells cell).current))
          address)) := by
  have locked : memory.Held call (.writer cell) :=
    (ok.held _).mpr (by simp [Frame.holding])
  refine Sound.of_frame ok (advance_allocFresh inv free locked) ?_
    ⟨_, by simp [Memory.withStore, Store.allocArc],
      installOk_alloc inv ok applied⟩
    (fun record same => (own record same).withStore _)
  intro holding
  cases write <;> cases holding <;>
    simp [Frame.holding, Write.holding, Write.effect]

theorem install_sound
    {wait : Bool} {effect : Effect} {new : Addr}
    (ok : FrameOk memory call (.installing cell wait effect new)) :
    Sound memory call
      (memory.withStore (memory.store.install cell new effect call), tls,
        some (.pushing cell wait effect
          (memory.store.cells cell).current)) := by
  have locked : memory.Held call (.writer cell) :=
    (ok.held _).mpr (by simp [Frame.holding])
  obtain ⟨inner, found, installOk⟩ := ok.facts
  refine Sound.of_frame ok (advance_install inv locked installOk found) ?_
    ⟨⟨?_, ?_⟩, (memory.store.cells cell).version, ?_⟩
    (fun record same => (own record same).withStore _)
  · intro holding
    cases holding <;> simp [Frame.holding, eq_comm]
  · intro handler member
    simp [Memory.withStore, Store.install, Store.setCell,
      SnapCell.installed, member]
  · intro handler same
    by_cases isRemoved : handler ∈ effect.removed
    · exact Or.inr (by
        simp [Memory.withStore, Store.install, Store.setCell,
          SnapCell.installed, isRemoved])
    · exact Or.inl (by
        simp [Memory.withStore, Store.install, Store.setCell,
          SnapCell.installed, isRemoved, same])
  · exact inv.store.tracked_relink_current found installOk.fresh locked

theorem retire_sound
    {wait : Bool} {effect : Effect} {raw : Addr}
    (ok : FrameOk memory call (.pushing cell wait effect raw)) :
    Sound memory call
      (memory.withStore (memory.store.retire cell raw), tls,
        some (.collect cell (.update wait effect) .start)) := by
  have locked : memory.Held call (.writer cell) :=
    (ok.held _).mpr (by simp [Frame.holding])
  obtain ⟨effectOk, version, unlinked⟩ := ok.facts
  have advance := advance_retire inv locked unlinked
  refine Sound.of_frame ok advance ?_
    ⟨effectOk.stable advance, trivial⟩
    (fun record same => (own record same).withStore _)
  intro holding
  cases holding <;>
    simp [Frame.holding, Collector.active, Collector.holding,
      CollectStep.holding]

end Update

end RegistryIo.Snapshot
