import RegistryIo.Guard.Machine

/-!
# Everything a step of the guard machine can do
-/

namespace RegistryIo.Guard

open RegistryIo.Interleaving RegistryIo.ReferenceCount
open RegistryIo.Registry (Remover)

universe u

variable {H : Type u}

/-- The branches of `program`, with the conditions under which they are
taken. -/
inductive Step (task : Task) (memory : Memory H) :
    Activity H → Act H → Memory H → Activity H → Prop where
  | clone {handle : Nat} (held : .token handle ∈ memory.shared.owners) :
      Step task memory .idle (.clone handle)
        { memory with
          shared := memory.shared.clone (.token memory.nextName)
          nextName := memory.nextName + 1 }
        .idle
  | dropArc {handle : Nat} (held : .token handle ∈ memory.shared.owners)
      (unborrowed : handle ∉ memory.borrows.map Prod.fst) :
      Step task memory .idle (.dropArc handle)
        { memory with
          shared := memory.shared.dropStrong (.token handle) (.task task) }
        (if memory.shared.strong = 1 then .lastStrong false else .idle)
  | register {handle : Nat} {kind : Kind} {priority : Int} {handler : H}
      {registry : Registry.Memory H} {entry : HandlerEntry H}
      (held : .token handle ∈ memory.shared.owners)
      (performed : Registry.program H task memory.registry none
        (.draw priority handler) = some (registry, some entry)) :
      Step task memory .idle (.register handle kind priority handler)
        ({ memory with registry := registry }.borrow task handle)
        (.drawn handle kind entry)
  | enter {handle : Nat} (held : .token handle ∈ memory.shared.owners) :
      Step task memory .idle (.enter handle) (memory.borrow task handle)
        (.calling handle)
  | dropGuard {guard : Holder} (member : guard ∈ memory.holders)
      (isGuard : guard.kind = .guard) :
      Step task memory .idle (.dropGuard guard.name)
        ({ memory with
            shared := memory.shared.pass (.token guard.name) (.task task)
            holders := memory.holders.erase guard }.mark guard.id
              (.guarded (.task task)))
        (.removing .guard guard.id)
  | forget {guard : Holder} (member : guard ∈ memory.holders)
      (isGuard : guard.kind = .guard) :
      Step task memory .idle (.forget guard.name)
        ({ memory with
            shared := memory.shared.dropWeak (some (.token guard.name))
            holders := memory.holders.erase guard }.mark guard.id
              .forgotten)
        .idle
  | runOnce {closure : Holder} (member : closure ∈ memory.holders)
      (isOnce : closure.kind = .once) :
      Step task memory .idle (.runOnce closure.name)
        { memory with shared := memory.shared.downgrade (.task task) }
        (.removing .oneShot closure.id)
  | dropClosure {closure : Holder} (member : closure ∈ memory.holders)
      (isOnce : closure.kind = .once) :
      Step task memory .idle (.dropClosure closure.name)
        { memory with
          shared := memory.shared.dropWeak (some (.token closure.name))
          holders := memory.holders.erase closure }
        .idle
  | observe {handle : Nat} {entry : HandlerEntry H} :
      Step task memory (.drawn handle .once entry) .downgrade
        { memory with shared := memory.shared.downgrade (.task task) }
        (.observed handle entry)
  | insertPlain {handle : Nat} {entry : HandlerEntry H}
      {registry : Registry.Memory H}
      (performed : Registry.program H task memory.registry (some entry)
        .insert = some (registry, none)) :
      Step task memory (.drawn handle .plain entry) .insert
        (({ memory with registry := registry }.mark entry.id
          .plain).release task handle)
        .idle
  | insertGuard {handle : Nat} {entry : HandlerEntry H}
      {registry : Registry.Memory H}
      (performed : Registry.program H task memory.registry (some entry)
        .insert = some (registry, none)) :
      Step task memory (.drawn handle .guard entry) .insert
        ({ memory with registry := registry }.mark entry.id
          (.guarded (.task task)))
        (.inserted handle entry.id)
  | insertOnce {handle : Nat} {entry : HandlerEntry H}
      {registry : Registry.Memory H}
      (performed : Registry.program H task memory.registry (some entry)
        .insert = some (registry, none)) :
      Step task memory (.observed handle entry) .insert
        ((({ memory with registry := registry }.mark entry.id
          .once).newClosure task entry.id).release task handle)
        .idle
  | newGuard {handle : Nat} {id : HandlerId} :
      Step task memory (.inserted handle id) .downgrade
        (((memory.newGuard id).mark id
          (.guarded (.token memory.nextName))).release task handle)
        .idle
  | unregister {handle : Nat} {id : HandlerId}
      {registry : Registry.Memory H}
      (performed : Registry.program H task memory.registry none
        (.unregister .direct id) = some (registry, none)) :
      Step task memory (.calling handle) (.unregister id)
        { memory with registry := registry } (.calling handle)
  | clear {handle : Nat} {registry : Registry.Memory H}
      (performed : Registry.program H task memory.registry none .clear =
        some (registry, none)) :
      Step task memory (.calling handle) .clear
        { memory with registry := registry } (.calling handle)
  | leave {handle : Nat} :
      Step task memory (.calling handle) .leave
        (memory.release task handle) .idle
  | upgradeFails {remover : Remover} {id : HandlerId}
      (failed : memory.shared.upgrade (.task task) = none) :
      Step task memory (.removing remover id) .upgrade
        (memory.removalDone remover id) .weakDrop
  | upgrade {remover : Remover} {id : HandlerId} {shared : Shared Owner}
      (upgraded : memory.shared.upgrade (.task task) = some shared) :
      Step task memory (.removing remover id) .upgrade
        { memory with shared := shared } (.upgraded remover id)
  | remove {remover : Remover} {id : HandlerId}
      {registry : Registry.Memory H}
      (performed : Registry.program H task memory.registry none
        (.unregister remover id) = some (registry, none)) :
      Step task memory (.upgraded remover id) .remove
        ({ memory with registry := registry }.removalDone remover id)
        .unregistered
  | dropStrong :
      Step task memory .unregistered .dropStrong
        { memory with
          shared := memory.shared.dropStrong (.task task) (.task task) }
        (if memory.shared.strong = 1 then .lastStrong true else .weakDrop)
  | dropValue {weak : Bool} :
      Step task memory (.lastStrong weak) .dropValue
        { memory with shared := memory.shared.dropValue } (.dropped weak)
  | dropImplicit {weak : Bool} :
      Step task memory (.dropped weak) .dropImplicit
        { memory with shared := memory.shared.dropWeak none }
        (if weak then .weakDrop else .idle)
  | dropWeak :
      Step task memory .weakDrop .dropWeak
        { memory with
          shared := memory.shared.dropWeak (some (.task task)) }
        .idle

section Rules

variable {task : Task} {memory memory' : Memory H}
variable {activity activity' : Activity H} {act : Act H}

/-- An insertion, a removal and a clear leave nothing pending. -/
private theorem pending_of_perform
    {registry registry' : Registry.Memory H}
    {pending pending' : Option (HandlerEntry H)} {act : Registry.Act H}
    (performed : Registry.program H task registry pending act =
      some (registry', pending'))
    (notDraw : ∀ priority handler, act ≠ .draw priority handler) :
    pending' = none := by
  rcases Registry.program_cases performed with
    ⟨entry, rfl, rfl, -, -⟩ | ⟨entry, -, rfl, -⟩ |
    ⟨remover, id, -, -, rfl, -, -⟩ |
    ⟨remover, before, entry, after, -, -, rfl, -, -⟩ |
    ⟨-, -, rfl, -, -⟩ | ⟨-, -, rfl, -⟩
  · cases act with
    | draw priority handler => exact absurd rfl (notDraw priority handler)
    | insert => simp [Registry.program] at performed
    | unregister remover id =>
        simp only [Registry.program] at performed
        split at performed <;> cases performed
    | clear =>
        simp only [Registry.program] at performed
        split at performed <;> cases performed
  all_goals rfl

private theorem perform_eq_some
    {pending pending' : Option (HandlerEntry H)} {act : Registry.Act H}
    (performed : memory.perform task pending act =
      some (memory', pending')) :
    ∃ registry, Registry.program H task memory.registry pending act =
        some (registry, pending') ∧
      memory' = { memory with registry := registry } := by
  obtain ⟨⟨registry, after⟩, ran, same⟩ :=
    Option.map_eq_some_iff.mp performed
  cases same
  exact ⟨registry, ran, rfl⟩

private theorem find_eq_some
    {kind : Kind} {name : Nat} {holder : Holder}
    (found : memory.find kind name = some holder) :
    holder ∈ memory.holders ∧ holder.name = name ∧ holder.kind = kind := by
  have matched := List.find?_some found
  simp only [decide_eq_true_eq] at matched
  exact ⟨List.mem_of_find?_eq_some found, matched⟩

private theorem idleStep_rule
    (performed : idleStep task memory act = some (memory', activity')) :
    Step task memory .idle act memory' activity' := by
  cases act with
  | clone handle =>
      simp only [idleStep, Memory.holds, decide_eq_true_eq] at performed
      split at performed
      · cases performed
        exact .clone ‹_›
      · cases performed
  | dropArc handle =>
      simp only [idleStep, Memory.holds, decide_eq_true_eq] at performed
      split at performed
      · rename_i allowed
        cases performed
        exact .dropArc allowed.1 allowed.2
      · cases performed
  | register handle kind priority handler =>
      simp only [idleStep, Memory.holds, decide_eq_true_eq] at performed
      split at performed
      · rename_i held
        obtain ⟨⟨after, pending⟩, ran, rest⟩ :=
          Option.bind_eq_some_iff.mp performed
        obtain ⟨entry, isEntry, same⟩ := Option.map_eq_some_iff.mp rest
        obtain ⟨registry, drawn, rfl⟩ := perform_eq_some ran
        cases same
        rw [show pending = some entry from isEntry] at drawn
        exact .register held drawn
      · cases performed
  | enter handle =>
      simp only [idleStep, Memory.holds, decide_eq_true_eq] at performed
      split at performed
      · cases performed
        exact .enter ‹_›
      · cases performed
  | dropGuard name =>
      obtain ⟨guard, found, same⟩ := Option.map_eq_some_iff.mp performed
      obtain ⟨member, rfl, isGuard⟩ := find_eq_some found
      cases same
      exact .dropGuard member isGuard
  | forget name =>
      obtain ⟨guard, found, same⟩ := Option.map_eq_some_iff.mp performed
      obtain ⟨member, rfl, isGuard⟩ := find_eq_some found
      cases same
      exact .forget member isGuard
  | runOnce name =>
      obtain ⟨closure, found, same⟩ := Option.map_eq_some_iff.mp performed
      obtain ⟨member, rfl, isOnce⟩ := find_eq_some found
      cases same
      exact .runOnce member isOnce
  | dropClosure name =>
      obtain ⟨closure, found, rest⟩ := Option.bind_eq_some_iff.mp performed
      obtain ⟨member, rfl, isOnce⟩ := find_eq_some found
      split at rest
      · cases rest
        exact .dropClosure member isOnce
      · cases rest
  | _ => cases performed

theorem program_rule
    (performed : program H task memory activity act =
      some (memory', activity')) :
    Step task memory activity act memory' activity' := by
  unfold program at performed
  split at performed
  · exact idleStep_rule performed
  · cases performed
    exact .observe
  · cases performed
  · rename_i handle kind entry notOnce
    obtain ⟨⟨after, pending⟩, ran, same⟩ :=
      Option.map_eq_some_iff.mp performed
    obtain ⟨registry, inserted, rfl⟩ := perform_eq_some ran
    obtain rfl := pending_of_perform inserted (by simp)
    cases kind with
    | plain =>
        cases same
        exact .insertPlain inserted
    | guard =>
        cases same
        exact .insertGuard inserted
    | once => exact absurd rfl notOnce
  · obtain ⟨⟨after, pending⟩, ran, same⟩ :=
      Option.map_eq_some_iff.mp performed
    obtain ⟨registry, inserted, rfl⟩ := perform_eq_some ran
    obtain rfl := pending_of_perform inserted (by simp)
    cases same
    exact .insertOnce inserted
  · cases performed
    exact .newGuard
  · obtain ⟨⟨after, pending⟩, ran, same⟩ :=
      Option.map_eq_some_iff.mp performed
    obtain ⟨registry, removed, rfl⟩ := perform_eq_some ran
    obtain rfl := pending_of_perform removed (by simp)
    cases same
    exact .unregister removed
  · obtain ⟨⟨after, pending⟩, ran, same⟩ :=
      Option.map_eq_some_iff.mp performed
    obtain ⟨registry, cleared, rfl⟩ := perform_eq_some ran
    obtain rfl := pending_of_perform cleared (by simp)
    cases same
    exact .clear cleared
  · cases performed
    exact .leave
  · split at performed
    · cases performed
      exact .upgradeFails ‹_›
    · cases performed
      exact .upgrade ‹_›
  · obtain ⟨⟨after, pending⟩, ran, same⟩ :=
      Option.map_eq_some_iff.mp performed
    obtain ⟨registry, removed, rfl⟩ := perform_eq_some ran
    obtain rfl := pending_of_perform removed (by simp)
    cases same
    exact .remove removed
  · cases performed
    exact .dropStrong
  · cases performed
    exact .dropValue
  · cases performed
    exact .dropImplicit
  · cases performed
    exact .dropWeak
  · cases performed

end Rules

end RegistryIo.Guard
