import RegistryIo.Guard.Steps

/-!
# The lifetime of a registry behind an `Arc`

The references that activations and user code hold are those that the
counters count.  It follows that the registry is dropped once, by the
activation that dropped the last strong reference, when no call is in
progress, that no guard reaches it afterwards, and that its memory is released
once, after the last weak reference.
-/

namespace RegistryIo.Guard

open RegistryIo.Interleaving RegistryIo.ReferenceCount
open RegistryIo.Registry (Remover)

universe u

variable {H : Type u}

/-- What user code holds is counted, under names that are used once. -/
structure MemInv (memory : Memory H) : Prop where
  balanced : Balanced memory.shared
  handle_lt : ∀ name, .token name ∈ memory.shared.owners →
    name < memory.nextName
  holder_lt : ∀ holder ∈ memory.holders,
    holder.name < memory.nextName
  holder_nodup : (memory.holders.map Holder.name).Nodup
  observed : ∀ name, some (.token name) ∈ memory.shared.observers ↔
    name ∈ memory.holders.map Holder.name
  borrow_held : ∀ handle task, (handle, task) ∈ memory.borrows →
    .token handle ∈ memory.shared.owners
  borrow_nodup : memory.borrows.Nodup
  finalizer_task : ∀ owner, memory.shared.finalizer = some owner →
    ∃ task, owner = .task task

/-- What an activation holds is counted. -/
structure TaskInv (memory : Memory H) (task : Task)
    (activity : Activity H) : Prop where
  strong : .task task ∈ memory.shared.owners ↔ activity.holdsStrong = true
  weak : some (.task task) ∈ memory.shared.observers ↔
    activity.holdsWeak = true
  borrow : ∀ handle, (handle, task) ∈ memory.borrows ↔
    activity.borrowed = some handle
  final : ∀ gone, activity.finalStage = some gone →
    memory.shared.finalizer = some (.task task) ∧
      memory.shared.dropped = gone ∧ none ∈ memory.shared.observers
  done : memory.shared.finalizer = some (.task task) →
    activity.finalStage = none →
      memory.shared.dropped = true ∧ none ∉ memory.shared.observers

/-- What the other activations may rely on in a step of this one. -/
structure Guarantee (actor : Task) (memory memory' : Memory H) : Prop where
  strong : ∀ task, task ≠ actor →
    (.task task ∈ memory'.shared.owners ↔
      .task task ∈ memory.shared.owners)
  weak : ∀ task, task ≠ actor →
    (some (.task task) ∈ memory'.shared.observers ↔
      some (.task task) ∈ memory.shared.observers)
  borrow : ∀ handle task, task ≠ actor →
    ((handle, task) ∈ memory'.borrows ↔ (handle, task) ∈ memory.borrows)
  finalizer : ∀ task, task ≠ actor →
    (memory'.shared.finalizer = some (.task task) ↔
      memory.shared.finalizer = some (.task task))
  final : ∀ task, task ≠ actor →
    memory.shared.finalizer = some (.task task) →
      memory'.shared.dropped = memory.shared.dropped ∧
        (none ∈ memory'.shared.observers ↔ none ∈ memory.shared.observers)

theorem TaskInv.stable
    {memory memory' : Memory H} {actor task : Task} {activity : Activity H}
    (guarantee : Guarantee actor memory memory') (different : task ≠ actor)
    (holds : TaskInv memory task activity) :
    TaskInv memory' task activity where
  strong := (guarantee.strong task different).trans holds.strong
  weak := (guarantee.weak task different).trans holds.weak
  borrow := fun handle =>
    (guarantee.borrow handle task different).trans (holds.borrow handle)
  final := by
    intro gone stage
    obtain ⟨isFinal, isDropped, implicit⟩ := holds.final gone stage
    obtain ⟨same, kept⟩ := guarantee.final task different isFinal
    exact ⟨(guarantee.finalizer task different).mpr isFinal,
      same.trans isDropped, kept.mpr implicit⟩
  done := by
    intro isFinal stage
    have before := (guarantee.finalizer task different).mp isFinal
    obtain ⟨same, kept⟩ := guarantee.final task different before
    obtain ⟨isDropped, released⟩ := holds.done before stage
    exact ⟨same.trans isDropped, fun implicit => released (kept.mp implicit)⟩

/-- The invariants after a step. -/
structure Sound (task : Task) (memory memory' : Memory H)
    (activity' : Activity H) : Prop where
  inv : MemInv memory'
  own : TaskInv memory' task activity'
  guarantee : Guarantee task memory memory'

section Sound

variable {task : Task} {memory memory' : Memory H}
variable {activity activity' : Activity H} {act : Act H}

/-- A step that leaves all references alone. -/
private theorem sound_same
    (inv : MemInv memory) (own : TaskInv memory task activity)
    (shared : memory'.shared = memory.shared)
    (borrows : memory'.borrows = memory.borrows)
    (holders : memory'.holders = memory.holders)
    (nextName : memory'.nextName = memory.nextName)
    (strong : activity'.holdsStrong = activity.holdsStrong)
    (weak : activity'.holdsWeak = activity.holdsWeak)
    (borrowed : activity'.borrowed = activity.borrowed)
    (stage : activity'.finalStage = activity.finalStage) :
    Sound task memory memory' activity' := by
  refine ⟨?_, ?_, ?_⟩
  · constructor
    · rw [shared]
      exact inv.balanced
    · rw [shared, nextName]
      exact inv.handle_lt
    · rw [holders, nextName]
      exact inv.holder_lt
    · rw [holders]
      exact inv.holder_nodup
    · rw [shared, holders]
      exact inv.observed
    · rw [shared, borrows]
      exact inv.borrow_held
    · rw [borrows]
      exact inv.borrow_nodup
    · rw [shared]
      exact inv.finalizer_task
  · constructor
    · rw [shared, strong]
      exact own.strong
    · rw [shared, weak]
      exact own.weak
    · rw [borrows, borrowed]
      exact own.borrow
    · rw [shared, stage]
      exact own.final
    · rw [shared, stage]
      exact own.done
  · constructor
    · simp [shared]
    · simp [shared]
    · simp [borrows]
    · simp [shared]
    · simp [shared]

/-- Two changes of one step, with what the activation holds in between. -/
theorem Sound.trans
    {middle : Memory H} {between : Activity H}
    (first : Sound task memory middle between)
    (second : Sound task middle memory' activity') :
    Sound task memory memory' activity' := by
  refine ⟨second.inv, second.own, ?_⟩
  constructor
  · intro other different
    exact (second.guarantee.strong other different).trans
      (first.guarantee.strong other different)
  · intro other different
    exact (second.guarantee.weak other different).trans
      (first.guarantee.weak other different)
  · intro handle other different
    exact (second.guarantee.borrow handle other different).trans
      (first.guarantee.borrow handle other different)
  · intro other different
    exact (second.guarantee.finalizer other different).trans
      (first.guarantee.finalizer other different)
  · intro other different isFinal
    have early := first.guarantee.final other different isFinal
    have late := second.guarantee.final other different
      ((first.guarantee.finalizer other different).mpr isFinal)
    exact ⟨late.1.trans early.1, late.2.trans early.2⟩

private theorem MemInv.fresh_handle (inv : MemInv memory) :
    .token memory.nextName ∉ memory.shared.owners := by
  intro member
  exact absurd (inv.handle_lt _ member) (Nat.lt_irrefl _)

private theorem MemInv.fresh_holder (inv : MemInv memory) :
    some (.token memory.nextName) ∉ memory.shared.observers := by
  rw [inv.observed]
  intro member
  obtain ⟨holder, listed, isName⟩ := List.mem_map.mp member
  have bound := inv.holder_lt holder listed
  omega

private theorem sound_clone
    {handle : Nat} (inv : MemInv memory) (own : TaskInv memory task .idle)
    (held : .token handle ∈ memory.shared.owners) :
    Sound task memory
      { memory with
        shared := memory.shared.clone (.token memory.nextName)
        nextName := memory.nextName + 1 } .idle := by
  have alive : memory.shared.owners ≠ [] := List.ne_nil_of_mem held
  refine ⟨?_, ?_, ?_⟩
  · constructor
    · exact inv.balanced.clone alive inv.fresh_handle
    · intro name member
      rcases List.mem_cons.mp member with same | older
      · cases same
        exact Nat.lt_succ_self _
      · exact Nat.lt_succ_of_lt (inv.handle_lt name older)
    · intro holder member
      exact Nat.lt_succ_of_lt (inv.holder_lt holder member)
    · exact inv.holder_nodup
    · exact inv.observed
    · intro other borrower borrowed
      exact List.mem_cons_of_mem _ (inv.borrow_held other borrower borrowed)
    · exact inv.borrow_nodup
    · exact inv.finalizer_task
  · constructor
    · simpa [Shared.clone] using own.strong
    · exact own.weak
    · exact own.borrow
    · exact own.final
    · exact own.done
  · constructor <;> simp [Shared.clone]

/-- A call begins. -/
private theorem sound_borrow
    {handle : Nat} (inv : MemInv memory) (own : TaskInv memory task .idle)
    (held : .token handle ∈ memory.shared.owners)
    (strong : activity'.holdsStrong = false)
    (weak : activity'.holdsWeak = false)
    (borrowed : activity'.borrowed = some handle)
    (stage : activity'.finalStage = none) :
    Sound task memory (memory.borrow task handle) activity' := by
  have none : ∀ other, (other, task) ∉ memory.borrows := by
    intro other member
    cases (own.borrow other).mp member
  refine ⟨?_, ?_, ?_⟩
  · constructor
    · exact inv.balanced
    · exact inv.handle_lt
    · exact inv.holder_lt
    · exact inv.holder_nodup
    · exact inv.observed
    · intro other borrower member
      rcases List.mem_cons.mp member with same | older
      · cases same
        exact held
      · exact inv.borrow_held other borrower older
    · exact List.nodup_cons.mpr ⟨none handle, inv.borrow_nodup⟩
    · exact inv.finalizer_task
  · constructor
    · rw [strong]
      exact own.strong
    · rw [weak]
      exact own.weak
    · intro other
      simp [Memory.borrow, borrowed, none other, eq_comm]
    · simp [stage]
    · intro isFinal _
      exact own.done isFinal rfl
  · constructor
    · simp [Memory.borrow]
    · simp [Memory.borrow]
    · intro other borrower different
      simp [Memory.borrow, different]
    · simp [Memory.borrow]
    · simp [Memory.borrow]

/-- A call returns. -/
private theorem sound_release
    {handle : Nat} (inv : MemInv memory) (own : TaskInv memory task activity)
    (borrowed : activity.borrowed = some handle)
    (strong : activity.holdsStrong = false)
    (weak : activity.holdsWeak = false)
    (stage : activity.finalStage = none) :
    Sound task memory (memory.release task handle) .idle := by
  refine ⟨?_, ?_, ?_⟩
  · constructor
    · exact inv.balanced
    · exact inv.handle_lt
    · exact inv.holder_lt
    · exact inv.holder_nodup
    · exact inv.observed
    · intro other borrower member
      exact inv.borrow_held other borrower (List.mem_of_mem_erase member)
    · exact inv.borrow_nodup.erase _
    · exact inv.finalizer_task
  · constructor
    · rw [← show activity.holdsStrong = Activity.holdsStrong .idle from strong]
      exact own.strong
    · rw [← show activity.holdsWeak = Activity.holdsWeak .idle from weak]
      exact own.weak
    · intro other
      have returned : Activity.borrowed (.idle : Activity H) = none := rfl
      rw [returned, Memory.release, inv.borrow_nodup.mem_erase_iff,
        own.borrow other, borrowed]
      simp [eq_comm]
    · simp [Activity.finalStage]
    · intro isFinal _
      exact own.done isFinal stage
  · constructor
    · simp [Memory.release]
    · simp [Memory.release]
    · intro other borrower different
      simp [Memory.release, inv.borrow_nodup.mem_erase_iff, different]
    · simp [Memory.release]
    · simp [Memory.release]

/-- Names are used once, so the others stay when one holder goes. -/
private theorem mem_names_erase
    {holder : Holder} {name : Nat} (inv : MemInv memory)
    (member : holder ∈ memory.holders) :
    name ∈ (memory.holders.erase holder).map Holder.name ↔
      name ≠ holder.name ∧ name ∈ memory.holders.map Holder.name := by
  have distinct : memory.holders.Nodup :=
    List.Nodup.of_map Holder.name inv.holder_nodup
  have injective := List.inj_on_of_nodup_map inv.holder_nodup
  constructor
  · intro listed
    obtain ⟨other, isOther, rfl⟩ := List.mem_map.mp listed
    have apart := distinct.mem_erase_iff.mp isOther
    refine ⟨?_, List.mem_map.mpr ⟨other, apart.2, rfl⟩⟩
    intro same
    exact apart.1 (injective apart.2 member same)
  · rintro ⟨different, listed⟩
    obtain ⟨other, isOther, rfl⟩ := List.mem_map.mp listed
    refine List.mem_map.mpr ⟨other, ?_, rfl⟩
    refine distinct.mem_erase_iff.mpr ⟨?_, isOther⟩
    rintro rfl
    exact different rfl

private theorem MemInv.observed_holder
    {holder : Holder} (inv : MemInv memory)
    (member : holder ∈ memory.holders) :
    some (.token holder.name) ∈ memory.shared.observers :=
  (inv.observed holder.name).mpr (List.mem_map.mpr ⟨holder, member, rfl⟩)

/-- An activation makes a weak reference of its own. -/
private theorem sound_observe
    (inv : MemInv memory) (own : TaskInv memory task activity)
    (present : memory.shared.observers ≠ [])
    (unobserved : activity.holdsWeak = false)
    (weak : activity'.holdsWeak = true)
    (strong : activity'.holdsStrong = activity.holdsStrong)
    (borrowed : activity'.borrowed = activity.borrowed)
    (stage : activity'.finalStage = activity.finalStage) :
    Sound task memory
      { memory with shared := memory.shared.downgrade (.task task) }
      activity' := by
  have fresh : some (.task task) ∉ memory.shared.observers := by
    rw [own.weak, unobserved]
    simp
  refine ⟨?_, ?_, ?_⟩
  · constructor
    · exact inv.balanced.downgrade present fresh
    · exact inv.handle_lt
    · exact inv.holder_lt
    · exact inv.holder_nodup
    · intro name
      simpa [Shared.downgrade] using inv.observed name
    · exact inv.borrow_held
    · exact inv.borrow_nodup
    · exact inv.finalizer_task
  · constructor
    · rw [strong]
      exact own.strong
    · simp [Shared.downgrade, weak]
    · rw [borrowed]
      exact own.borrow
    · intro gone isStage
      rw [stage] at isStage
      obtain ⟨isFinal, isDropped, implicit⟩ := own.final gone isStage
      exact ⟨isFinal, isDropped, List.mem_cons_of_mem _ implicit⟩
    · intro isFinal isStage
      rw [stage] at isStage
      simpa [Shared.downgrade] using own.done isFinal isStage
  · constructor
    · simp [Shared.downgrade]
    · intro other different
      simp [Shared.downgrade, different]
    · simp
    · simp [Shared.downgrade]
    · simp [Shared.downgrade]

/-- `Arc::downgrade(self)` for a new guard. -/
private theorem sound_newGuard
    {handle : Nat} {id : HandlerId} (inv : MemInv memory)
    (own : TaskInv memory task (.inserted handle id)) :
    Sound task memory (memory.newGuard id) (.calling handle) := by
  have held : .token handle ∈ memory.shared.owners :=
    inv.borrow_held handle task ((own.borrow handle).mpr rfl)
  have present : memory.shared.observers ≠ [] :=
    List.ne_nil_of_mem
      (inv.balanced.implicit (inv.balanced.not_dropped held))
  have unnamed : memory.nextName ∉ memory.holders.map Holder.name := by
    rw [← inv.observed]
    exact inv.fresh_holder
  refine ⟨?_, ?_, ?_⟩
  · constructor
    · exact inv.balanced.downgrade present inv.fresh_holder
    · intro name member
      exact Nat.lt_succ_of_lt (inv.handle_lt name member)
    · intro holder member
      rcases List.mem_cons.mp member with rfl | older
      · exact Nat.lt_succ_self _
      · exact Nat.lt_succ_of_lt (inv.holder_lt holder older)
    · exact List.nodup_cons.mpr ⟨unnamed, inv.holder_nodup⟩
    · intro name
      have older := inv.observed name
      simp [Memory.newGuard, Shared.downgrade, older]
    · exact inv.borrow_held
    · exact inv.borrow_nodup
    · exact inv.finalizer_task
  · constructor
    · exact own.strong
    · simpa [Memory.newGuard, Shared.downgrade, Activity.holdsWeak]
        using own.weak
    · exact own.borrow
    · simp [Activity.finalStage]
    · intro isFinal _
      simpa [Memory.newGuard, Shared.downgrade] using own.done isFinal rfl
  · constructor <;> simp [Memory.newGuard, Shared.downgrade]

/-- The closure of a one-shot handler takes over the weak reference. -/
private theorem sound_newClosure
    {handle : Nat} {entry : HandlerEntry H} (id : HandlerId)
    (inv : MemInv memory)
    (own : TaskInv memory task (.observed handle entry)) :
    Sound task memory (memory.newClosure task id) (.calling handle) := by
  have member : some (.task task) ∈ memory.shared.observers :=
    own.weak.mpr rfl
  have unnamed : memory.nextName ∉ memory.holders.map Holder.name := by
    rw [← inv.observed]
    exact inv.fresh_holder
  refine ⟨?_, ?_, ?_⟩
  · constructor
    · exact inv.balanced.pass member inv.fresh_holder
    · intro name held
      exact Nat.lt_succ_of_lt (inv.handle_lt name held)
    · intro holder listed
      rcases List.mem_cons.mp listed with rfl | older
      · exact Nat.lt_succ_self _
      · exact Nat.lt_succ_of_lt (inv.holder_lt holder older)
    · exact List.nodup_cons.mpr ⟨unnamed, inv.holder_nodup⟩
    · intro name
      have older := inv.observed name
      simp only [Memory.newClosure, inv.balanced.mem_observers_pass, older]
      simp
    · exact inv.borrow_held
    · exact inv.borrow_nodup
    · exact inv.finalizer_task
  · constructor
    · exact own.strong
    · simp only [Memory.newClosure, inv.balanced.mem_observers_pass]
      simp [Activity.holdsWeak]
    · exact own.borrow
    · simp [Activity.finalStage]
    · intro isFinal _
      simpa [Memory.newClosure, inv.balanced.mem_observers_pass]
        using own.done isFinal rfl
  · constructor
    · simp [Memory.newClosure, Shared.pass]
    · intro other different
      simp [Memory.newClosure, inv.balanced.mem_observers_pass, different]
    · simp [Memory.newClosure]
    · simp [Memory.newClosure, Shared.pass]
    · simp [Memory.newClosure, Shared.pass]

/-- The drop of a guard begins. -/
private theorem sound_dropGuard
    {guard : Holder} (inv : MemInv memory) (own : TaskInv memory task .idle)
    (member : guard ∈ memory.holders) :
    Sound task memory
      { memory with
        shared := memory.shared.pass (.token guard.name) (.task task)
        holders := memory.holders.erase guard }
      (.removing .guard guard.id) := by
  have given := inv.observed_holder member
  have fresh : some (.task task) ∉ memory.shared.observers := by
    rw [own.weak]
    simp [Activity.holdsWeak]
  refine ⟨?_, ?_, ?_⟩
  · constructor
    · exact inv.balanced.pass given fresh
    · exact inv.handle_lt
    · intro holder listed
      exact inv.holder_lt holder (List.mem_of_mem_erase listed)
    · exact inv.holder_nodup.sublist (List.erase_sublist.map Holder.name)
    · intro name
      have older := inv.observed name
      simp only [inv.balanced.mem_observers_pass, mem_names_erase inv member,
        older]
      simp
    · exact inv.borrow_held
    · exact inv.borrow_nodup
    · exact inv.finalizer_task
  · constructor
    · exact own.strong
    · simp [inv.balanced.mem_observers_pass, Activity.holdsWeak]
    · exact own.borrow
    · simp [Activity.finalStage]
    · intro isFinal _
      simpa [inv.balanced.mem_observers_pass] using own.done isFinal rfl
  · constructor
    · simp [Shared.pass]
    · intro other different
      simp [inv.balanced.mem_observers_pass, different]
    · simp
    · simp [Shared.pass]
    · simp [Shared.pass]

/-- A guard is forgotten, or the closure of a one-shot handler destroyed. -/
private theorem sound_dropHolder
    {holder : Holder} (inv : MemInv memory) (own : TaskInv memory task .idle)
    (member : holder ∈ memory.holders) :
    Sound task memory
      { memory with
        shared := memory.shared.dropWeak (some (.token holder.name))
        holders := memory.holders.erase holder } .idle := by
  have given := inv.observed_holder member
  refine ⟨?_, ?_, ?_⟩
  · constructor
    · exact inv.balanced.dropWeak given (by simp)
    · exact inv.handle_lt
    · intro other listed
      exact inv.holder_lt other (List.mem_of_mem_erase listed)
    · exact inv.holder_nodup.sublist (List.erase_sublist.map Holder.name)
    · intro name
      have older := inv.observed name
      simp only [inv.balanced.mem_observers_dropWeak,
        mem_names_erase inv member, older]
      simp
    · exact inv.borrow_held
    · exact inv.borrow_nodup
    · exact inv.finalizer_task
  · constructor
    · exact own.strong
    · simpa [inv.balanced.mem_observers_dropWeak] using own.weak
    · exact own.borrow
    · simp [Activity.finalStage]
    · intro isFinal _
      simpa [inv.balanced.mem_observers_dropWeak] using own.done isFinal rfl
  · constructor <;> simp [Shared.dropWeak]

/-- The weak reference of an activation is upgraded. -/
private theorem sound_upgrade
    {remover : Remover} {id : HandlerId} {shared : Shared Owner}
    (inv : MemInv memory) (own : TaskInv memory task (.removing remover id))
    (upgraded : memory.shared.upgrade (.task task) = some shared) :
    Sound task memory { memory with shared := shared }
      (.upgraded remover id) := by
  have fresh : .task task ∉ memory.shared.owners := by
    rw [own.strong]
    simp [Activity.holdsStrong]
  obtain ⟨rfl, alive, balanced⟩ := inv.balanced.upgrade fresh upgraded
  have undecided := inv.balanced.finalizer.mpr alive
  refine ⟨?_, ?_, ?_⟩
  · constructor
    · exact balanced
    · intro name member
      rcases List.mem_cons.mp member with same | older
      · cases same
      · exact inv.handle_lt name older
    · exact inv.holder_lt
    · exact inv.holder_nodup
    · exact inv.observed
    · intro other borrower borrowed
      exact List.mem_cons_of_mem _ (inv.borrow_held other borrower borrowed)
    · exact inv.borrow_nodup
    · exact inv.finalizer_task
  · constructor
    · simp [Shared.clone, Activity.holdsStrong]
    · exact own.weak
    · exact own.borrow
    · simp [Activity.finalStage]
    · intro isFinal _
      exact own.done isFinal rfl
  · constructor
    · intro other different
      simp [Shared.clone, different]
    · simp [Shared.clone]
    · simp
    · simp [Shared.clone]
    · simp [Shared.clone]

/-- A strong reference of user code, or of the activation, is dropped. -/
private theorem sound_dropStrong
    {owner : Owner} (inv : MemInv memory)
    (own : TaskInv memory task activity)
    (member : owner ∈ memory.shared.owners)
    (unborrowed : ∀ handle borrower, (handle, borrower) ∈ memory.borrows →
      .token handle ≠ owner)
    (others : ∀ other, other ≠ task → .task other ≠ owner)
    (mine : .task task ≠ owner → activity.holdsStrong = false)
    (free : activity.borrowed = none)
    (strong : activity'.holdsStrong = false)
    (weak : activity'.holdsWeak = activity.holdsWeak)
    (borrowed : activity'.borrowed = none)
    (stage : activity'.finalStage =
      if memory.shared.strong = 1 then some false else none) :
    Sound task memory
      { memory with
        shared := memory.shared.dropStrong owner (.task task) }
      activity' := by
  have undecided := inv.balanced.finalizer_eq_none member
  have kept := inv.balanced.not_dropped member
  refine ⟨?_, ?_, ?_⟩
  · constructor
    · exact inv.balanced.dropStrong member
    · intro name held
      exact inv.handle_lt name (List.mem_of_mem_erase held)
    · exact inv.holder_lt
    · exact inv.holder_nodup
    · exact inv.observed
    · intro handle borrower isBorrowed
      exact inv.balanced.mem_owners_dropStrong.mpr
        ⟨unborrowed handle borrower isBorrowed,
          inv.borrow_held handle borrower isBorrowed⟩
    · exact inv.borrow_nodup
    · intro finisher isFinal
      simp only [Shared.dropStrong, undecided] at isFinal
      split at isFinal
      · cases isFinal
        exact ⟨task, rfl⟩
      · cases isFinal
  · constructor
    · rw [strong, inv.balanced.mem_owners_dropStrong, own.strong]
      simpa using mine
    · rw [weak]
      exact own.weak
    · rw [borrowed, ← free]
      exact own.borrow
    · intro gone isStage
      rw [stage] at isStage
      split at isStage
      · rename_i last
        cases isStage
        refine ⟨?_, kept, inv.balanced.implicit kept⟩
        simp [Shared.dropStrong, last]
      · cases isStage
    · intro isFinal isStage
      rw [stage] at isStage
      split at isStage
      · cases isStage
      · rename_i more
        simp [Shared.dropStrong, more, undecided] at isFinal
  · constructor
    · intro other different
      simp [inv.balanced.mem_owners_dropStrong, others other different]
    · simp [Shared.dropStrong]
    · simp
    · intro other different
      have apart : ¬ task = other := Ne.symm different
      simp only [Shared.dropStrong, undecided]
      split <;> simp [apart]
    · intro other _ isFinal
      rw [undecided] at isFinal
      cases isFinal

private theorem sound_dropValue
    {gone : Bool} (inv : MemInv memory)
    (own : TaskInv memory task (.lastStrong gone)) :
    Sound task memory { memory with shared := memory.shared.dropValue }
      (.dropped gone) := by
  obtain ⟨isFinal, _, implicit⟩ := own.final false rfl
  refine ⟨?_, ?_, ?_⟩
  · constructor
    · exact inv.balanced.dropValue (by simp [isFinal])
    · exact inv.handle_lt
    · exact inv.holder_lt
    · exact inv.holder_nodup
    · exact inv.observed
    · exact inv.borrow_held
    · exact inv.borrow_nodup
    · exact inv.finalizer_task
  · constructor
    · exact own.strong
    · exact own.weak
    · exact own.borrow
    · intro stage isStage
      cases isStage
      exact ⟨isFinal, rfl, implicit⟩
    · intro _ isStage
      cases isStage
  · constructor
    · simp [Shared.dropValue]
    · simp [Shared.dropValue]
    · simp
    · simp [Shared.dropValue]
    · intro other different isOther
      rw [isFinal] at isOther
      cases isOther
      exact absurd rfl different

/-- The weak reference of the strong ones is dropped after the value. -/
private theorem sound_dropImplicit
    {gone : Bool} (inv : MemInv memory)
    (own : TaskInv memory task (.dropped gone)) :
    Sound task memory { memory with shared := memory.shared.dropWeak none }
      (if gone then .weakDrop else .idle) := by
  obtain ⟨isFinal, isDropped, implicit⟩ := own.final true rfl
  refine ⟨?_, ?_, ?_⟩
  · constructor
    · exact inv.balanced.dropWeak implicit (fun _ => isDropped)
    · exact inv.handle_lt
    · exact inv.holder_lt
    · exact inv.holder_nodup
    · intro name
      rw [inv.balanced.mem_observers_dropWeak, inv.observed name]
      simp
    · exact inv.borrow_held
    · exact inv.borrow_nodup
    · exact inv.finalizer_task
  · constructor
    · cases gone <;> exact own.strong
    · rw [inv.balanced.mem_observers_dropWeak, own.weak]
      cases gone <;> simp [Activity.holdsWeak]
    · cases gone <;> exact own.borrow
    · intro stage isStage
      cases gone <;> cases isStage
    · intro _ _
      refine ⟨isDropped, ?_⟩
      rw [inv.balanced.mem_observers_dropWeak]
      simp
  · constructor
    · simp [Shared.dropWeak]
    · simp [inv.balanced.mem_observers_dropWeak]
    · simp
    · simp [Shared.dropWeak]
    · intro other different isOther
      rw [isFinal] at isOther
      cases isOther
      exact absurd rfl different

private theorem sound_dropWeak
    (inv : MemInv memory) (own : TaskInv memory task .weakDrop) :
    Sound task memory
      { memory with shared := memory.shared.dropWeak (some (.task task)) }
      .idle := by
  have member : some (.task task) ∈ memory.shared.observers :=
    own.weak.mpr rfl
  refine ⟨?_, ?_, ?_⟩
  · constructor
    · exact inv.balanced.dropWeak member (by simp)
    · exact inv.handle_lt
    · exact inv.holder_lt
    · exact inv.holder_nodup
    · intro name
      rw [inv.balanced.mem_observers_dropWeak, inv.observed name]
      simp
    · exact inv.borrow_held
    · exact inv.borrow_nodup
    · exact inv.finalizer_task
  · constructor
    · exact own.strong
    · rw [inv.balanced.mem_observers_dropWeak]
      simp [Activity.holdsWeak]
    · exact own.borrow
    · simp [Activity.finalStage]
    · intro isFinal _
      simpa [inv.balanced.mem_observers_dropWeak] using own.done isFinal rfl
  · constructor
    · simp [Shared.dropWeak]
    · intro other different
      simp [inv.balanced.mem_observers_dropWeak, different]
    · simp
    · simp [Shared.dropWeak]
    · simp [inv.balanced.mem_observers_dropWeak]

/-- A step that changes the registry and the status of ids only. -/
private theorem sound_registry
    (registry : Registry.Memory H) (status : HandlerId → Status)
    (inv : MemInv memory) (own : TaskInv memory task activity) :
    Sound task memory
      { memory with registry := registry, status := status } activity :=
  sound_same inv own rfl rfl rfl rfl rfl rfl rfl rfl

private theorem step_sound
    (inv : MemInv memory) (own : TaskInv memory task activity)
    (step : Step task memory activity act memory' activity') :
    Sound task memory memory' activity' := by
  cases step with
  | clone held => exact sound_clone inv own held
  | @dropArc handle held unborrowed =>
      refine sound_dropStrong inv own held ?_ (by simp) (fun _ => rfl) rfl
        ?_ ?_ ?_ ?_
      · rintro other borrower borrowed same
        cases same
        exact unborrowed (List.mem_map.mpr ⟨_, borrowed, rfl⟩)
      all_goals split <;> rfl
  | @register handle kind priority handler registry entry held performed =>
      have kept := sound_registry registry memory.status inv own
      exact kept.trans
        (sound_borrow kept.inv kept.own held rfl rfl rfl rfl)
  | enter held => exact sound_borrow inv own held rfl rfl rfl rfl
  | dropGuard member isGuard =>
      have given := sound_dropGuard inv own member
      exact given.trans (sound_registry _ _ given.inv given.own)
  | forget member isGuard =>
      have given := sound_dropHolder inv own member
      exact given.trans (sound_registry _ _ given.inv given.own)
  | runOnce member isOnce =>
      exact sound_observe inv own
        (List.ne_nil_of_mem (inv.observed_holder member)) rfl rfl rfl rfl rfl
  | dropClosure member isOnce => exact sound_dropHolder inv own member
  | @observe handle entry =>
      have held := inv.borrow_held handle task ((own.borrow handle).mpr rfl)
      have implicit := inv.balanced.implicit (inv.balanced.not_dropped held)
      exact sound_observe inv own (List.ne_nil_of_mem implicit) rfl rfl rfl
        rfl rfl
  | @insertPlain handle entry registry performed =>
      have kept := sound_registry registry
        (Function.update memory.status entry.id .plain) inv own
      exact kept.trans (sound_release kept.inv kept.own rfl rfl rfl rfl)
  | insertGuard performed =>
      exact sound_same inv own rfl rfl rfl rfl rfl rfl rfl rfl
  | @insertOnce handle entry registry performed =>
      have kept := sound_registry registry
        (Function.update memory.status entry.id .once) inv own
      have given := sound_newClosure entry.id kept.inv kept.own
      exact kept.trans (given.trans
        (sound_release given.inv given.own rfl rfl rfl rfl))
  | @newGuard handle id =>
      have given := sound_newGuard inv own
      have kept := sound_registry memory.registry
        (Function.update memory.status id
          (.guarded (.token memory.nextName))) given.inv given.own
      exact given.trans (kept.trans
        (sound_release kept.inv kept.own rfl rfl rfl rfl))
  | unregister performed => exact sound_registry _ _ inv own
  | clear performed => exact sound_registry _ _ inv own
  | leave => exact sound_release inv own rfl rfl rfl rfl
  | @upgradeFails remover id failed =>
      cases remover <;>
        exact sound_same inv own rfl rfl rfl rfl rfl rfl rfl rfl
  | upgrade upgraded => exact sound_upgrade inv own upgraded
  | @remove remover id registry performed =>
      cases remover <;>
        exact sound_same inv own rfl rfl rfl rfl rfl rfl rfl rfl
  | dropStrong =>
      refine sound_dropStrong inv own (own.strong.mpr rfl) (by simp) ?_
        (by simp) rfl ?_ ?_ ?_ ?_
      · intro other different same
        cases same
        exact different rfl
      all_goals split <;> rfl
  | dropValue => exact sound_dropValue inv own
  | dropImplicit => exact sound_dropImplicit inv own
  | dropWeak => exact sound_dropWeak inv own

end Sound

/-- The invariant of the memory together with that of every activation. -/
abbrev Invariant (state : State H) : Prop :=
  Holds MemInv TaskInv state

theorem invariant_initial : Invariant (initial H) := by
  refine ⟨?_, fun task => ?_⟩
  · constructor
    · exact balanced_new _
    all_goals simp [initial, Shared.new]
  · constructor <;>
      simp [initial, Shared.new, Activity.holdsStrong, Activity.holdsWeak,
        Activity.borrowed, Activity.finalStage]

theorem invariant_step
    {state next : State H} {task : Task} {act : Act H}
    (stepped : (program H).step state task act = some next)
    (holds : Invariant state) : Invariant next := by
  have sound : ∀ task memory activity act memory' activity',
      program H task memory activity act = some (memory', activity') →
        MemInv memory → TaskInv memory task activity →
        MemInv memory' ∧ TaskInv memory' task activity' ∧
          Guarantee task memory memory' := by
    intro task memory activity act memory' activity' performed inv own
    have after := step_sound inv own (program_rule performed)
    exact ⟨after.inv, after.own, after.guarantee⟩
  refine relyGuarantee_step sound ?_ stepped holds
  intro actor observer memory memory' activity different _ _ guarantee own
  exact own.stable guarantee (Ne.symm different)

theorem invariant_reachable
    {state : State H} (reachable : (program H).Reachable (initial H) state) :
    Invariant state :=
  reachable_invariant invariant_initial
    (fun _ _ _ _ stepped holds => invariant_step stepped holds) reachable

/-! ### Once and for all -/

/-- The operation drops the registry. -/
def dropsValue (state : State H) (task : Task) (_act : Act H) : Option Unit :=
  match state.threads task with
  | .lastStrong _ => some ()
  | _ => none

/-- The operation drops a weak reference. -/
def Act.dropsWeak : Act H → Bool
  | .forget _ | .dropClosure _ | .dropImplicit | .dropWeak => true
  | _ => false

/-- The operation drops the last weak reference, which releases the memory. -/
def releasesMemory (state : State H) (_task : Task) (act : Act H) :
    Option Unit :=
  if act.dropsWeak ∧ state.memory.shared.weak = 1 then some () else none

section Once

variable {task : Task} {memory memory' : Memory H}
variable {activity activity' : Activity H} {act : Act H}
variable {state : State H}

private theorem dropped_step
    (step : Step task memory activity act memory' activity') :
    memory'.shared.dropped =
      (memory.shared.dropped || activity.finalStage == some false) := by
  cases step with
  | upgrade upgraded =>
      unfold Shared.upgrade at upgraded
      split at upgraded
      · cases upgraded
      · cases upgraded
        simp [Shared.clone, Activity.finalStage]
  | @upgradeFails remover | @remove remover =>
      cases remover <;>
        simp [Memory.removalDone, Memory.mark, Activity.finalStage]
  | _ => simp [Activity.finalStage, Shared.clone, Shared.dropStrong,
      Shared.downgrade, Shared.dropValue, Memory.borrow, Memory.release,
      Memory.mark, Memory.newGuard, Memory.newClosure]

private theorem freed_step
    (step : Step task memory activity act memory' activity') :
    memory'.shared.freed =
      (memory.shared.freed ||
        (act.dropsWeak && memory.shared.weak == 1)) := by
  cases step with
  | upgrade upgraded =>
      unfold Shared.upgrade at upgraded
      split at upgraded
      · cases upgraded
      · cases upgraded
        simp [Shared.clone, Act.dropsWeak]
  | @upgradeFails remover | @remove remover =>
      cases remover <;>
        simp [Memory.removalDone, Memory.mark, Act.dropsWeak]
  | _ => simp [Act.dropsWeak, Shared.clone, Shared.dropStrong, Shared.pass,
      Shared.downgrade, Shared.dropValue, Shared.dropWeak, Memory.borrow,
      Memory.release, Memory.mark, Memory.newGuard,
      Memory.newClosure]

/-- A call in progress and a removal keep the registry. -/
private theorem Invariant.alive_of_call
    (holds : Invariant state)
    (calls : (state.threads task).borrowed ≠ none ∨
      (state.threads task).holdsStrong = true) :
    ∃ owner, owner ∈ state.memory.shared.owners := by
  rcases calls with borrows | strong
  · obtain ⟨handle, isHandle⟩ := Option.ne_none_iff_exists'.mp borrows
    exact ⟨_, holds.1.borrow_held handle task
      (((holds.2 task).borrow handle).mpr isHandle)⟩
  · exact ⟨_, (holds.2 task).strong.mpr strong⟩

/-- Without an owner nothing reaches the registry. -/
theorem registry_frozen
    (inv : MemInv memory) (own : TaskInv memory task activity)
    (step : Step task memory activity act memory' activity')
    (gone : memory.shared.owners = []) :
    memory'.registry = memory.registry ∧ memory'.shared.owners = [] := by
  have nobody : ∀ owner, owner ∉ memory.shared.owners := by
    simp [gone]
  have unborrowed : ∀ handle, activity.borrowed ≠ some handle := by
    intro handle borrows
    exact nobody _
      (inv.borrow_held handle task ((own.borrow handle).mpr borrows))
  cases step with
  | clone held | dropArc held | register held | enter held =>
      exact absurd held (nobody _)
  | observe | insertPlain | insertGuard | insertOnce | newGuard
  | unregister | clear | leave => exact absurd rfl (unborrowed _)
  | upgrade upgraded =>
      rw [inv.balanced.upgrade_eq_none_iff.mpr gone] at upgraded
      cases upgraded
  | remove | dropStrong => exact absurd (own.strong.mpr rfl) (nobody _)
  | @upgradeFails remover id failed => cases remover <;> exact ⟨rfl, gone⟩
  | _ => exact ⟨rfl, gone⟩

/-- After the release of the memory nobody has anything to act with. -/
private theorem not_freed_of_step
    (inv : MemInv memory) (own : TaskInv memory task activity)
    (step : Step task memory activity act memory' activity') :
    memory.shared.freed = false := by
  cases released : memory.shared.freed with
  | false => rfl
  | true =>
      have unobserved := inv.balanced.freed.mp released
      have nothing : ∀ observer, observer ∉ memory.shared.observers := by
        simp [unobserved]
      have nobody : ∀ owner, owner ∉ memory.shared.owners := by
        intro owner member
        rw [inv.balanced.not_freed_of_owner member] at released
        cases released
      have unborrowed : ∀ handle, activity.borrowed ≠ some handle := by
        intro handle borrows
        exact nobody _
          (inv.borrow_held handle task ((own.borrow handle).mpr borrows))
      cases step with
      | clone held | dropArc held | register held | enter held =>
          exact absurd held (nobody _)
      | observe | insertPlain | insertGuard | insertOnce | newGuard
      | unregister | clear | leave => exact absurd rfl (unborrowed _)
      | dropGuard member | forget member | runOnce member
      | dropClosure member =>
          exact absurd (inv.observed_holder member) (nothing _)
      | upgrade | upgradeFails | remove | dropStrong | dropWeak =>
          exact absurd (own.weak.mpr rfl) (nothing _)
      | dropValue => exact absurd (own.final false rfl).2.2 (nothing _)
      | dropImplicit => exact absurd (own.final true rfl).2.2 (nothing _)

/-- The registry is dropped once and its memory is released once. -/
structure Accounted (schedule : List (Task × Act H)) (state : State H) :
    Prop where
  invariant : Invariant state
  values : ((program H).events dropsValue (initial H) schedule).length =
    if state.memory.shared.dropped then 1 else 0
  memory : ((program H).events releasesMemory (initial H) schedule).length =
    if state.memory.shared.freed then 1 else 0

private theorem accounted_exec
    {schedule : List (Task × Act H)}
    (executed : (program H).exec (initial H) schedule = some state) :
    Accounted schedule state := by
  refine exec_induction (P := Accounted) ?_ executed
    ⟨invariant_initial, rfl, rfl⟩
  intro done middle task act next reached stepped before
  obtain ⟨memory', activity', performed, rfl⟩ := step_eq_some stepped
  have step := program_rule performed
  have inv := before.invariant.1
  have own := before.invariant.2 task
  refine ⟨invariant_step stepped before.invariant, ?_, ?_⟩
  · rw [events_snoc reached stepped, List.length_append, before.values,
      dropped_step step]
    cases activity : middle.threads task with
    | lastStrong weak =>
        rw [activity] at own
        have present := (own.final false rfl).2.1
        simp [dropsValue, activity, present, Activity.finalStage]
    | _ => simp [dropsValue, activity, Activity.finalStage]
  · rw [events_snoc reached stepped, List.length_append, before.memory,
      freed_step step]
    have present := not_freed_of_step inv own step
    by_cases last : act.dropsWeak ∧ middle.memory.shared.weak = 1
    · simp [releasesMemory, last, present]
    · have more : (act.dropsWeak && middle.memory.shared.weak == 1) =
          false := by
        simpa using last
      simp [releasesMemory, last, present, more]

end Once

section Results

variable {state : State H}

private theorem registry_frozen_exec
    {schedule : List (Task × Act H)} {last : State H}
    (holds : Invariant state) (gone : state.memory.shared.owners = [])
    (executed : (program H).exec state schedule = some last) :
    last.memory.registry = state.memory.registry ∧
      last.memory.shared.owners = [] := by
  have frozen := exec_invariant
    (P := fun later : State H => Invariant later ∧
      later.memory.registry = state.memory.registry ∧
        later.memory.shared.owners = [])
    ?_ executed ⟨holds, rfl, gone⟩
  · exact frozen.2
  · rintro later task act next stepped ⟨inv, same, none⟩
    obtain ⟨memory', activity', performed, rfl⟩ := step_eq_some stepped
    obtain ⟨kept, still⟩ := registry_frozen inv.1 (inv.2 task)
      (program_rule performed) none
    exact ⟨invariant_step stepped inv, kept.trans same, still⟩

/-- The life of a registry behind an `Arc`, over every run.  It is dropped at
most once and its memory is released at most once.  It is there for as long as
a call or the removal of a guard is in progress.  Once no strong reference is
left, no guard and no call reaches it again, and once its memory is released
nothing can be done with it at all. -/
theorem registry_lifetime
    {schedule : List (Task × Act H)}
    (executed : (program H).exec (initial H) schedule = some state) :
    ((program H).events dropsValue (initial H) schedule).length ≤ 1 ∧
      ((program H).events releasesMemory (initial H) schedule).length ≤ 1 ∧
      (∀ task, (state.threads task).borrowed ≠ none ∨
          (state.threads task).holdsStrong = true →
        0 < state.memory.shared.strong ∧
          state.memory.shared.dropped = false ∧
          state.memory.shared.freed = false) ∧
      (state.memory.shared.strong = 0 → ∀ more last,
        (program H).exec state more = some last →
          last.memory.registry = state.memory.registry ∧
            last.memory.shared.strong = 0) ∧
      (state.memory.shared.freed = true → ∀ task act,
        (program H).step state task act = none) := by
  have accounted := accounted_exec executed
  have holds := accounted.invariant
  have balanced := holds.1.balanced
  refine ⟨?_, ?_, ?_, ?_, ?_⟩
  · rw [accounted.values]
    split <;> omega
  · rw [accounted.memory]
    split <;> omega
  · intro task calls
    obtain ⟨owner, member⟩ := holds.alive_of_call calls
    exact ⟨balanced.strong_pos member, balanced.not_dropped member,
      balanced.not_freed_of_owner member⟩
  · intro none more last continued
    have gone : state.memory.shared.owners = [] := by
      rw [← List.length_eq_zero_iff, ← balanced.strong]
      exact none
    obtain ⟨same, still⟩ := registry_frozen_exec holds gone continued
    have later : Invariant last :=
      exec_invariant
        (fun _ _ _ _ stepped inv => invariant_step stepped inv)
        continued holds
    exact ⟨same, by rw [later.1.balanced.strong, still]; rfl⟩
  · intro released task act
    by_contra possible
    obtain ⟨next, stepped⟩ := Option.ne_none_iff_exists'.mp possible
    obtain ⟨memory', activity', performed, _⟩ := step_eq_some stepped
    have present := not_freed_of_step holds.1 (holds.2 task)
      (program_rule performed)
    rw [released] at present
    cases present

/-- A guard that outlives its registry: the last strong reference is dropped
first, so the upgrade fails. -/
def guardOutlives : List (Task × Act Unit) :=
  [(0, .register 0 .guard 5 ()), (0, .insert), (0, .downgrade),
    (1, .dropArc 0), (1, .dropValue), (1, .dropImplicit), (0, .dropGuard 1),
    (0, .upgrade), (0, .dropWeak)]

theorem registry_lifetime_guard_outlives :
    ∃ state : State Unit,
      (program Unit).exec (initial Unit) guardOutlives = some state ∧
        state.memory.shared.freed = true ∧
        ∀ task act, (program Unit).step state task act = none := by
  have evaluated :
      ((program Unit).exec (initial Unit) guardOutlives).map
          (fun state => state.memory.shared.freed) = some true := by
    decide +kernel
  obtain ⟨state, run, released⟩ := Option.map_eq_some_iff.mp evaluated
  exact ⟨state, run, released,
    (registry_lifetime run).2.2.2.2 released⟩

/-- Nothing leaks.  When user code has dropped all strong references and no
activation is in progress, the registry is dropped; when there is no guard and
no one-shot closure left either, the memory is released. -/
theorem nothing_leaks
    (reachable : (program H).Reachable (initial H) state)
    (idle : ∀ task, state.threads task = .idle)
    (unowned : ∀ handle, .token handle ∉ state.memory.shared.owners) :
    state.memory.shared.dropped = true ∧
      (state.memory.holders = [] → state.memory.shared.freed = true) := by
  have holds := invariant_reachable reachable
  have balanced := holds.1.balanced
  have gone : state.memory.shared.owners = [] := by
    apply List.eq_nil_iff_forall_not_mem.mpr
    intro owner member
    cases owner with
    | token handle => exact unowned handle member
    | task task =>
        have strong := (holds.2 task).strong.mp member
        rw [idle task] at strong
        cases strong
  have decided : state.memory.shared.finalizer ≠ none := by
    intro undecided
    exact balanced.finalizer.mp undecided gone
  obtain ⟨owner, isOwner⟩ := Option.ne_none_iff_exists'.mp decided
  obtain ⟨task, rfl⟩ := holds.1.finalizer_task owner isOwner
  have done := (holds.2 task).done isOwner (by rw [idle task]; rfl)
  refine ⟨done.1, fun unheld => ?_⟩
  apply balanced.freed.mpr
  apply List.eq_nil_iff_forall_not_mem.mpr
  intro observer member
  cases observer with
  | none => exact done.2 member
  | some observer =>
      cases observer with
      | token name =>
          have listed := (holds.1.observed name).mp member
          rw [unheld] at listed
          cases listed
      | task other =>
          have weak := (holds.2 other).weak.mp member
          rw [idle other] at weak
          cases weak

theorem nothing_leaks_guard_outlives :
    ∃ state : State Unit,
      (program Unit).exec (initial Unit) guardOutlives = some state ∧
        (∀ task, state.threads task = .idle) ∧
        state.memory.shared.dropped = true ∧
        state.memory.shared.freed = true := by
  have evaluated :
      ((program Unit).exec (initial Unit) guardOutlives).map
          (fun state => (state.memory.shared.owners, state.memory.holders,
            state.threads 0, state.threads 1)) =
        some ([], [], .idle, .idle) := by
    decide +kernel
  obtain ⟨state, run, view⟩ := Option.map_eq_some_iff.mp evaluated
  simp only [Prod.mk.injEq] at view
  obtain ⟨owners, holders, first, second⟩ := view
  have idle : ∀ task, state.threads task = .idle := by
    intro task
    by_cases zero : task = 0
    · rw [zero, first]
    · by_cases one : task = 1
      · rw [one, second]
      · rw [exec_threads run (by
          simp [guardOutlives, Ne.symm zero, Ne.symm one])]
        rfl
  obtain ⟨dropped, released⟩ :=
    nothing_leaks ⟨_, run⟩ idle (by simp [owners])
  exact ⟨state, run, idle, dropped, released holders⟩

end Results

end RegistryIo.Guard
