import RegistryIo.Snapshot.HazardSafety
import RegistryIo.Snapshot.ThreadLocals

/-!
# Waiting for readers

What `unregister_and_wait` and `clear_and_wait` guarantee when they return,
and how waiters can wait for each other.
-/

namespace RegistryIo.Snapshot

open RegistryIo.Interleaving

section Closures

variable {state next : State} {thread : Tid} {act : Act} {call : CallId}
variable {cell : CellId} {handler : Nat} {claim : Claim} {body : Body}

/-- The call inside a closure owns a frame that knows its value. -/
private theorem Invariant.inside_frame
    (holds : Invariant state)
    (inside : stageOf state call = some (.inside claim body)) :
    ∃ frame, frameOf state call = some frame ∧
      frame.stage = .inside claim body ∧ FrameOk state.memory call frame := by
  obtain ⟨frame, found, stage⟩ := Option.map_eq_some_iff.mp inside
  exact ⟨frame, found, stage, holds.frameOk found⟩

theorem Invariant.version_lt
    (holds : Invariant state)
    (inside : stageOf state call = some (.inside claim body)) :
    claim.version < state.memory.store.versions := by
  obtain ⟨frame, _, stage, ok⟩ := holds.inside_frame inside
  have uses : ∃ address, frame.inUse = some (address, claim) := by
    rcases Frame.of_inside stage with ⟨address, pin, rfl⟩ | ⟨address, rfl⟩
    · exact ⟨address, rfl⟩
    · exact ⟨address, rfl⟩
  obtain ⟨address, uses⟩ := uses
  exact (ok.refers holds.1 uses).version_lt holds.1

theorem Invariant.remaining_suffix
    (holds : Invariant state)
    (inside : stageOf state call = some (.inside claim body)) :
    body.remaining <:+ state.memory.store.values claim.version := by
  obtain ⟨frame, _, stage, ok⟩ := holds.inside_frame inside
  exact ok.remaining_suffix stage

/-- A removed handler is not in the current list. -/
private theorem Invariant.notMem_current
    (holds : Invariant state)
    (alive : (state.memory.store.cells cell).phase = .alive)
    (removed : (state.memory.store.cells cell).status handler = .removed) :
    handler ∉ handlersOf
      (state.memory.store.values (state.memory.store.cells cell).version) := by
  intro member
  have live := (((holds.1.store.cells cell).list_ok alive).live_iff
    handler).mp member
  rw [removed] at live
  cases live

/-- Closures of some threads keep a property of their list and their position
once a handler is removed: they may only start on the current list, which does
not have the handler. -/
structure Shielded (cell : CellId) (handler : Nat) (among : Tid → Prop)
    (Q : List Entry → Body → Prop) (state : State) : Prop where
  invariant : Invariant state
  removed : (state.memory.store.cells cell).status handler = .removed
  closures : ∀ call claim body, among call.thread → claim.cell = cell →
    stageOf state call = some (.inside claim body) →
      Q (state.memory.store.values claim.version) body

theorem Shielded.step
    {among : Tid → Prop} {Q : List Entry → Body → Prop}
    (starts : ∀ notify list, handler ∉ handlersOf list →
      Q list (Body.start notify list))
    (walks : ∀ list body body' act, bodyStep body act = some body' →
      Q list body → Q list body')
    (shielded : Shielded cell handler among Q state)
    (stepped : program.step state thread act = some next) :
    Shielded cell handler among Q next := by
  have holds := shielded.invariant
  obtain ⟨actor, gained, lost, advance⟩ := step_advance holds stepped
  refine ⟨invariant_step stepped holds,
    (advance.store.cells cell).removed handler shielded.removed, ?_⟩
  intro call claim body member isCell after
  rcases inside_step holds stepped after with
    ⟨old, before, moved⟩ | ⟨alive, isVersion, notify, rfl⟩
  · have earlier := shielded.closures call claim old member isCell before
    rw [advance.store.values _ (holds.version_lt before)]
    rcases moved with rfl | moved
    · exact earlier
    · exact walks _ old body act moved earlier
  · subst isCell
    have current := holds.notMem_current alive shielded.removed
    rw [← isVersion] at current
    have known : claim.version < state.memory.store.versions := by
      rw [isVersion]
      exact holds.1.store.version_lt_versions alive
    rw [advance.store.values _ known]
    exact starts notify _ current

/-- A run only invokes entries at positions that have the property. -/
theorem Shielded.invoked
    {among : Tid → Prop} {Q : List Entry → Body → Prop}
    (starts : ∀ notify list, handler ∉ handlersOf list →
      Q list (Body.start notify list))
    (walks : ∀ list body body' act, bodyStep body act = some body' →
      Q list body → Q list body')
    (shielded : Shielded cell handler among Q state)
    {schedule : List (Tid × Act)} {entry : Entry}
    (member : .invoked call cell entry ∈
      program.events observe state schedule)
    (isAmong : among call.thread) :
    ∃ list pending, Q list (.dispatch (entry :: pending)) ∧
      entry :: pending <:+ list := by
  refine events_forall
    (Q := fun event => ∀ call entry, event = .invoked call cell entry →
      among call.thread →
        ∃ list pending, Q list (.dispatch (entry :: pending)) ∧
          entry :: pending <:+ list)
    ?_ schedule shielded _ member call entry rfl isAmong
  intro state thread act next stepped shielded
  refine ⟨shielded.step starts walks stepped, ?_⟩
  rintro event emitted call entry rfl isAmong
  obtain ⟨_, version, pending, inside⟩ := observe_invoked emitted
  exact ⟨_, pending,
    shielded.closures call ⟨cell, version⟩ _ isAmong rfl inside,
    shielded.invariant.remaining_suffix inside⟩

/-- No closure of the threads works on a list with the handler. -/
theorem Shielded.not_invoked
    {among : Tid → Prop}
    (shielded : Shielded cell handler among
      (fun list _ => handler ∉ handlersOf list) state)
    {schedule : List (Tid × Act)} {entry : Entry}
    (member : .invoked call cell entry ∈
      program.events observe state schedule)
    (isAmong : among call.thread) :
    entry.handler ≠ handler := by
  obtain ⟨list, pending, absent, suffix⟩ := shielded.invoked
    (fun _ _ absent => absent) (fun _ _ _ _ _ absent => absent) member
    isAmong
  rintro rfl
  exact absent (List.mem_map_of_mem (suffix.subset List.mem_cons_self))

end Closures

section Guarantee

variable {state : State} {waiter call : CallId} {cell : CellId}
variable {onFallback : Bool} {removed : List Nat} {handler : Nat}
variable {claim : Claim} {body : Body}

/-- A call that is not suspended in user code is on top of its stack. -/
theorem Invariant.top_of_not_user
    {frame : Frame} (holds : Invariant state)
    (found : frameOf state call = some frame)
    (running : frame.isUser = false) :
    (state.threads call.thread).stack.head? = some frame := by
  have bound : call.depth < (state.threads call.thread).stack.length := by
    by_contra beyond
    unfold frameOf at found
    rw [frameAt_eq_none_iff.mpr (Nat.le_of_not_lt beyond)] at found
    cases found
  by_cases below :
      call.depth + 1 < (state.threads call.thread).stack.length
  · have suspended := holds.isUser_of_lt found below
    rw [running] at suspended
    cases suspended
  · unfold frameOf at found
    cases shape : (state.threads call.thread).stack with
    | nil =>
        rw [shape] at bound
        simp at bound
    | cons top rest =>
        rw [shape] at found bound below
        have level : call.depth = rest.length := by
          simp only [List.length_cons] at bound below
          omega
        rw [level, frameAt_length] at found
        exact found

/-- What a finished wait knows. -/
theorem Invariant.outcomeOk
    {outcome : Outcome} (holds : Invariant state)
    (returns : frameOf state waiter = some (.returned cell outcome)) :
    OutcomeOk state.memory cell waiter.thread outcome :=
  (holds.frameOk returns).facts

/-- When a wait returns, no other thread announces a list with a removed
handler. -/
private theorem reading_excluded
    {address : Addr} {version : Nat} {pin : Pin} (holds : Invariant state)
    (returns : frameOf state waiter =
      some (.returned cell (.waited onFallback removed)))
    (member : handler ∈ removed) (other : call.thread ≠ waiter.thread)
    (found : frameOf state call =
      some (.reading cell address version pin body)) :
    handler ∉ handlersOf (state.memory.store.values version) := by
  intro contained
  obtain ⟨_, _, unblocked⟩ := holds.outcomeOk returns
  have announces := (holds.frameOk found).facts.1
  exact unblocked pin.record pin.index address
    ⟨_, _, announces, rfl, other, rfl, rfl, handler, member, contained⟩

/-- The entry whose handler is running. -/
def Body.running : Body → Option Entry
  | .handler entry _ => some entry
  | _ => none

/-- Another thread is inside an invocation of the handler. -/
def RunsElsewhere (state : State) (cell : CellId) (thread : Tid)
    (handler : Nat) : Prop :=
  ∃ call claim body entry, call.thread ≠ thread ∧ claim.cell = cell ∧
    stageOf state call = some (.inside claim body) ∧
    body.running = some entry ∧ entry.handler = handler

/-- Another thread is inside an invocation of the handler, and its dispatch is
a fallback read. -/
def RunsOnFallback (state : State) (cell : CellId) (thread : Tid)
    (handler : Nat) : Prop :=
  ∃ call address version body entry, call.thread ≠ thread ∧
    frameOf state call =
      some (.fallbackReading cell address version body) ∧
    body.running = some entry ∧ entry.handler = handler

private theorem Body.running_mem
    {entry : Entry} (running : body.running = some entry) :
    entry ∈ body.remaining := by
  cases body with
  | handler current pending =>
      cases running
      exact List.mem_cons_self
  | _ => cases running

/-- When a wait returns, whatever the fallback depth of the waiter, a removed
handler can be running on another thread only inside a fallback read. -/
theorem wait_excludes_iff
    (reachable : program.Reachable initial state)
    (returns : frameOf state waiter =
      some (.returned cell (.waited onFallback removed)))
    (member : handler ∈ removed) :
    ¬ RunsElsewhere state cell waiter.thread handler ↔
      ¬ RunsOnFallback state cell waiter.thread handler := by
  have holds := invariant_reachable reachable
  refine not_congr ⟨?_, ?_⟩
  · rintro ⟨call, claim, body, entry, other, rfl, inside, running, rfl⟩
    obtain ⟨frame, found, stage, _⟩ := holds.inside_frame inside
    rcases Frame.of_inside stage with ⟨address, pin, rfl⟩ | ⟨address, rfl⟩
    · refine absurd ?_
        (reading_excluded holds returns member other found)
      exact List.mem_map_of_mem
        ((holds.remaining_suffix inside).subset (Body.running_mem running))
    · exact ⟨call, address, claim.version, body, entry, other, found,
        running, rfl⟩
  · rintro ⟨call, address, version, body, entry, other, found, running,
      isHandler⟩
    refine ⟨call, ⟨cell, version⟩, body, entry, other, rfl, ?_, running,
      isHandler⟩
    unfold stageOf
    rw [found]
    rfl

end Guarantee

/-- A dispatch up to the invocation of its first handler. -/
def dispatching (thread : Tid) (cell : CellId) (count : Nat) :
    List (Tid × Act) :=
  (thread, .call cell (.read true)) :: nexts thread count ++
    [(thread, .invoke)]

/-- Eight nested dispatches of cell `1`, then one of cell `0`, which finds no
free slot. -/
def nestedDispatch (thread : Tid) (count : Nat) : List (Tid × Act) :=
  dispatching thread 1 count ++
    (List.replicate 7 (dispatching thread 1 3)).flatten ++
    dispatching thread 0 7

/-- Both threads are in a ninth nested dispatch: thread `1` inside the second
handler of cell `0`, thread `0` inside the first one, from where it removes
the second and waits. -/
def deepWait : List (Tid × Act) :=
  (0, .newCell 0 100) :: (0, .newCell 1 200) ::
    registration 0 0 1 101 9 ++ registration 0 0 0 102 9 ++
    registration 0 1 0 201 9 ++
    nestedDispatch 1 8 ++ (1, .handlerReturns) :: (1, .invoke) ::
    nestedDispatch 0 10 ++
    (0, .call 0 (.unregister ⟨2⟩ true)) :: nexts 0 1 ++
    (0, .alloc 103) :: nexts 0 31

/-- A wait can return while the removed handler runs on another thread. -/
theorem deep_wait_returns_early :
    ∃ state, program.exec initial deepWait = some state ∧
      frameOf state ⟨0, 9⟩ = some (.returned 0 (.waited true [1])) ∧
      0 < (state.threads 0).tls.fallbackDepth ∧
      RunsElsewhere state 0 0 1 := by
  have evaluated :
      (program.exec initial deepWait).map
          (fun state => (frameOf state ⟨0, 9⟩,
            (state.threads 0).tls.fallbackDepth, stageOf state ⟨1, 8⟩)) =
        some (some (.returned 0 (.waited true [1])), 1,
          some (.inside ⟨0, 3⟩ (.handler ⟨⟨2⟩, 0, 1⟩ []))) := by
    decide +kernel
  obtain ⟨state, reached, view⟩ := Option.map_eq_some_iff.mp evaluated
  obtain ⟨returns, view⟩ := Prod.mk.inj view
  obtain ⟨deep, inside⟩ := Prod.mk.inj view
  refine ⟨state, reached, returns, by omega, ⟨1, 8⟩, _, _, _, ?_, ?_, inside,
    rfl, rfl⟩
  · decide
  · rfl

theorem wait_excludes_iff_nested :
    ∃ state, program.exec initial deepWait = some state ∧
      frameOf state ⟨0, 9⟩ = some (.returned 0 (.waited true [1])) ∧
      (¬ RunsElsewhere state 0 0 1 ↔ ¬ RunsOnFallback state 0 0 1) := by
  have evaluated :
      (program.exec initial deepWait).map
          (fun state => frameOf state ⟨0, 9⟩) =
        some (some (.returned 0 (.waited true [1]))) := by
    decide +kernel
  obtain ⟨state, reached, returns⟩ := Option.map_eq_some_iff.mp evaluated
  exact ⟨state, reached, returns,
    wait_excludes_iff ⟨deepWait, reached⟩ returns List.mem_cons_self⟩

section MutualWaiting

variable {state : State} {cell : CellId} {thread blocker : Tid}

/-- The threads whose announcements and fallback reads fail the exit check of
`wait_for_retired_readers` for a thread that waits on the cell. -/
def blockers (state : State) (cell : CellId) (thread : Tid) : List Tid :=
  let locals := state.threads thread
  let snap := state.memory.store.cells cell
  let domain := state.memory.domain
  (if 0 < locals.tls.fallbackDepth then []
    else snap.fallbackActive.map CallId.thread) ++
  (domain.published.filter fun record =>
      decide (locals.tls.record ≠ some record)).flatMap fun record =>
    ((List.range SLOTS).filterMap (domain.slot record)).filterMap
      fun announcement =>
        if announcement.address ∈ snap.retired then
          some announcement.call.thread
        else none

/-- The thread is inside `wait_for_retired_readers` of the cell. -/
def Waits (state : State) (cell : CellId) (thread : Tid) : Prop :=
  ∃ removed step rest,
    (state.threads thread).stack = .waiting cell removed step :: rest

/-- A set of waiters whose exit checks fail, and fail only because of each
other. -/
structure MutualWait (state : State) (cell : CellId)
    (waiters : Set Tid) : Prop where
  nonempty : waiters.Nonempty
  waits : ∀ thread ∈ waiters, Waits state cell thread
  blocked : ∀ thread ∈ waiters, blockers state cell thread ≠ []
  closed : ∀ thread ∈ waiters, ∀ blocker ∈ blockers state cell thread,
    blocker ∈ waiters

/-- The thread called the wait from inside a read of the cell: from a closure,
or from a destructor at the end of a fallback read. -/
def WaitsInsideRead (state : State) (cell : CellId) (thread : Tid) : Prop :=
  ∃ call, call.thread = thread ∧
    ((∃ claim body, claim.cell = cell ∧
        stageOf state call = some (.inside claim body)) ∨
      frameOf state call = some (.leaveFallback cell))

/-- The suspended frames with an announcement. -/
theorem Frame.pin_of_isUser
    {frame : Frame} {pin : Pin} (isUser : frame.isUser)
    (pinned : .pin pin ∈ frame.holding) :
    ∃ cell address version body,
      frame = .reading cell address version pin body := by
  cases frame with
  | reading cell address version own body =>
      have same : pin = own := by simpa [Frame.holding] using pinned
      exact ⟨cell, address, version, body, by rw [same]⟩
  | fallbackReading cell address version body =>
      simp [Frame.holding] at pinned
  | leaveFallback cell => simp [Frame.holding] at pinned
  | dropping cell collector freed =>
      cases collector <;>
        simp [Frame.holding, Collector.active, Collector.holding] at pinned
  | _ => cases isUser

/-- The suspended frames that are counted as fallback readers. -/
private theorem Frame.fallback_of_isUser
    {frame : Frame} (isUser : frame.isUser)
    (member : .fallback cell ∈ frame.holding) :
    (∃ address version body,
        frame = .fallbackReading cell address version body) ∨
      frame = .leaveFallback cell := by
  cases frame with
  | reading other address version pin body =>
      simp [Frame.holding] at member
  | fallbackReading other address version body =>
      have same : cell = other := by simpa [Frame.holding] using member
      exact Or.inl ⟨address, version, body, by rw [same]⟩
  | leaveFallback other =>
      have same : cell = other := by simpa [Frame.holding] using member
      exact Or.inr (by rw [same])
  | dropping other collector freed =>
      cases collector <;>
        simp [Frame.holding, Collector.active, Collector.holding] at member
  | _ => cases isUser

/-- The frames of a waiting thread: the wait itself, and suspended ones. -/
private theorem Waits.frame_cases
    {call : CallId} {frame : Frame} (holds : Invariant state)
    (waits : Waits state cell call.thread)
    (found : frameOf state call = some frame) :
    (∃ removed step, frame = .waiting cell removed step) ∨
      frame.isUser := by
  obtain ⟨removed, step, rest, shape⟩ := waits
  have suspended := (holds.2 call.thread).suspended
  have member := mem_of_frameAt found
  rw [shape] at member suspended
  rcases List.mem_cons.mp member with same | below
  · exact Or.inl ⟨removed, step, same⟩
  · exact Or.inr (suspended frame below)

/-- A waiter that announces a retired value does so from inside a read of the
cell. -/
private theorem insideRead_of_announcement
    {record : RecordId} {index : Nat} {announcement : Announcement}
    (holds : Invariant state)
    (waits : Waits state cell announcement.call.thread)
    (used : state.memory.domain.slot record index = some announcement)
    (retired : announcement.address ∈
      (state.memory.store.cells cell).retired) :
    WaitsInsideRead state cell announcement.call.thread := by
  have held : state.memory.Held announcement.call (.pin ⟨record, index⟩) := by
    simp [Memory.Held, used]
  obtain ⟨frame, found, pinned⟩ := holds.frame_of_held held
  rcases waits.frame_cases holds found with ⟨removed, step, rfl⟩ | isUser
  · cases step <;> simp [Frame.holding, WaitStep.holding] at pinned
  · obtain ⟨other, address, version, body, rfl⟩ :=
      Frame.pin_of_isUser isUser pinned
    have announces := (holds.frameOk found).facts.1
    have shape := Option.some.inj (used.symm.trans announces)
    obtain ⟨inner, stored, isCell, _⟩ := Announces.found holds.1 announces
    obtain ⟨inner', stored', isCell', _⟩ :=
      holds.1.store.mem_retired_iff.mp retired
    rw [shape, stored] at stored'
    cases stored'
    refine ⟨announcement.call, rfl, Or.inl ⟨⟨other, version⟩, body,
      isCell.symm.trans isCell', ?_⟩⟩
    unfold stageOf
    rw [found]
    rfl

/-- A waiter that is counted as a fallback reader is inside a read of the
cell. -/
private theorem insideRead_of_fallback
    {call : CallId} (holds : Invariant state)
    (waits : Waits state cell call.thread)
    (counted : call ∈
      (state.memory.store.cells cell).fallbackActive) :
    WaitsInsideRead state cell call.thread := by
  have held : state.memory.Held call (.fallback cell) := counted
  obtain ⟨frame, found, member⟩ := holds.frame_of_held held
  rcases waits.frame_cases holds found with ⟨removed, step, rfl⟩ | isUser
  · cases step <;> simp [Frame.holding, WaitStep.holding] at member
  · rcases Frame.fallback_of_isUser isUser member with
      ⟨address, version, body, rfl⟩ | rfl
    · refine ⟨call, rfl, Or.inl ⟨⟨cell, version⟩, body, rfl, ?_⟩⟩
      unfold stageOf
      rw [found]
      rfl
    · exact ⟨call, rfl, Or.inr found⟩

/-- What makes a blocker a blocker. -/
theorem mem_blockers
    (member : blocker ∈ blockers state cell thread) :
    ((state.threads thread).tls.fallbackDepth = 0 ∧
        ∃ call ∈ (state.memory.store.cells cell).fallbackActive,
          call.thread = blocker) ∨
      ∃ record index announcement,
        (state.threads thread).tls.record ≠ some record ∧
          state.memory.domain.slot record index = some announcement ∧
          announcement.address ∈ (state.memory.store.cells cell).retired ∧
          announcement.call.thread = blocker := by
  rcases List.mem_append.mp member with fallback | announced
  · split at fallback
    · cases fallback
    · rename_i shallow
      obtain ⟨call, counted, isThread⟩ := List.mem_map.mp fallback
      exact Or.inl ⟨by omega, call, counted, isThread⟩
  · obtain ⟨record, listed, found⟩ := List.mem_flatMap.mp announced
    obtain ⟨announcement, used, shape⟩ := List.mem_filterMap.mp found
    obtain ⟨index, _, isSlot⟩ := List.mem_filterMap.mp used
    split at shape
    · rename_i retired
      cases shape
      refine Or.inr ⟨record, index, announcement, ?_, isSlot, retired, rfl⟩
      simpa using (List.mem_filter.mp listed).2
    · cases shape

/-- A waiter does not block itself. -/
theorem blocker_ne
    (reachable : program.Reachable initial state)
    (member : blocker ∈ blockers state cell thread) : blocker ≠ thread := by
  have holds := invariant_reachable reachable
  have locals := tlsOk_reachable reachable thread
  rcases mem_blockers member with
    ⟨shallow, call, counted, rfl⟩ |
    ⟨record, index, announcement, foreign, used, _, rfl⟩
  · rintro rfl
    have held : state.memory.Held call (.fallback cell) := counted
    obtain ⟨frame, found, listed⟩ := holds.frame_of_held held
    have none := locals.depth
    rw [shallow, eq_comm, List.countP_eq_zero] at none
    exact none frame (mem_of_frameAt found)
      (Frame.inFallback_of_holding listed)
  · rintro rfl
    have held : state.memory.Held announcement.call
        (.pin ⟨record, index⟩) := by
      simp [Memory.Held, used]
    obtain ⟨frame, found, listed⟩ := holds.frame_of_held held
    exact foreign (locals.pins frame (mem_of_frameAt found) _
      (Frame.pinned_of_holding listed))

/-- A blocker that waits itself does so from inside a read of the cell. -/
private theorem insideRead_of_blocker
    (holds : Invariant state)
    (member : blocker ∈ blockers state cell thread)
    (waits : Waits state cell blocker) :
    WaitsInsideRead state cell blocker := by
  rcases mem_blockers member with
    ⟨_, call, counted, rfl⟩ |
    ⟨record, index, announcement, _, used, retired, rfl⟩
  · exact insideRead_of_fallback holds waits counted
  · exact insideRead_of_announcement holds waits used retired

/-- Waiters can wait for each other only if at least two of them called the
wait from inside a read of the cell. -/
theorem mutual_wait_inside_reads
    {waiters : Set Tid} (reachable : program.Reachable initial state)
    (stuck : MutualWait state cell waiters) :
    ∃ first ∈ waiters, ∃ second ∈ waiters, first ≠ second ∧
      WaitsInsideRead state cell first ∧
      WaitsInsideRead state cell second := by
  have holds := invariant_reachable reachable
  have blocked : ∀ thread ∈ waiters, ∃ blocker ∈ waiters,
      blocker ≠ thread ∧ WaitsInsideRead state cell blocker := by
    intro thread member
    obtain ⟨blocker, blocks⟩ :=
      List.exists_mem_of_ne_nil _ (stuck.blocked thread member)
    have included := stuck.closed thread member blocker blocks
    exact ⟨blocker, included, blocker_ne reachable blocks,
      insideRead_of_blocker holds blocks (stuck.waits blocker included)⟩
  obtain ⟨thread, member⟩ := stuck.nonempty
  obtain ⟨first, firstMember, _, firstInside⟩ := blocked thread member
  obtain ⟨second, secondMember, different, secondInside⟩ :=
    blocked first firstMember
  exact ⟨first, firstMember, second, secondMember, different.symm,
    firstInside, secondInside⟩

end MutualWaiting

/-- Two threads are inside the first handler of the same list; each removes a
handler and waits for the other to leave the list. -/
def crossedWaits : List (Tid × Act) :=
  (0, .newCell 0 100) :: registration 0 0 1 101 9 ++
    registration 0 0 0 102 9 ++ dispatching 0 0 8 ++ dispatching 1 0 10 ++
    (0, .call 0 (.unregister ⟨1⟩ true)) :: nexts 0 1 ++
    (0, .alloc 103) :: nexts 0 26 ++
    (1, .call 0 (.unregister ⟨2⟩ true)) :: nexts 1 1 ++
    (1, .alloc 104) :: nexts 1 27

private theorem crossedWaits_view :
    (program.exec initial crossedWaits).map
        (fun state => ((state.threads 0).stack.head?,
          (state.threads 1).stack.head?, blockers state 0 0,
          blockers state 0 1)) =
      some (some (.waiting 0 [0] (.checkFallback false)),
        some (.waiting 0 [1] (.checkFallback false)), [1], [0]) := by
  decide +kernel

private theorem crossedWaits_stuck :
    ∃ state, program.exec initial crossedWaits = some state ∧
      MutualWait state 0 {0, 1} := by
  obtain ⟨state, reached, view⟩ :=
    Option.map_eq_some_iff.mp crossedWaits_view
  simp only [Prod.mk.injEq] at view
  obtain ⟨first, second, blocksFirst, blocksSecond⟩ := view
  have waits : ∀ thread removed step,
      (state.threads thread).stack.head? =
        some (.waiting 0 removed step) → Waits state 0 thread := by
    intro thread removed step isTop
    obtain ⟨rest, shape⟩ := List.head?_eq_some_iff.mp isTop
    exact ⟨removed, step, rest, shape⟩
  refine ⟨state, reached, ⟨0, by simp⟩, ?_, ?_, ?_⟩
  · rintro thread (rfl | rfl)
    · exact waits _ _ _ first
    · exact waits _ _ _ second
  · rintro thread (rfl | rfl)
    · simp [blocksFirst]
    · simp [blocksSecond]
  · rintro thread (rfl | rfl)
    · simp [blocksFirst]
    · simp [blocksSecond]

/-- Mutual waiting is possible. -/
theorem mutual_wait_reachable :
    ∃ state waiters, program.Reachable initial state ∧
      MutualWait state 0 waiters := by
  obtain ⟨state, reached, stuck⟩ := crossedWaits_stuck
  exact ⟨state, {0, 1}, ⟨crossedWaits, reached⟩, stuck⟩

theorem mutual_wait_inside_reads_crossed :
    ∃ state, program.exec initial crossedWaits = some state ∧
      ∃ first second, first ≠ second ∧ WaitsInsideRead state 0 first ∧
        WaitsInsideRead state 0 second := by
  obtain ⟨state, reached, stuck⟩ := crossedWaits_stuck
  obtain ⟨first, _, second, _, different, firstInside, secondInside⟩ :=
    mutual_wait_inside_reads ⟨crossedWaits, reached⟩ stuck
  exact ⟨state, reached, first, second, different, firstInside,
    secondInside⟩

end RegistryIo.Snapshot
