import RegistryIo.Atomic.Abstraction
import RegistryIo.Foundations.Refinement
import RegistryIo.Snapshot.Linearization

/-!
# The program refines the atomic machine

Every run of the program is, for the user code around it, a run of the machine
in which every operation takes effect in one step.  The step in which a read
takes effect is its validating load, or the release of the writer lock on the
slow path; a write takes effect when it stores the new pointer, or when it
finds out under the lock that there is nothing to change.  All other steps
answer to no step of the atomic machine.
-/

namespace RegistryIo.Snapshot

open RegistryIo.Interleaving
open RegistryIo.Atomic
  (Answer Activation Registry activationStep insideStep_end insideStep_body)

/-- What user code sees of a step of the innermost call. -/
def Frame.callEvent (memory : Memory) (call : CallId) :
    Frame → Act → Option Atomic.Event
  | .validate cell (.read _) address _, .next =>
      if (memory.store.cells cell).current = address then
        some (.opened call cell (memory.store.deref address))
      else none
  | .locked cell (.read _) (.unlock address _), .next =>
      some (.opened call cell (memory.store.deref address))
  | .reading cell _ _ _ body, act => some (.moved call cell body act)
  | .fallbackReading cell _ _ body, act => some (.moved call cell body act)
  | .keeping cell address _ _, .keep accepted =>
      some (.tested call cell (memory.store.deref address) accepted)
  | .lockedKeep cell address _, .keep accepted =>
      some (.tested call cell (memory.store.deref address) accepted)
  | .handOver cell address, .next =>
      some (.handed call cell (memory.store.deref address))
  | .returned cell outcome, .next =>
      some (.returned call cell outcome.answer)
  | _, _ => none

/-- A write takes effect when the new pointer is stored, or under the lock
when there is nothing to change. -/
def Frame.point (memory : Memory) (call : CallId) :
    Frame → Act → Option Atomic.Point
  | .draw _ _, .next => some (.drew call)
  | .compute _ _ _, .next => some (.wrote call)
  | .installing _ _ _ _, .next => some (.wrote call)
  | frame, act => (frame.callEvent memory call act).map .seen

/-- What user code sees of a step of a thread. -/
def observeCalls (state : State) (thread : Tid) (act : Act) :
    Option Atomic.Event :=
  match act with
  | .newCell cell _ => some (.created cell)
  | .dropCell cell => some (.dropped cell)
  | .call cell operation =>
      some (.called ⟨thread, (state.threads thread).stack.length⟩ cell
        operation)
  | .dropHandle _ _ => none
  | .exitThread => none
  | act =>
      match (state.threads thread).stack with
      | [] => none
      | frame :: rest => frame.callEvent state.memory ⟨thread, rest.length⟩ act

/-- What user code sees and where ids are drawn and writes take effect. -/
def observePoints (state : State) (thread : Tid) (act : Act) :
    Option Atomic.Point :=
  match act with
  | .newCell _ _ | .dropCell _ | .call _ _ | .dropHandle _ _ | .exitThread =>
      (observeCalls state thread act).map .seen
  | act =>
      match (state.threads thread).stack with
      | [] => none
      | frame :: rest => frame.point state.memory ⟨thread, rest.length⟩ act

theorem observePoints_event (state : State) (thread : Tid) (act : Act) :
    (observePoints state thread act).bind Atomic.Point.event =
      observeCalls state thread act := by
  have seen : ∀ event : Option Atomic.Event,
      (event.map Atomic.Point.seen).bind Atomic.Point.event = event := by
    rintro (_ | event) <;> rfl
  cases act with
  | newCell | dropCell | call | dropHandle | exitThread =>
      simp only [observePoints]
      exact seen _
  | _ =>
      simp only [observePoints, observeCalls]
      split
      · rfl
      · unfold Frame.point
        split
        · rfl
        · rfl
        · rfl
        · exact seen _

def CellsStand (store : Store) (atomic : Atomic.Memory) : Prop :=
  ∀ cell, CellStands store.values (store.cells cell) (atomic cell)

section Cells

variable {memory memory' : Memory} {actor : CallId}
variable {gained lost : List Holding} {atomic : Atomic.Memory}
variable (inv : MemInv memory)
variable (advance : Advance actor gained lost memory memory')

include inv advance

/-- A cell of which nothing changes that its registry shows. -/
private theorem CellStands.of_face
    {cell : CellId} {registry : Registry}
    (stands : CellStands memory.store.values (memory.store.cells cell)
      registry)
    (same : memory'.store.faces cell = memory.store.faces cell) :
    CellStands memory'.store.values (memory'.store.cells cell)
      registry := by
  simp only [Store.faces, SnapCell.face, Prod.mk.injEq] at same
  obtain ⟨phase, version, generator, registrations, active⟩ := same
  refine ⟨stands.phase.trans phase.symm,
    fun unborn => stands.unborn (phase.symm.trans unborn), ?_,
    stands.idGenerator.trans generator.symm,
    stands.registrations.trans registrations.symm,
    stands.borrows.trans active.symm⟩
  intro alive
  rw [phase] at alive
  rw [stands.list alive]
  exact (listOf_stable inv advance alive version).symm

private theorem CellsStand.of_faces
    (cells : CellsStand memory.store atomic)
    (same : memory'.store.faces = memory.store.faces) :
    CellsStand memory'.store atomic :=
  fun cell => (cells cell).of_face inv advance (congrFun same cell)

/-- One cell changes. -/
theorem CellsStand.update
    {cell : CellId} {snap : SnapCell} {registry : Registry}
    (cells : CellsStand memory.store atomic)
    (shape : memory'.store.cells =
      Function.update memory.store.cells cell snap)
    (here : CellStands memory'.store.values snap registry) :
    CellsStand memory'.store (Function.update atomic cell registry) := by
  intro other
  by_cases same : other = cell
  · subst same
    rw [Function.update_self, shape, Function.update_self]
    exact here
  · rw [Function.update_of_ne same]
    refine (cells other).of_face inv advance ?_
    unfold Store.faces
    rw [shape, Function.update_of_ne same]

end Cells

/-- The answer of the atomic machine to a step of the innermost call. -/
inductive Matched (memory memory' : Memory) (call : CallId) (frame : Frame)
    (act : Act) (next : Option Frame) (atomic : Atomic.Memory)
    (activation : Activation) : Prop where
  | silent (after : Frame) (isNext : next = some after)
      (quiet : frame.point memory call act = none)
      (cells : CellsStand memory'.store atomic)
      (stands : Stands memory'.store after activation)
  | moves (operation : Atomic.Act) (atomic' : Atomic.Memory)
      (result : Option Activation)
      (moved : activationStep atomic activation operation =
        some (atomic', result))
      (same : activation.point atomic call operation =
        frame.point memory call act)
      (cells : CellsStand memory'.store atomic')
      (stands : Option.Rel (Stands memory'.store) next result)

section Moves

variable {memory memory' : Memory} {call : CallId} {tls tls' : Tls}
variable {frame after : Frame} {act : Act} {next : Option Frame}
variable {atomic : Atomic.Memory} {activation : Activation}

/-- The frame after a step shows what it showed before. -/
private theorem Stands.of_shown
    (inv : MemInv memory) (ok : FrameOk memory call frame)
    (sound : Sound memory call (memory', tls', some after))
    (activations : ∀ lookup,
      after.activation lookup = frame.activation lookup)
    (shown : after.shown ⊆ frame.shown)
    (shape : frame.activation memory.store.deref = some activation) :
    Stands memory'.store after activation := by
  refine .plain ?_
  rw [← shape, ← activations]
  refine Frame.activation_congr (fun address member => ?_)
  obtain ⟨gained, lost, advance⟩ := sound.advance
  obtain ⟨inner, found⟩ := ok.allocated_of_shown inv (shown member)
  obtain ⟨inner', found'⟩ :=
    (sound.frame after rfl).allocated_of_shown advance.inv member
  exact deref_stable advance found found'

/-- A step that the atomic machine does not see. -/
private theorem Matched.silently
    (inv : MemInv memory) (ok : FrameOk memory call frame)
    (sound : Sound memory call (memory', tls', some after))
    (cells : CellsStand memory.store atomic)
    (shape : frame.activation memory.store.deref = some activation)
    (quiet : frame.point memory call act = none)
    (faces : memory'.store.faces = memory.store.faces)
    (activations : ∀ lookup,
      after.activation lookup = frame.activation lookup)
    (shown : after.shown ⊆ frame.shown) :
    Matched memory memory' call frame act (some after) atomic activation := by
  obtain ⟨gained, lost, advance⟩ := sound.advance
  exact .silent after rfl quiet (cells.of_faces inv advance faces)
    (.of_shown inv ok sound activations shown shape)

/-- A step of the atomic machine that leaves the registries alone. -/
private theorem Matched.moving
    {result : Option Activation} (operation : Atomic.Act)
    (inv : MemInv memory) (sound : Sound memory call (memory', tls', next))
    (cells : CellsStand memory.store atomic)
    (faces : memory'.store.faces = memory.store.faces)
    (moved : activationStep atomic activation operation =
      some (atomic, result))
    (same : activation.point atomic call operation =
      frame.point memory call act)
    (stands : Option.Rel (Stands memory'.store) next result) :
    Matched memory memory' call frame act next atomic activation := by
  obtain ⟨gained, lost, advance⟩ := sound.advance
  exact .moves operation atomic result moved same
    (cells.of_faces inv advance faces) stands

end Moves

/-! ### The effects -/

section Effects

variable {memory : Memory} {cell : CellId} {atomic : Atomic.Memory}
variable {activation : Activation} {write : Write} {wait : Bool}

/-- The list of the registry is the value of `current`. -/
private theorem CellsStand.list_eq
    (cells : CellsStand memory.store atomic) (inv : MemInv memory)
    (alive : (memory.store.cells cell).phase = .alive) :
    (atomic cell).list =
      memory.store.deref (memory.store.cells cell).current := by
  rw [(cells cell).list alive, deref_current inv alive]

/-- A pending write takes effect in one step. -/
private theorem Write.activation_effect
    (atomic : Atomic.Memory) (call : CallId)
    (shape : write.activation cell wait = some activation) :
    activationStep atomic activation .effect =
        some (Function.update atomic cell ((atomic cell).write write),
          some (.answered cell ((atomic cell).answer write))) ∧
      activation.point atomic call .effect = some (.wrote call) := by
  cases write with
  | insert entry =>
      cases wait with
      | false =>
          cases shape
          exact ⟨rfl, rfl⟩
      | true => cases shape
  | remove id =>
      cases shape
      exact ⟨rfl, rfl⟩
  | clear =>
      cases shape
      exact ⟨rfl, rfl⟩

/-- Only removals wait, and they insert nothing. -/
private theorem Write.answer_effect
    (shape : write.activation cell wait = some activation)
    (list : List Entry) :
    (write.effect list).answer wait = .changed (write.effect list) := by
  cases write with
  | insert entry =>
      cases wait with
      | false => rfl
      | true => cases shape
  | remove id => cases wait <;> rfl
  | clear => cases wait <;> rfl

end Effects

section Steps

variable {memory memory' : Memory} {call : CallId} {tls tls' : Tls}
variable {frame : Frame} {act : Act} {next : Option Frame}
variable {atomic : Atomic.Memory} {activation : Activation}

/-- The version behind a pointer names the value behind it. -/
private theorem values_eq_deref
    {address : Addr} {inner : ArcInner} (inv : MemInv memory)
    (found : memory.store.heap address = some inner) :
    memory.store.values
        (((memory.store.heap address).map ArcInner.version).getD 0) =
      memory.store.deref address := by
  rw [deref_eq found, found]
  exact (inv.store.arcs address inner found).value_eq

/-- `install` is the step in which a write takes effect. -/
private theorem install_matched
    {cell : CellId} {wait : Bool} {effect : Effect} {new : Addr}
    (inv : MemInv memory)
    (ok : FrameOk memory call (.installing cell wait effect new))
    (sound : Sound memory call
      (memory.withStore (memory.store.install cell new effect call), tls',
        next))
    (isNext : next =
      some (.pushing cell wait effect (memory.store.cells cell).current))
    (cells : CellsStand memory.store atomic)
    (stands : Stands memory.store (.installing cell wait effect new)
      activation) :
    Matched memory
      (memory.withStore (memory.store.install cell new effect call)) call
      (.installing cell wait effect new) .next next atomic activation := by
  have alive : (memory.store.cells cell).phase = .alive :=
    ok.alive inv (by simp [Frame.holding])
  obtain ⟨gained, lost, advance⟩ := sound.advance
  obtain ⟨inner, found, _⟩ := ok.facts
  cases stands with
  | plain shape => cases shape
  | installing write shape computed =>
      have old := cells cell
      have list : (atomic cell).list = memory.store.listOf cell :=
        old.list alive
      rw [← list] at computed
      obtain ⟨answer, written⟩ := Registry.answer_of_some computed
      obtain ⟨moved, wrote⟩ := Write.activation_effect atomic call shape
      rw [answer, list] at moved
      refine .moves .effect _ _ moved wrote ?_ ?_
      · refine cells.update inv advance rfl ⟨old.phase, fun unborn => ?_,
          fun _ => ?_, old.idGenerator, old.registrations, old.borrows⟩
        · cases alive.symm.trans unborn
        · rw [written]
          exact (values_eq_deref inv found).symm
      · rw [isNext]
        refine .some (.plain ?_)
        simp only [Frame.activation, Write.answer_effect shape]

/-- A write that finds nothing to change takes effect under the lock. -/
private theorem compute_matched
    {cell : CellId} {write : Write} {wait : Bool}
    (inv : MemInv memory) (ok : FrameOk memory call (.compute cell write wait))
    (cells : CellsStand memory.store atomic)
    (shape : write.activation cell wait = some activation)
    (unchanged : write.apply
      (memory.store.deref (memory.store.cells cell).current) = none) :
    Matched memory memory call (.compute cell write wait) .next
      (some (.unlockUnchanged cell)) atomic activation := by
  have alive : (memory.store.cells cell).phase = .alive :=
    ok.alive inv (by simp [Frame.holding])
  rw [← cells.list_eq inv alive] at unchanged
  obtain ⟨answer, same⟩ := Registry.answer_of_none unchanged
  obtain ⟨moved, wrote⟩ := Write.activation_effect atomic call shape
  rw [answer, same, Function.update_eq_self] at moved
  exact .moves .effect _ _ moved wrote cells (.some (.plain rfl))

/-- The new list is computed but not installed yet. -/
private theorem alloc_matched
    {cell : CellId} {write : Write} {wait : Bool} {address : Addr}
    {value : List Entry} (inv : MemInv memory)
    (ok : FrameOk memory call (.compute cell write wait))
    (advance : ∃ gained lost, Advance call gained lost memory
      (memory.withStore
        (memory.store.allocArc address cell value (.fresh call))))
    (cells : CellsStand memory.store atomic)
    (shape : write.activation cell wait = some activation)
    (computed : write.apply
      (memory.store.deref (memory.store.cells cell).current) = some value) :
    Matched memory
      (memory.withStore
        (memory.store.allocArc address cell value (.fresh call)))
      call (.compute cell write wait) (.alloc address)
      (some (.installing cell wait
        (write.effect
          (memory.store.deref (memory.store.cells cell).current)) address))
      atomic activation := by
  have alive : (memory.store.cells cell).phase = .alive :=
    ok.alive inv (by simp [Frame.holding])
  obtain ⟨gained, lost, advance⟩ := advance
  have list : (memory.store.allocArc address cell value
      (.fresh call)).listOf cell =
        memory.store.deref (memory.store.cells cell).current := by
    rw [deref_current inv alive]
    exact listOf_stable inv advance alive rfl
  refine .silent _ rfl rfl (cells.of_faces inv advance rfl) ?_
  rw [← list] at computed ⊢
  refine .installing write shape (computed.trans ?_)
  simp [Memory.withStore, Store.deref, Store.allocArc]

/-- The id of a registration is drawn before its entry is inserted. -/
private theorem draw_matched
    {cell : CellId} {priority : Int} (inv : MemInv memory)
    (advance : ∃ gained lost, Advance call gained lost memory
      (memory.withStore (memory.store.nextId cell call)))
    (cells : CellsStand memory.store atomic)
    (shape : some (Activation.called cell (.register priority)) =
      some activation) :
    Matched memory (memory.withStore (memory.store.nextId cell call)) call
      (.draw cell priority) .next
      (some (.lockWriter cell
        (.insert ⟨(memory.store.cells cell).idGenerator.next.1, priority,
          (memory.store.cells cell).registrations⟩) false))
      atomic activation := by
  cases shape
  obtain ⟨gained, lost, advance⟩ := advance
  have old := cells cell
  refine .moves .draw _ _ rfl rfl
    (cells.update inv advance rfl
      ⟨old.phase, old.unborn, old.list, ?_, ?_, old.borrows⟩)
    (.some (.plain ?_))
  · simp [Registry.draw, old.idGenerator]
  · simp [Registry.draw, old.registrations]
  · simp [Frame.activation, Write.activation, Registry.entry,
      old.idGenerator, old.registrations]

private theorem returned_matched
    {cell : CellId} {outcome : Outcome} (inv : MemInv memory)
    (ok : FrameOk memory call (.returned cell outcome))
    (advance : ∃ gained lost, Advance call gained lost memory
      (memory.withStore (memory.store.endCall cell call)))
    (cells : CellsStand memory.store atomic)
    (shape : some (Activation.answered cell outcome.answer) =
      some activation) :
    Matched memory (memory.withStore (memory.store.endCall cell call)) call
      (.returned cell outcome) .next none atomic activation := by
  cases shape
  obtain ⟨gained, lost, advance⟩ := advance
  have old := cells cell
  have active : call ∈ (memory.store.cells cell).active :=
    (ok.held (.active cell)).mpr (by simp [Frame.holding])
  refine .moves .respond _ _ rfl rfl
    (cells.update inv advance rfl
      ⟨old.phase, old.unborn, old.list, old.idGenerator, old.registrations,
        ?_⟩) .none
  simp [Registry.release, old.borrows, List.length_erase_of_mem active]

/-- A destructor panics: what the call was going to answer is lost. -/
private theorem dropPanics_matched
    {cell : CellId} {collector : Collector} {address : Addr}
    {freed : List Addr} (inv : MemInv memory)
    (ok : FrameOk memory call (.dropping cell collector (address :: freed)))
    (sound : Sound memory call
      (memory.withStore (memory.store.dropOwner address .cell), tls',
        some (.dropping cell collector.unwound freed)))
    (cells : CellsStand memory.store atomic)
    (shape : some (collector.activation memory.store.deref cell) =
      some activation) :
    Matched memory (memory.withStore (memory.store.dropOwner address .cell))
      call (.dropping cell collector (address :: freed)) .unwind
      (some (.dropping cell collector.unwound freed)) atomic activation := by
  have faces := faces_dropOwner memory.store address .cell
  cases collector with
  | reclaim result =>
      cases result with
      | none =>
          exact .silently inv ok sound cells shape rfl faces (fun _ => rfl)
            (List.Subset.refl _)
      | some kept =>
          cases shape
          exact .moving .abandon inv sound cells faces rfl rfl
            (.some (.plain rfl))
  | update wait effect =>
      cases shape
      exact .moving .abandon inv sound cells faces rfl rfl
        (.some (.plain rfl))
  | drop =>
      exact .silently inv ok sound cells shape rfl faces (fun _ => rfl)
        (List.Subset.refl _)
  | discard result =>
      exact .silently inv ok sound cells shape rfl faces (fun _ => rfl)
        (List.Subset.refl _)

/-- A read takes effect: the value it got is the current one. -/
private theorem read_matched
    {cell : CellId} {notify : Bool} {address : Addr} {after : Frame}
    (inv : MemInv memory)
    (sound : Sound memory call (memory', tls', some after))
    (cells : CellsStand memory.store atomic)
    (alive : (memory.store.cells cell).phase = .alive)
    (isCurrent : address = (memory.store.cells cell).current)
    (faces : memory'.store.faces = memory.store.faces)
    (opens : frame.point memory call act =
      some (.seen (.opened call cell (memory.store.deref address))))
    (starts : ∀ lookup, after.activation lookup =
      some (.inside cell (Body.start notify (memory.store.deref address)))) :
    Matched memory memory' call frame act (some after) atomic
      (.called cell (.read notify)) := by
  have list := cells.list_eq inv alive
  rw [← isCurrent] at list
  refine .moving .effect inv sound cells faces rfl ?_ (.some (.plain ?_))
  · rw [opens, ← list]
    rfl
  · rw [starts, list]

/-- A load takes effect in the same way. -/
private theorem load_matched
    {cell : CellId} {address : Addr} {after : Frame}
    (inv : MemInv memory)
    (sound : Sound memory call (memory', tls', some after))
    (cells : CellsStand memory.store atomic)
    (alive : (memory.store.cells cell).phase = .alive)
    (isCurrent : address = (memory.store.cells cell).current)
    (faces : memory'.store.faces = memory.store.faces)
    (quiet : frame.point memory call act = none)
    (shows : ∀ lookup, after.activation lookup =
      some (.loaded cell (lookup address)))
    (same : memory'.store.deref address = memory.store.deref address) :
    Matched memory memory' call frame act (some after) atomic
      (.called cell .loadArcIf) := by
  have list := cells.list_eq inv alive
  rw [← isCurrent] at list
  refine .moving .effect inv sound cells faces rfl quiet.symm
    (.some (.plain ?_))
  rw [shows, same, list]

private theorem frameStep_matched
    (inv : MemInv memory)
    (own : ∀ record, tls.record = some record →
      OwnRecord memory call.thread record)
    (ok : FrameOk memory call frame)
    (cells : CellsStand memory.store atomic)
    (stands : Stands memory.store frame activation)
    (stepped : frameStep memory call tls frame act =
      some (memory', tls', next)) :
    Matched memory memory' call frame act next atomic activation := by
  have sound := frameStep_sound inv own ok stepped
  cases stands with
  | installing write shape computed =>
      cases frameStep_rule stepped
      exact install_matched inv ok sound rfl cells
        (.installing write shape computed)
  | plain shape =>
    cases frameStep_rule stepped with
    | install => cases shape
    | computeNone unchanged =>
        exact compute_matched inv ok cells shape unchanged
    | computeSome value computed =>
        exact alloc_matched inv ok sound.advance cells shape computed
    | draw => exact draw_matched inv sound.advance cells shape
    | returned => exact returned_matched inv ok sound.advance cells shape
    | dropPanics => exact dropPanics_matched inv ok sound cells shape
    | @validRead cell notify address pin current =>
        cases shape
        refine read_matched inv sound cells
          (ok.alive inv (by simp [Frame.holding])) current.symm rfl ?_
          (fun _ => rfl)
        simp [Frame.point, Frame.callEvent, current]
    | @validLoad cell address pin current =>
        cases shape
        exact load_matched inv sound cells
          (ok.alive inv (by simp [Frame.holding])) current.symm rfl rfl
          (fun _ => rfl) rfl
    | @lockedRead cell notify address version =>
        cases shape
        have stepOk : LockedStepOk memory cell (.unlock address version) :=
          ok.facts
        exact read_matched inv sound cells
          (ok.alive inv (by simp [Frame.holding])) stepOk.2.1
          (faces_setCell rfl) rfl (fun _ => rfl)
    | @lockedKeep cell address version =>
        cases shape
        have stepOk : LockedStepOk memory cell (.unlock address version) :=
          ok.facts
        exact load_matched inv sound cells
          (ok.alive inv (by simp [Frame.holding])) stepOk.2.1
          (faces_setCell rfl) rfl (fun _ => rfl) rfl
    | readFinish finishes =>
        cases shape
        exact .moving (.body .finish) inv sound cells rfl
          (insideStep_end _ (Or.inl ⟨rfl, finishes⟩)) rfl
          (.some (.plain rfl))
    | fallbackFinish finishes =>
        cases shape
        exact .moving (.body .finish) inv sound cells
          (faces_dropOwner _ _ _)
          (insideStep_end _ (Or.inl ⟨rfl, finishes⟩)) rfl
          (.some (.plain rfl))
    | readUnwind unwinds =>
        cases shape
        exact .moving (.body .unwind) inv sound cells rfl
          (insideStep_end _ (Or.inr ⟨rfl, unwinds⟩)) rfl
          (.some (.plain rfl))
    | fallbackUnwind unwinds =>
        cases shape
        exact .moving (.body .unwind) inv sound cells
          (faces_dropOwner _ _ _)
          (insideStep_end _ (Or.inr ⟨rfl, unwinds⟩)) rfl
          (.some (.plain rfl))
    | readBody inside | fallbackBody inside =>
        cases shape
        exact .moving (.body act) inv sound cells rfl
          (insideStep_body _ inside) rfl (.some (.plain rfl))
    | keep =>
        cases shape
        obtain ⟨gained, lost, advance⟩ := sound.advance
        obtain ⟨inner, found⟩ :=
          ok.allocated_of_shown inv List.mem_cons_self
        obtain ⟨inner', found'⟩ :=
          (sound.frame _ rfl).allocated_of_shown advance.inv
            List.mem_cons_self
        refine .moving (.keep true) inv sound cells
          (faces_addOwner _ _ _) rfl rfl (.some (.plain ?_))
        rw [← deref_stable advance found found']
        rfl
    | reject | lockedReject =>
        cases shape
        exact .moving (.keep false) inv sound cells rfl rfl rfl
          (.some (.plain rfl))
    | lockedAccept =>
        cases shape
        exact .moving (.keep true) inv sound cells rfl rfl rfl
          (.some (.plain rfl))
    | handOver =>
        cases shape
        exact .moving .hand inv sound cells (faces_giveHandle _ _ _) rfl rfl
          (.some (.plain rfl))
    | dropCell | exitRelease =>
        cases shape
        exact .moving .pop inv sound cells rfl rfl rfl .none
    | @pinGone _ reader | @pinFull _ reader =>
        cases reader <;>
          exact .silently inv ok sound cells shape rfl rfl (fun _ => rfl)
            (List.Subset.refl _)
    | @invalid cell reader address pin replaced =>
        refine .silently inv ok sound cells shape ?_ rfl (fun _ => rfl)
          (List.Subset.refl _)
        cases reader with
        | read notify => simp [Frame.point, Frame.callEvent, replaced]
        | loadArcIf => rfl
    | @lockedLoad _ reader =>
        cases reader <;>
          exact .silently inv ok sound cells shape rfl rfl (fun _ => rfl)
            (List.Subset.refl _)
    | @nothingRetired _ result | @tryLockBusy _ result
    | @dropReclaimed _ result =>
        cases result <;>
          exact .silently inv ok sound cells shape rfl rfl (fun _ => rfl)
            (List.Subset.refl _)
    | @lockedLock _ reader =>
        cases reader <;>
          exact .silently inv ok sound cells shape rfl (faces_setCell rfl)
            (fun _ => rfl) (List.Subset.refl _)
    | collectEnd | retire | tryLockTaken | lockWriter | unlockUnchanged
    | waitLock | collectLen | collectUnlock | waitCopy | enterFallback
    | leaveFallback =>
        exact .silently inv ok sound cells shape rfl (faces_setCell rfl)
          (fun _ => rfl) (List.Subset.refl _)
    | lockedCountRead | lockedCountLoad =>
        exact .silently inv ok sound cells shape rfl (faces_addOwner _ _ _)
          (fun _ => rfl) (List.Subset.refl _)
    | dropValue =>
        exact .silently inv ok sound cells shape rfl (faces_dropOwner _ _ _)
          (fun _ => rfl) (List.Subset.refl _)
    | dropHandle =>
        exact .silently inv ok sound cells shape rfl (faces_dropOwner _ _ _)
          (fun _ => rfl) (List.nil_subset _)
    | _ =>
        exact .silently inv ok sound cells shape rfl rfl (fun _ => rfl)
          (List.Subset.refl _)

end Steps

/-! ### Whole threads -/

/-- The state of the program stands for the state of the atomic machine. -/
structure Abstracts (state : State) (atomic : Atomic.State) : Prop where
  invariant : Invariant state
  cells : CellsStand state.memory.store atomic.memory
  calls : ∀ thread, List.Forall₂ (Stands state.memory.store)
    (state.threads thread).stack (atomic.threads thread)

private theorem abstracts_initial : Abstracts initial Atomic.initial where
  invariant := invariant_initial
  cells := fun _ => ⟨rfl, fun _ => rfl, fun _ => rfl, rfl, rfl, rfl⟩
  calls := fun _ => .nil

section Threads

variable {memory memory' : Memory} {actor : CallId}
variable {gained lost : List Holding}

theorem StackOk.below
    {thread : Tid} {added stack : List Frame}
    (ok : StackOk memory thread (added ++ stack)) :
    StackOk memory thread stack := by
  induction added with
  | nil => exact ok
  | cons frame added inductionHypothesis => exact inductionHypothesis ok.2

/-- A stack of which no frame moves. -/
private theorem stack_stable
    {thread : Tid} {stack : List Frame} {activations : List Activation}
    (inv : MemInv memory)
    (advance : Advance actor gained lost memory memory')
    (ok : StackOk memory thread stack) (ok' : StackOk memory' thread stack)
    (different : ∀ depth, depth < stack.length →
      (⟨thread, depth⟩ : CallId) ≠ actor)
    (stands : List.Forall₂ (Stands memory.store) stack activations) :
    List.Forall₂ (Stands memory'.store) stack activations := by
  induction stands with
  | nil => exact .nil
  | @cons frame activation rest activations top below inductionHypothesis =>
      refine .cons
        (top.stable inv advance ok.1 ok'.1 (different _ (by simp)))
        (inductionHypothesis ok.2 ok'.2 (fun depth bound => ?_))
      exact different depth (Nat.lt_succ_of_lt bound)

/-- User code runs above a frame only where it may run above its
activation. -/
theorem Stands.isUser
    {store : Store} {frame : Frame} {activation : Activation}
    (stands : Stands store frame activation) (user : frame.isUser = true) :
    activation.isUser = true := by
  cases stands with
  | installing write shape computed => cases user
  | plain shape =>
      cases frame with
      | reading cell address version pin body
      | fallbackReading cell address version body =>
          cases shape
          exact user
      | dropping cell collector freed =>
          cases shape
          cases collector with
          | reclaim result => cases result <;> rfl
          | _ => rfl
      | leaveFallback cell =>
          cases shape
          rfl
      | _ => cases user

private theorem atUserPoint_stands
    {store : Store} {locals : Thread} {stack : List Activation}
    (stands : List.Forall₂ (Stands store) locals.stack stack)
    (userPoint : locals.atUserPoint = true) :
    Atomic.atUserPoint stack = true := by
  unfold Thread.atUserPoint at userPoint
  generalize locals.stack = frames at stands userPoint
  cases stands with
  | nil => rfl
  | cons top below => exact top.isUser userPoint

end Threads

section Simulation

variable {state : State} {atomic : Atomic.State} {thread : Tid}
variable {memory' : Memory} {locals' : Thread} {atomic' : Atomic.Memory}
variable {actor : CallId} {gained lost : List Holding}

/-- The state after a step of one thread. -/
theorem Abstracts.update
    {stack' : List Activation} (abstracts : Abstracts state atomic)
    (holds : Invariant
      ⟨memory', Function.update state.threads thread locals'⟩)
    (advance : Advance actor gained lost state.memory memory')
    (isThread : actor.thread = thread)
    (cells : CellsStand memory'.store atomic')
    (own : List.Forall₂ (Stands memory'.store) locals'.stack stack') :
    Abstracts ⟨memory', Function.update state.threads thread locals'⟩
      ⟨atomic', Function.update atomic.threads thread stack'⟩ where
  invariant := holds
  cells := cells
  calls := by
    intro other
    by_cases same : other = thread
    · subst same
      simpa using own
    · have before := (abstracts.invariant.2 other).stack
      have after := (holds.2 other).stack
      simp only [Function.update_of_ne same] at after ⊢
      refine stack_stable abstracts.invariant.1 advance before after ?_
        (abstracts.calls other)
      rintro depth _ rfl
      exact same isThread

/-- A step that the atomic machine does not see. -/
theorem Abstracts.unseen
    (abstracts : Abstracts state atomic)
    (holds : Invariant
      ⟨memory', Function.update state.threads thread locals'⟩)
    (advance : Advance actor gained lost state.memory memory')
    (isThread : actor.thread = thread)
    (cells : CellsStand memory'.store atomic.memory)
    (own : List.Forall₂ (Stands memory'.store) locals'.stack
      (atomic.threads thread)) :
    Abstracts ⟨memory', Function.update state.threads thread locals'⟩
      atomic := by
  have updated := abstracts.update holds advance isThread cells own
  rw [Function.update_eq_self] at updated
  exact updated

/-- User code does the same in the atomic machine. -/
theorem Abstracts.answered
    {operation : Atomic.Act} {stack' : List Activation}
    {point : Option Atomic.Point} (abstracts : Abstracts state atomic)
    (holds : Invariant
      ⟨memory', Function.update state.threads thread locals'⟩)
    (advance : Advance actor gained lost state.memory memory')
    (isThread : actor.thread = thread)
    (userPoint : Atomic.atUserPoint (atomic.threads thread) = true)
    (performed : Atomic.userStep atomic.memory (atomic.threads thread)
      operation = some (atomic', stack'))
    (same : Atomic.observePoints atomic thread operation = point)
    (cells : CellsStand memory'.store atomic')
    (own : List.Forall₂ (Stands memory'.store) locals'.stack stack') :
    ∃ operations next',
      Atomic.program.exec atomic operations = some next' ∧
        Atomic.program.events Atomic.observePoints atomic operations =
          point.toList ∧
        Abstracts ⟨memory', Function.update state.threads thread locals'⟩
          next' := by
  obtain ⟨operations, ran, emitted⟩ :=
    answered_by_step (Atomic.step_user userPoint performed) same
  exact ⟨operations, _, ran, emitted,
    abstracts.update holds advance isThread cells own⟩

/-- The operations of a frame are not those of user code. -/
private theorem observePoints_top
    {tls' : Tls} {frame : Frame} {rest : List Frame} {act : Act}
    {next : Option Frame}
    (shape : (state.threads thread).stack = frame :: rest)
    (moved : frameStep state.memory ⟨thread, rest.length⟩
      (state.threads thread).tls frame act = some (memory', tls', next)) :
    observePoints state thread act =
      frame.point state.memory ⟨thread, rest.length⟩ act := by
  cases act with
  | newCell | dropCell | call | dropHandle | exitThread =>
      cases frameStep_rule moved with
      | readBody inside | fallbackBody inside => simp [bodyStep] at inside
  | _ => simp [observePoints, shape]

/-- A step of the innermost call is answered by at most one step. -/
private theorem frameStep_answered
    {tls' : Tls} {frame : Frame} {rest : List Frame} {act : Act}
    {next : Option Frame} (abstracts : Abstracts state atomic)
    (shape : (state.threads thread).stack = frame :: rest)
    (moved : frameStep state.memory ⟨thread, rest.length⟩
      (state.threads thread).tls frame act = some (memory', tls', next))
    (holds : Invariant ⟨memory', Function.update state.threads thread
      ⟨tls', next.toList ++ rest⟩⟩) :
    ∃ operations next',
      Atomic.program.exec atomic operations = some next' ∧
        Atomic.program.events Atomic.observePoints atomic operations =
          (observePoints state thread act).toList ∧
        Abstracts ⟨memory', Function.update state.threads thread
          ⟨tls', next.toList ++ rest⟩⟩ next' := by
  obtain ⟨inv, threads⟩ := abstracts.invariant
  have okStack := (threads thread).stack
  have okStack' := (holds.2 thread).stack
  have calls := abstracts.calls thread
  rw [shape] at okStack calls
  simp only [Function.update_self] at okStack'
  generalize isStack : atomic.threads thread = activations at calls
  cases calls with
  | @cons _ activation _ below top rest' =>
  obtain ⟨gained, lost, advance⟩ :=
    (frameStep_sound inv (threads thread).record okStack.1 moved).advance
  have kept : List.Forall₂ (Stands memory'.store) rest below := by
    refine stack_stable inv advance okStack.2 ?_ ?_ rest'
    · cases next with
      | none => exact okStack'
      | some after => exact okStack'.2
    · rintro depth bound same
      exact Nat.ne_of_lt bound (congrArg CallId.depth same)
  cases frameStep_matched inv (threads thread).record okStack.1
      abstracts.cells top moved with
  | silent after isNext quiet cells stands =>
      subst isNext
      refine ⟨[], atomic, rfl, ?_,
        abstracts.unseen holds advance rfl cells ?_⟩
      · rw [observePoints_top shape moved, quiet]
        rfl
      · rw [isStack]
        exact .cons stands kept
  | moves operation memory'' result performed same cells stands =>
      obtain ⟨stepped, observed⟩ := Atomic.step_activation isStack performed
      have grown : List.Forall₂ (Stands memory'.store)
          (next.toList ++ rest) (result.toList ++ below) := by
        cases stands with
        | none => exact kept
        | some top' => exact .cons top' kept
      have related := abstracts.update holds advance rfl cells grown
      rw [show below.length = rest.length from rest'.length_eq.symm]
        at observed
      obtain ⟨operations, ran, emitted⟩ := answered_by_step stepped
        (observed.trans (same.trans (observePoints_top shape moved).symm))
      exact ⟨operations, _, ran, emitted, related⟩

/-- A step of user code is answered by at most one step. -/
private theorem userStep_answered
    {act : Act} (abstracts : Abstracts state atomic)
    (userPoint : (state.threads thread).atUserPoint = true)
    (performed : userStep thread state.memory (state.threads thread) act =
      some (memory', locals'))
    (holds : Invariant
      ⟨memory', Function.update state.threads thread locals'⟩) :
    ∃ operations next',
      Atomic.program.exec atomic operations = some next' ∧
        Atomic.program.events Atomic.observePoints atomic operations =
          (observePoints state thread act).toList ∧
        Abstracts ⟨memory', Function.update state.threads thread locals'⟩
          next' := by
  obtain ⟨inv, threads⟩ := abstracts.invariant
  have calls := abstracts.calls thread
  have atomicPoint := atUserPoint_stands calls userPoint
  have length := calls.length_eq
  obtain ⟨_, _, gained, lost, advance⟩ :=
    userStep_sound inv (threads thread) userPoint performed
  -- The frames below a new one stand for the same activations.
  have kept : ∀ added, locals'.stack = added ++ (state.threads thread).stack →
      List.Forall₂ (Stands memory'.store) (state.threads thread).stack
        (atomic.threads thread) := by
    intro added grown
    have ok' := (holds.2 thread).stack
    simp only [Function.update_self, grown] at ok'
    refine stack_stable inv advance (threads thread).stack ok'.below ?_ calls
    rintro depth bound same
    exact Nat.ne_of_lt bound (congrArg CallId.depth same)
  cases userStep_rule performed with
  | @newCell cell address unborn free =>
      have old := abstracts.cells cell
      have created : Atomic.userStep atomic.memory (atomic.threads thread)
          (.newCell cell) =
            some (Function.update atomic.memory cell
              (atomic.memory cell).create, atomic.threads thread) := by
        simp [Atomic.userStep, old.phase, unborn]
      refine abstracts.answered holds advance rfl atomicPoint created rfl
        (abstracts.cells.update inv advance rfl ⟨rfl, fun isUnborn => ?_,
          fun _ => ?_, old.idGenerator, old.registrations, old.borrows⟩)
        (kept [] rfl)
      · cases isUnborn
      · simp [Memory.withStore, Store.newCell, Store.setCell, Store.allocArc,
          Registry.create, old.unborn unborn]
  | @dropCell cell alive unused =>
      have old := abstracts.cells cell
      have dropped : Atomic.userStep atomic.memory (atomic.threads thread)
          (.dropCell cell) =
            some (Function.update atomic.memory cell
              (atomic.memory cell).drop,
              .internal :: atomic.threads thread) := by
        simp [Atomic.userStep, old.phase, alive, old.borrows, unused]
      refine abstracts.answered holds advance rfl atomicPoint dropped rfl
        (abstracts.cells.update inv advance rfl ⟨rfl, fun isUnborn => ?_,
          fun isAlive => ?_, old.idGenerator, old.registrations,
          old.borrows⟩)
        (.cons (.plain rfl) (kept [_] rfl))
      · cases isUnborn
      · cases isAlive
  | @call cell operation alive =>
      have old := abstracts.cells cell
      have called : Atomic.userStep atomic.memory (atomic.threads thread)
          (.call cell operation) =
            some (Function.update atomic.memory cell
              (atomic.memory cell).borrow,
              .called cell operation :: atomic.threads thread) := by
        simp [Atomic.userStep, old.phase, alive]
      refine abstracts.answered holds advance rfl atomicPoint called ?_
        (abstracts.cells.update inv advance rfl ⟨old.phase, old.unborn,
          old.list, old.idGenerator, old.registrations, ?_⟩)
        (.cons (.plain ?_) (kept [_] rfl))
      · simp [Atomic.observePoints, Atomic.observe, observePoints,
          observeCalls, length]
      · simp [Registry.borrow, old.borrows]
      · cases operation <;> rfl
  | @dropHandle handle address member =>
      exact ⟨[], atomic, rfl, rfl,
        abstracts.unseen holds advance rfl
          (abstracts.cells.of_faces inv advance
            (faces_dropOwner _ address (.user handle))) (kept [] rfl)⟩
  | exitUnclaimed empty present unclaimed =>
      exact ⟨[], atomic, rfl, rfl,
        abstracts.unseen holds advance rfl abstracts.cells (kept [] rfl)⟩
  | exitClaimed record empty present isRecord =>
      have idle : atomic.threads thread = [] := by
        rw [empty] at calls
        exact List.forall₂_nil_left_iff.mp calls
      have exits : Atomic.userStep atomic.memory (atomic.threads thread)
          .exitThread = some (atomic.memory, [.internal]) := by
        simp [Atomic.userStep, idle]
      refine abstracts.answered holds advance rfl atomicPoint exits ?_
        abstracts.cells (.cons (.plain rfl) .nil)
      simp [Atomic.observePoints, Atomic.observe, observePoints,
        observeCalls, idle]

/-- Every step of the program is answered by the atomic machine. -/
private theorem program_simulates :
    Simulates program Atomic.program observePoints Atomic.observePoints
      Abstracts := by
  intro state atomic thread act next stepped abstracts
  have holds := invariant_step stepped abstracts.invariant
  obtain ⟨memory', locals', performed, rfl⟩ := step_eq_some stepped
  rcases program_cases performed with
    ⟨userPoint, user⟩ | ⟨frame, rest, tls', next, shape, moved, rfl⟩
  · exact userStep_answered abstracts userPoint user holds
  · exact frameStep_answered abstracts shape moved holds

/-- Every run of the program is a run of the atomic machine with the same
calls, closures, handlers and answers, which draws ids and writes in the same
order. -/
theorem exec_answered
    {schedule : List (Tid × Act)}
    (executed : program.exec initial schedule = some state) :
    ∃ operations atomic,
      Atomic.program.exec Atomic.initial operations = some atomic ∧
        Atomic.program.events Atomic.observePoints Atomic.initial
            operations =
          program.events observePoints initial schedule ∧
        Abstracts state atomic :=
  program_simulates.exec executed abstracts_initial

/-- The events that user code sees are among the points. -/
theorem events_of_points
    {schedule : List (Tid × Act)}
    {operations : List (Tid × Atomic.Act)}
    (same :
      Atomic.program.events Atomic.observePoints Atomic.initial operations =
        program.events observePoints initial schedule) :
    Atomic.program.events Atomic.observe Atomic.initial operations =
      program.events observeCalls initial schedule := by
  have abstract : Atomic.observe = fun state thread act =>
      (Atomic.observePoints state thread act).bind Atomic.Point.event := by
    funext state thread act
    exact (Atomic.observePoints_event state thread act).symm
  have concrete : observeCalls = fun state thread act =>
      (observePoints state thread act).bind Atomic.Point.event := by
    funext state thread act
    exact (observePoints_event state thread act).symm
  rw [abstract, concrete, events_bind, events_bind, same]

/-- The operations of the registries are linearizable: every run of the
program shows its user code the calls, closures, handlers and answers of a run
in which every operation takes effect in one step between its call and its
return. -/
theorem registry_linearizable
    {schedule : List (Tid × Act)}
    (executed : program.exec initial schedule = some state) :
    ∃ operations atomic,
      Atomic.program.exec Atomic.initial operations = some atomic ∧
        Atomic.program.events Atomic.observe Atomic.initial operations =
          program.events observeCalls initial schedule ∧
        ∀ cell, (state.memory.store.cells cell).phase = .alive →
          (atomic.memory cell).list =
            state.memory.store.deref
              (state.memory.store.cells cell).current := by
  obtain ⟨operations, atomic, ran, same, abstracts⟩ := exec_answered executed
  exact ⟨operations, atomic, ran, events_of_points same, fun cell alive =>
    abstracts.cells.list_eq abstracts.invariant.1 alive⟩

end Simulation

/-- Thread `0` registers a handler, then thread `1` dispatches an event. -/
def registerThenDispatch : List (Tid × Act) :=
  registers ++ (0, .next) :: (1, .call 0 (.read true)) :: wholeDispatch

theorem registry_linearizable_dispatch :
    ∃ operations atomic,
      Atomic.program.exec Atomic.initial operations = some atomic ∧
        Atomic.program.events Atomic.observe Atomic.initial operations =
          [.created 0, .called ⟨0, 0⟩ 0 (.register 1),
            .returned ⟨0, 0⟩ 0 (.changed ⟨[], some 0⟩),
            .called ⟨1, 0⟩ 0 (.read true),
            .opened ⟨1, 0⟩ 0 [⟨⟨1⟩, 1, 0⟩],
            .moved ⟨1, 0⟩ 0 (.dispatch [⟨⟨1⟩, 1, 0⟩]) .invoke,
            .moved ⟨1, 0⟩ 0 (.handler ⟨⟨1⟩, 1, 0⟩ []) .handlerReturns,
            .moved ⟨1, 0⟩ 0 (.dispatch []) .finish] := by
  have evaluated :
      (program.exec initial registerThenDispatch).isSome = true ∧
        program.events observeCalls initial registerThenDispatch =
          [.created 0, .called ⟨0, 0⟩ 0 (.register 1),
            .returned ⟨0, 0⟩ 0 (.changed ⟨[], some 0⟩),
            .called ⟨1, 0⟩ 0 (.read true),
            .opened ⟨1, 0⟩ 0 [⟨⟨1⟩, 1, 0⟩],
            .moved ⟨1, 0⟩ 0 (.dispatch [⟨⟨1⟩, 1, 0⟩]) .invoke,
            .moved ⟨1, 0⟩ 0 (.handler ⟨⟨1⟩, 1, 0⟩ []) .handlerReturns,
            .moved ⟨1, 0⟩ 0 (.dispatch []) .finish] := by
    decide +kernel
  obtain ⟨state, executed⟩ := Option.isSome_iff_exists.mp evaluated.1
  obtain ⟨operations, atomic, ran, same, _⟩ := registry_linearizable executed
  exact ⟨operations, atomic, ran, same.trans evaluated.2⟩

end RegistryIo.Snapshot
