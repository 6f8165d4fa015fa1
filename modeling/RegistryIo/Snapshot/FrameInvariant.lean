import RegistryIo.Snapshot.StoreOperations

/-!
# What a thread knows at every program point

`FrameOk` collects, for every frame, what the call holds and what it knows
about shared memory at that point.  `ThreadInv` is the invariant of a whole
thread.
-/

namespace RegistryIo.Snapshot

section Facts

variable (memory : Memory)

/-- The handlers a write took out are removed for good. -/
def RemovedOk (cell : CellId) (removed : List Nat) : Prop :=
  ∀ handler ∈ removed,
    (memory.store.cells cell).status handler = .removed

/-- The handler was inserted into the list at some point. -/
def Installed (cell : CellId) (handler : Nat) : Prop :=
  (memory.store.cells cell).status handler = .live ∨
    (memory.store.cells cell).status handler = .removed

structure EffectOk (cell : CellId) (effect : Effect) : Prop where
  removed : RemovedOk memory cell effect.removed
  inserted : ∀ handler, effect.inserted = some handler →
    Installed memory cell handler

/-- A traversal stands on a record that is in the list. -/
def CursorOk (cursor : Option RecordId) : Prop :=
  ∀ record, cursor = some record → record ∈ memory.domain.published

structure OwnRecord (thread : Tid) (record : RecordId) : Prop where
  owned : (memory.domain.records record).owner = some thread
  published : record ∈ memory.domain.published

structure NewRecord (thread : Tid) (record : RecordId) : Prop where
  owned : (memory.domain.records record).owner = some thread
  unpublished : record ∉ memory.domain.published

def PinStepOk (thread : Tid) : PinStep → Prop
  | .findSlot => True
  | .tryClaim cursor reused =>
      CursorOk memory cursor ∧
        ∀ record, reused = some record → OwnRecord memory thread record
  | .advance record reused =>
      record ∈ memory.domain.published ∧
        ∀ record, reused = some record → OwnRecord memory thread record
  | .loadHead record => NewRecord memory thread record
  | .storeNext record _ => NewRecord memory thread record
  | .exchangeHead record head =>
      NewRecord memory thread record ∧
        (memory.domain.records record).next = head

/-- The slot of a pin holds the announcement of a call. -/
def Announces (call : CallId) (pin : Pin) (address : Addr)
    (claim : Option Claim) : Prop :=
  memory.domain.slot pin.record pin.index = some ⟨address, call, claim⟩

/-- The entry that is running and the entries that are still to run. -/
def Body.remaining : Body → List Entry
  | .closure => []
  | .dispatch pending => pending
  | .handler entry pending => entry :: pending
  | .callback entry pending => entry :: pending

/-- The loop of `notify` is inside the list it started with. -/
def BodyOk (version : Nat) (body : Body) : Prop :=
  body.remaining <:+ memory.store.values version

/-- The address still holds the value that was read from the cell. -/
def Refers (cell : CellId) (address : Addr) (version : Nat) : Prop :=
  ∃ inner, memory.store.heap address = some inner ∧
    inner.cell = cell ∧ inner.version = version

/-- `retired_len` is up to date. -/
def LenOk (cell : CellId) : Prop :=
  (memory.store.cells cell).retiredLen =
    (memory.store.cells cell).retired.length

/-- A running scan of the holder of the writer lock: every protected value of
the retired list was seen or is still ahead. -/
structure ScanOk (cell : CellId) (cursor : Option RecordId) (index : Nat)
    (announced : List Addr) : Prop where
  cursor_ok : CursorOk memory cursor
  covered : ∀ record position announcement claim,
    memory.domain.slot record position = some announcement →
      announcement.claim = some claim → claim.cell = cell →
        announcement.address ∈ (memory.store.cells cell).retired →
          announcement.address ∈ announced ∨
            Ahead memory.domain.published cursor index record position

def CollectStepOk (cell : CellId) : CollectStep → Prop
  | .start => True
  | .scan cursor index announced => ScanOk memory cell cursor index announced
  | .storeLen freed => freed.Nodup
  | .unlock freed => freed.Nodup ∧ LenOk memory cell

def CollectorOk (cell : CellId) : Collector → Prop
  | .update _ effect => EffectOk memory cell effect
  | _ => True

def LockedStepOk (cell : CellId) : LockedStep → Prop
  | .lock => True
  | .load => LenOk memory cell
  | .increment address version =>
      LenOk memory cell ∧ address = (memory.store.cells cell).current ∧
        version = (memory.store.cells cell).version
  | .unlock address version =>
      LenOk memory cell ∧ address = (memory.store.cells cell).current ∧
        version = (memory.store.cells cell).version

/-- A list contains one of the removed handlers. -/
def Contains (removed : List Nat) (list : List Entry) : Prop :=
  ∃ handler ∈ removed, handler ∈ handlersOf list

/-- Another thread protects a value of the cell that contains one of the
removed handlers. -/
def Blocking (cell : CellId) (thread : Tid) (removed : List Nat)
    (record : RecordId) (index : Nat) (address : Addr) : Prop :=
  ∃ announcement claim,
    memory.domain.slot record index = some announcement ∧
      announcement.address = address ∧
      announcement.call.thread ≠ thread ∧
      announcement.claim = some claim ∧ claim.cell = cell ∧
      Contains removed (memory.store.values claim.version)

/-- No fallback read holds a value with one of the removed handlers. -/
def FallbackClear (cell : CellId) (removed : List Nat) : Prop :=
  ∀ address inner, memory.store.heap address = some inner →
    inner.cell = cell → Contains removed inner.value →
      ∀ call, .fallback call ∉ inner.owners

/-- A waiter that was inside a fallback read does not check the others. -/
def FallbackChecked (cell : CellId) (onFallback : Bool)
    (removed : List Nat) : Prop :=
  onFallback = false → FallbackClear memory cell removed

def WaitStepOk (cell : CellId) (thread : Tid) (removed : List Nat) :
    WaitStep → Prop
  | .start => True
  | .checkFallback _ => True
  | .lock onFallback => FallbackChecked memory cell onFallback removed
  | .copy onFallback =>
      FallbackChecked memory cell onFallback removed ∧ LenOk memory cell
  | .each onFallback retired =>
      FallbackChecked memory cell onFallback removed ∧
        ∀ record index address,
          Blocking memory cell thread removed record index address →
            address ∈ retired
  | .scan onFallback address retired cursor index found =>
      FallbackChecked memory cell onFallback removed ∧
        CursorOk memory cursor ∧
        ∀ record position blocked,
          Blocking memory cell thread removed record position blocked →
            blocked ∈ retired ∨
              (blocked = address ∧
                (found = true ∨
                  Ahead memory.domain.published cursor index
                    record position))

def OutcomeOk (cell : CellId) (thread : Tid) : Outcome → Prop
  | .done => True
  | .wrote effect => EffectOk memory cell effect
  | .waited onFallback removed =>
      RemovedOk memory cell removed ∧
        FallbackChecked memory cell onFallback removed ∧
        ∀ record index address,
          ¬ Blocking memory cell thread removed record index address
  | .unchanged => True

/-- What the call of a frame knows about shared memory. -/
def FrameFacts (call : CallId) : Frame → Prop
  | .pinning _ _ _ step => PinStepOk memory call.thread step
  | .validate _ _ address pin => Announces memory call pin address none
  | .republish _ _ _ pin => ∃ old, Announces memory call pin old none
  | .reading cell address version pin body =>
      Announces memory call pin address (some ⟨cell, version⟩) ∧
        BodyOk memory version body
  | .keeping cell address version pin =>
      Announces memory call pin address (some ⟨cell, version⟩)
  | .counted cell address version pin =>
      Announces memory call pin address (some ⟨cell, version⟩)
  | .collect cell collector step =>
      CollectorOk memory cell collector ∧ CollectStepOk memory cell step
  | .dropping cell collector freed =>
      CollectorOk memory cell collector ∧ freed.Nodup
  | .compute cell _ _ => LenOk memory cell
  | .installing cell _ effect new =>
      ∃ inner, memory.store.heap new = some inner ∧
        InstallOk memory.store cell effect call inner
  | .pushing cell _ effect raw =>
      EffectOk memory cell effect ∧
        ∃ version, memory.store.tracked cell raw =
          some (.unlinked call, version)
  | .unlockUnchanged cell => LenOk memory cell
  | .locked cell _ step => LockedStepOk memory cell step
  | .fallbackReading cell address version body =>
      Refers memory cell address version ∧ BodyOk memory version body
  | .lockedKeep cell address version => Refers memory cell address version
  | .waiting cell removed step =>
      RemovedOk memory cell removed ∧
        WaitStepOk memory cell call.thread removed step
  | .returned cell outcome => OutcomeOk memory cell call.thread outcome
  | .exiting record _ =>
      OwnRecord memory call.thread record ∧
        ∀ index, memory.domain.slot record index = none
  | _ => True

/-- The frame names exactly what its call holds, and what it knows is true. -/
structure FrameOk (call : CallId) (frame : Frame) : Prop where
  held : ∀ holding, memory.Held call holding ↔ holding ∈ frame.holding
  facts : FrameFacts memory call frame

/-- The frames of a stack, the innermost first. -/
def StackOk (thread : Tid) : List Frame → Prop
  | [] => True
  | frame :: rest =>
      FrameOk memory ⟨thread, rest.length⟩ frame ∧ StackOk thread rest

structure ThreadInv (thread : Tid) (locals : Thread) : Prop where
  stack : StackOk memory thread locals.stack
  vacant : ∀ depth, locals.stack.length ≤ depth →
    ∀ holding, ¬ memory.Held ⟨thread, depth⟩ holding
  suspended : ∀ frame ∈ locals.stack.tail, frame.isUser
  record : ∀ record, locals.tls.record = some record →
    OwnRecord memory thread record

/-- The cell of a call in progress is alive. -/
theorem FrameOk.alive
    {memory : Memory} {call : CallId} {frame : Frame} {cell : CellId}
    (ok : FrameOk memory call frame) (inv : MemInv memory)
    (active : .active cell ∈ frame.holding) :
    (memory.store.cells cell).phase = .alive :=
  (inv.store.cells cell).active_alive call ((ok.held _).mpr active)

theorem Refers.version_lt
    {memory : Memory} {cell : CellId} {address : Addr} {version : Nat}
    (refers : Refers memory cell address version) (inv : MemInv memory) :
    version < memory.store.versions := by
  obtain ⟨inner, found, _, isVersion⟩ := refers
  rw [← isVersion]
  exact (inv.store.arcs address inner found).version_lt

end Facts

end RegistryIo.Snapshot
