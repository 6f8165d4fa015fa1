import RegistryIo.Isolation.Report
import RegistryIo.Snapshot.Custody

/-!
# Registry operations around the cell

The machine of `Snapshot.Machine` runs the operations of the cell.  Here they
are put together with everything else that a registry shares: the panic
counter, the panic callback behind its `RwLock`, and the function of every
one-shot handler behind its mutex.

A thread is a stack of items, the innermost call first.  An item is a frame of
the cell with what the registry does inside its closure, a replacement of the
panic callback, or a poll of an asynchronous dispatch.  Wherever an item runs
code from outside (a handler, the callback, a future, a destructor), that code
may call any operation of any registry.  Registries live as long as the run.
-/

namespace RegistryIo.Reentrant

open RegistryIo.Interleaving RegistryIo.Snapshot
open RegistryIo.Isolation (PanicInfo)

/-! ### Shared memory -/

/-- The identity of an `Arc<PanicCallbackHolder>`. -/
abbrev CallbackId := Nat

/-- `slot` of a one-shot handler: the mutex, and whether the function is still
there. -/
structure Slot where
  holder : Option Tid
  full : Bool
  deriving DecidableEq, Repr

/-- The fields of a registry besides its cell and its id generator.  `writer`
and `readers` are the threads that hold the lock of `panic_callback`; a
one-shot handler is known by the serial number of its registration. -/
structure Registry where
  panics : Nat
  panicCallback : Option CallbackId
  writer : Option Tid
  readers : List Tid
  slots : Nat → Option Slot

/-- The future of an asynchronous dispatch at rest.  It owns its list once it
has been polled. -/
structure Task where
  cell : CellId
  list : Option (Nat × Addr)
  deriving DecidableEq, Repr

/-- What is shared besides the cells: the registries, the strong counts of the
callbacks, and the futures. -/
structure Shared where
  registries : CellId → Registry
  strong : CallbackId → Nat
  callbacks : Nat
  tasks : Nat → Option Task
  nextTask : Nat

namespace Shared

/-- `SyncRegistry::new` for every registry. -/
def initial : Shared where
  registries := fun _ => ⟨0, none, none, [], fun _ => none⟩
  strong := fun _ => 0
  callbacks := 0
  tasks := fun _ => none
  nextTask := 0

def setRegistry (shared : Shared) (cell : CellId) (registry : Registry) :
    Shared :=
  { shared with
    registries := Function.update shared.registries cell registry }

/-- `panics.fetch_add(1)`, which wraps at `2 ^ 64`. -/
def countPanic (shared : Shared) (cell : CellId) : Shared :=
  shared.setRegistry cell
    { shared.registries cell with
      panics := ((shared.registries cell).panics + 1) % 2 ^ 64 }

/-- `panic_callback.read()` once no writer holds the lock. -/
def readLock (shared : Shared) (cell : CellId) (thread : Tid) : Shared :=
  shared.setRegistry cell
    { shared.registries cell with
      readers := thread :: (shared.registries cell).readers }

def readUnlock (shared : Shared) (cell : CellId) (thread : Tid) : Shared :=
  shared.setRegistry cell
    { shared.registries cell with
      readers := (shared.registries cell).readers.erase thread }

/-- `panic_callback.write()` once the lock is free. -/
def writeLock (shared : Shared) (cell : CellId) (thread : Tid) : Shared :=
  shared.setRegistry cell
    { shared.registries cell with writer := some thread }

/-- The new callback is in place, and the write guard is dropped. -/
def storeCallback (shared : Shared) (cell : CellId)
    (new : Option CallbackId) : Shared :=
  shared.setRegistry cell
    { shared.registries cell with panicCallback := new, writer := none }

def setSlot (shared : Shared) (cell : CellId) (handler : Nat)
    (slot : Slot) : Shared :=
  shared.setRegistry cell
    { shared.registries cell with
      slots := Function.update (shared.registries cell).slots handler
        (some slot) }

def setStrong (shared : Shared) (holder : CallbackId) (count : Nat) :
    Shared :=
  { shared with strong := Function.update shared.strong holder count }

/-- `Arc::new(PanicCallbackHolder::new(callback))`. -/
def newCallback (shared : Shared) : Shared :=
  { shared.setStrong shared.callbacks 1 with
    callbacks := shared.callbacks + 1 }

/-- Clone of the `Option<Arc<..>>` behind the lock. -/
def cloneHolder (shared : Shared) : Option CallbackId → Shared
  | none => shared
  | some holder => shared.setStrong holder (shared.strong holder + 1)

def setTask (shared : Shared) (task : Nat) (value : Option Task) : Shared :=
  { shared with tasks := Function.update shared.tasks task value }

/-- A call of an `async fn` creates its future. -/
def newTask (shared : Shared) (cell : CellId) : Shared :=
  { shared.setTask shared.nextTask (some ⟨cell, none⟩) with
    nextTask := shared.nextTask + 1 }

end Shared

structure Memory where
  cells : Snapshot.Memory
  shared : Shared

def Memory.withCells (memory : Memory) (cells : Snapshot.Memory) : Memory :=
  { memory with cells := cells }

def Memory.withShared (memory : Memory) (shared : Shared) : Memory :=
  { memory with shared := shared }

/-! ### Threads -/

/-- Program points of `handle_panic` after the increment of the counter.
`unwinding` is the payload of a destructor's panic that is on its way out. -/
inductive ReportStep (P : Type) where
  | lock
  | clone
  | unlock (holder : Option CallbackId)
  | invoke (holder : CallbackId)
  | dropSecond (holder : CallbackId) (second : P)
  | dropHolder (holder : CallbackId) (unwinding : Option P)
  | destroyHolder (unwinding : Option P)
  | dropPayload (unwinding : Option P)

/-- What the registry does inside the closure of a dispatch: nothing of its
own (the loop, or a handler), the closure that `register_once` stores, or
`handle_panic`.  `remove` is the drop of `RemoveOnDrop`, with the payload if
the function panicked. -/
inductive Work (P : Type) where
  | plain
  | lockSlot
  | take
  | once
  | remove (panic : Option P)
  | report (info : PanicInfo P) (step : ReportStep P)

/-- A call of the cell with what its caller passed along: the event of a
dispatch, and whether a registration is that of a one-shot handler. -/
structure Activation (E P : Type) where
  frame : Frame
  event : Option E
  once : Bool
  work : Work P
  unwinding : Option P

/-- Program points of `on_panic` and `clear_panic_callback`: the old callback
is dropped, and then replaced, while the write guard is alive. -/
inductive SetStep (P : Type) where
  | lock
  | dropOld
  | destroy
  | store (unwinding : Option P)

/-- Program points of a poll of an asynchronous dispatch.  Between its reports
it starts handlers and polls and drops futures, in the order that
`Isolation.Async` gives; all of this is code from outside. -/
inductive PollStep (P : Type) where
  | load (list : Option (Nat × Addr))
  | drive (list : Nat × Addr)
  | report (list : Nat × Addr) (info : PanicInfo P) (step : ReportStep P)
  | dropFutures (list : Nat × Addr) (unwinding : Option P)
  | dropList (list : Nat × Addr) (unwinding : Option P)
  | destroy (unwinding : Option P)

inductive Item (E P : Type) where
  | call (activation : Activation E P)
  | setCallback (cell : CellId) (new : Option CallbackId)
      (step : SetStep P)
  | poll (task : Nat) (cell : CellId) (step : PollStep P)

/-- Code from outside is running. -/
def ReportStep.isUser {P : Type} : ReportStep P → Bool
  | .invoke _ => true
  | .dropSecond _ _ => true
  | .destroyHolder _ => true
  | .dropPayload _ => true
  | _ => false

def PollStep.isUser {P : Type} : PollStep P → Bool
  | .drive _ => true
  | .report _ _ step => step.isUser
  | .dropFutures _ _ => true
  | .destroy _ => true
  | _ => false

def Activation.isUser {E P : Type} (activation : Activation E P) : Bool :=
  match activation.work with
  | .plain => activation.frame.isUser
  | .once => true
  | .report _ step => step.isUser
  | _ => false

namespace Item

variable {E P : Type}

def isUser : Item E P → Bool
  | .call activation => activation.isUser
  | .setCallback _ _ .destroy => true
  | .setCallback _ _ _ => false
  | .poll _ _ step => step.isUser

def frame? : Item E P → Option Frame
  | .call activation => some activation.frame
  | _ => none

end Item

/-- The frames of the cell on a stack. -/
def frames {E P : Type} (stack : List (Item E P)) : List Frame :=
  stack.filterMap Item.frame?

structure Thread (E P : Type) where
  tls : Tls
  stack : List (Item E P)

namespace Thread

variable {E P : Type}

/-- What the thread is for the cell. -/
def cell (locals : Thread E P) : Snapshot.Thread :=
  ⟨locals.tls, frames locals.stack⟩

def push (locals : Thread E P) (item : Item E P) : Thread E P :=
  { locals with stack := item :: locals.stack }

def atUserPoint (locals : Thread E P) : Bool :=
  match locals.stack with
  | [] => true
  | item :: _ => item.isUser

end Thread

/-- What a thread does next.  The first actions are those of code from
outside; `returns` and `panics` end such code, `report` and `suspend` are
choices of an asynchronous dispatch, and the others perform the next operation
of the top item. -/
inductive Act (E P : Type) where
  | newCell (cell : CellId) (address : Addr)
  | exitThread
  | call (cell : CellId) (call : Snapshot.Call)
  | notify (cell : CellId) (event : E)
  | registerOnce (cell : CellId)
  | onPanic (cell : CellId)
  | clearPanicCallback (cell : CellId)
  | notifyAsync (cell : CellId)
  | poll (task : Nat)
  | dropTask (task : Nat)
  | returns
  | panics (payload : P)
  | report (info : PanicInfo P)
  | suspend
  | next
  | alloc (address : Addr)
  | spurious

/-! ### Operations -/

section Steps

variable {E P : Type}

/-- The rest of `handle_panic`, in either registry.  It ends with the payload
of a panic that leaves it, if there is one; a second panic while the first one
unwinds aborts the process. -/
def reportStep (shared : Shared) (thread : Tid) (cell : CellId) :
    ReportStep P → Act E P →
      Option (Shared × (ReportStep P ⊕ Option P))
  | .lock, .next =>
      if (shared.registries cell).writer.isNone then
        some (shared.readLock cell thread, .inl .clone)
      else none
  | .clone, .next =>
      let holder := (shared.registries cell).panicCallback
      some (shared.cloneHolder holder, .inl (.unlock holder))
  | .unlock none, .next =>
      some (shared.readUnlock cell thread, .inl (.dropPayload none))
  | .unlock (some holder), .next =>
      some (shared.readUnlock cell thread, .inl (.invoke holder))
  | .invoke holder, .returns =>
      some (shared, .inl (.dropHolder holder none))
  | .invoke holder, .panics second =>
      some (shared, .inl (.dropSecond holder second))
  | .dropSecond holder _, .returns =>
      some (shared, .inl (.dropHolder holder none))
  | .dropSecond holder _, .panics payload =>
      some (shared, .inl (.dropHolder holder (some payload)))
  | .dropHolder holder unwinding, .next =>
      if shared.strong holder = 1 then
        some (shared.setStrong holder 0, .inl (.destroyHolder unwinding))
      else
        some (shared.setStrong holder (shared.strong holder - 1),
          .inl (.dropPayload unwinding))
  | .destroyHolder unwinding, .returns =>
      some (shared, .inl (.dropPayload unwinding))
  | .destroyHolder none, .panics payload =>
      some (shared, .inl (.dropPayload (some payload)))
  | .dropPayload unwinding, .returns => some (shared, .inr unwinding)
  | .dropPayload none, .panics payload =>
      some (shared, .inr (some payload))
  | _, _ => none

/-- A call unwinds into its caller.  The drop of `RemoveOnDrop` and a poll
that waits for its list pass the panic on; other callers are code from
outside, which may do anything with it. -/
def resume : Option P → List (Item E P) → Option (List (Item E P))
  | none, stack => some stack
  | some payload, .call activation :: rest =>
      match activation.work with
      | .remove none =>
          some (.call { activation with
            work := .remove (some payload) } :: rest)
      | .remove (some _) => none
      | _ => some (.call activation :: rest)
  | some payload, .poll task cell (.load _) :: rest =>
      some (.poll task cell (.destroy (some payload)) :: rest)
  | some _, stack => some stack

/-- `load_arc_if` returns its handle. -/
def receive (list : Nat × Addr) : List (Item E P) → List (Item E P)
  | .poll task cell (.load _) :: rest =>
      .poll task cell (.load (some list)) :: rest
  | stack => stack

/-- The caller after an operation of the cell. -/
def callerAfter (memory : Snapshot.Memory) (rest : List (Item E P)) :
    Frame → List (Item E P)
  | .handOver _ address => receive (memory.store.nextHandle, address) rest
  | _ => rest

/-- The operation of the cell that an action performs inside a closure.  The
loop of `notify` is code of the registry. -/
def bodyAct : Body → Act E P → Option Snapshot.Act
  | .closure, .returns => some .finish
  | .closure, .panics _ => some .unwind
  | .dispatch [], .next => some .finish
  | .dispatch (_ :: _), .next => some .invoke
  | .handler _ _, .returns => some .handlerReturns
  | .handler _ _, .panics _ => some .handlerPanics
  | _, _ => none

/-- The operation of the cell that an action performs.  The closure of
`load_arc_if` keeps the list if it is not empty. -/
def cellAct (memory : Snapshot.Memory) :
    Frame → Act E P → Option Snapshot.Act
  | .reading _ _ _ _ body, act => bodyAct body act
  | .fallbackReading _ _ _ body, act => bodyAct body act
  | .keeping _ address _ _, .next =>
      some (.keep (!(memory.store.deref address).isEmpty))
  | .lockedKeep _ address _, .next =>
      some (.keep (!(memory.store.deref address).isEmpty))
  | .dropping _ _ _, .panics _ => some .unwind
  | _, .next => some .next
  | _, .alloc address => some (.alloc address)
  | _, .spurious => some .spurious
  | _, _ => none

/-- The handler that a dispatch is inside of. -/
def invoked : Frame → Option (CellId × Entry)
  | .reading cell _ _ _ (.handler entry _) => some (cell, entry)
  | .fallbackReading cell _ _ (.handler entry _) => some (cell, entry)
  | _ => none

/-- The handler whose panic a dispatch reports. -/
def caught : Frame → Option (CellId × Entry)
  | .reading cell _ _ _ (.callback entry _) => some (cell, entry)
  | .fallbackReading cell _ _ (.callback entry _) => some (cell, entry)
  | _ => none

/-- `register_once` creates the slot of its handler together with the id, and
`handle_panic` starts with the increment of the counter. -/
def sharedAfter (memory : Memory) (activation : Activation E P) :
    Snapshot.Act → Shared
  | .handlerPanics => memory.shared.countPanic activation.frame.cellOf
  | _ =>
      match activation.frame, activation.once with
      | .draw cell _, true =>
          memory.shared.setSlot cell
            (memory.cells.store.cells cell).registrations ⟨none, true⟩
      | _, _ => memory.shared

/-- What the registry does next inside the closure. -/
def workAfter (shared : Shared) (frame : Frame) :
    Snapshot.Act → Act E P → Work P
  | .invoke, _ =>
      match invoked frame with
      | some (cell, entry) =>
          if ((shared.registries cell).slots entry.handler).isSome then
            .lockSlot
          else .plain
      | none => .plain
  | .handlerPanics, .panics payload =>
      match caught frame with
      | some (_, entry) => .report ⟨entry.id, payload⟩ .lock
      | none => .plain
  | _, _ => .plain

/-- A panic of a closure or of a destructor is on its way out.  A second one
aborts the process. -/
def unwindingAfter (unwinding : Option P) :
    Snapshot.Act → Act E P → Option (Option P)
  | .unwind, .panics payload =>
      match unwinding with
      | none => some (some payload)
      | some _ => none
  | _, _ => some unwinding

variable (thread : Tid) (memory : Memory) (tls : Tls)

/-- The top frame performs an operation of the cell. -/
def frameMove (activation : Activation E P) (rest : List (Item E P))
    (operation : Snapshot.Act) (act : Act E P) :
    Option (Memory × Thread E P) :=
  match frameStep memory.cells ⟨thread, (frames rest).length⟩ tls
      activation.frame operation with
  | none => none
  | some (cells, tls', none) =>
      (resume activation.unwinding rest).map fun stack =>
        (memory.withCells cells, ⟨tls', stack⟩)
  | some (cells, tls', some frame) =>
      (unwindingAfter activation.unwinding operation act).map
        fun unwinding =>
          (⟨cells, sharedAfter memory activation operation⟩,
            ⟨tls', .call { activation with
              frame := frame
              work := workAfter memory.shared frame operation act
              unwinding := unwinding } ::
                callerAfter memory.cells rest activation.frame⟩)

/-- Nothing of the registry runs inside the closure. -/
def plainStep (activation : Activation E P) (rest : List (Item E P))
    (act : Act E P) : Option (Memory × Thread E P) :=
  match activation.frame, act with
  | .leaveFallback _, .panics payload =>
      (unwindingAfter activation.unwinding .unwind act).map fun _ =>
        (memory, ⟨tls, .call { activation with
          unwinding := some payload } :: rest⟩)
  | frame, act =>
      (cellAct memory.cells frame act).bind fun operation =>
        frameMove thread memory tls activation rest operation act

/-- User code calls an operation of the cell. -/
def enterCall (locals : Thread E P) (cell : CellId) (call : Snapshot.Call)
    (event : Option E) (once : Bool) : Option (Memory × Thread E P) :=
  (Snapshot.userStep thread memory.cells locals.cell
      (.call cell call)).map fun result =>
    (memory.withCells result.1,
      locals.push (.call ⟨call.enter cell, event, once, .plain, none⟩))

/-- The closure that `register_once` stores, for the entry it was registered
with. -/
def onceStep (activation : Activation E P) (rest : List (Item E P))
    (cell : CellId) (entry : Entry) :
    Work P → Act E P → Option (Memory × Thread E P)
  | .lockSlot, .next =>
      match (memory.shared.registries cell).slots entry.handler with
      | some ⟨none, full⟩ =>
          some
            (memory.withShared (memory.shared.setSlot cell entry.handler
                ⟨some thread, full⟩),
              ⟨tls, .call { activation with work := .take } :: rest⟩)
      | _ => none
  | .take, .next =>
      let unlocked := memory.withShared
        (memory.shared.setSlot cell entry.handler ⟨none, false⟩)
      match (memory.shared.registries cell).slots entry.handler with
      | some ⟨_, true⟩ =>
          some (unlocked,
            ⟨tls, .call { activation with work := .once } :: rest⟩)
      | some ⟨_, false⟩ =>
          frameMove thread unlocked tls
            { activation with work := .plain } rest .handlerReturns .returns
      | none => none
  | .once, .returns =>
      enterCall thread memory
        ⟨tls, .call { activation with work := .remove none } :: rest⟩
        cell (.unregister entry.id false) none false
  | .once, .panics payload =>
      enterCall thread memory
        ⟨tls, .call { activation with
          work := .remove (some payload) } :: rest⟩
        cell (.unregister entry.id false) none false
  | .remove none, .next =>
      frameMove thread memory tls { activation with work := .plain } rest
        .handlerReturns .returns
  | .remove (some payload), .next =>
      frameMove thread memory tls { activation with work := .plain } rest
        .handlerPanics (.panics payload)
  | _, _ => none

/-- `handle_panic` inside the loop of `notify`. -/
def reportingStep (activation : Activation E P) (rest : List (Item E P))
    (info : PanicInfo P) (step : ReportStep P) (act : Act E P) :
    Option (Memory × Thread E P) :=
  match reportStep memory.shared thread activation.frame.cellOf step act with
  | none => none
  | some (shared, .inl next) =>
      some (memory.withShared shared,
        ⟨tls, .call { activation with work := .report info next } :: rest⟩)
  | some (shared, .inr none) =>
      frameMove thread (memory.withShared shared) tls
        { activation with work := .plain } rest .callbackReturns .returns
  | some (shared, .inr (some payload)) =>
      frameMove thread (memory.withShared shared) tls
        { activation with work := .plain } rest .unwind (.panics payload)

def callStep (activation : Activation E P) (rest : List (Item E P))
    (act : Act E P) : Option (Memory × Thread E P) :=
  match activation.work with
  | .plain => plainStep thread memory tls activation rest act
  | .report info step =>
      reportingStep thread memory tls activation rest info step act
  | work =>
      (invoked activation.frame).bind fun (cell, entry) =>
        onceStep thread memory tls activation rest cell entry work act

/-- `*self.panic_callback.write() = new`. -/
def setStep (cell : CellId) (new : Option CallbackId)
    (rest : List (Item E P)) :
    SetStep P → Act E P → Option (Memory × Thread E P)
  | .lock, .next =>
      let registry := memory.shared.registries cell
      if registry.writer.isNone ∧ registry.readers = [] then
        some (memory.withShared (memory.shared.writeLock cell thread),
          ⟨tls, .setCallback cell new .dropOld :: rest⟩)
      else none
  | .dropOld, .next =>
      match (memory.shared.registries cell).panicCallback with
      | none =>
          some (memory, ⟨tls, .setCallback cell new (.store none) :: rest⟩)
      | some old =>
          if memory.shared.strong old = 1 then
            some (memory.withShared (memory.shared.setStrong old 0),
              ⟨tls, .setCallback cell new .destroy :: rest⟩)
          else
            some
              (memory.withShared (memory.shared.setStrong old
                  (memory.shared.strong old - 1)),
                ⟨tls, .setCallback cell new (.store none) :: rest⟩)
  | .destroy, .returns =>
      some (memory, ⟨tls, .setCallback cell new (.store none) :: rest⟩)
  | .destroy, .panics payload =>
      some (memory,
        ⟨tls, .setCallback cell new (.store (some payload)) :: rest⟩)
  | .store unwinding, .next =>
      (resume unwinding rest).map fun stack =>
        (memory.withShared (memory.shared.storeCallback cell new),
          ⟨tls, stack⟩)
  | _, _ => none

/-- A poll of `AsyncRegistry::notify` or `notify_sequential`. -/
def pollStep (task : Nat) (cell : CellId) (rest : List (Item E P)) :
    PollStep P → Act E P → Option (Memory × Thread E P)
  | .load none, .next => some (memory, ⟨tls, rest⟩)
  | .load (some list), .next =>
      some (memory, ⟨tls, .poll task cell (.drive list) :: rest⟩)
  | .drive list, .report info =>
      some (memory, ⟨tls, .poll task cell (.report list info .lock) :: rest⟩)
  | .drive list, .suspend =>
      some
        (memory.withShared
            (memory.shared.setTask task (some ⟨cell, some list⟩)),
          ⟨tls, rest⟩)
  | .drive list, .next =>
      some (memory, ⟨tls, .poll task cell (.dropList list none) :: rest⟩)
  | .drive list, .panics payload =>
      some (memory,
        ⟨tls, .poll task cell (.dropFutures list (some payload)) :: rest⟩)
  | .report list info step, act =>
      match reportStep memory.shared thread cell step act with
      | none => none
      | some (shared, .inl next) =>
          some (memory.withShared shared,
            ⟨tls, .poll task cell (.report list info next) :: rest⟩)
      | some (shared, .inr none) =>
          some (memory.withShared shared,
            ⟨tls, .poll task cell (.drive list) :: rest⟩)
      | some (shared, .inr (some payload)) =>
          some (memory.withShared shared,
            ⟨tls, .poll task cell
              (.dropFutures list (some payload)) :: rest⟩)
  | .dropFutures list unwinding, .returns =>
      some (memory,
        ⟨tls, .poll task cell (.dropList list unwinding) :: rest⟩)
  | .dropFutures list none, .panics payload =>
      some (memory,
        ⟨tls, .poll task cell (.dropFutures list (some payload)) :: rest⟩)
  | .dropList list unwinding, .next =>
      (Snapshot.userStep thread memory.cells ⟨tls, frames rest⟩
          (.dropHandle list.1 list.2)).map fun result =>
        (memory.withCells result.1,
          ⟨tls, .poll task cell (.destroy unwinding) :: rest⟩)
  | .destroy unwinding, .returns =>
      (resume unwinding rest).map fun stack => (memory, ⟨tls, stack⟩)
  | .destroy none, .panics payload =>
      some (memory, ⟨tls, .poll task cell (.destroy (some payload)) :: rest⟩)
  | _, _ => none

/-- The operations of the cell that a registry offers as they are. -/
def isDirect : Snapshot.Call → Bool
  | .read notify => !notify
  | .loadArcIf => false
  | _ => true

def isAlive (cell : CellId) : Bool :=
  decide ((memory.cells.store.cells cell).phase = .alive)

/-- Code from outside acts. -/
def userStep (locals : Thread E P) :
    Act E P → Option (Memory × Thread E P)
  | .newCell cell address =>
      (Snapshot.userStep thread memory.cells locals.cell
          (.newCell cell address)).map fun result =>
        (memory.withCells result.1, locals)
  | .exitThread =>
      if locals.stack.isEmpty then
        (Snapshot.userStep thread memory.cells locals.cell
            .exitThread).map fun result =>
          (memory.withCells result.1, ⟨result.2.tls,
            result.2.stack.map fun frame =>
              .call ⟨frame, none, false, .plain, none⟩⟩)
      else none
  | .call cell call =>
      if isDirect call then
        enterCall thread memory locals cell call none false
      else none
  | .notify cell event =>
      enterCall thread memory locals cell (.read true) (some event) false
  | .registerOnce cell =>
      enterCall thread memory locals cell (.register 0) none true
  | .onPanic cell =>
      if isAlive memory cell then
        some (memory.withShared memory.shared.newCallback,
          locals.push (.setCallback cell (some memory.shared.callbacks)
            .lock))
      else none
  | .clearPanicCallback cell =>
      if isAlive memory cell then
        some (memory, locals.push (.setCallback cell none .lock))
      else none
  | .notifyAsync cell =>
      if isAlive memory cell then
        some (memory.withShared (memory.shared.newTask cell), locals)
      else none
  | .poll task =>
      match memory.shared.tasks task with
      | none => none
      | some ⟨cell, none⟩ =>
          enterCall thread
            (memory.withShared (memory.shared.setTask task none))
            (locals.push (.poll task cell (.load none))) cell .loadArcIf
            none false
      | some ⟨cell, some list⟩ =>
          some (memory.withShared (memory.shared.setTask task none),
            locals.push (.poll task cell (.drive list)))
  | .dropTask task =>
      match memory.shared.tasks task with
      | none => none
      | some ⟨_, none⟩ =>
          some (memory.withShared (memory.shared.setTask task none), locals)
      | some ⟨cell, some list⟩ =>
          some (memory.withShared (memory.shared.setTask task none),
            locals.push (.poll task cell (.dropFutures list none)))
  | _ => none

end Steps

/-- One operation of the top item. -/
def itemStep {E P : Type} (thread : Tid) (memory : Memory) (tls : Tls)
    (item : Item E P) (rest : List (Item E P)) (act : Act E P) :
    Option (Memory × Thread E P) :=
  match item with
  | .call activation => callStep thread memory tls activation rest act
  | .setCallback cell new step =>
      setStep thread memory tls cell new rest step act
  | .poll task cell step =>
      pollStep thread memory tls task cell rest step act

def Act.isUser {E P : Type} : Act E P → Bool
  | .newCell .. | .exitThread | .call .. | .notify .. | .registerOnce ..
  | .onPanic .. | .clearPanicCallback .. | .notifyAsync .. | .poll ..
  | .dropTask .. => true
  | _ => false

/-- The program of every thread. -/
def program (E P : Type) : Program Tid Memory (Thread E P) (Act E P) :=
  fun thread memory locals act =>
    if act.isUser then
      if locals.atUserPoint then userStep thread memory locals act else none
    else
      match locals.stack with
      | [] => none
      | item :: rest => itemStep thread memory locals.tls item rest act

abbrev State (E P : Type) := Config Tid Memory (Thread E P)

def initial (E P : Type) : State E P where
  memory := ⟨Snapshot.initial.memory, .initial⟩
  threads := fun _ => ⟨⟨none, false, 0⟩, []⟩

end RegistryIo.Reentrant
