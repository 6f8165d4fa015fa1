import RegistryIo.Foundations.Interleaving
import RegistryIo.Snapshot.Store

/-!
# The threads of the program

A thread is its thread-local variables and a stack of frames, the innermost
call first.  A frame is a program counter inside one of the functions of
`snapshot.rs`, `hazard.rs` or `sync/mod.rs` with the local variables that are
alive there.  Every step performs at most one atomic operation on shared
memory; operations on data that only the thread can reach (its own slots, the
retired list while it holds the writer lock) are merged with the neighbouring
atomic operation.

User code runs inside read closures, inside handlers and panic callbacks, and
in destructors of freed values.  At these points, and when its stack is empty,
a thread may call any operation of any cell.
-/

namespace RegistryIo.Snapshot

open RegistryIo.Interleaving

/-- The closure of a read.  `notify` walks the list: it is at the head of its
loop, inside a handler, or inside `handle_panic`.  Any other closure is
opaque. -/
inductive Body where
  | closure
  | dispatch (pending : List Entry)
  | handler (entry : Entry) (pending : List Entry)
  | callback (entry : Entry) (pending : List Entry)
  deriving DecidableEq, Repr

namespace Body

def start (notify : Bool) (list : List Entry) : Body :=
  if notify then .dispatch list else .closure

/-- Entries the loop has still to invoke. -/
def pending : Body → List Entry
  | .closure => []
  | .dispatch pending => pending
  | .handler _ pending => pending
  | .callback _ pending => pending

/-- User code is running. -/
def isUser : Body → Bool
  | .dispatch _ => false
  | _ => true

end Body

/-- The callers of `protect`: `read`, for `notify` or for another closure, and
`load_arc_if`. -/
inductive Reader where
  | read (notify : Bool)
  | loadArcIf
  deriving DecidableEq, Repr

/-- Program points of `hazard::pin` and of `acquire_record` inside it. -/
inductive PinStep where
  | findSlot
  | tryClaim (cursor : Option RecordId) (reused : Option RecordId)
  | advance (cursor : RecordId) (reused : Option RecordId)
  | loadHead (record : RecordId)
  | storeNext (record : RecordId) (head : Option RecordId)
  | exchangeHead (record : RecordId) (head : Option RecordId)
  deriving DecidableEq, Repr

/-- A pinned slot: the record and the index. -/
structure Pin where
  record : RecordId
  index : Nat
  deriving DecidableEq, Repr

/-- The closures given to `SnapCell::update`. -/
inductive Write where
  | insert (entry : Entry)
  | remove (id : HandlerId)
  | clear
  deriving DecidableEq, Repr

namespace Write

/-- The new list, or `None` to leave the current one alone. -/
def apply : Write → List Entry → Option (List Entry)
  | .insert entry, list => some (entry.insert list)
  | .remove id, list => HandlerEntry.removeId id list
  | .clear, list => HandlerEntry.removeAll list

/-- The handlers a successful write takes out and puts in. -/
def effect : Write → List Entry → Effect
  | .insert entry, _ => ⟨[], some entry.handler⟩
  | .remove id, list =>
      ⟨handlersOf (list.find? fun entry => entry.id = id).toList, none⟩
  | .clear, list => ⟨handlersOf list, none⟩

end Write

/-- Program points of `announced` and of the rest of
`collect_unprotected`. -/
inductive CollectStep where
  | start
  | scan (cursor : Option RecordId) (index : Nat) (announced : List Addr)
  | storeLen (freed : List Addr)
  | unlock (freed : List Addr)
  deriving DecidableEq, Repr

/-- Who drops a batch of values: `try_reclaim` at the end of a read or load,
`update`, or the drop of the cell.  `discard` only returns: a destructor
panicked and the call unwinds, or `load_arc_if` rejected the value; in both
cases the handle of the load is dropped after the batch. -/
inductive Collector where
  | reclaim (result : Option Addr)
  | update (wait : Bool) (effect : Effect)
  | drop
  | discard (result : Option Addr)
  deriving DecidableEq, Repr

/-- A destructor panicked: the rest of the batch is dropped and the call
unwinds. -/
def Collector.unwound : Collector → Collector
  | .reclaim result => .discard result
  | .update _ _ => .discard none
  | .drop => .drop
  | .discard result => .discard result

/-- Program points of `load_arc_locked`. -/
inductive LockedStep where
  | lock
  | load
  | increment (address : Addr) (version : Nat)
  | unlock (address : Addr) (version : Nat)
  deriving DecidableEq, Repr

/-- Program points of `wait_for_retired_readers` and of `others_protect`
inside it. -/
inductive WaitStep where
  | start
  | checkFallback (onFallback : Bool)
  | lock (onFallback : Bool)
  | copy (onFallback : Bool)
  | each (onFallback : Bool) (retired : List Addr)
  | scan (onFallback : Bool) (address : Addr) (retired : List Addr)
      (cursor : Option RecordId) (index : Nat) (found : Bool)
  deriving DecidableEq, Repr

/-- What a finished call reports. -/
inductive Outcome where
  | done
  | wrote (effect : Effect)
  | waited (onFallback : Bool) (removed : List Nat)
  | unchanged
  deriving DecidableEq, Repr

/-- A program counter with its local variables. -/
inductive Frame where
  | enter (cell : CellId) (reader : Reader)
  | pinning (cell : CellId) (reader : Reader) (address : Addr)
      (step : PinStep)
  | validate (cell : CellId) (reader : Reader) (address : Addr) (pin : Pin)
  | republish (cell : CellId) (reader : Reader) (address : Addr) (pin : Pin)
  | reading (cell : CellId) (address : Addr) (version : Nat) (pin : Pin)
      (body : Body)
  | keeping (cell : CellId) (address : Addr) (version : Nat) (pin : Pin)
  | counted (cell : CellId) (address : Addr) (version : Nat) (pin : Pin)
  | checkRetired (cell : CellId) (result : Option Addr)
  | tryLock (cell : CellId) (result : Option Addr)
  | collect (cell : CellId) (collector : Collector) (step : CollectStep)
  | dropping (cell : CellId) (collector : Collector) (freed : List Addr)
  | handOver (cell : CellId) (address : Addr)
  | draw (cell : CellId) (priority : Int)
  | lockWriter (cell : CellId) (write : Write) (wait : Bool)
  | compute (cell : CellId) (write : Write) (wait : Bool)
  | installing (cell : CellId) (wait : Bool) (effect : Effect) (new : Addr)
  | pushing (cell : CellId) (wait : Bool) (effect : Effect) (raw : Addr)
  | unlockUnchanged (cell : CellId)
  | enterFallback (cell : CellId) (notify : Bool)
  | locked (cell : CellId) (reader : Reader) (step : LockedStep)
  | fallbackReading (cell : CellId) (address : Addr) (version : Nat)
      (body : Body)
  | leaveFallback (cell : CellId)
  | lockedKeep (cell : CellId) (address : Addr) (version : Nat)
  | waiting (cell : CellId) (removed : List Nat) (step : WaitStep)
  | returned (cell : CellId) (outcome : Outcome)
  | exiting (record : RecordId) (index : Nat)
  deriving DecidableEq, Repr

namespace Frame

/-- User code runs above this frame. -/
def isUser : Frame → Bool
  | .reading _ _ _ _ body => body.isUser
  | .fallbackReading _ _ _ body => body.isUser
  | .dropping .. => true
  | .leaveFallback _ => true
  | _ => false

end Frame

/-- `LOCAL` and `FALLBACK_DEPTH`. -/
structure Tls where
  record : Option RecordId
  localGone : Bool
  fallbackDepth : Nat
  deriving DecidableEq, Repr

structure Thread where
  tls : Tls
  stack : List Frame
  deriving DecidableEq, Repr

structure Memory where
  domain : Domain
  store : Store

/-- The operations of a registry. -/
inductive Call where
  | read (notify : Bool)
  | loadArcIf
  | register (priority : Int)
  | unregister (id : HandlerId) (wait : Bool)
  | clear (wait : Bool)
  deriving DecidableEq, Repr

/-- What a thread does next.  `next` performs the next operation of the top
frame; the other actions resolve a choice that the source leaves to the
allocator, to user code or to a spuriously failing exchange. -/
inductive Act where
  | newCell (cell : CellId) (address : Addr)
  | dropCell (cell : CellId)
  | call (cell : CellId) (call : Call)
  | dropHandle (handle : Nat) (address : Addr)
  | exitThread
  | next
  | alloc (address : Addr)
  | spurious
  | keep (accepted : Bool)
  | invoke
  | handlerReturns
  | handlerPanics
  | callbackReturns
  | finish
  | unwind
  deriving DecidableEq, Repr

/-- The result of a step of the top frame: `none` returns from it. -/
abbrev FrameResult := Option (Memory × Tls × Option Frame)

section Steps

variable (memory : Memory) (call : CallId) (tls : Tls)

/-- A store to the domain, after which the frame continues as `frame`. -/
def Memory.withDomain (domain : Domain) : Memory :=
  { memory with domain := domain }

def Memory.withStore (store : Store) : Memory :=
  { memory with store := store }

/-- `SnapCell::read` and `load_arc_if` when `protect` returned `None`. -/
def slowPath (cell : CellId) : Reader → Frame
  | .read notify => .enterFallback cell notify
  | .loadArcIf => .locked cell .loadArcIf .lock

/-- After `release`: a load still has to return its handle. -/
def afterRelease (cell : CellId) : Option Addr → Frame
  | none => .returned cell .done
  | some address => .handOver cell address

/-- `hazard::pin`, with `acquire_record` on first use. -/
def pinStep (cell : CellId) (reader : Reader) (address : Addr) :
    PinStep → Act → FrameResult
  | .findSlot, .next =>
      if tls.localGone then
        some (memory, tls, some (slowPath cell reader))
      else
        match tls.record with
        | none =>
            some (memory, tls, some (.pinning cell reader address
              (.tryClaim memory.domain.head none)))
        | some record =>
            match memory.domain.freeSlot record with
            | none => some (memory, tls, some (slowPath cell reader))
            | some index =>
                some
                  (memory.withDomain (memory.domain.setSlot record index
                      (some ⟨address, call, none⟩)), tls,
                    some (.validate cell reader address ⟨record, index⟩))
  | .tryClaim (some record) none, .next =>
      if (memory.domain.records record).inUse then
        some (memory, tls,
          some (.pinning cell reader address (.advance record none)))
      else
        some (memory.withDomain (memory.domain.claim record call.thread), tls,
          some (.pinning cell reader address
            (.advance record (some record))))
  | .tryClaim (some record) (some reused), .next =>
      some (memory, tls, some (.pinning cell reader address
        (.tryClaim (memory.domain.records record).next (some reused))))
  | .tryClaim none (some reused), .next =>
      some (memory, { tls with record := some reused },
        some (.pinning cell reader address .findSlot))
  | .tryClaim none none, .next =>
      some (memory.withDomain (memory.domain.allocate call.thread), tls,
        some (.pinning cell reader address
          (.loadHead memory.domain.allocated)))
  | .advance record reused, .next =>
      some (memory, tls, some (.pinning cell reader address
        (.tryClaim (memory.domain.records record).next reused)))
  | .loadHead record, .next =>
      some (memory, tls, some (.pinning cell reader address
        (.storeNext record memory.domain.head)))
  | .storeNext record head, .next =>
      some (memory.withDomain (memory.domain.setNext record head), tls,
        some (.pinning cell reader address (.exchangeHead record head)))
  | .exchangeHead record head, .next =>
      if memory.domain.head = head then
        some (memory.withDomain (memory.domain.publish record),
          { tls with record := some record },
          some (.pinning cell reader address .findSlot))
      else
        some (memory, tls, some (.pinning cell reader address
          (.storeNext record memory.domain.head)))
  | .exchangeHead record _, .spurious =>
      some (memory, tls, some (.pinning cell reader address
        (.storeNext record memory.domain.head)))
  | _, _ => none

/-- The validating load of `protect`. -/
def validateStep (cell : CellId) (reader : Reader) (address : Addr)
    (pin : Pin) : FrameResult :=
  let current := (memory.store.cells cell).current
  if current = address then
    let version := (memory.store.cells cell).version
    let domain := memory.domain.setSlot pin.record pin.index
      (some ⟨address, call, some ⟨cell, version⟩⟩)
    match reader with
    | .read notify =>
        some (memory.withDomain domain, tls,
          some (.reading cell address version pin
            (Body.start notify (memory.store.deref address))))
    | .loadArcIf =>
        some (memory.withDomain domain, tls,
          some (.keeping cell address version pin))
  else
    some (memory, tls, some (.republish cell reader current pin))

/-- The loop of `notify` inside a read closure; the other steps of a closure
end it. -/
def bodyStep : Body → Act → Option Body
  | .dispatch (entry :: pending), .invoke => some (.handler entry pending)
  | .handler _ pending, .handlerReturns => some (.dispatch pending)
  | .handler entry pending, .handlerPanics =>
      some (.callback entry pending)
  | .callback _ pending, .callbackReturns => some (.dispatch pending)
  | _, _ => none

/-- The closure returns: `notify` has walked the whole list. -/
def Body.finishes : Body → Bool
  | .closure => true
  | .dispatch pending => pending.isEmpty
  | _ => false

/-- The closure unwinds.  `notify` catches panics of handlers, so a panic
leaves its closure only through `handle_panic`. -/
def Body.unwinds : Body → Bool
  | .closure => true
  | .callback _ _ => true
  | _ => false

/-- Clear a slot: drop of a `Pin`. -/
def Memory.clearPin (pin : Pin) : Memory :=
  memory.withDomain (memory.domain.setSlot pin.record pin.index none)

/-- A read closure under a hazard. -/
def readingStep (cell : CellId) (address : Addr) (version : Nat)
    (pin : Pin) (body : Body) : Act → FrameResult
  | .finish =>
      if body.finishes then
        some (memory.clearPin pin, tls, some (.checkRetired cell none))
      else none
  | .unwind =>
      if body.unwinds then
        some (memory.clearPin pin, tls, some (.returned cell .done))
      else none
  | act =>
      (bodyStep body act).map fun next =>
        (memory, tls, some (.reading cell address version pin next))

/-- `collect_unprotected` under the writer lock. -/
def collectStep (cell : CellId) (collector : Collector) :
    CollectStep → FrameResult
  | .start =>
      if (memory.store.cells cell).retired.isEmpty then
        some (memory, tls, some (.collect cell collector (.storeLen [])))
      else
        some (memory, tls,
          some (.collect cell collector (.scan memory.domain.head 0 [])))
  | .scan (some record) index announced =>
      if index < SLOTS then
        some (memory, tls, some (.collect cell collector
          (.scan (some record) (index + 1)
            (announced ++
              ((memory.domain.slot record index).map
                Announcement.address).toList))))
      else
        some (memory, tls, some (.collect cell collector
          (.scan (memory.domain.records record).next 0 announced)))
  | .scan none _ announced =>
      some
        (memory.withStore
            (memory.store.collect cell announced call), tls,
          some (.collect cell collector (.storeLen
            (Store.collectUnprotected announced
              (memory.store.cells cell).retired).2)))
  | .storeLen freed =>
      some (memory.withStore (memory.store.storeRetiredLen cell), tls,
        some (.collect cell collector (.unlock freed)))
  | .unlock freed =>
      some (memory.withStore (memory.store.unlock cell), tls,
        some (.dropping cell collector freed))

/-- `drop(freed)`, one value at a time.  The destructor of a value runs when
its last reference is dropped, and only then it can panic. -/
def droppingStep (cell : CellId) (collector : Collector) :
    List Addr → Act → FrameResult
  | address :: freed, .next =>
      some (memory.withStore (memory.store.dropOwner address .cell), tls,
        some (.dropping cell collector freed))
  | address :: freed, .unwind =>
      if (memory.store.heap address).map ArcInner.strong = some 1 then
        some (memory.withStore (memory.store.dropOwner address .cell), tls,
          some (.dropping cell collector.unwound freed))
      else none
  | [], .next =>
      match collector with
      | .reclaim result =>
          some (memory, tls, some (afterRelease cell result))
      | .update wait effect =>
          if wait then
            some (memory, tls,
              some (.waiting cell effect.removed .start))
          else
            some (memory, tls, some (.returned cell (.wrote effect)))
      | .drop => some (memory, tls, none)
      | .discard none => some (memory, tls, some (.returned cell .done))
      | .discard (some address) =>
          some (memory.withStore (memory.store.dropOwner address
              (.load call)), tls,
            some (.dropping cell (.discard none) []))
  | _, _ => none

/-- The closure of `update` on the current value. -/
def computeStep (cell : CellId) (write : Write) (wait : Bool) :
    Act → FrameResult
  | .next =>
      match write.apply
          (memory.store.deref (memory.store.cells cell).current) with
      | none => some (memory, tls, some (.unlockUnchanged cell))
      | some _ => none
  | .alloc address =>
      let list := memory.store.deref (memory.store.cells cell).current
      match write.apply list with
      | none => none
      | some value =>
          if (memory.store.heap address).isNone then
            some
              (memory.withStore
                  (memory.store.allocArc address cell value (.fresh call)),
                tls,
                some (.installing cell wait (write.effect list) address))
          else none
  | _ => none

/-- `load_arc_locked`. -/
def lockedStep (cell : CellId) (reader : Reader) :
    LockedStep → FrameResult
  | .lock =>
      if (memory.store.cells cell).writer.isNone then
        some (memory.withStore (memory.store.lock cell call), tls,
          some (.locked cell reader .load))
      else none
  | .load =>
      some (memory, tls, some (.locked cell reader
        (.increment (memory.store.cells cell).current
          (memory.store.cells cell).version)))
  | .increment address version =>
      let owner : Owner :=
        match reader with
        | .read _ => .fallback call
        | .loadArcIf => .load call
      some (memory.withStore (memory.store.addOwner address owner), tls,
        some (.locked cell reader (.unlock address version)))
  | .unlock address version =>
      let store := memory.store.unlock cell
      match reader with
      | .read notify =>
          some (memory.withStore store, tls,
            some (.fallbackReading cell address version
              (Body.start notify (memory.store.deref address))))
      | .loadArcIf =>
          some (memory.withStore store, tls,
            some (.lockedKeep cell address version))

/-- The closure of `read_fallback`.  Both ways out drop the owned value first
and the reader count after it. -/
def fallbackReadingStep (cell : CellId) (address : Addr) (version : Nat)
    (body : Body) (act : Act) : FrameResult :=
  if (act = .finish ∧ body.finishes) ∨ (act = .unwind ∧ body.unwinds) then
    some
      (memory.withStore
          (memory.store.dropOwner address (.fallback call)), tls,
        some (.leaveFallback cell))
  else
    (bodyStep body act).map fun next =>
      (memory, tls, some (.fallbackReading cell address version next))

/-- `wait_for_retired_readers`. -/
def waitStep (cell : CellId) (removed : List Nat) :
    WaitStep → FrameResult
  | .start =>
      some (memory, tls, some (.waiting cell removed
        (.checkFallback (decide (0 < tls.fallbackDepth)))))
  | .checkFallback onFallback =>
      if onFallback ∨ (memory.store.cells cell).fallbackReaders = 0 then
        some (memory, tls, some (.waiting cell removed (.lock onFallback)))
      else
        some (memory, tls,
          some (.waiting cell removed (.checkFallback onFallback)))
  | .lock onFallback =>
      if (memory.store.cells cell).writer.isNone then
        some (memory.withStore (memory.store.lock cell call), tls,
          some (.waiting cell removed (.copy onFallback)))
      else none
  | .copy onFallback =>
      some (memory.withStore (memory.store.unlock cell), tls,
        some (.waiting cell removed
          (.each onFallback (memory.store.cells cell).retired)))
  | .each onFallback [] =>
      some (memory, tls,
        some (.returned cell (.waited onFallback removed)))
  | .each onFallback (address :: retired) =>
      some (memory, tls, some (.waiting cell removed
        (.scan onFallback address retired memory.domain.head 0 false)))
  | .scan onFallback address retired (some record) index found =>
      if tls.record = some record ∨ SLOTS ≤ index then
        some (memory, tls, some (.waiting cell removed
          (.scan onFallback address retired
            (memory.domain.records record).next 0 found)))
      else if (memory.domain.slot record index).map
          Announcement.address = some address then
        some (memory, tls, some (.waiting cell removed
          (.scan onFallback address retired (some record) SLOTS true)))
      else
        some (memory, tls, some (.waiting cell removed
          (.scan onFallback address retired (some record) (index + 1)
            found)))
  | .scan onFallback _ retired none _ found =>
      if found then
        some (memory, tls,
          some (.waiting cell removed (.checkFallback onFallback)))
      else
        some (memory, tls,
          some (.waiting cell removed (.each onFallback retired)))

/-- One operation of the top frame. -/
def frameStep : Frame → Act → FrameResult
  | .enter cell reader, .next =>
      some (memory, tls, some (.pinning cell reader
        (memory.store.cells cell).current .findSlot))
  | .pinning cell reader address step, act =>
      pinStep memory call tls cell reader address step act
  | .validate cell reader address pin, .next =>
      validateStep memory call tls cell reader address pin
  | .republish cell reader address pin, .next =>
      some
        (memory.withDomain (memory.domain.setSlot pin.record pin.index
            (some ⟨address, call, none⟩)), tls,
          some (.validate cell reader address pin))
  | .reading cell address version pin body, act =>
      readingStep memory tls cell address version pin body act
  | .keeping cell address version pin, .keep accepted =>
      if accepted then
        some
          (memory.withStore
              (memory.store.addOwner address (.load call)), tls,
            some (.counted cell address version pin))
      else
        some (memory.clearPin pin, tls, some (.checkRetired cell none))
  | .counted cell address _ pin, .next =>
      some (memory.clearPin pin, tls,
        some (.checkRetired cell (some address)))
  | .checkRetired cell result, .next =>
      if (memory.store.cells cell).retiredLen = 0 then
        some (memory, tls, some (afterRelease cell result))
      else
        some (memory, tls, some (.tryLock cell result))
  | .tryLock cell result, .next =>
      if (memory.store.cells cell).writer.isNone then
        some (memory.withStore (memory.store.lock cell call), tls,
          some (.collect cell (.reclaim result) .start))
      else
        some (memory, tls, some (afterRelease cell result))
  | .collect cell collector step, .next =>
      collectStep memory call tls cell collector step
  | .dropping cell collector freed, act =>
      droppingStep memory call tls cell collector freed act
  | .handOver cell address, .next =>
      some (memory.withStore (memory.store.giveHandle address call),
        tls, some (.returned cell .done))
  | .draw cell priority, .next =>
      let snap := memory.store.cells cell
      some (memory.withStore (memory.store.nextId cell call), tls,
        some (.lockWriter cell
          (.insert ⟨snap.idGenerator.next.1, priority, snap.registrations⟩)
          false))
  | .lockWriter cell write wait, .next =>
      if (memory.store.cells cell).writer.isNone then
        some (memory.withStore (memory.store.lock cell call), tls,
          some (.compute cell write wait))
      else none
  | .compute cell write wait, act =>
      computeStep memory call tls cell write wait act
  | .installing cell wait effect new, .next =>
      some
        (memory.withStore (memory.store.install cell new effect call), tls,
          some (.pushing cell wait effect (memory.store.cells cell).current))
  | .pushing cell wait effect raw, .next =>
      some (memory.withStore (memory.store.retire cell raw), tls,
        some (.collect cell (.update wait effect) .start))
  | .unlockUnchanged cell, .next =>
      some (memory.withStore (memory.store.unlock cell), tls,
        some (.returned cell .unchanged))
  | .enterFallback cell notify, .next =>
      some
        (memory.withStore (memory.store.enterFallback cell call),
          { tls with fallbackDepth := tls.fallbackDepth + 1 },
          some (.locked cell (.read notify) .lock))
  | .locked cell reader step, .next =>
      lockedStep memory call tls cell reader step
  | .fallbackReading cell address version body, act =>
      fallbackReadingStep memory call tls cell address version body act
  | .leaveFallback cell, .next =>
      some
        (memory.withStore (memory.store.leaveFallback cell call),
          { tls with fallbackDepth := tls.fallbackDepth - 1 },
          some (.returned cell .done))
  | .lockedKeep cell address _, .keep accepted =>
      if accepted then
        some (memory, tls, some (.handOver cell address))
      else
        some (memory, tls,
          some (.dropping cell (.discard (some address)) []))
  | .waiting cell removed step, .next =>
      waitStep memory call tls cell removed step
  | .returned cell _, .next =>
      some (memory.withStore (memory.store.endCall cell call), tls,
        none)
  | .exiting record index, .next =>
      if index < SLOTS then
        some (memory.clearPin ⟨record, index⟩, tls,
          some (.exiting record (index + 1)))
      else
        some (memory.withDomain (memory.domain.release record),
          { tls with record := none, localGone := true }, none)
  | _, _ => none

end Steps

/-- User code may run: the stack is empty or its top is a user frame. -/
def Thread.atUserPoint (thread : Thread) : Bool :=
  match thread.stack with
  | [] => true
  | frame :: _ => frame.isUser

/-- The first frame of a call. -/
def Call.enter (cell : CellId) : Call → Frame
  | .read notify => .enter cell (.read notify)
  | .loadArcIf => .enter cell .loadArcIf
  | .register priority => .draw cell priority
  | .unregister id wait => .lockWriter cell (.remove id) wait
  | .clear wait => .lockWriter cell .clear wait

/-- User code acts: it creates or drops a cell, calls an operation, drops a
handle, or ends the thread, which runs `Drop for Local`. -/
def userStep (thread : Tid) (memory : Memory) (locals : Thread) :
    Act → Option (Memory × Thread)
  | .newCell cell address =>
      if (memory.store.cells cell).phase = .unborn ∧
          (memory.store.heap address).isNone then
        some (memory.withStore (memory.store.newCell cell address), locals)
      else none
  | .dropCell cell =>
      let snap := memory.store.cells cell
      if snap.phase = .alive ∧ snap.active = [] then
        some
          (memory.withStore
              (memory.store.dropCell cell ⟨thread, locals.stack.length⟩),
            { locals with
              stack := .dropping cell .drop (snap.current :: snap.retired) ::
                locals.stack })
      else none
  | .call cell call =>
      if (memory.store.cells cell).phase = .alive then
        some
          (memory.withStore
              (memory.store.beginCall cell ⟨thread, locals.stack.length⟩),
            { locals with stack := call.enter cell :: locals.stack })
      else none
  | .dropHandle handle address =>
      if (handle, address) ∈ memory.store.handles then
        some
          (memory.withStore (memory.store.dropHandle handle address), locals)
      else none
  | .exitThread =>
      if locals.stack = [] ∧ locals.tls.localGone = false then
        match locals.tls.record with
        | none =>
            some (memory,
              { locals with tls := { locals.tls with localGone := true } })
        | some record =>
            some (memory, { locals with stack := [.exiting record 0] })
      else none
  | _ => none

/-- The program of every thread. -/
def program : Program Tid Memory Thread Act :=
  fun thread memory locals act =>
    match act with
    | .newCell .. | .dropCell .. | .call .. | .dropHandle .. | .exitThread =>
        if locals.atUserPoint then userStep thread memory locals act
        else none
    | _ =>
        match locals.stack with
        | [] => none
        | frame :: rest =>
            (frameStep memory ⟨thread, rest.length⟩ locals.tls frame act).map
              fun (memory', tls', frame') =>
                (memory', ⟨tls', frame'.toList ++ rest⟩)

abbrev State := Config Tid Memory Thread

/-- No cell, no record, and every thread at the start of its life. -/
def initial : State where
  memory := ⟨.initial, .initial⟩
  threads := fun _ => ⟨⟨none, false, 0⟩, []⟩

end RegistryIo.Snapshot
