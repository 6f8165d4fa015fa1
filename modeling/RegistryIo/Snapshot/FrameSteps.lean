import RegistryIo.Snapshot.Machine

/-!
# Everything a step can do

`FrameStep` has one rule for each way in which an operation of the top frame
can go, with the condition under which it goes that way, and `UserStep` has
one for each thing that user code can do.  `frameStep_rule` and
`userStep_rule` say that there are no others.  What is proved about all
operations of all functions is proved by cases on the rules.
-/

namespace RegistryIo.Snapshot

/-- `FrameStep memory call tls frame act memory' tls' next`: the operation
`act` of `frame` ends in `memory'` and `tls'`, and the call goes on at `next`
or returns. -/
inductive FrameStep (memory : Memory) (call : CallId) (tls : Tls) :
    Frame → Act → Memory → Tls → Option Frame → Prop where
  -- `protect` and `hazard::pin`
  | enter {cell : CellId} {reader : Reader} :
      FrameStep memory call tls (.enter cell reader) .next memory tls
        (some (.pinning cell reader (memory.store.cells cell).current
          .findSlot))
  | pinGone {cell : CellId} {reader : Reader} {address : Addr}
      (gone : tls.localGone = true) :
      FrameStep memory call tls (.pinning cell reader address .findSlot)
        .next memory tls (some (slowPath cell reader))
  | pinFirst {cell : CellId} {reader : Reader} {address : Addr}
      (present : tls.localGone = false) (unclaimed : tls.record = none) :
      FrameStep memory call tls (.pinning cell reader address .findSlot)
        .next memory tls
        (some (.pinning cell reader address
          (.tryClaim memory.domain.head none)))
  | pinFull {cell : CellId} {reader : Reader} {address : Addr}
      (record : RecordId) (present : tls.localGone = false)
      (isRecord : tls.record = some record)
      (full : memory.domain.freeSlot record = none) :
      FrameStep memory call tls (.pinning cell reader address .findSlot)
        .next memory tls (some (slowPath cell reader))
  | pinSlot {cell : CellId} {reader : Reader} {address : Addr}
      (record : RecordId) (index : Nat) (present : tls.localGone = false)
      (isRecord : tls.record = some record)
      (free : memory.domain.freeSlot record = some index) :
      FrameStep memory call tls (.pinning cell reader address .findSlot)
        .next
        (memory.withDomain (memory.domain.setSlot record index
          (some ⟨address, call, none⟩))) tls
        (some (.validate cell reader address ⟨record, index⟩))
  -- `acquire_record`
  | claimBusy {cell : CellId} {reader : Reader} {address : Addr}
      {record : RecordId}
      (busy : (memory.domain.records record).inUse = true) :
      FrameStep memory call tls
        (.pinning cell reader address (.tryClaim (some record) none))
        .next memory tls
        (some (.pinning cell reader address (.advance record none)))
  | claimFree {cell : CellId} {reader : Reader} {address : Addr}
      {record : RecordId}
      (free : (memory.domain.records record).inUse = false) :
      FrameStep memory call tls
        (.pinning cell reader address (.tryClaim (some record) none))
        .next (memory.withDomain (memory.domain.claim record call.thread))
        tls
        (some (.pinning cell reader address
          (.advance record (some record))))
  | claimSkip {cell : CellId} {reader : Reader} {address : Addr}
      {record reused : RecordId} :
      FrameStep memory call tls
        (.pinning cell reader address
          (.tryClaim (some record) (some reused)))
        .next memory tls
        (some (.pinning cell reader address
          (.tryClaim (memory.domain.records record).next (some reused))))
  | claimReturn {cell : CellId} {reader : Reader} {address : Addr}
      {reused : RecordId} :
      FrameStep memory call tls
        (.pinning cell reader address (.tryClaim none (some reused)))
        .next memory { tls with record := some reused }
        (some (.pinning cell reader address .findSlot))
  | claimAllocate {cell : CellId} {reader : Reader} {address : Addr} :
      FrameStep memory call tls
        (.pinning cell reader address (.tryClaim none none))
        .next (memory.withDomain (memory.domain.allocate call.thread)) tls
        (some (.pinning cell reader address
          (.loadHead memory.domain.allocated)))
  | claimAdvance {cell : CellId} {reader : Reader} {address : Addr}
      {record : RecordId} {reused : Option RecordId} :
      FrameStep memory call tls
        (.pinning cell reader address (.advance record reused))
        .next memory tls
        (some (.pinning cell reader address
          (.tryClaim (memory.domain.records record).next reused)))
  | publishLoad {cell : CellId} {reader : Reader} {address : Addr}
      {record : RecordId} :
      FrameStep memory call tls
        (.pinning cell reader address (.loadHead record))
        .next memory tls
        (some (.pinning cell reader address
          (.storeNext record memory.domain.head)))
  | publishLink {cell : CellId} {reader : Reader} {address : Addr}
      {record : RecordId} {head : Option RecordId} :
      FrameStep memory call tls
        (.pinning cell reader address (.storeNext record head))
        .next (memory.withDomain (memory.domain.setNext record head)) tls
        (some (.pinning cell reader address (.exchangeHead record head)))
  | publish {cell : CellId} {reader : Reader} {address : Addr}
      {record : RecordId} {head : Option RecordId}
      (same : memory.domain.head = head) :
      FrameStep memory call tls
        (.pinning cell reader address (.exchangeHead record head))
        .next (memory.withDomain (memory.domain.publish record))
        { tls with record := some record }
        (some (.pinning cell reader address .findSlot))
  | publishLost {cell : CellId} {reader : Reader} {address : Addr}
      {record : RecordId} {head : Option RecordId}
      (moved : memory.domain.head ≠ head) :
      FrameStep memory call tls
        (.pinning cell reader address (.exchangeHead record head))
        .next memory tls
        (some (.pinning cell reader address
          (.storeNext record memory.domain.head)))
  | publishSpurious {cell : CellId} {reader : Reader} {address : Addr}
      {record : RecordId} {head : Option RecordId} :
      FrameStep memory call tls
        (.pinning cell reader address (.exchangeHead record head))
        .spurious memory tls
        (some (.pinning cell reader address
          (.storeNext record memory.domain.head)))
  -- The validating load of `protect`
  | validRead {cell : CellId} {notify : Bool} {address : Addr} {pin : Pin}
      (current : (memory.store.cells cell).current = address) :
      FrameStep memory call tls (.validate cell (.read notify) address pin)
        .next
        (memory.withDomain (memory.domain.setSlot pin.record pin.index
          (some ⟨address, call,
            some ⟨cell, (memory.store.cells cell).version⟩⟩))) tls
        (some (.reading cell address (memory.store.cells cell).version pin
          (Body.start notify (memory.store.deref address))))
  | validLoad {cell : CellId} {address : Addr} {pin : Pin}
      (current : (memory.store.cells cell).current = address) :
      FrameStep memory call tls (.validate cell .loadArcIf address pin)
        .next
        (memory.withDomain (memory.domain.setSlot pin.record pin.index
          (some ⟨address, call,
            some ⟨cell, (memory.store.cells cell).version⟩⟩))) tls
        (some (.keeping cell address (memory.store.cells cell).version
          pin))
  | invalid {cell : CellId} {reader : Reader} {address : Addr} {pin : Pin}
      (replaced : (memory.store.cells cell).current ≠ address) :
      FrameStep memory call tls (.validate cell reader address pin)
        .next memory tls
        (some (.republish cell reader (memory.store.cells cell).current
          pin))
  | republish {cell : CellId} {reader : Reader} {address : Addr}
      {pin : Pin} :
      FrameStep memory call tls (.republish cell reader address pin)
        .next
        (memory.withDomain (memory.domain.setSlot pin.record pin.index
          (some ⟨address, call, none⟩))) tls
        (some (.validate cell reader address pin))
  -- The closure of a read or of a load
  | readFinish {cell : CellId} {address : Addr} {version : Nat} {pin : Pin}
      {body : Body} (finishes : body.finishes = true) :
      FrameStep memory call tls (.reading cell address version pin body)
        .finish (memory.clearPin pin) tls (some (.checkRetired cell none))
  | readUnwind {cell : CellId} {address : Addr} {version : Nat} {pin : Pin}
      {body : Body} (unwinds : body.unwinds = true) :
      FrameStep memory call tls (.reading cell address version pin body)
        .unwind (memory.clearPin pin) tls (some (.returned cell .done))
  | readBody {cell : CellId} {address : Addr} {version : Nat} {pin : Pin}
      {body body' : Body} {act : Act}
      (inside : bodyStep body act = some body') :
      FrameStep memory call tls (.reading cell address version pin body)
        act memory tls (some (.reading cell address version pin body'))
  | keep {cell : CellId} {address : Addr} {version : Nat} {pin : Pin} :
      FrameStep memory call tls (.keeping cell address version pin)
        (.keep true)
        (memory.withStore (memory.store.addOwner address (.load call))) tls
        (some (.counted cell address version pin))
  | reject {cell : CellId} {address : Addr} {version : Nat} {pin : Pin} :
      FrameStep memory call tls (.keeping cell address version pin)
        (.keep false) (memory.clearPin pin) tls
        (some (.checkRetired cell none))
  | counted {cell : CellId} {address : Addr} {version : Nat} {pin : Pin} :
      FrameStep memory call tls (.counted cell address version pin)
        .next (memory.clearPin pin) tls
        (some (.checkRetired cell (some address)))
  -- `release` and `try_reclaim`
  | nothingRetired {cell : CellId} {result : Option Addr}
      (nothing : (memory.store.cells cell).retiredLen = 0) :
      FrameStep memory call tls (.checkRetired cell result)
        .next memory tls (some (afterRelease cell result))
  | someRetired {cell : CellId} {result : Option Addr}
      (something : (memory.store.cells cell).retiredLen ≠ 0) :
      FrameStep memory call tls (.checkRetired cell result)
        .next memory tls (some (.tryLock cell result))
  | tryLockTaken {cell : CellId} {result : Option Addr}
      (free : (memory.store.cells cell).writer = none) :
      FrameStep memory call tls (.tryLock cell result)
        .next (memory.withStore (memory.store.lock cell call)) tls
        (some (.collect cell (.reclaim result) .start))
  | tryLockBusy {cell : CellId} {result : Option Addr}
      (busy : (memory.store.cells cell).writer ≠ none) :
      FrameStep memory call tls (.tryLock cell result)
        .next memory tls (some (afterRelease cell result))
  -- `collect_unprotected`
  | collectNothing {cell : CellId} {collector : Collector}
      (empty : (memory.store.cells cell).retired = []) :
      FrameStep memory call tls (.collect cell collector .start)
        .next memory tls (some (.collect cell collector (.storeLen [])))
  | collectStart {cell : CellId} {collector : Collector}
      (nonempty : (memory.store.cells cell).retired ≠ []) :
      FrameStep memory call tls (.collect cell collector .start)
        .next memory tls
        (some (.collect cell collector (.scan memory.domain.head 0 [])))
  | collectSlot {cell : CellId} {collector : Collector} {record : RecordId}
      {index : Nat} {announced : List Addr} (inside : index < SLOTS) :
      FrameStep memory call tls
        (.collect cell collector (.scan (some record) index announced))
        .next memory tls
        (some (.collect cell collector (.scan (some record) (index + 1)
          (announced ++ ((memory.domain.slot record index).map
            Announcement.address).toList))))
  | collectRecord {cell : CellId} {collector : Collector}
      {record : RecordId} {index : Nat} {announced : List Addr}
      (beyond : ¬ index < SLOTS) :
      FrameStep memory call tls
        (.collect cell collector (.scan (some record) index announced))
        .next memory tls
        (some (.collect cell collector
          (.scan (memory.domain.records record).next 0 announced)))
  | collectEnd {cell : CellId} {collector : Collector} {index : Nat}
      {announced : List Addr} :
      FrameStep memory call tls
        (.collect cell collector (.scan none index announced))
        .next (memory.withStore (memory.store.collect cell announced call))
        tls
        (some (.collect cell collector (.storeLen
          (Store.collectUnprotected announced
            (memory.store.cells cell).retired).2)))
  | collectLen {cell : CellId} {collector : Collector}
      {freed : List Addr} :
      FrameStep memory call tls (.collect cell collector (.storeLen freed))
        .next (memory.withStore (memory.store.storeRetiredLen cell)) tls
        (some (.collect cell collector (.unlock freed)))
  | collectUnlock {cell : CellId} {collector : Collector}
      {freed : List Addr} :
      FrameStep memory call tls (.collect cell collector (.unlock freed))
        .next (memory.withStore (memory.store.unlock cell)) tls
        (some (.dropping cell collector freed))
  -- `drop(freed)`
  | dropValue {cell : CellId} {collector : Collector} {address : Addr}
      {freed : List Addr} :
      FrameStep memory call tls (.dropping cell collector (address :: freed))
        .next (memory.withStore (memory.store.dropOwner address .cell)) tls
        (some (.dropping cell collector freed))
  | dropPanics {cell : CellId} {collector : Collector} {address : Addr}
      {freed : List Addr}
      (last : (memory.store.heap address).map ArcInner.strong = some 1) :
      FrameStep memory call tls (.dropping cell collector (address :: freed))
        .unwind (memory.withStore (memory.store.dropOwner address .cell)) tls
        (some (.dropping cell collector.unwound freed))
  | dropReclaimed {cell : CellId} {result : Option Addr} :
      FrameStep memory call tls (.dropping cell (.reclaim result) [])
        .next memory tls (some (afterRelease cell result))
  | dropWaits {cell : CellId} {effect : Effect} :
      FrameStep memory call tls (.dropping cell (.update true effect) [])
        .next memory tls (some (.waiting cell effect.removed .start))
  | dropWrote {cell : CellId} {effect : Effect} :
      FrameStep memory call tls (.dropping cell (.update false effect) [])
        .next memory tls (some (.returned cell (.wrote effect)))
  | dropCell {cell : CellId} :
      FrameStep memory call tls (.dropping cell .drop [])
        .next memory tls none
  | dropDone {cell : CellId} :
      FrameStep memory call tls (.dropping cell (.discard none) [])
        .next memory tls (some (.returned cell .done))
  | dropHandle {cell : CellId} {address : Addr} :
      FrameStep memory call tls (.dropping cell (.discard (some address)) [])
        .next
        (memory.withStore (memory.store.dropOwner address (.load call))) tls
        (some (.dropping cell (.discard none) []))
  | handOver {cell : CellId} {address : Addr} :
      FrameStep memory call tls (.handOver cell address)
        .next (memory.withStore (memory.store.giveHandle address call)) tls
        (some (.returned cell .done))
  -- Registration and `update`
  | draw {cell : CellId} {priority : Int} :
      FrameStep memory call tls (.draw cell priority)
        .next (memory.withStore (memory.store.nextId cell call)) tls
        (some (.lockWriter cell
          (.insert ⟨(memory.store.cells cell).idGenerator.next.1, priority,
            (memory.store.cells cell).registrations⟩) false))
  | lockWriter {cell : CellId} {write : Write} {wait : Bool}
      (free : (memory.store.cells cell).writer = none) :
      FrameStep memory call tls (.lockWriter cell write wait)
        .next (memory.withStore (memory.store.lock cell call)) tls
        (some (.compute cell write wait))
  | computeNone {cell : CellId} {write : Write} {wait : Bool}
      (unchanged : write.apply
        (memory.store.deref (memory.store.cells cell).current) = none) :
      FrameStep memory call tls (.compute cell write wait)
        .next memory tls (some (.unlockUnchanged cell))
  | computeSome {cell : CellId} {write : Write} {wait : Bool}
      {address : Addr} (value : List Entry)
      (computed : write.apply
        (memory.store.deref (memory.store.cells cell).current) = some value)
      (free : memory.store.heap address = none) :
      FrameStep memory call tls (.compute cell write wait)
        (.alloc address)
        (memory.withStore
          (memory.store.allocArc address cell value (.fresh call))) tls
        (some (.installing cell wait
          (write.effect
            (memory.store.deref (memory.store.cells cell).current))
          address))
  | install {cell : CellId} {wait : Bool} {effect : Effect} {new : Addr} :
      FrameStep memory call tls (.installing cell wait effect new)
        .next
        (memory.withStore (memory.store.install cell new effect call)) tls
        (some (.pushing cell wait effect (memory.store.cells cell).current))
  | retire {cell : CellId} {wait : Bool} {effect : Effect} {raw : Addr} :
      FrameStep memory call tls (.pushing cell wait effect raw)
        .next (memory.withStore (memory.store.retire cell raw)) tls
        (some (.collect cell (.update wait effect) .start))
  | unlockUnchanged {cell : CellId} :
      FrameStep memory call tls (.unlockUnchanged cell)
        .next (memory.withStore (memory.store.unlock cell)) tls
        (some (.returned cell .unchanged))
  -- `read_fallback` and `load_arc_locked`
  | enterFallback {cell : CellId} {notify : Bool} :
      FrameStep memory call tls (.enterFallback cell notify)
        .next (memory.withStore (memory.store.enterFallback cell call))
        { tls with fallbackDepth := tls.fallbackDepth + 1 }
        (some (.locked cell (.read notify) .lock))
  | lockedLock {cell : CellId} {reader : Reader}
      (free : (memory.store.cells cell).writer = none) :
      FrameStep memory call tls (.locked cell reader .lock)
        .next (memory.withStore (memory.store.lock cell call)) tls
        (some (.locked cell reader .load))
  | lockedLoad {cell : CellId} {reader : Reader} :
      FrameStep memory call tls (.locked cell reader .load)
        .next memory tls
        (some (.locked cell reader
          (.increment (memory.store.cells cell).current
            (memory.store.cells cell).version)))
  | lockedCountRead {cell : CellId} {notify : Bool} {address : Addr}
      {version : Nat} :
      FrameStep memory call tls
        (.locked cell (.read notify) (.increment address version))
        .next
        (memory.withStore (memory.store.addOwner address (.fallback call)))
        tls (some (.locked cell (.read notify) (.unlock address version)))
  | lockedCountLoad {cell : CellId} {address : Addr} {version : Nat} :
      FrameStep memory call tls
        (.locked cell .loadArcIf (.increment address version))
        .next
        (memory.withStore (memory.store.addOwner address (.load call)))
        tls (some (.locked cell .loadArcIf (.unlock address version)))
  | lockedRead {cell : CellId} {notify : Bool} {address : Addr}
      {version : Nat} :
      FrameStep memory call tls
        (.locked cell (.read notify) (.unlock address version))
        .next (memory.withStore (memory.store.unlock cell)) tls
        (some (.fallbackReading cell address version
          (Body.start notify (memory.store.deref address))))
  | lockedKeep {cell : CellId} {address : Addr} {version : Nat} :
      FrameStep memory call tls
        (.locked cell .loadArcIf (.unlock address version))
        .next (memory.withStore (memory.store.unlock cell)) tls
        (some (.lockedKeep cell address version))
  | fallbackFinish {cell : CellId} {address : Addr} {version : Nat}
      {body : Body} (finishes : body.finishes = true) :
      FrameStep memory call tls (.fallbackReading cell address version body)
        .finish
        (memory.withStore (memory.store.dropOwner address (.fallback call)))
        tls (some (.leaveFallback cell))
  | fallbackUnwind {cell : CellId} {address : Addr} {version : Nat}
      {body : Body} (unwinds : body.unwinds = true) :
      FrameStep memory call tls (.fallbackReading cell address version body)
        .unwind
        (memory.withStore (memory.store.dropOwner address (.fallback call)))
        tls (some (.leaveFallback cell))
  | fallbackBody {cell : CellId} {address : Addr} {version : Nat}
      {body body' : Body} {act : Act}
      (inside : bodyStep body act = some body') :
      FrameStep memory call tls (.fallbackReading cell address version body)
        act memory tls (some (.fallbackReading cell address version body'))
  | leaveFallback {cell : CellId} :
      FrameStep memory call tls (.leaveFallback cell)
        .next (memory.withStore (memory.store.leaveFallback cell call))
        { tls with fallbackDepth := tls.fallbackDepth - 1 }
        (some (.returned cell .done))
  | lockedAccept {cell : CellId} {address : Addr} {version : Nat} :
      FrameStep memory call tls (.lockedKeep cell address version)
        (.keep true) memory tls (some (.handOver cell address))
  | lockedReject {cell : CellId} {address : Addr} {version : Nat} :
      FrameStep memory call tls (.lockedKeep cell address version)
        (.keep false) memory tls
        (some (.dropping cell (.discard (some address)) []))
  -- `wait_for_retired_readers` and `others_protect`
  | waitStart {cell : CellId} {removed : List Nat} :
      FrameStep memory call tls (.waiting cell removed .start)
        .next memory tls
        (some (.waiting cell removed
          (.checkFallback (decide (0 < tls.fallbackDepth)))))
  | waitPasses {cell : CellId} {removed : List Nat} {onFallback : Bool}
      (clear : onFallback = true ∨
        (memory.store.cells cell).fallbackReaders = 0) :
      FrameStep memory call tls
        (.waiting cell removed (.checkFallback onFallback))
        .next memory tls (some (.waiting cell removed (.lock onFallback)))
  | waitBacksOff {cell : CellId} {removed : List Nat} {onFallback : Bool}
      (blocked : ¬ (onFallback = true ∨
        (memory.store.cells cell).fallbackReaders = 0)) :
      FrameStep memory call tls
        (.waiting cell removed (.checkFallback onFallback))
        .next memory tls
        (some (.waiting cell removed (.checkFallback onFallback)))
  | waitLock {cell : CellId} {removed : List Nat} {onFallback : Bool}
      (free : (memory.store.cells cell).writer = none) :
      FrameStep memory call tls (.waiting cell removed (.lock onFallback))
        .next (memory.withStore (memory.store.lock cell call)) tls
        (some (.waiting cell removed (.copy onFallback)))
  | waitCopy {cell : CellId} {removed : List Nat} {onFallback : Bool} :
      FrameStep memory call tls (.waiting cell removed (.copy onFallback))
        .next (memory.withStore (memory.store.unlock cell)) tls
        (some (.waiting cell removed
          (.each onFallback (memory.store.cells cell).retired)))
  | waitDone {cell : CellId} {removed : List Nat} {onFallback : Bool} :
      FrameStep memory call tls (.waiting cell removed (.each onFallback []))
        .next memory tls
        (some (.returned cell (.waited onFallback removed)))
  | waitEach {cell : CellId} {removed : List Nat} {onFallback : Bool}
      {address : Addr} {retired : List Addr} :
      FrameStep memory call tls
        (.waiting cell removed (.each onFallback (address :: retired)))
        .next memory tls
        (some (.waiting cell removed
          (.scan onFallback address retired memory.domain.head 0 false)))
  | waitRecord {cell : CellId} {removed : List Nat} {onFallback : Bool}
      {address : Addr} {retired : List Addr} {record : RecordId}
      {index : Nat} {found : Bool}
      (done : tls.record = some record ∨ SLOTS ≤ index) :
      FrameStep memory call tls
        (.waiting cell removed
          (.scan onFallback address retired (some record) index found))
        .next memory tls
        (some (.waiting cell removed
          (.scan onFallback address retired
            (memory.domain.records record).next 0 found)))
  | waitFound {cell : CellId} {removed : List Nat} {onFallback : Bool}
      {address : Addr} {retired : List Addr} {record : RecordId}
      {index : Nat} {found : Bool}
      (other : ¬ (tls.record = some record ∨ SLOTS ≤ index))
      (announced : (memory.domain.slot record index).map
        Announcement.address = some address) :
      FrameStep memory call tls
        (.waiting cell removed
          (.scan onFallback address retired (some record) index found))
        .next memory tls
        (some (.waiting cell removed
          (.scan onFallback address retired (some record) SLOTS true)))
  | waitSlot {cell : CellId} {removed : List Nat} {onFallback : Bool}
      {address : Addr} {retired : List Addr} {record : RecordId}
      {index : Nat} {found : Bool}
      (other : ¬ (tls.record = some record ∨ SLOTS ≤ index))
      (different : ¬ (memory.domain.slot record index).map
        Announcement.address = some address) :
      FrameStep memory call tls
        (.waiting cell removed
          (.scan onFallback address retired (some record) index found))
        .next memory tls
        (some (.waiting cell removed
          (.scan onFallback address retired (some record) (index + 1)
            found)))
  | waitAgain {cell : CellId} {removed : List Nat} {onFallback : Bool}
      {address : Addr} {retired : List Addr} {index : Nat} :
      FrameStep memory call tls
        (.waiting cell removed
          (.scan onFallback address retired none index true))
        .next memory tls
        (some (.waiting cell removed (.checkFallback onFallback)))
  | waitNext {cell : CellId} {removed : List Nat} {onFallback : Bool}
      {address : Addr} {retired : List Addr} {index : Nat} :
      FrameStep memory call tls
        (.waiting cell removed
          (.scan onFallback address retired none index false))
        .next memory tls
        (some (.waiting cell removed (.each onFallback retired)))
  -- The end of a call and of a thread
  | returned {cell : CellId} {outcome : Outcome} :
      FrameStep memory call tls (.returned cell outcome)
        .next (memory.withStore (memory.store.endCall cell call)) tls none
  | exitSlot {record : RecordId} {index : Nat} (inside : index < SLOTS) :
      FrameStep memory call tls (.exiting record index)
        .next (memory.clearPin ⟨record, index⟩) tls
        (some (.exiting record (index + 1)))
  | exitRelease {record : RecordId} {index : Nat}
      (beyond : ¬ index < SLOTS) :
      FrameStep memory call tls (.exiting record index)
        .next (memory.withDomain (memory.domain.release record))
        { tls with record := none, localGone := true } none

/-- What user code does: `UserStep thread memory locals act memory' locals'`
leads from `memory` and `locals` to `memory'` and `locals'`. -/
inductive UserStep (thread : Tid) (memory : Memory) (locals : Thread) :
    Act → Memory → Thread → Prop where
  | newCell {cell : CellId} {address : Addr}
      (unborn : (memory.store.cells cell).phase = .unborn)
      (free : memory.store.heap address = none) :
      UserStep thread memory locals (.newCell cell address)
        (memory.withStore (memory.store.newCell cell address)) locals
  | dropCell {cell : CellId}
      (alive : (memory.store.cells cell).phase = .alive)
      (unused : (memory.store.cells cell).active = []) :
      UserStep thread memory locals (.dropCell cell)
        (memory.withStore
          (memory.store.dropCell cell ⟨thread, locals.stack.length⟩))
        { locals with
          stack := .dropping cell .drop
            ((memory.store.cells cell).current ::
              (memory.store.cells cell).retired) :: locals.stack }
  | call {cell : CellId} {call : Call}
      (alive : (memory.store.cells cell).phase = .alive) :
      UserStep thread memory locals (.call cell call)
        (memory.withStore
          (memory.store.beginCall cell ⟨thread, locals.stack.length⟩))
        { locals with stack := call.enter cell :: locals.stack }
  | dropHandle {handle : Nat} {address : Addr}
      (member : (handle, address) ∈ memory.store.handles) :
      UserStep thread memory locals (.dropHandle handle address)
        (memory.withStore (memory.store.dropHandle handle address)) locals
  | exitUnclaimed (empty : locals.stack = [])
      (present : locals.tls.localGone = false)
      (unclaimed : locals.tls.record = none) :
      UserStep thread memory locals .exitThread memory
        { locals with tls := { locals.tls with localGone := true } }
  | exitClaimed (record : RecordId) (empty : locals.stack = [])
      (present : locals.tls.localGone = false)
      (isRecord : locals.tls.record = some record) :
      UserStep thread memory locals .exitThread memory
        { locals with stack := [.exiting record 0] }

theorem userStep_rule
    {thread : Tid} {memory memory' : Memory} {locals locals' : Thread}
    {act : Act}
    (performed : userStep thread memory locals act =
      some (memory', locals')) :
    UserStep thread memory locals act memory' locals' := by
  unfold userStep at performed
  split at performed
  · split at performed
    · rename_i condition
      cases performed
      exact .newCell condition.1 (Option.isNone_iff_eq_none.mp condition.2)
    · cases performed
  · dsimp only at performed
    split at performed
    · rename_i condition
      cases performed
      exact .dropCell condition.1 condition.2
    · cases performed
  · split at performed
    · rename_i alive
      cases performed
      exact .call alive
    · cases performed
  · split at performed
    · rename_i member
      cases performed
      exact .dropHandle member
    · cases performed
  · split at performed
    · rename_i condition
      split at performed
      · rename_i unclaimed
        cases performed
        exact .exitUnclaimed condition.1 condition.2 unclaimed
      · rename_i record isRecord
        cases performed
        exact .exitClaimed record condition.1 condition.2 isRecord
    · cases performed
  · cases performed

/-- A closure that finishes or unwinds is over. -/
theorem bodyStep_goes_on
    {body body' : Body} {act : Act}
    (inside : bodyStep body act = some body') :
    act ≠ .finish ∧ act ≠ .unwind := by
  unfold bodyStep at inside
  split at inside
  · simp
  · simp
  · simp
  · simp
  · cases inside

section Rules

variable {memory memory' : Memory} {call : CallId} {tls tls' : Tls}
variable {cell : CellId} {act : Act} {frame : Frame} {next : Option Frame}

private theorem pinStep_rule
    {reader : Reader} {address : Addr} {step : PinStep}
    (stepped : pinStep memory call tls cell reader address step act =
      some (memory', tls', next)) :
    FrameStep memory call tls (.pinning cell reader address step) act
      memory' tls' next := by
  unfold pinStep at stepped
  split at stepped
  · split at stepped
    · rename_i gone
      cases stepped
      exact .pinGone gone
    · rename_i present
      have here : tls.localGone = false := Bool.eq_false_iff.mpr present
      split at stepped
      · rename_i unclaimed
        cases stepped
        exact .pinFirst here unclaimed
      · rename_i record isRecord
        split at stepped
        · rename_i full
          cases stepped
          exact .pinFull record here isRecord full
        · rename_i index free
          cases stepped
          exact .pinSlot record index here isRecord free
  · split at stepped
    · rename_i busy
      cases stepped
      exact .claimBusy busy
    · rename_i free
      cases stepped
      exact .claimFree (Bool.eq_false_iff.mpr free)
  · cases stepped
    exact .claimSkip
  · cases stepped
    exact .claimReturn
  · cases stepped
    exact .claimAllocate
  · cases stepped
    exact .claimAdvance
  · cases stepped
    exact .publishLoad
  · cases stepped
    exact .publishLink
  · split at stepped
    · rename_i same
      cases stepped
      exact .publish same
    · rename_i moved
      cases stepped
      exact .publishLost moved
  · cases stepped
    exact .publishSpurious
  · cases stepped

private theorem validateStep_rule
    {reader : Reader} {address : Addr} {pin : Pin}
    (stepped : validateStep memory call tls cell reader address pin =
      some (memory', tls', next)) :
    FrameStep memory call tls (.validate cell reader address pin) .next
      memory' tls' next := by
  unfold validateStep at stepped
  dsimp only at stepped
  split at stepped
  · rename_i current
    cases reader with
    | read notify =>
        cases stepped
        exact .validRead current
    | loadArcIf =>
        cases stepped
        exact .validLoad current
  · rename_i replaced
    cases stepped
    exact .invalid replaced

private theorem readingStep_rule
    {address : Addr} {version : Nat} {pin : Pin} {body : Body}
    (stepped : readingStep memory tls cell address version pin body act =
      some (memory', tls', next)) :
    FrameStep memory call tls (.reading cell address version pin body) act
      memory' tls' next := by
  unfold readingStep at stepped
  split at stepped
  · split at stepped
    · rename_i finishes
      cases stepped
      exact .readFinish finishes
    · cases stepped
  · split at stepped
    · rename_i unwinds
      cases stepped
      exact .readUnwind unwinds
    · cases stepped
  · obtain ⟨body', inside, same⟩ := Option.map_eq_some_iff.mp stepped
    cases same
    exact .readBody inside

private theorem collectStep_rule
    {collector : Collector} {step : CollectStep}
    (stepped : collectStep memory call tls cell collector step =
      some (memory', tls', next)) :
    FrameStep memory call tls (.collect cell collector step) .next
      memory' tls' next := by
  unfold collectStep at stepped
  split at stepped
  · split at stepped
    · rename_i empty
      cases stepped
      exact .collectNothing (List.isEmpty_iff.mp empty)
    · rename_i nonempty
      cases stepped
      exact .collectStart fun empty =>
        nonempty (List.isEmpty_iff.mpr empty)
  · split at stepped
    · rename_i inside
      cases stepped
      exact .collectSlot inside
    · rename_i beyond
      cases stepped
      exact .collectRecord beyond
  · cases stepped
    exact .collectEnd
  · cases stepped
    exact .collectLen
  · cases stepped
    exact .collectUnlock

private theorem droppingStep_rule
    {collector : Collector} {freed : List Addr}
    (stepped : droppingStep memory call tls cell collector freed act =
      some (memory', tls', next)) :
    FrameStep memory call tls (.dropping cell collector freed) act
      memory' tls' next := by
  unfold droppingStep at stepped
  split at stepped
  · cases stepped
    exact .dropValue
  · split at stepped
    · rename_i last
      cases stepped
      exact .dropPanics last
    · cases stepped
  · split at stepped
    · cases stepped
      exact .dropReclaimed
    · rename_i wait effect
      cases wait with
      | true =>
          cases stepped
          exact .dropWaits
      | false =>
          cases stepped
          exact .dropWrote
    · cases stepped
      exact .dropCell
    · cases stepped
      exact .dropDone
    · cases stepped
      exact .dropHandle
  · cases stepped

private theorem computeStep_rule
    {write : Write} {wait : Bool}
    (stepped : computeStep memory call tls cell write wait act =
      some (memory', tls', next)) :
    FrameStep memory call tls (.compute cell write wait) act
      memory' tls' next := by
  unfold computeStep at stepped
  split at stepped
  · split at stepped
    · rename_i unchanged
      cases stepped
      exact .computeNone unchanged
    · cases stepped
  · dsimp only at stepped
    split at stepped
    · cases stepped
    · rename_i value computed
      split at stepped
      · rename_i free
        cases stepped
        exact .computeSome value computed (Option.isNone_iff_eq_none.mp free)
      · cases stepped
  · cases stepped

private theorem lockedStep_rule
    {reader : Reader} {step : LockedStep}
    (stepped : lockedStep memory call tls cell reader step =
      some (memory', tls', next)) :
    FrameStep memory call tls (.locked cell reader step) .next
      memory' tls' next := by
  cases step with
  | lock =>
      simp only [lockedStep] at stepped
      split at stepped
      · rename_i free
        cases stepped
        exact .lockedLock (Option.isNone_iff_eq_none.mp free)
      · cases stepped
  | load =>
      cases stepped
      exact .lockedLoad
  | increment address version =>
      cases reader with
      | read notify =>
          cases stepped
          exact .lockedCountRead
      | loadArcIf =>
          cases stepped
          exact .lockedCountLoad
  | unlock address version =>
      cases reader with
      | read notify =>
          cases stepped
          exact .lockedRead
      | loadArcIf =>
          cases stepped
          exact .lockedKeep

private theorem fallbackReadingStep_rule
    {address : Addr} {version : Nat} {body : Body}
    (stepped : fallbackReadingStep memory call tls cell address version body
      act = some (memory', tls', next)) :
    FrameStep memory call tls (.fallbackReading cell address version body)
      act memory' tls' next := by
  unfold fallbackReadingStep at stepped
  split at stepped
  · rename_i ends
    cases stepped
    rcases ends with ⟨rfl, finishes⟩ | ⟨rfl, unwinds⟩
    · exact .fallbackFinish finishes
    · exact .fallbackUnwind unwinds
  · obtain ⟨body', inside, same⟩ := Option.map_eq_some_iff.mp stepped
    cases same
    exact .fallbackBody inside

private theorem waitStep_rule
    {removed : List Nat} {step : WaitStep}
    (stepped : waitStep memory call tls cell removed step =
      some (memory', tls', next)) :
    FrameStep memory call tls (.waiting cell removed step) .next
      memory' tls' next := by
  unfold waitStep at stepped
  split at stepped
  · cases stepped
    exact .waitStart
  · split at stepped
    · rename_i clear
      cases stepped
      exact .waitPasses clear
    · rename_i blocked
      cases stepped
      exact .waitBacksOff blocked
  · split at stepped
    · rename_i free
      cases stepped
      exact .waitLock (Option.isNone_iff_eq_none.mp free)
    · cases stepped
  · cases stepped
    exact .waitCopy
  · cases stepped
    exact .waitDone
  · cases stepped
    exact .waitEach
  · split at stepped
    · rename_i done
      cases stepped
      exact .waitRecord done
    · rename_i other
      split at stepped
      · rename_i announced
        cases stepped
        exact .waitFound other announced
      · rename_i different
        cases stepped
        exact .waitSlot other different
  · rename_i found
    cases found with
    | true =>
        cases stepped
        exact .waitAgain
    | false =>
        cases stepped
        exact .waitNext

/-- An operation of a frame follows one of the rules. -/
theorem frameStep_rule
    (stepped : frameStep memory call tls frame act =
      some (memory', tls', next)) :
    FrameStep memory call tls frame act memory' tls' next := by
  unfold frameStep at stepped
  split at stepped
  · cases stepped
    exact .enter
  · exact pinStep_rule stepped
  · exact validateStep_rule stepped
  · cases stepped
    exact .republish
  · exact readingStep_rule stepped
  · rename_i accepted
    cases accepted with
    | true =>
        cases stepped
        exact .keep
    | false =>
        cases stepped
        exact .reject
  · cases stepped
    exact .counted
  · split at stepped
    · rename_i nothing
      cases stepped
      exact .nothingRetired nothing
    · rename_i something
      cases stepped
      exact .someRetired something
  · split at stepped
    · rename_i free
      cases stepped
      exact .tryLockTaken (Option.isNone_iff_eq_none.mp free)
    · rename_i busy
      cases stepped
      exact .tryLockBusy fun free =>
        busy (Option.isNone_iff_eq_none.mpr free)
  · exact collectStep_rule stepped
  · exact droppingStep_rule stepped
  · cases stepped
    exact .handOver
  · cases stepped
    exact .draw
  · split at stepped
    · rename_i free
      cases stepped
      exact .lockWriter (Option.isNone_iff_eq_none.mp free)
    · cases stepped
  · exact computeStep_rule stepped
  · cases stepped
    exact .install
  · cases stepped
    exact .retire
  · cases stepped
    exact .unlockUnchanged
  · cases stepped
    exact .enterFallback
  · exact lockedStep_rule stepped
  · exact fallbackReadingStep_rule stepped
  · cases stepped
    exact .leaveFallback
  · rename_i accepted
    cases accepted with
    | true =>
        cases stepped
        exact .lockedAccept
    | false =>
        cases stepped
        exact .lockedReject
  · exact waitStep_rule stepped
  · cases stepped
    exact .returned
  · split at stepped
    · rename_i inside
      cases stepped
      exact .exitSlot inside
    · rename_i beyond
      cases stepped
      exact .exitRelease beyond
  · cases stepped

end Rules

end RegistryIo.Snapshot
