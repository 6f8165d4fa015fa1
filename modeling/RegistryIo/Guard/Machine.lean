import RegistryIo.Foundations.ReferenceCount
import RegistryIo.Registry

/-!
# Registries behind an `Arc`, and their guards

A registry in an `Arc`, the strong references that user code holds, the
guards of `register_guard`, and the weak references of one-shot handlers.  The
registry itself is the one of `RegistryIo.Registry`, whose operations are
atomic; here it is destroyed with its last strong reference.

The threads of this machine are activations of code: a call made from inside
a handler or from a destructor is an activation of its own, so that every
nesting is one of the interleavings.  A call by reference borrows the strong
reference it is made through, which cannot be dropped meanwhile.
-/

namespace RegistryIo.Guard

open RegistryIo.Interleaving RegistryIo.ReferenceCount
open RegistryIo.Registry (Remover)

universe u

abbrev Task := Nat

/-- Who holds a reference: a value of user code, or an activation. -/
inductive Owner where
  | token (name : Nat)
  | task (task : Task)
  deriving DecidableEq, Repr

/-- `register_with_priority`, `register_guard_with_priority` and
`register_once`. -/
inductive Kind where
  | plain
  | guard
  | once
  deriving DecidableEq, Repr

/-- A `HandlerGuard`, or the closure of a one-shot handler: the name of its
weak reference, and the id of its registration. -/
structure Holder where
  name : Nat
  kind : Kind
  id : HandlerId
  deriving DecidableEq, Repr

/-- What became of an id.  The entry of `register_guard` is `guarded` by the
activation that inserts it, then by its guard, then by the activation that
drops the guard; in the end it is `forgotten`, or its guard has `ended`. -/
inductive Status where
  | unknown
  | plain
  | once
  | guarded (owner : Owner)
  | forgotten
  | ended
  deriving DecidableEq, Repr

/-- The allocation with its registry, and what user code holds.  No operation
reads the status of an id. -/
structure Memory (H : Type u) where
  shared : Shared Owner
  registry : Registry.Memory H
  borrows : List (Nat × Task)
  holders : List Holder
  nextName : Nat
  status : HandlerId → Status

/-- What an activation is doing.

* `drawn`, `observed`, `inserted`: a registration through a strong reference;
* `calling`: any other call through a strong reference;
* `removing`, `upgraded`, `unregistered`: the drop of a guard or of
  `RemoveOnDrop`, before and after `upgrade` and after `unregister`;
* `lastStrong`, `dropped`: the last strong reference is gone, the value is
  going to be dropped and was dropped;
* `weakDrop`: the weak reference of the guard is going to be dropped. -/
inductive Activity (H : Type u) where
  | idle
  | drawn (handle : Nat) (kind : Kind) (entry : HandlerEntry H)
  | observed (handle : Nat) (entry : HandlerEntry H)
  | inserted (handle : Nat) (id : HandlerId)
  | calling (handle : Nat)
  | removing (remover : Remover) (id : HandlerId)
  | upgraded (remover : Remover) (id : HandlerId)
  | unregistered
  | lastStrong (weak : Bool)
  | dropped (weak : Bool)
  | weakDrop
  deriving DecidableEq, Repr

namespace Activity

variable {H : Type u}

/-- The entry that the activation has an id for and has not inserted. -/
def pending : Activity H → Option (HandlerEntry H)
  | .drawn _ _ entry => some entry
  | .observed _ entry => some entry
  | _ => none

/-- The strong reference that the activation borrows. -/
def borrowed : Activity H → Option Nat
  | .drawn handle _ _ => some handle
  | .observed handle _ => some handle
  | .inserted handle _ => some handle
  | .calling handle => some handle
  | _ => none

def holdsStrong : Activity H → Bool
  | .upgraded _ _ => true
  | .unregistered => true
  | _ => false

def holdsWeak : Activity H → Bool
  | .observed _ _ => true
  | .removing _ _ => true
  | .upgraded _ _ => true
  | .unregistered => true
  | .lastStrong weak => weak
  | .dropped weak => weak
  | .weakDrop => true
  | _ => false

/-- The activation has to drop the value and then the weak reference of the
strong ones; the flag says whether the value is dropped. -/
def finalStage : Activity H → Option Bool
  | .lastStrong _ => some false
  | .dropped _ => some true
  | _ => none

/-- The id whose guard is this activation. -/
def guarded : Activity H → Option HandlerId
  | .inserted _ id => some id
  | .removing .guard id => some id
  | .upgraded .guard id => some id
  | _ => none

/-- The id that the activation removes, and on whose behalf. -/
def removal : Activity H → Option (Remover × HandlerId)
  | .removing remover id => some (remover, id)
  | .upgraded remover id => some (remover, id)
  | _ => none

end Activity

inductive Act (H : Type u) where
  | clone (handle : Nat)
  | dropArc (handle : Nat)
  | register (handle : Nat) (kind : Kind) (priority : Int) (handler : H)
  | insert
  | downgrade
  | enter (handle : Nat)
  | unregister (id : HandlerId)
  | clear
  | leave
  | dropGuard (name : Nat)
  | forget (name : Nat)
  | runOnce (name : Nat)
  | dropClosure (name : Nat)
  | upgrade
  | remove
  | dropStrong
  | dropValue
  | dropImplicit
  | dropWeak

namespace Memory

variable {H : Type u} (memory : Memory H) (task : Task)

/-- User code holds the strong reference. -/
def holds (handle : Nat) : Bool :=
  decide (.token handle ∈ memory.shared.owners)

def borrow (handle : Nat) : Memory H :=
  { memory with borrows := (handle, task) :: memory.borrows }

def release (handle : Nat) : Memory H :=
  { memory with borrows := memory.borrows.erase (handle, task) }

/-- The entries of the registry.  They are dropped with the value; what
`registry` shows after that is what it was at its end. -/
def registered : List (HandlerEntry H) :=
  if memory.shared.dropped then [] else memory.registry.handlers

/-- The guard, or the closure, of this name. -/
def find (kind : Kind) (name : Nat) : Option Holder :=
  memory.holders.find? fun holder =>
    holder.name = name ∧ holder.kind = kind

/-- The registry performs an operation. -/
def perform (pending : Option (HandlerEntry H)) (act : Registry.Act H) :
    Option (Memory H × Option (HandlerEntry H)) :=
  (Registry.program H task memory.registry pending act).map
    fun result => ({ memory with registry := result.1 }, result.2)

def mark (id : HandlerId) (status : Status) : Memory H :=
  { memory with status := Function.update memory.status id status }

/-- `Arc::downgrade(self)` of `register_guard`. -/
def newGuard (id : HandlerId) : Memory H :=
  { memory with
    shared := memory.shared.downgrade (.token memory.nextName)
    holders := ⟨memory.nextName, .guard, id⟩ :: memory.holders
    nextName := memory.nextName + 1 }

/-- The closure of a one-shot handler goes into the list with its entry. -/
def newClosure (id : HandlerId) : Memory H :=
  { memory with
    shared := memory.shared.pass (.task task) (.token memory.nextName)
    holders := ⟨memory.nextName, .once, id⟩ :: memory.holders
    nextName := memory.nextName + 1 }

/-- The end of a removal: its guard is gone for good. -/
def removalDone (remover : Remover) (id : HandlerId) : Memory H :=
  match remover with
  | .guard => memory.mark id .ended
  | _ => memory

end Memory

section Steps

variable {H : Type u} (task : Task) (memory : Memory H)

/-- A strong reference is dropped; with the last one, the value goes. -/
def dropStrongStep (owner : Owner) (weak : Bool) (next : Activity H) :
    Option (Memory H × Activity H) :=
  some
    ({ memory with shared := memory.shared.dropStrong owner (.task task) },
      if memory.shared.strong = 1 then .lastStrong weak else next)

/-- User code clones, drops and uses its references. -/
def idleStep : Act H → Option (Memory H × Activity H)
  | .clone handle =>
      if memory.holds handle then
        some
          ({ memory with
              shared := memory.shared.clone (.token memory.nextName)
              nextName := memory.nextName + 1 },
            .idle)
      else none
  | .dropArc handle =>
      if memory.holds handle ∧ handle ∉ memory.borrows.map Prod.fst then
        dropStrongStep task memory (.token handle) false .idle
      else none
  | .register handle kind priority handler =>
      if memory.holds handle then
        (memory.perform task none (.draw priority handler)).bind
          fun (memory', pending) =>
            pending.map fun entry =>
              (memory'.borrow task handle, .drawn handle kind entry)
      else none
  | .enter handle =>
      if memory.holds handle then
        some (memory.borrow task handle, .calling handle)
      else none
  | .dropGuard name =>
      (memory.find .guard name).map
        fun guard =>
          ({ memory with
              shared := memory.shared.pass (.token name) (.task task)
              holders := memory.holders.erase guard }.mark guard.id
                (.guarded (.task task)),
            .removing .guard guard.id)
  | .forget name =>
      (memory.find .guard name).map
        fun guard =>
          ({ memory with
              shared := memory.shared.dropWeak (some (.token name))
              holders := memory.holders.erase guard }.mark guard.id
                .forgotten,
            .idle)
  | .runOnce name =>
      (memory.find .once name).map
        fun closure =>
          ({ memory with
              shared := memory.shared.downgrade (.task task) },
            .removing .oneShot closure.id)
  | .dropClosure name =>
      (memory.find .once name).bind
        fun closure =>
          if closure.id ∉ memory.registered.map HandlerEntry.id then
            some
              ({ memory with
                  shared := memory.shared.dropWeak (some (.token name))
                  holders := memory.holders.erase closure },
                .idle)
          else none
  | _ => none

/-- A registration goes on. -/
def registerStep (handle : Nat) (kind : Kind) (entry : HandlerEntry H) :
    Option (Memory H × Activity H) :=
  (memory.perform task (some entry) .insert).map fun (memory', _) =>
    match kind with
    | .plain => ((memory'.mark entry.id .plain).release task handle, .idle)
    | .guard =>
        (memory'.mark entry.id (.guarded (.task task)),
          .inserted handle entry.id)
    | .once =>
        (((memory'.mark entry.id .once).newClosure task entry.id).release
          task handle, .idle)

/-- The program of every activation. -/
def program (H : Type u) : Program Task (Memory H) (Activity H) (Act H) :=
  fun task memory activity act =>
    match activity, act with
    | .idle, act => idleStep task memory act
    -- `register_once` makes its weak reference before it inserts
    | .drawn handle .once entry, .downgrade =>
        some
          ({ memory with shared := memory.shared.downgrade (.task task) },
            .observed handle entry)
    | .drawn _ .once _, .insert => none
    | .drawn handle kind entry, .insert =>
        registerStep task memory handle kind entry
    | .observed handle entry, .insert =>
        registerStep task memory handle .once entry
    | .inserted handle id, .downgrade =>
        some
          (((memory.newGuard id).mark id
              (.guarded (.token memory.nextName))).release task handle,
            .idle)
    | .calling handle, .unregister id =>
        (memory.perform task none (.unregister .direct id)).map
          fun (memory', _) => (memory', .calling handle)
    | .calling handle, .clear =>
        (memory.perform task none .clear).map
          fun (memory', _) => (memory', .calling handle)
    | .calling handle, .leave => some (memory.release task handle, .idle)
    -- `Drop for HandlerGuard` and `Drop for RemoveOnDrop`
    | .removing remover id, .upgrade =>
        match memory.shared.upgrade (.task task) with
        | none => some (memory.removalDone remover id, .weakDrop)
        | some shared =>
            some ({ memory with shared := shared }, .upgraded remover id)
    | .upgraded remover id, .remove =>
        (memory.perform task none (.unregister remover id)).map
          fun (memory', _) => (memory'.removalDone remover id, .unregistered)
    | .unregistered, .dropStrong =>
        dropStrongStep task memory (.task task) true .weakDrop
    | .lastStrong weak, .dropValue =>
        some ({ memory with shared := memory.shared.dropValue },
          .dropped weak)
    | .dropped weak, .dropImplicit =>
        some ({ memory with shared := memory.shared.dropWeak none },
          if weak then .weakDrop else .idle)
    | .weakDrop, .dropWeak =>
        some
          ({ memory with
              shared := memory.shared.dropWeak (some (.task task)) },
            .idle)
    | _, _ => none

end Steps

abbrev State (H : Type u) := Config Task (Memory H) (Activity H)

/-- `Arc::new(SyncRegistry::new())`, or the same of `AsyncRegistry`. -/
def initial (H : Type u) : State H where
  memory :=
    { shared := .new (.token 0)
      registry := (Registry.initial H).memory
      borrows := []
      holders := []
      nextName := 1
      status := fun _ => .unknown }
  threads := fun _ => .idle

end RegistryIo.Guard
