import Mathlib.Data.List.Perm.Basic
import RegistryIo.Isolation.Scripts

/-!
# The join of scripted handlers

The join polls every running slot in each pass.  A slot keeps its panic, and
its ending, its polls and the drop of its future come in this pass or in a
later one; adding this up over the passes gives what the join does as a
whole.  It takes as many passes as its slowest handler.
-/

namespace RegistryIo.Isolation.Async

open RegistryIo.Unwinding

abbrev ScriptSlot (Payload : Type) := Slot (Future Payload) Payload

abbrev ScriptSlots (Payload : Type) :=
  Slots (Start Payload) (Future Payload) Payload

section Slots

variable {Payload : Type}

/-- The panic that a slot holds or is going to hold. -/
def slotPanic :
    Entry Payload × ScriptSlot Payload → Option (PanicInfo Payload)
  | (entry, .running future) => panicOf entry future.ending
  | (_, .done) => none
  | (entry, .panicked payload) => panicOf entry (some payload)

/-- The ending that is still to come. -/
def slotEnding :
    Entry Payload × ScriptSlot Payload →
      Option (Entry Payload × Option Payload)
  | (entry, .running future) => some (entry, future.ending)
  | _ => none

/-- The ending that comes with the next pass. -/
def endsNow :
    Entry Payload × ScriptSlot Payload →
      Option (Entry Payload × Option Payload)
  | (entry, .running ⟨0, ending, _⟩) => some (entry, ending)
  | _ => none

/-- The polls that are still to come. -/
def slotPolls : Entry Payload × ScriptSlot Payload → List (Entry Payload)
  | (entry, .running future) => List.replicate (future.pending + 1) entry
  | _ => []

/-- The poll of the next pass. -/
def pollsNow : Entry Payload × ScriptSlot Payload → Option (Entry Payload)
  | (entry, .running _) => some entry
  | _ => none

namespace Slot

/-- The slot after a pass. -/
def next : ScriptSlot Payload → ScriptSlot Payload
  | .running ⟨pending + 1, ending, destructor⟩ =>
      .running ⟨pending, ending, destructor⟩
  | .running ⟨0, ending, _⟩ => ended ending
  | slot => slot

/-- The destructor that runs in the next pass returns. -/
def EndReturns : ScriptSlot Payload → Prop
  | .running ⟨0, _, destructor⟩ => destructor = none
  | _ => True

/-- The destructor of the future returns. -/
def DropReturns : ScriptSlot Payload → Prop
  | .running future => future.destructor = none
  | _ => True

def pending : ScriptSlot Payload → Nat
  | .running future => future.pending
  | _ => 0

end Slot

/-- The slots after one pass. -/
def nextSlots (slots : ScriptSlots Payload) : ScriptSlots Payload :=
  slots.map fun slot => (slot.1, slot.2.next)

/-- The number of passes at which some slot is pending. -/
def pendingPasses (slots : ScriptSlots Payload) : Nat :=
  (slots.map fun slot => slot.2.pending).foldr max 0

/-- What a pass does to a slot: its panic stays what it is, its ending comes
now or later, and so do its polls and the drop of its future. -/
structure Passes (slot : Entry Payload × ScriptSlot Payload) : Prop where
  panic : slotPanic (slot.1, slot.2.next) = slotPanic slot
  ending : (slotEnding slot).toList = (endsNow slot).toList ++
    (slotEnding (slot.1, slot.2.next)).toList
  polls : slotPolls slot = (pollsNow slot).toList ++
    slotPolls (slot.1, slot.2.next)
  drop : slot.2.DropReturns ↔ slot.2.EndReturns ∧ slot.2.next.DropReturns
  pending : slot.2.next.pending = slot.2.pending - 1
  last : slotEnding (slot.1, slot.2.next) = none ↔ slot.2.pending = 0

theorem passes (slot : Entry Payload × ScriptSlot Payload) :
    Passes slot := by
  obtain ⟨entry, slot⟩ := slot
  have iffLeft : ∀ condition : Prop, condition ↔ condition ∧ True :=
    fun condition => (and_iff_left trivial).symm
  have iffRight : ∀ condition : Prop, condition ↔ True ∧ condition :=
    fun condition => (and_iff_right trivial).symm
  have both : ∀ {first second : Prop}, first → second → (first ↔ second) :=
    fun first second => ⟨fun _ => second, fun _ => first⟩
  cases slot with
  | running future =>
      obtain ⟨pending, ending, destructor⟩ := future
      cases pending with
      | zero =>
          cases ending with
          | none => exact ⟨rfl, rfl, rfl, iffLeft _, rfl, both rfl rfl⟩
          | some payload =>
              exact ⟨rfl, rfl, rfl, iffLeft _, rfl, both rfl rfl⟩
      | succ pending =>
          exact ⟨rfl, rfl, rfl, iffRight _, rfl, nofun, nofun⟩
  | done => exact ⟨rfl, rfl, rfl, iffLeft _, rfl, both rfl rfl⟩
  | panicked payload => exact ⟨rfl, rfl, rfl, iffLeft _, rfl, both rfl rfl⟩

private theorem panics_next (slots : ScriptSlots Payload) :
    (nextSlots slots).filterMap slotPanic = slots.filterMap slotPanic := by
  unfold nextSlots
  rw [List.filterMap_map]
  apply List.filterMap_congr
  intro slot _
  exact (passes slot).panic

private theorem endings_next (slots : ScriptSlots Payload) :
    (slots.filterMap slotEnding).Perm (slots.filterMap endsNow ++
      (nextSlots slots).filterMap slotEnding) := by
  simp only [List.filterMap_eq_flatMap_toList, nextSlots, List.flatMap_map]
  rw [List.flatMap_congr fun slot _ => (passes slot).ending]
  exact (List.flatMap_append_perm slots _ _).symm

private theorem polls_next (slots : ScriptSlots Payload) :
    (slots.flatMap slotPolls).Perm (slots.filterMap pollsNow ++
      (nextSlots slots).flatMap slotPolls) := by
  simp only [List.filterMap_eq_flatMap_toList, nextSlots, List.flatMap_map]
  rw [List.flatMap_congr fun slot _ => (passes slot).polls]
  exact (List.flatMap_append_perm slots _ _).symm

private theorem drops_next (slots : ScriptSlots Payload) :
    (∀ slot ∈ slots, slot.2.DropReturns) ↔
      (∀ slot ∈ slots, slot.2.EndReturns) ∧
        ∀ slot ∈ nextSlots slots, slot.2.DropReturns := by
  unfold nextSlots
  rw [List.forall_mem_map, ← forall₂_and]
  exact forall₂_congr fun slot _ => (passes slot).drop

private theorem pendingPasses_next (slots : ScriptSlots Payload) :
    pendingPasses (nextSlots slots) = pendingPasses slots - 1 := by
  induction slots with
  | nil => rfl
  | cons slot rest inductionHypothesis =>
      have rule := (passes slot).pending
      change max slot.2.next.pending (pendingPasses (nextSlots rest)) =
        max slot.2.pending (pendingPasses rest) - 1
      omega

/-- A pass ends the join exactly if no slot is pending in it. -/
private theorem over_next_iff (slots : ScriptSlots Payload) :
    (nextSlots slots).filterMap slotEnding = [] ↔
      pendingPasses slots = 0 := by
  induction slots with
  | nil => exact ⟨fun _ => rfl, fun _ => rfl⟩
  | cons slot rest inductionHypothesis =>
      change List.filterMap slotEnding
        ((slot.1, slot.2.next) :: nextSlots rest) = [] ↔
          max slot.2.pending (pendingPasses rest) = 0
      rw [filterMap_cons_append, List.append_eq_nil_iff, inductionHypothesis,
        Option.toList_eq_nil_iff, (passes slot).last]
      omega

private theorem drops_of_over
    {slots : ScriptSlots Payload} (isOver : slots.filterMap slotEnding = []) :
    ∀ slot ∈ slots, slot.2.DropReturns := by
  intro slot mem
  have ended := List.filterMap_eq_nil_iff.mp isOver slot mem
  obtain ⟨entry, slot⟩ := slot
  cases slot with
  | running future => cases ended
  | done => trivial
  | panicked payload => trivial

private theorem polls_of_over
    {slots : ScriptSlots Payload} (isOver : slots.filterMap slotEnding = []) :
    slots.flatMap slotPolls = [] := by
  apply List.flatMap_eq_nil_iff.mpr
  intro slot mem
  have ended := List.filterMap_eq_nil_iff.mp isOver slot mem
  obtain ⟨entry, slot⟩ := slot
  cases slot with
  | running future => cases ended
  | done => rfl
  | panicked payload => rfl

end Slots

section Join

variable {Payload Callback : Type} (script : Script Payload Callback)

private theorem slotPoll_ready
    (entry : Entry Payload)
    (abandon : ScriptSlot Payload → ScriptCode Payload Unit)
    (ending destructor : Option Payload) :
    ((Slot.running ⟨0, ending, destructor⟩).poll script.user entry
      abandon).Ensures () (destructor = none) fun value _ events =>
        value = (Slot.ended ending, true) ∧
          Logs events [] [(entry, ending)] [entry] [] := by
  refine Code.Ensures.after (Code.bind_of_returned
    (pollCaught_ready script entry ending destructor)) ?_
  apply (fate_ensures destructor).onUnwind.bindPure
  rintro _ _ more rfl
  exact ⟨rfl, Logs.read _⟩

private theorem pollRunning_ensures
    (entry : Entry Payload)
    (abandon : ScriptSlot Payload → ScriptCode Payload Unit)
    (slot : ScriptSlot Payload) (running : Nat) :
    (pollRunning script.user entry abandon slot running).Ensures ()
      slot.EndReturns fun value _ events =>
        value = (slot.next,
          running - (endsNow (entry, slot)).toList.length) ∧
          Logs events [] (endsNow (entry, slot)).toList
            (pollsNow (entry, slot)).toList [] := by
  cases slot with
  | running future =>
      obtain ⟨pending, ending, destructor⟩ := future
      cases pending with
      | zero =>
          apply (slotPoll_ready script entry abandon ending
            destructor).bindPure
          rintro _ _ events ⟨rfl, logs⟩
          exact ⟨rfl, logs⟩
      | succ pending =>
          exact Code.ensures_of_run trivial rfl ⟨rfl, Logs.read _⟩
  | done => exact Code.ensures_of_run trivial rfl ⟨rfl, Logs.read _⟩
  | panicked payload =>
      exact Code.ensures_of_run trivial rfl ⟨rfl, Logs.read _⟩

/-- One pass over the slots polls every running one. -/
private theorem pollSlots_ensures
    (polled slots : ScriptSlots Payload) (running : Nat) :
    (pollSlots script.user polled slots running).Ensures ()
      (∀ slot ∈ slots, slot.2.EndReturns) fun value _ events =>
        value = (polled ++ nextSlots slots,
          running - (slots.filterMap endsNow).length) ∧
          Logs events [] (slots.filterMap endsNow)
            (slots.filterMap pollsNow) [] := by
  induction slots generalizing polled running with
  | nil =>
      refine Code.ensures_of_run (by simp) rfl ⟨?_, Logs.read _⟩
      simp [nextSlots]
  | cons slot rest inductionHypothesis =>
      obtain ⟨entry, slot⟩ := slot
      refine Code.Ensures.congr List.forall_mem_cons ?_
      refine (pollRunning_ensures script entry _ slot running).bind ?_
      rintro _ _ events ⟨rfl, logs⟩
      refine (inductionHypothesis _ _).weaken Iff.rfl ?_
      rintro _ _ more ⟨rfl, others⟩
      simp only [filterMap_cons_append, List.length_append, ← Nat.sub_sub,
        List.append_assoc]
      exact ⟨rfl, logs.append others⟩

/-- The loop over the slots reports their panics in order. -/
private theorem reportSlots_ensures
    (slots : ScriptSlots Payload) (isOver : slots.filterMap slotEnding = []) :
    (reportSlots script.user slots).Ensures ()
      (ReportsReturn script (slots.filterMap slotPanic))
      fun _ _ events =>
        Logs events [] [] []
          (script.calls (slots.filterMap slotPanic)) := by
  induction slots with
  | nil =>
      refine Code.ensures_of_run (by simp [ReportsReturn]) rfl ?_
      simpa [Script.calls_nil] using Logs.read []
  | cons slot rest inductionHypothesis =>
      obtain ⟨entry, slot⟩ := slot
      rw [filterMap_cons_append] at isOver
      obtain ⟨ended, others⟩ := List.append_eq_nil_iff.mp isOver
      have goesOn := inductionHypothesis others
      cases slot with
      | running future => cases ended
      | done => exact Code.Ensures.after rfl goesOn
      | panicked payload =>
          rw [filterMap_cons_append]
          refine Code.Ensures.congr (reportsReturn_append script _ _) ?_
          refine (report_ensures script entry
            (some payload)).onUnwind.bind ?_
          intro _ _ events reported
          refine goesOn.weaken Iff.rfl ?_
          intro _ _ more logs
          rw [Script.calls_append]
          exact reported.append logs

/-- What the join guarantees from some slots on. -/
def Joins (slots : ScriptSlots Payload) (left : Nat)
    (code : ScriptCode Payload (Option Nat)) : Prop :=
  code.Ensures ()
    ((∀ slot ∈ slots, slot.2.DropReturns) ∧
      ReportsReturn script (slots.filterMap slotPanic) ∧
      ListReturns script)
    fun result _ events => result = some left ∧
      Logs events [] (slots.filterMap slotEnding) (slots.flatMap slotPolls)
        (script.calls (slots.filterMap slotPanic))

/-- The last poll of the join. -/
private theorem joins_of_over
    (slots : ScriptSlots Payload) (fuel : Nat)
    (isOver : slots.filterMap slotEnding = []) :
    Joins script slots fuel (driveFrom (dropList script.user)
      (pollNotify script.user ()) fuel
      (reportSlots script.user slots >>= fun _ => return none)) := by
  refine Code.Ensures.congr (and_iff_right (drops_of_over isOver)) ?_
  refine (reportSlots_ensures script slots isOver).driveFrom ?_
  intro _ _ events reported
  refine (ready_ensures script _ fuel).weaken Iff.rfl ?_
  rintro left _ more ⟨isReady, silent⟩
  refine ⟨isReady, ?_⟩
  rw [isOver, polls_of_over isOver]
  simpa using reported.append silent

/-- One poll of the join, given the polls that follow it. -/
private theorem joins_pass
    {slots : ScriptSlots Payload} {fuel left : Nat}
    (ends : pendingPasses slots = 0 → left = fuel)
    (follows : pendingPasses slots ≠ 0 →
      Joins script (nextSlots slots) left
        (drive (pollNotify script.user ()) fuel (.joining (nextSlots slots)
          ((nextSlots slots).filterMap slotEnding).length))) :
    Joins script slots left (driveFrom (dropList script.user)
      (pollNotify script.user ()) fuel
      (awaitJoin script.user slots
        (slots.filterMap slotEnding).length)) := by
  have endings := endings_next slots
  have count : (slots.filterMap slotEnding).length -
      (slots.filterMap endsNow).length =
        ((nextSlots slots).filterMap slotEnding).length := by
    rw [endings.length_eq, List.length_append, Nat.add_sub_cancel_left]
  refine Code.Ensures.congr (and_congr_left' (drops_next slots)) ?_
  refine Code.Ensures.congr and_assoc ?_
  refine (pollSlots_ensures script [] slots _).driveFrom ?_
  rintro _ _ events ⟨rfl, logs⟩
  have rest : Joins script (nextSlots slots) left
      (driveFrom (dropList script.user) (pollNotify script.user ()) fuel
        (if ((nextSlots slots).filterMap slotEnding).length = 0 then
          (reportSlots script.user (nextSlots slots) >>= fun _ =>
            return none)
        else return some (.joining (nextSlots slots)
          ((nextSlots slots).filterMap slotEnding).length))) := by
    by_cases last : pendingPasses slots = 0
    · have isOver := (over_next_iff slots).mpr last
      rw [if_pos (List.length_eq_zero_iff.mpr isOver), ends last]
      exact joins_of_over script (nextSlots slots) fuel isOver
    · have goesOn : ((nextSlots slots).filterMap slotEnding).length ≠ 0 :=
        fun zero => last ((over_next_iff slots).mp
          (List.length_eq_zero_iff.mp zero))
      rw [if_neg goesOn]
      exact follows last
  rw [count]
  refine Code.Ensures.weaken rest (by rw [panics_next]) ?_
  rintro result _ more ⟨isReady, others⟩
  have both := logs.append others
  rw [panics_next] at both
  exact ⟨isReady, both.perm endings.symm (polls_next slots).symm⟩

/-- The join takes as many polls as its slowest handler. -/
private theorem join_ensures
    (slots : ScriptSlots Payload) (fuel : Nat)
    (enough : pendingPasses slots ≤ fuel) :
    Joins script slots (fuel - pendingPasses slots)
      (driveFrom (dropList script.user) (pollNotify script.user ()) fuel
        (awaitJoin script.user slots
          (slots.filterMap slotEnding).length)) := by
  induction fuel generalizing slots with
  | zero =>
      apply joins_pass
      · intro _
        exact Nat.zero_sub _
      · intro goesOn
        exact absurd (Nat.le_zero.mp enough) goesOn
  | succ fuel inductionHypothesis =>
      apply joins_pass
      · intro last
        rw [last]
        rfl
      · intro goesOn
        have rule := pendingPasses_next slots
        have left : fuel + 1 - pendingPasses slots =
            fuel - pendingPasses (nextSlots slots) := by omega
        rw [left]
        exact inductionHypothesis (nextSlots slots) (by omega)

end Join

section Started

variable {Payload Callback : Type} (script : Script Payload Callback)

/-- The slot of a handler that was started. -/
def Start.slot : Start Payload → ScriptSlot Payload
  | .future made => .running made
  | .panics payload => .panicked payload

/-- The ending of a handler that panics before it has a future. -/
def startEnding (entry : Entry Payload) :
    Option (Entry Payload × Option Payload) :=
  match entry.handler with
  | .future _ => none
  | .panics payload => some (entry, some payload)

def slotsOf (handlers : List (Entry Payload)) : ScriptSlots Payload :=
  handlers.map fun entry => (entry, entry.handler.slot)

/-- The number of polls at which some handler of a list is pending. -/
def slowest (handlers : List (Entry Payload)) : Nat :=
  (handlers.map fun entry => entry.handler.pending).foldr max 0

private theorem start_ensures (entry : Entry Payload) :
    (start script.user () entry).Ensures () True fun started _ events =>
      Slot.new started = entry.handler.slot ∧
        Logs events [entry] (startEnding entry).toList [] [] := by
  unfold startEnding
  cases made : entry.handler with
  | future future =>
      exact Code.ensures_of_run trivial (start_future script made)
        ⟨rfl, Logs.read _⟩
  | panics payload =>
      exact Code.ensures_of_run trivial (start_panics script made)
        ⟨rfl, Logs.read _⟩

private theorem startAll_ensures (handlers : List (Entry Payload)) :
    (startAll script.user () handlers).Ensures () True fun slots _ events =>
      slots = slotsOf handlers ∧
        Logs events handlers (handlers.filterMap startEnding) [] [] := by
  induction handlers with
  | nil => exact Code.ensures_of_run trivial rfl ⟨rfl, Logs.read _⟩
  | cons entry rest inductionHypothesis =>
      refine Code.Ensures.congr (and_self_iff (a := True)).symm ?_
      refine (start_ensures script entry).bind ?_
      rintro started _ events ⟨isSlot, first⟩
      refine inductionHypothesis.bindPure _ ?_
      rintro _ _ more ⟨rfl, others⟩
      rw [filterMap_cons_append, isSlot]
      exact ⟨rfl, first.append others⟩

/-- A handler and its slot before the first pass. -/
structure Starts (entry : Entry Payload) : Prop where
  panic : slotPanic (entry, entry.handler.slot) =
    panicOf entry entry.handler.outcome
  ending : [(entry, entry.handler.outcome)] = (startEnding entry).toList ++
    (slotEnding (entry, entry.handler.slot)).toList
  polls : List.replicate entry.handler.polls entry =
    slotPolls (entry, entry.handler.slot)
  running : entry.handler.slot.isRunning =
    (slotEnding (entry, entry.handler.slot)).isSome
  drop : entry.handler.DropReturns ↔ entry.handler.slot.DropReturns
  pending : entry.handler.slot.pending = entry.handler.pending

theorem starts (entry : Entry Payload) : Starts entry := by
  obtain ⟨handlerId, priority, handler⟩ := entry
  cases handler with
  | future future => exact ⟨rfl, rfl, rfl, rfl, Iff.rfl, rfl⟩
  | panics payload => exact ⟨rfl, rfl, rfl, rfl, Iff.rfl, rfl⟩

private theorem slotsOf_panics (handlers : List (Entry Payload)) :
    (slotsOf handlers).filterMap slotPanic = panicsOf handlers := by
  unfold slotsOf panicsOf
  rw [List.filterMap_map]
  apply List.filterMap_congr
  intro entry _
  exact (starts entry).panic

private theorem slotsOf_endings (handlers : List (Entry Payload)) :
    (endingsOf handlers).Perm (handlers.filterMap startEnding ++
      (slotsOf handlers).filterMap slotEnding) := by
  have single : endingsOf handlers =
      handlers.flatMap fun entry => [(entry, entry.handler.outcome)] :=
    List.map_eq_flatMap
  rw [single]
  simp only [List.filterMap_eq_flatMap_toList, slotsOf, List.flatMap_map]
  rw [List.flatMap_congr fun entry _ => (starts entry).ending]
  exact (List.flatMap_append_perm handlers _ _).symm

private theorem slotsOf_polls (handlers : List (Entry Payload)) :
    (slotsOf handlers).flatMap slotPolls = pollsOf handlers := by
  unfold slotsOf pollsOf
  rw [List.flatMap_map]
  congr 1
  funext entry
  exact (starts entry).polls.symm

private theorem slotsOf_running (handlers : List (Entry Payload)) :
    (slotsOf handlers).countP (fun slot => slot.2.isRunning) =
      ((slotsOf handlers).filterMap slotEnding).length := by
  rw [List.length_filterMap_eq_countP]
  unfold slotsOf
  rw [List.countP_map, List.countP_map]
  apply List.countP_congr
  intro entry _
  simp [(starts entry).running]

private theorem slotsOf_pending (handlers : List (Entry Payload)) :
    pendingPasses (slotsOf handlers) = slowest handlers := by
  unfold pendingPasses slotsOf slowest
  rw [List.map_map]
  congr 1
  apply List.map_congr_left
  intro entry _
  exact (starts entry).pending

private theorem joinAll_dispatches
    (handlers : List (Entry Payload)) (fuel : Nat)
    (enough : slowest handlers ≤ fuel) :
    Dispatches script handlers (HandlersReturn script handlers)
      (fuel - slowest handlers)
      (driveFrom (dropList script.user) (pollNotify script.user ()) fuel (do
        let slots ← startAll script.user () handlers
        awaitJoin script.user slots
          (slots.countP fun slot => slot.2.isRunning))) := by
  have condition : HandlersReturn script handlers ↔
      True ∧ (∀ slot ∈ slotsOf handlers, slot.2.DropReturns) ∧
        ReportsReturn script ((slotsOf handlers).filterMap slotPanic) ∧
        ListReturns script := by
    rw [true_and, slotsOf_panics, slotsOf, List.forall_mem_map]
    exact and_congr_left' (forall₂_congr fun entry _ => (starts entry).drop)
  refine Code.Ensures.congr condition ?_
  refine (startAll_ensures script handlers).driveFrom ?_
  rintro _ _ events ⟨rfl, logs⟩
  rw [← slotsOf_pending] at enough ⊢
  rw [slotsOf_running]
  refine (join_ensures script _ fuel enough).weaken Iff.rfl ?_
  rintro left _ more ⟨isReady, others⟩
  have both := logs.append others
  rw [slotsOf_panics, slotsOf_polls, List.append_nil] at both
  exact ⟨isReady, both.perm (slotsOf_endings handlers).symm
    (List.Perm.refl _)⟩

/-- The body of `notify`: nothing to do, one handler or a join. -/
theorem notifyList_dispatches
    (handlers : List (Entry Payload)) (fuel : Nat)
    (enough : slowest handlers ≤ fuel) :
    Dispatches script handlers (HandlersReturn script handlers)
      (fuel - slowest handlers)
      (driveFrom (dropList script.user) (pollNotify script.user ()) fuel
        (notifyList script.user () handlers)) := by
  match handlers with
  | [] => exact nothing_dispatches script _ fuel
  | [only] =>
      have resumes : ∀ future, pollNotify script.user ()
          (.single only future) = holding (dropList script.user)
            (awaitWith script.user only (.single only) (return none)
              future) := fun _ => rfl
      have alone : slowest [only] = only.handler.pending + 0 :=
        Nat.max_zero _
      rw [alone] at enough ⊢
      exact handler_dispatches resumes
        (fun fuel _ => nothing_dispatches script _ fuel) fuel enough
  | first :: second :: rest =>
      exact joinAll_dispatches script (first :: second :: rest) fuel enough

end Started

end RegistryIo.Isolation.Async
