import Mathlib.Data.List.Perm.Basic
import RegistryIo.Foundations.Polling

/-!
# Values that are disposed of exactly once

A value with a destructor carries a tag, and a ledger beside the world lists
the tags of the values that are live.  A use or a drop of a value that is not
live makes the ledger unsound.

`Code.Tracks` compares code that runs with a ledger with the plain code, in
the manner of separation logic.  The code takes over the values of `owned` and
gives back those of `left` with its result; those of `borrowed` belong to
somebody else.  Code that unwinds has disposed of everything that it took over
and leaves the payload of its panic.  Code that is `quiet` does not unwind.
-/

namespace RegistryIo.Unwinding

structure Tagged (α : Type) where
  tag : Nat
  value : α
  deriving DecidableEq, Repr

structure Token (Kind : Type) where
  kind : Kind
  tag : Nat
  deriving DecidableEq, Repr

structure Ledger (Kind : Type) where
  next : Nat
  live : List (Token Kind)
  sound : Bool
  deriving DecidableEq, Repr

namespace Ledger

variable {Kind : Type}

def empty : Ledger Kind :=
  ⟨0, [], true⟩

/-- A value comes to life under the next tag. -/
def create (ledger : Ledger Kind) (kind : Kind) : Ledger Kind :=
  ⟨ledger.next + 1, ⟨kind, ledger.next⟩ :: ledger.live, ledger.sound⟩

/-- A use of a value, which has to be live and of this kind. -/
def use [DecidableEq Kind] (ledger : Ledger Kind) (token : Token Kind) :
    Ledger Kind :=
  { ledger with sound := ledger.sound && decide (token ∈ ledger.live) }

/-- The drop of a value, which has to be live. -/
def destroy (ledger : Ledger Kind) (tag : Nat) : Ledger Kind :=
  { ledger with
    live := ledger.live.filter fun token => token.tag != tag
    sound := ledger.sound && ledger.live.any fun token => token.tag == tag }

/-- A value becomes one of another kind. -/
def turn (ledger : Ledger Kind) (tag : Nat) (kind : Kind) : Ledger Kind :=
  { ledger with
    live := ledger.live.map fun token =>
      if token.tag = tag then ⟨kind, tag⟩ else token }

/-- The ledger is sound, and `tokens` are the values that are live. -/
structure Accounts (ledger : Ledger Kind) (tokens : List (Token Kind)) :
    Prop where
  sound : ledger.sound = true
  live : ledger.live.Perm tokens
  distinct : (ledger.live.map Token.tag).Nodup
  fresh : ∀ token ∈ ledger.live, token.tag < ledger.next

variable {ledger : Ledger Kind} {tokens rest : List (Token Kind)}

private theorem accounts_empty : (empty : Ledger Kind).Accounts [] where
  sound := rfl
  live := List.Perm.refl _
  distinct := List.nodup_nil
  fresh := by simp [empty]

theorem Accounts.perm
    {tokens' : List (Token Kind)} (accounts : ledger.Accounts tokens)
    (same : tokens.Perm tokens') : ledger.Accounts tokens' :=
  ⟨accounts.sound, accounts.live.trans same, accounts.distinct,
    accounts.fresh⟩

theorem Accounts.create
    (accounts : ledger.Accounts tokens) (kind : Kind) :
    (ledger.create kind).Accounts (⟨kind, ledger.next⟩ :: tokens) := by
  refine ⟨accounts.sound, accounts.live.cons _, ?_, ?_⟩
  · have unused : ledger.next ∉ ledger.live.map Token.tag := by
      intro used
      obtain ⟨token, isLive, same⟩ := List.mem_map.mp used
      have older := accounts.fresh token isLive
      omega
    exact List.nodup_cons.mpr ⟨unused, accounts.distinct⟩
  · intro token isLive
    rcases List.mem_cons.mp isLive with rfl | older
    · exact Nat.lt_succ_self _
    · exact Nat.lt_succ_of_lt (accounts.fresh token older)

theorem Accounts.use
    [DecidableEq Kind] {token : Token Kind}
    (accounts : ledger.Accounts tokens) (isLive : token ∈ tokens) :
    (ledger.use token).Accounts tokens := by
  have listed : token ∈ ledger.live := accounts.live.mem_iff.mpr isLive
  refine ⟨?_, accounts.live, accounts.distinct, accounts.fresh⟩
  simp [Ledger.use, accounts.sound, listed]

/-- The other live values have other tags. -/
private theorem Accounts.tag_ne
    {token other : Token Kind} (accounts : ledger.Accounts (token :: rest))
    (member : other ∈ rest) : other.tag ≠ token.tag := by
  have distinct : ((token :: rest).map Token.tag).Nodup :=
    (accounts.live.map Token.tag).nodup_iff.mp accounts.distinct
  intro same
  apply (List.nodup_cons.mp distinct).1
  rw [← same]
  exact List.mem_map_of_mem member

theorem Accounts.destroy
    {token : Token Kind} (accounts : ledger.Accounts (token :: rest)) :
    (ledger.destroy token.tag).Accounts rest := by
  have listed : token ∈ ledger.live :=
    accounts.live.mem_iff.mpr List.mem_cons_self
  have kept : rest.filter (fun other => other.tag != token.tag) = rest := by
    apply List.filter_eq_self.mpr
    intro other member
    simpa using accounts.tag_ne member
  refine ⟨?_, ?_, ?_, ?_⟩
  · have found : ledger.live.any (fun other => other.tag == token.tag) := by
      apply List.any_eq_true.mpr
      exact ⟨token, listed, by simp⟩
    simp [Ledger.destroy, accounts.sound, found]
  · have filtered := accounts.live.filter fun other => other.tag != token.tag
    simpa [Ledger.destroy, kept] using filtered
  · exact accounts.distinct.sublist (List.filter_sublist.map Token.tag)
  · intro other member
    exact accounts.fresh other (List.mem_of_mem_filter member)

theorem Accounts.turn
    {token : Token Kind} (accounts : ledger.Accounts (token :: rest))
    (kind : Kind) :
    (ledger.turn token.tag kind).Accounts (⟨kind, token.tag⟩ :: rest) := by
  have kept : rest.map (fun other =>
      if other.tag = token.tag then ⟨kind, token.tag⟩ else other) = rest := by
    refine Eq.trans ?_ (List.map_id rest)
    apply List.map_congr_left
    intro other member
    exact if_neg (accounts.tag_ne member)
  have tags : (ledger.turn token.tag kind).live.map Token.tag =
      ledger.live.map Token.tag := by
    simp only [Ledger.turn, List.map_map]
    apply List.map_congr_left
    intro other _
    by_cases same : other.tag = token.tag
    · simp [same]
    · simp [same]
  refine ⟨accounts.sound, ?_, ?_, ?_⟩
  · have mapped := accounts.live.map fun other =>
      if other.tag = token.tag then ⟨kind, token.tag⟩ else other
    simpa [Ledger.turn, kept] using mapped
  · rw [tags]
    exact accounts.distinct
  · intro other member
    have used := List.mem_map_of_mem (f := Token.tag) member
    rw [tags] at used
    obtain ⟨before, isLive, same⟩ := List.mem_map.mp used
    rw [← same]
    exact accounts.fresh before isLive

end Ledger

/-- A world `τ` that consists of a world `σ` and a ledger, and the kind of
panic payloads. -/
structure Tracking (τ σ Kind : Type) where
  world : τ → σ
  ledger : τ → Ledger Kind
  join : σ → Ledger Kind → τ
  world_join : ∀ plain ledger, world (join plain ledger) = plain
  ledger_join : ∀ plain entries, ledger (join plain entries) = entries
  panic : Kind

section Definitions

variable {τ σ Event' Event Kind Payload α' α : Type}

/-- A change of the plain world. -/
def Tracking.change (tracking : Tracking τ σ Kind)
    (change : σ → σ) (world : τ) : τ :=
  tracking.join (change (tracking.world world)) (tracking.ledger world)

/-- Code from outside, with what happens in the ledger when it is called. -/
def Tracking.outside (tracking : Tracking τ σ Kind)
    (change : Ledger Kind → Ledger Kind) (outside : Outside σ Payload) :
    Outside τ (Tagged Payload) :=
  fun world =>
    let ledger := change (tracking.ledger world)
    match outside (tracking.world world) with
    | (none, plain) => (none, tracking.join plain ledger)
    | (some payload, plain) =>
        (some ⟨ledger.next, payload⟩,
          tracking.join plain (ledger.create tracking.panic))

def eraseOutcome (erase : α' → α) :
    Except (Tagged Payload) α' → Except Payload α
  | .ok value => .ok (erase value)
  | .error payload => .error payload.value

/-- The end of code that runs with a ledger, and the end of the plain code. -/
inductive Ends (panic : Kind) (quiet : Bool) (erase : α' → α)
    (left : α' → List (Token Kind)) (frame : List (Token Kind)) :
    Exit (Tagged Payload) α' → Exit Payload α → Ledger Kind → Prop where
  | returned {value : α'} {ledger : Ledger Kind}
      (accounts : ledger.Accounts (left value ++ frame)) :
      Ends panic quiet erase left frame (.returned value)
        (.returned (erase value)) ledger
  | unwound {payload : Tagged Payload} {ledger : Ledger Kind}
      (loud : quiet = false)
      (accounts : ledger.Accounts (⟨panic, payload.tag⟩ :: frame)) :
      Ends panic quiet erase left frame (.unwound payload)
        (.unwound payload.value) ledger
  | aborted {ledger : Ledger Kind} (sound : ledger.sound = true) :
      Ends panic quiet erase left frame .aborted .aborted ledger

def Code.Tracks (tracking : Tracking τ σ Kind)
    (untag : Event' → Event) (quiet : Bool)
    (borrowed owned : List (Token Kind))
    (code' : Code τ Event' (Tagged Payload) α')
    (code : Code σ Event Payload α) (erase : α' → α)
    (left : α' → List (Token Kind)) : Prop :=
  ∀ world frame, borrowed ⊆ frame →
    (tracking.ledger world).Accounts (owned ++ frame) →
    ∃ exit' exit last events,
      code' world = ⟨exit', last, events⟩ ∧
        code (tracking.world world) =
          ⟨exit, tracking.world last, events.map untag⟩ ∧
        Ends tracking.panic quiet erase left frame exit' exit
          (tracking.ledger last)

/-- The run with the ledger is the plain run, every value was live when it was
used or dropped, and at the end nothing is live but the payload of a panic
that goes on to the caller. -/
structure Disposes (tracking : Tracking τ σ Kind)
    (untag : Event' → Event) (erase : α' → α)
    (run' : Run τ Event' (Tagged Payload) α')
    (run : Run σ Event Payload α) : Prop where
  world : tracking.world run'.world = run.world
  events : run'.events.map untag = run.events
  sound : (tracking.ledger run'.world).sound = true
  returned : ∀ value, run'.exit = .returned value →
    run.exit = .returned (erase value) ∧
      (tracking.ledger run'.world).live = []
  unwound : ∀ payload, run'.exit = .unwound payload →
    run.exit = .unwound payload.value ∧
      (tracking.ledger run'.world).live = [⟨tracking.panic, payload.tag⟩]
  aborted : run'.exit = .aborted → run.exit = .aborted

/-- The life of a future: it is polled until it is ready, and dropped if it is
still pending after the given number of polls.  `between` is what happens to
the world before the poll, or the drop, with that many polls to go. -/
def lifetime {S : Type} (poll : S → Code σ Event Payload (Option S))
    (drop : S → Code σ Event Payload Unit) (between : Nat → σ → σ) :
    Nat → S → Code σ Event Payload Unit
  | 0, state => do
      Code.set (between 0)
      drop state
  | polls + 1, state => do
      Code.set (between (polls + 1))
      match ← poll state with
      | none => return ()
      | some next => lifetime poll drop between polls next

end Definitions

section Rules

variable {τ σ Event' Event Kind Payload α' α β' β : Type}
variable {tracking : Tracking τ σ Kind} {untag : Event' → Event}
variable {quiet : Bool}
variable {borrowed owned extra : List (Token Kind)}
variable {code' : Code τ Event' (Tagged Payload) α'}
variable {code : Code σ Event Payload α} {erase : α' → α}
variable {left : α' → List (Token Kind)}

namespace Code

private theorem bind_of_unwound
    {next : α → Code σ Event Payload β} {world world' : σ}
    {payload : Payload} {events : List Event}
    (unwound : code world = ⟨.unwound payload, world', events⟩) :
    (code >>= next) world = ⟨.unwound payload, world', events⟩ := by
  change Code.bind code next world = _
  simp only [Code.bind, unwound]

private theorem bind_of_aborted
    {next : α → Code σ Event Payload β} {world world' : σ}
    {events : List Event}
    (aborted : code world = ⟨.aborted, world', events⟩) :
    (code >>= next) world = ⟨.aborted, world', events⟩ := by
  change Code.bind code next world = _
  simp only [Code.bind, aborted]

theorem Tracks.bind
    {next' : α' → Code τ Event' (Tagged Payload) β'}
    {next : α → Code σ Event Payload β} {erase' : β' → β}
    {left' : β' → List (Token Kind)}
    (first : Tracks tracking untag quiet borrowed owned code' code erase
      left)
    (continues : ∀ value, Tracks tracking untag quiet borrowed (left value)
      (next' value) (next (erase value)) erase' left') :
    Tracks tracking untag quiet borrowed owned (code' >>= next')
      (code >>= next) erase' left' := by
  intro world frame available accounts
  obtain ⟨_, _, middle, events, ran', ran, ends⟩ :=
    first world frame available accounts
  cases ends with
  | @returned value _ accounts =>
      obtain ⟨exit', exit, last, more, goesOn', goesOn, ends⟩ :=
        continues value middle frame available accounts
      refine ⟨exit', exit, last, events ++ more, ?_, ?_, ends⟩
      · rw [bind_of_returned ran', goesOn']
        rfl
      · rw [bind_of_returned ran, goesOn, List.map_append]
        rfl
  | unwound loud accounts =>
      exact ⟨_, _, middle, events, bind_of_unwound ran',
        bind_of_unwound ran, .unwound loud accounts⟩
  | aborted sound =>
      exact ⟨_, _, middle, events, bind_of_aborted ran',
        bind_of_aborted ran, .aborted sound⟩

theorem tracks_pure
    {value : α'} {plain : α} (erased : erase value = plain)
    (same : owned.Perm (left value)) :
    Tracks tracking untag quiet borrowed owned
      (Pure.pure value : Code τ Event' (Tagged Payload) α')
      (Pure.pure plain : Code σ Event Payload α) erase left := by
  subst erased
  intro world frame _ accounts
  exact ⟨_, _, world, [], rfl, rfl,
    .returned (accounts.perm (same.append_right frame))⟩

theorem Tracks.ite
    {other' : Code τ Event' (Tagged Payload) α'}
    {other : Code σ Event Payload α} {condition : Prop}
    [Decidable condition]
    (yes : Tracks tracking untag quiet borrowed owned code' code erase left)
    (no : Tracks tracking untag quiet borrowed owned other' other erase
      left) :
    Tracks tracking untag quiet borrowed owned
      (if condition then code' else other')
      (if condition then code else other) erase left := by
  split
  · exact yes
  · exact no

/-- The values that the code takes over may be listed in any order. -/
theorem Tracks.reorder
    {owned' : List (Token Kind)} {left' : α' → List (Token Kind)}
    (tracks : Tracks tracking untag quiet borrowed owned code' code erase
      left)
    (same : owned'.Perm owned) (same' : ∀ value,
      (left value).Perm (left' value)) :
    Tracks tracking untag quiet borrowed owned' code' code erase left' := by
  intro world frame available accounts
  obtain ⟨_, _, last, events, ran', ran, ends⟩ :=
    tracks world frame available (accounts.perm (same.append_right frame))
  refine ⟨_, _, last, events, ran', ran, ?_⟩
  cases ends with
  | returned accounts =>
      exact .returned (accounts.perm ((same' _).append_right frame))
  | unwound loud accounts => exact .unwound loud accounts
  | aborted sound => exact .aborted sound

/-- The frame rule.  Code that does not unwind may run while other values are
owned, and may borrow them. -/
theorem Tracks.framed
    {lent : List (Token Kind)}
    (tracks : Tracks tracking untag true lent owned code' code erase left)
    (available : lent ⊆ extra ++ borrowed) :
    Tracks tracking untag quiet borrowed (owned ++ extra) code' code erase
      fun value => left value ++ extra := by
  intro world frame lends accounts
  have reaches : lent ⊆ extra ++ frame := by
    intro token member
    rcases List.mem_append.mp (available member) with own | other
    · exact List.mem_append_left frame own
    · exact List.mem_append_right extra (lends other)
  rw [List.append_assoc] at accounts
  obtain ⟨_, _, last, events, ran', ran, ends⟩ :=
    tracks world (extra ++ frame) reaches accounts
  refine ⟨_, _, last, events, ran', ran, ?_⟩
  cases ends with
  | returned accounts =>
      rw [← List.append_assoc] at accounts
      exact .returned accounts
  | unwound loud _ => cases loud
  | aborted sound => exact .aborted sound

/-- What code does that owns nothing else. -/
theorem Tracks.loud
    {lent : List (Token Kind)}
    (tracks : Tracks tracking untag true lent owned code' code erase left)
    (available : lent ⊆ borrowed) :
    Tracks tracking untag quiet borrowed owned code' code erase left := by
  have framed : Tracks tracking untag quiet borrowed (owned ++ []) code' code
      erase fun value => left value ++ [] := tracks.framed available
  simpa using framed

theorem Tracks.catchUnwind
    (tracks : Tracks tracking untag quiet borrowed owned code' code erase
      left) :
    Tracks tracking untag true borrowed owned (catchUnwind code')
      (catchUnwind code) (eraseOutcome erase) fun outcome =>
        match outcome with
        | .ok value => left value
        | .error payload => [⟨tracking.panic, payload.tag⟩] := by
  intro world frame available accounts
  obtain ⟨_, _, last, events, ran', ran, ends⟩ :=
    tracks world frame available accounts
  simp only [Code.catchUnwind, ran', ran]
  cases ends with
  | @returned value _ accounts =>
      exact ⟨_, _, last, events, rfl, rfl, .returned accounts⟩
  | @unwound payload _ _ accounts =>
      exact ⟨_, _, last, events, rfl, rfl, .returned accounts⟩
  | aborted sound => exact ⟨_, _, last, events, rfl, rfl, .aborted sound⟩

/-- The code may borrow what the cleanup disposes of. -/
theorem Tracks.onUnwind
    {cleanup' : Code τ Event' (Tagged Payload) Unit}
    {cleanup : Code σ Event Payload Unit} {lent : List (Token Kind)}
    (tracks : Tracks tracking untag false lent owned code' code erase left)
    (cleans : Tracks tracking untag false borrowed extra cleanup' cleanup id
      fun _ => [])
    (available : lent ⊆ extra ++ borrowed) :
    Tracks tracking untag false borrowed (owned ++ extra)
      (code'.onUnwind cleanup') (code.onUnwind cleanup) erase
      fun value => left value ++ extra := by
  intro world frame lends accounts
  have reaches : lent ⊆ extra ++ frame := by
    intro token member
    rcases List.mem_append.mp (available member) with own | other
    · exact List.mem_append_left frame own
    · exact List.mem_append_right extra (lends other)
  rw [List.append_assoc] at accounts
  obtain ⟨_, _, middle, events, ran', ran, ends⟩ :=
    tracks world (extra ++ frame) reaches accounts
  simp only [Code.onUnwind, ran', ran]
  cases ends with
  | returned accounts =>
      rw [← List.append_assoc] at accounts
      exact ⟨_, _, middle, events, rfl, rfl, .returned accounts⟩
  | @unwound payload _ loud accounts =>
      -- The payload is not the cleanup's: it belongs to its frame.
      have handed : (tracking.ledger middle).Accounts
          (extra ++ (⟨tracking.panic, payload.tag⟩ :: frame)) :=
        accounts.perm List.perm_middle.symm
      obtain ⟨_, _, last, more, cleaned', cleaned, ends⟩ :=
        cleans middle (⟨tracking.panic, payload.tag⟩ :: frame)
          (fun token member => List.mem_cons_of_mem _ (lends member)) handed
      simp only [cleaned', cleaned]
      cases ends with
      | returned accounts =>
          exact ⟨_, _, last, events ++ more, rfl, by simp,
            .unwound rfl accounts⟩
      | unwound _ accounts =>
          exact ⟨_, _, last, events ++ more, rfl, by simp,
            .aborted accounts.sound⟩
      | aborted sound =>
          exact ⟨_, _, last, events ++ more, rfl, by simp, .aborted sound⟩
  | aborted sound => exact ⟨_, _, middle, events, rfl, rfl, .aborted sound⟩

theorem Tracks.scope
    {cleanup' : Code τ Event' (Tagged Payload) Unit}
    {cleanup : Code σ Event Payload Unit} {lent : List (Token Kind)}
    (tracks : Tracks tracking untag false lent owned code' code erase
      fun _ => [])
    (cleans : Tracks tracking untag false borrowed extra cleanup' cleanup id
      fun _ => [])
    (available : lent ⊆ extra ++ borrowed) :
    Tracks tracking untag false borrowed (owned ++ extra)
      (code'.scope cleanup') (code.scope cleanup) erase fun _ => [] := by
  apply (tracks.onUnwind cleans available).bind
  intro value
  apply cleans.bind
  intro _
  exact tracks_pure rfl (List.Perm.refl _)

theorem Tracks.forEach
    {ι : Type} {body' : ι → Code τ Event' (Tagged Payload) Unit}
    {body : ι → Code σ Event Payload Unit}
    (tracks : ∀ item, Tracks tracking untag quiet borrowed [] (body' item)
      (body item) id fun _ => [])
    (items : List ι) :
    Tracks tracking untag quiet borrowed [] (forEach body' items)
      (forEach body items) id fun _ => [] := by
  induction items with
  | nil => exact tracks_pure rfl (List.Perm.refl _)
  | cons item rest inductionHypothesis =>
      apply (tracks item).bind
      intro _
      exact inductionHypothesis

/-- Drop of a vector disposes of what its elements own. -/
theorem Tracks.dropAll
    {ι : Type} {destroy' : ι → Code τ Event' (Tagged Payload) Unit}
    {destroy : ι → Code σ Event Payload Unit}
    {tokens : ι → List (Token Kind)}
    (tracks : ∀ item, Tracks tracking untag false borrowed (tokens item)
      (destroy' item) (destroy item) id fun _ => [])
    (items : List ι) :
    Tracks tracking untag false borrowed (items.flatMap tokens)
      (dropAll destroy' items) (dropAll destroy items) id fun _ => [] := by
  induction items with
  | nil => exact tracks_pure rfl (List.Perm.refl _)
  | cons item rest inductionHypothesis =>
      have first := (tracks item).onUnwind inductionHypothesis
        (List.subset_append_right _ _)
      apply first.bind
      intro _
      exact inductionHypothesis

theorem tracks_get :
    Tracks tracking untag quiet borrowed []
      (get : Code τ Event' (Tagged Payload) τ)
      (get : Code σ Event Payload σ) tracking.world fun _ => [] := by
  intro world frame _ accounts
  exact ⟨_, _, world, [], rfl, rfl, .returned accounts⟩

theorem tracks_change (change : σ → σ) :
    Tracks tracking untag quiet borrowed owned
      (set (tracking.change change) : Code τ Event' (Tagged Payload) Unit)
      (set change : Code σ Event Payload Unit) id fun _ => owned := by
  intro world frame _ accounts
  refine ⟨_, _, tracking.change change world, [], rfl, ?_, .returned ?_⟩
  · simp [Code.set, Tracking.change, tracking.world_join]
  · simpa [Tracking.change, tracking.ledger_join] using accounts

theorem tracks_log (event : Event') :
    Tracks tracking untag quiet borrowed owned
      (log event : Code τ Event' (Tagged Payload) Unit)
      (log (untag event) : Code σ Event Payload Unit) id
      fun _ => owned := by
  intro world frame _ accounts
  exact ⟨_, _, world, [event], rfl, rfl, .returned accounts⟩

/-- A call from outside whose change of the ledger disposes of `owned`. -/
private theorem tracks_call
    {change : Ledger Kind → Ledger Kind} {outside : Outside σ Payload}
    (disposes : ∀ ledger frame, borrowed ⊆ frame →
      ledger.Accounts (owned ++ frame) → (change ledger).Accounts frame) :
    Tracks tracking untag false borrowed owned
      (call (tracking.outside change outside) :
        Code τ Event' (Tagged Payload) Unit)
      (call outside : Code σ Event Payload Unit) id fun _ => [] := by
  intro world frame available accounts
  have changed := disposes _ frame available accounts
  unfold call Tracking.outside
  obtain ⟨outcome, plain⟩ := outside (tracking.world world)
  cases outcome with
  | none =>
      refine ⟨_, _, _, [], rfl, ?_, .returned ?_⟩
      · simp [tracking.world_join]
      · simpa [tracking.ledger_join] using changed
  | some payload =>
      refine ⟨_, _, _, [], rfl, ?_, .unwound rfl ?_⟩
      · simp [tracking.world_join]
      · simpa [tracking.ledger_join] using changed.create tracking.panic

/-- A call from outside that has nothing to do with the ledger. -/
theorem tracks_plain {outside : Outside σ Payload} :
    Tracks tracking untag false borrowed []
      (call (tracking.outside id outside) :
        Code τ Event' (Tagged Payload) Unit)
      (call outside : Code σ Event Payload Unit) id fun _ => [] :=
  tracks_call fun _ _ _ accounts => accounts

/-- Destructors that have nothing to do with the ledger. -/
theorem tracks_dropPlain
    {ι : Type} (outside : ι → Outside σ Payload) (items : List ι) :
    Tracks tracking untag false borrowed []
      (Code.dropAll
        (fun item => call (tracking.outside id (outside item))) items :
        Code τ Event' (Tagged Payload) Unit)
      (Code.dropAll (fun item => call (outside item)) items :
        Code σ Event Payload Unit) id fun _ => [] := by
  apply (Tracks.dropAll (fun _ => tracks_plain) items).reorder
  · simp
  · exact fun _ => List.Perm.refl _

theorem tracks_use
    [DecidableEq Kind] {token : Token Kind} {outside : Outside σ Payload}
    (lent : token ∈ borrowed) :
    Tracks tracking untag false borrowed []
      (call (tracking.outside (fun ledger => ledger.use token) outside) :
        Code τ Event' (Tagged Payload) Unit)
      (call outside : Code σ Event Payload Unit) id fun _ => [] :=
  tracks_call fun _ _ available accounts => accounts.use (available lent)

theorem tracks_destroy
    (token : Token Kind) {outside : Outside σ Payload} :
    Tracks tracking untag false borrowed [token]
      (call (tracking.outside (fun ledger => ledger.destroy token.tag)
        outside) : Code τ Event' (Tagged Payload) Unit)
      (call outside : Code σ Event Payload Unit) id fun _ => [] :=
  tracks_call fun _ _ _ accounts => accounts.destroy

/-- A call from outside that gives a value, inside an unwind boundary. -/
theorem tracks_attempt
    {outside' : τ → Except (Tagged Payload) α' × τ}
    {outside : σ → Except Payload α × σ}
    {left : Except (Tagged Payload) α' → List (Token Kind)}
    (plain : ∀ world, outside (tracking.world world) =
      (eraseOutcome erase (outside' world).1,
        tracking.world (outside' world).2))
    (accounted : ∀ world frame, borrowed ⊆ frame →
      (tracking.ledger world).Accounts (owned ++ frame) →
        (tracking.ledger (outside' world).2).Accounts
          (left (outside' world).1 ++ frame)) :
    Tracks tracking untag quiet borrowed owned
      (Code.catchUnwind (callFor outside' :
        Code τ Event' (Tagged Payload) α'))
      (Code.catchUnwind (callFor outside : Code σ Event Payload α))
      (eraseOutcome erase) left := by
  intro world frame available accounts
  have same := plain world
  have later := accounted world frame available accounts
  unfold Code.catchUnwind callFor
  rw [same]
  generalize outside' world = result at later
  obtain ⟨outcome, last⟩ := result
  cases outcome with
  | ok value => exact ⟨_, _, last, [], rfl, rfl, .returned later⟩
  | error payload => exact ⟨_, _, last, [], rfl, rfl, .returned later⟩

/-- Code that starts with an empty ledger and gives nothing back. -/
theorem Tracks.disposes
    (tracks : Tracks tracking untag false [] [] code' code erase fun _ => [])
    {world : τ} (empty : tracking.ledger world = Ledger.empty) :
    Disposes tracking untag erase (code' world)
      (code (tracking.world world)) := by
  have accounts : (tracking.ledger world).Accounts ([] ++ []) := by
    rw [empty]
    exact Ledger.accounts_empty
  obtain ⟨_, _, last, events, ran', ran, ends⟩ :=
    tracks world [] (List.nil_subset _) accounts
  rw [ran', ran]
  cases ends with
  | returned accounts =>
      refine ⟨rfl, rfl, accounts.sound, ?_, ?_, ?_⟩
      · rintro _ ⟨⟩
        exact ⟨rfl, accounts.live.eq_nil⟩
      · rintro _ ⟨⟩
      · rintro ⟨⟩
  | unwound _ accounts =>
      refine ⟨rfl, rfl, accounts.sound, ?_, ?_, ?_⟩
      · rintro _ ⟨⟩
      · rintro _ ⟨⟩
        exact ⟨rfl, List.perm_singleton.mp accounts.live⟩
      · rintro ⟨⟩
  | aborted sound =>
      refine ⟨rfl, rfl, sound, ?_, ?_, fun _ => rfl⟩
      · rintro _ ⟨⟩
      · rintro _ ⟨⟩

end Code

section Futures

variable {S' S : Type} {eraseState : S' → S}
variable {tokens : S' → List (Token Kind)}

/-- What a future owns after a poll. -/
def pendingTokens (tokens : S' → List (Token Kind)) :
    Option S' → List (Token Kind)
  | none => []
  | some state => tokens state

theorem Code.Tracks.holding
    {cleanup' : Code τ Event' (Tagged Payload) Unit}
    {cleanup : Code σ Event Payload Unit}
    {body' : Code τ Event' (Tagged Payload) (Option S')}
    {body : Code σ Event Payload (Option S)}
    (tracks : Tracks tracking untag false borrowed owned body' body
      (Option.map eraseState) (pendingTokens tokens))
    (cleans : Tracks tracking untag false borrowed [] cleanup' cleanup id
      fun _ => []) :
    Tracks tracking untag false borrowed owned (holding cleanup' body')
      (holding cleanup body) (Option.map eraseState)
      (pendingTokens tokens) := by
  have guarded := tracks.onUnwind cleans (List.Subset.refl _)
  simp only [List.append_nil] at guarded
  apply guarded.bind
  intro state
  cases state with
  | none =>
      apply cleans.bind
      intro _
      exact tracks_pure rfl (List.Perm.refl _)
  | some state => exact tracks_pure rfl (List.Perm.refl _)

/-- A future that keeps track of its values in every poll and in its drop
does so over its whole life. -/
theorem Code.Tracks.lifetime
    {poll' : S' → Code τ Event' (Tagged Payload) (Option S')}
    {poll : S → Code σ Event Payload (Option S)}
    {drop' : S' → Code τ Event' (Tagged Payload) Unit}
    {drop : S → Code σ Event Payload Unit}
    (polled : ∀ state, Tracks tracking untag false borrowed (tokens state)
      (poll' state) (poll (eraseState state)) (Option.map eraseState)
      (pendingTokens tokens))
    (dropped : ∀ state, Tracks tracking untag false borrowed (tokens state)
      (drop' state) (drop (eraseState state)) id fun _ => [])
    (between : Nat → σ → σ) (polls : Nat) (state : S') :
    Tracks tracking untag false borrowed (tokens state)
      (lifetime poll' drop' (fun left => tracking.change (between left))
        polls state)
      (lifetime poll drop between polls (eraseState state)) id
      fun _ => [] := by
  induction polls generalizing state with
  | zero =>
      apply (tracks_change _).bind
      intro _
      exact dropped state
  | succ polls inductionHypothesis =>
      apply (tracks_change _).bind
      intro _
      apply (polled state).bind
      intro next
      cases next with
      | none => exact tracks_pure rfl (List.Perm.refl _)
      | some next => exact inductionHypothesis next

end Futures

end Rules

end RegistryIo.Unwinding
