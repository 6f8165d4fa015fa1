import RegistryIo.Snapshot.StoreInvariant

/-!
# Moving values between the places of a cell

`install`, `retire`, `collect` and the drop of a cell move the cell's own
references and change no count.
-/

namespace RegistryIo.Snapshot

namespace StoreInv

variable {store : Store} {cell : CellId} {address : Addr}
variable {inner : ArcInner} {call : CallId}

section Move

variable {place : Addr → Place → Place} {snap : SnapCell}

private theorem tracked_move_of_ne
    {other : CellId}
    (others : ∀ address inner, store.heap address = some inner →
      inner.cell ≠ cell → place address inner.place = inner.place)
    (different : other ≠ cell) (address : Addr) :
    (store.move place).tracked other address =
      store.tracked other address := by
  cases found : store.heap address with
  | none => simp [Store.tracked, Store.move, found]
  | some inner =>
      by_cases same : inner.cell = other
      · have apart : inner.cell ≠ cell := by
          rw [same]
          exact different
        simp [Store.tracked, Store.move, found, ArcInner.trackedFor,
          others address inner found apart]
      · simp [Store.tracked, Store.move, found, ArcInner.trackedFor, same]

/-- References of one cell move between its places. -/
private theorem moveCell
    (holds : StoreInv store)
    (dropped : ∀ address inner, store.heap address = some inner →
      (place address inner.place = .dropped ↔ inner.place = .dropped))
    (others : ∀ address inner, store.heap address = some inner →
      inner.cell ≠ cell → place address inner.place = inner.place)
    (ok : CellOk ((store.move place).tracked cell)
      (store.values snap.version) snap)
    (fallback : snap.fallbackActive = (store.cells cell).fallbackActive) :
    StoreInv ((store.move place).setCell cell snap) where
  arcs := by
    intro address inner found
    obtain ⟨old, oldFound, rfl⟩ := Option.map_eq_some_iff.mp found
    have arc := holds.arcs address old oldFound
    refine ⟨arc.version_lt, arc.value_eq, arc.strong_eq, arc.owned,
      arc.owners_nodup, ?_, ?_, arc.user_lt⟩
    · rw [arc.cell_iff, not_iff_not]
      exact (dropped address old oldFound).symm
    · intro call member
      have active := arc.fallback_active call member
      by_cases same : old.cell = cell
      · subst same
        simpa [Store.setCell, fallback] using active
      · simpa [Store.setCell, Store.move, same] using active
  version_inj := by
    intro first second inner other firstFound secondFound same
    obtain ⟨oldFirst, firstOld, rfl⟩ := Option.map_eq_some_iff.mp firstFound
    obtain ⟨oldSecond, secondOld, rfl⟩ :=
      Option.map_eq_some_iff.mp secondFound
    exact holds.version_inj first second oldFirst oldSecond
      firstOld secondOld same
  cells := by
    intro other
    by_cases same : other = cell
    · subst same
      have updated :
          ((store.move place).setCell other snap).cells other = snap := by
        simp [Store.setCell]
      rw [updated]
      exact ok
    · have kept :
          ((store.move place).setCell cell snap).cells other =
            store.cells other := by
        simp [Store.setCell, Store.move, same]
      have tracked :
          ((store.move place).setCell cell snap).tracked other =
            store.tracked other :=
        funext (tracked_move_of_ne others same)
      rw [kept, tracked]
      exact holds.cells other
  handles_owned := by
    intro handle address member
    obtain ⟨inner, found, owned⟩ := holds.handles_owned handle address member
    exact ⟨_, Option.map_eq_some_iff.mpr ⟨inner, found, rfl⟩, owned⟩
  handles_nodup := holds.handles_nodup
  handles_lt := holds.handles_lt

private theorem tracked_move_eq_some_iff {target : Place} {version : Nat} :
    (store.move place).tracked cell address = some (target, version) ↔
      target.isTracked ∧
        ∃ inner, store.heap address = some inner ∧ inner.cell = cell ∧
          place address inner.place = target ∧ inner.version = version := by
  rw [Store.tracked_eq_some_iff]
  constructor
  · rintro ⟨isTracked, inner, found, sameCell, samePlace, sameVersion⟩
    obtain ⟨old, oldFound, rfl⟩ := Option.map_eq_some_iff.mp found
    exact ⟨isTracked, old, oldFound, sameCell, samePlace, sameVersion⟩
  · rintro ⟨isTracked, inner, found, sameCell, samePlace, sameVersion⟩
    exact ⟨isTracked, _, Option.map_eq_some_iff.mpr ⟨inner, found, rfl⟩,
      sameCell, samePlace, sameVersion⟩

/-- An address that the move leaves alone. -/
private theorem tracked_move_of_eq
    (kept : ∀ inner, store.heap address = some inner →
      place address inner.place = inner.place) :
    (store.move place).tracked cell address =
      store.tracked cell address := by
  cases found : store.heap address with
  | none => simp [Store.tracked, Store.move, found]
  | some inner =>
      simp [Store.tracked, Store.move, found, ArcInner.trackedFor,
        kept inner found]

section Install

variable {new : Addr} {effect : Effect}

private theorem tracked_relink_new
    (found : store.heap new = some inner) (sameCell : inner.cell = cell) :
    (store.relink cell new call).tracked cell new =
      some (.current, inner.version) :=
  tracked_move_eq_some_iff.mpr
    ⟨rfl, inner, found, sameCell, by simp, rfl⟩

private theorem tracked_relink_of_ne
    (notNew : address ≠ new)
    (notCurrent : address ≠ (store.cells cell).current) :
    (store.relink cell new call).tracked cell address =
      store.tracked cell address := by
  refine tracked_move_of_eq ?_
  intro other _
  simp [notNew, notCurrent]

/-- The exchange keeps every value that was installed in a cell. -/
theorem tracked_relink_linked
    {target : CellId} {place : Place} {version : Nat}
    (found : store.heap new = some inner) (fresh : inner.place = .fresh call)
    (known : store.tracked target address = some (place, version))
    (notFresh : ∀ other, place ≠ .fresh other) :
    ∃ place', (store.relink cell new call).tracked target address =
        some (place', version) ∧ ∀ other, place' ≠ .fresh other := by
  obtain ⟨isTracked, other, otherFound, otherCell, rfl, otherVersion⟩ :=
    Store.tracked_eq_some_iff.mp known
  have notNew : address ≠ new := by
    rintro rfl
    rw [found] at otherFound
    cases otherFound
    exact notFresh call fresh
  by_cases isCurrent : address = (store.cells cell).current
  · exact ⟨.unlinked call, tracked_move_eq_some_iff.mpr
      ⟨rfl, other, otherFound, otherCell,
        by rw [if_neg notNew, if_pos isCurrent], otherVersion⟩, by simp⟩
  · exact ⟨other.place, tracked_move_eq_some_iff.mpr
      ⟨isTracked, other, otherFound, otherCell,
        by rw [if_neg notNew, if_neg isCurrent], otherVersion⟩, notFresh⟩

variable (holds : StoreInv store) (found : store.heap new = some inner)
variable (fresh : inner.place = .fresh call)
variable (locked : (store.cells cell).writer = some call)

include holds locked in
theorem alive_of_writer : (store.cells cell).phase = .alive :=
  (holds.cells cell).active_alive call
    ((holds.cells cell).writer_active call locked)

include holds found fresh locked

private theorem ne_current_of_fresh : new ≠ (store.cells cell).current := by
  intro same
  obtain ⟨current, currentFound, _, currentPlace, _⟩ :=
    holds.current_inner (holds.alive_of_writer locked)
  rw [same, currentFound] at found
  cases found
  rw [currentPlace] at fresh
  cases fresh

theorem tracked_relink_current :
    (store.relink cell new call).tracked cell (store.cells cell).current =
      some (.unlinked call, (store.cells cell).version) := by
  have apart := holds.ne_current_of_fresh found fresh locked
  obtain ⟨current, currentFound, currentCell, _, currentVersion⟩ :=
    holds.current_inner (holds.alive_of_writer locked)
  exact tracked_move_eq_some_iff.mpr
    ⟨rfl, current, currentFound, currentCell,
      by simp [Ne.symm apart], currentVersion⟩

variable (sameCell : inner.cell = cell)

include sameCell

/-- Where an address is after the exchange, in terms of where it was. -/
private theorem tracked_relink_cases {place : Place} {version : Nat}
    (known : (store.relink cell new call).tracked cell address =
      some (place, version)) :
    (address = new ∧ place = .current) ∨
      (address = (store.cells cell).current ∧ place = .unlinked call) ∨
      (address ≠ (store.cells cell).current ∧
        store.tracked cell address = some (place, version)) := by
  by_cases isNew : address = new
  · subst isNew
    rw [tracked_relink_new found sameCell] at known
    cases known
    exact Or.inl ⟨rfl, rfl⟩
  · by_cases isCurrent : address = (store.cells cell).current
    · subst isCurrent
      rw [holds.tracked_relink_current found fresh locked] at known
      cases known
      exact Or.inr (Or.inl ⟨rfl, rfl⟩)
    · rw [tracked_relink_of_ne isNew isCurrent] at known
      exact Or.inr (Or.inr ⟨isCurrent, known⟩)

private theorem retired_relink_iff {version : Nat} :
    (store.relink cell new call).tracked cell address =
        some (.retired, version) ↔
      store.tracked cell address = some (.retired, version) := by
  constructor
  · intro known
    rcases holds.tracked_relink_cases found fresh locked sameCell known with
      ⟨_, impossible⟩ | ⟨_, impossible⟩ | ⟨_, old⟩
    · cases impossible
    · cases impossible
    · exact old
  · intro known
    obtain ⟨_, other, otherFound, _, place, _⟩ :=
      Store.tracked_eq_some_iff.mp known
    have notNew : address ≠ new := by
      rintro rfl
      rw [found] at otherFound
      cases otherFound
      rw [fresh] at place
      cases place
    have notCurrent : address ≠ (store.cells cell).current := by
      rintro rfl
      rw [(holds.cells cell).current_alive
        (holds.alive_of_writer locked)] at known
      cases known
    rw [tracked_relink_of_ne notNew notCurrent]
    exact known

variable (removed : ∀ handler ∈ effect.removed,
  (store.cells cell).status handler = .live)
variable (inserted : ∀ handler, effect.inserted = some handler →
  (store.cells cell).status handler = .drawn call)
variable (list : ListOk
  ((store.cells cell).installed new inner.version effect).status inner.value)

include removed inserted list

private theorem installed_cellOk :
    CellOk ((store.relink cell new call).tracked cell)
      (store.values inner.version)
      ((store.cells cell).installed new inner.version effect) := by
  have old := holds.cells cell
  have alive := holds.alive_of_writer locked
  refine { old with
    current_alive := fun _ => tracked_relink_new found sameCell
    current_only := ?_
    retired_iff := ?_
    fresh_writer := ?_
    unlinked_writer := ?_
    list_ok := ?_
    unused := ?_
    unborn := fun unborn => by
      rw [SnapCell.installed, alive] at unborn
      cases unborn
    unborn_version := fun unborn => by
      rw [SnapCell.installed, alive] at unborn
      cases unborn }
  · intro address version known
    refine ⟨alive, ?_⟩
    rcases holds.tracked_relink_cases found fresh locked sameCell known with
      ⟨isNew, _⟩ | ⟨_, impossible⟩ | ⟨notCurrent, known⟩
    · exact isNew.symm
    · cases impossible
    · exact absurd (old.current_only address version known).2.symm notCurrent
  · intro address
    simp only [holds.retired_relink_iff found fresh locked sameCell]
    exact old.retired_iff address
  · intro address other version known
    rcases holds.tracked_relink_cases found fresh locked sameCell known with
      ⟨_, impossible⟩ | ⟨_, impossible⟩ | ⟨_, known⟩
    · cases impossible
    · cases impossible
    · exact old.fresh_writer address other version known
  · intro address other version known
    rcases holds.tracked_relink_cases found fresh locked sameCell known with
      ⟨_, impossible⟩ | ⟨_, same⟩ | ⟨_, known⟩
    · cases impossible
    · cases same
      exact locked
    · exact old.unlinked_writer address other version known
  · intro _
    rw [(holds.arcs new inner found).value_eq]
    exact list
  · intro handler beyond
    have unused := old.unused handler beyond
    have notRemoved : handler ∉ effect.removed := by
      intro member
      rw [removed handler member] at unused
      cases unused
    have notInserted : effect.inserted ≠ some handler := by
      intro same
      rw [inserted handler same] at unused
      cases unused
    simpa [SnapCell.installed, notRemoved, notInserted] using unused

theorem install : StoreInv (store.install cell new effect call) := by
  obtain ⟨current, currentFound, currentCell, currentPlace, _⟩ :=
    holds.current_inner (holds.alive_of_writer locked)
  have ok := holds.installed_cellOk found fresh locked sameCell
    removed inserted list
  unfold Store.install
  rw [found]
  refine holds.moveCell ?_ ?_ ok rfl
  · intro address other otherFound
    by_cases isNew : address = new
    · subst isNew
      rw [found] at otherFound
      cases otherFound
      simp [fresh]
    · by_cases isCurrent : address = (store.cells cell).current
      · subst isCurrent
        rw [currentFound] at otherFound
        cases otherFound
        simp [isNew, currentPlace]
      · simp [isNew, isCurrent]
  · intro address other otherFound different
    have notNew : address ≠ new := by
      rintro rfl
      rw [found] at otherFound
      cases otherFound
      exact different sameCell
    have notCurrent : address ≠ (store.cells cell).current := by
      rintro rfl
      rw [currentFound] at otherFound
      cases otherFound
      exact different currentCell
    simp [notNew, notCurrent]

end Install

section SetPlaces

variable {addresses : List Addr} {target : Place} {version : Nat}

theorem tracked_setPlaces_of_mem
    (member : address ∈ addresses) (isTracked : target.isTracked) :
    (store.setPlaces addresses target).tracked cell address =
        some (target, version) ↔
      ∃ inner, store.heap address = some inner ∧ inner.cell = cell ∧
        inner.version = version := by
  unfold Store.setPlaces
  rw [tracked_move_eq_some_iff]
  simp [member, isTracked]

private theorem tracked_setPlaces_untracked
    (member : address ∈ addresses) (untracked : target.isTracked = false) :
    (store.setPlaces addresses target).tracked cell address = none := by
  cases known : (store.setPlaces addresses target).tracked cell address with
  | none => rfl
  | some value =>
      obtain ⟨place, version⟩ := value
      unfold Store.setPlaces at known
      obtain ⟨isTracked, inner, _, _, moved, _⟩ :=
        tracked_move_eq_some_iff.mp known
      rw [if_pos member] at moved
      rw [← moved, untracked] at isTracked
      cases isTracked

theorem tracked_setPlaces_of_notMem (absent : address ∉ addresses) :
    (store.setPlaces addresses target).tracked cell address =
      store.tracked cell address := by
  refine tracked_move_of_eq ?_
  intro other _
  simp [absent]

/-- A batch of references of one cell moves to one place. -/
theorem setPlaces
    (holds : StoreInv store)
    (members : ∀ address ∈ addresses, ∃ place version,
      store.tracked cell address = some (place, version))
    (alive : target ≠ .dropped)
    (ok : CellOk ((store.setPlaces addresses target).tracked cell)
      (store.values snap.version) snap)
    (fallback : snap.fallbackActive = (store.cells cell).fallbackActive) :
    StoreInv ((store.setPlaces addresses target).setCell cell snap) := by
  refine holds.moveCell ?_ ?_ ok fallback
  · intro address inner found
    by_cases member : address ∈ addresses
    · obtain ⟨place, version, known⟩ := members address member
      obtain ⟨isTracked, other, otherFound, _, samePlace, _⟩ :=
        Store.tracked_eq_some_iff.mp known
      rw [found] at otherFound
      cases otherFound
      rw [if_pos member]
      refine ⟨fun impossible => absurd impossible alive, ?_⟩
      intro isDropped
      rw [← samePlace, isDropped] at isTracked
      cases isTracked
    · rw [if_neg member]
  · intro address inner found different
    have absent : address ∉ addresses := by
      intro member
      obtain ⟨place, version, known⟩ := members address member
      obtain ⟨_, other, otherFound, sameCell, _⟩ :=
        Store.tracked_eq_some_iff.mp known
      rw [found] at otherFound
      cases otherFound
      exact different sameCell
    rw [if_neg absent]

theorem retire
    {raw : Addr} (holds : StoreInv store)
    (locked : (store.cells cell).writer = some call)
    (unlinked : store.tracked cell raw = some (.unlinked call, version)) :
    StoreInv (store.retire cell raw) := by
  have old := holds.cells cell
  have absent : raw ∉ (store.cells cell).retired := by
    intro member
    obtain ⟨_, known⟩ := (old.retired_iff raw).mp member
    rw [unlinked] at known
    cases known
  have kept : ∀ address, address ≠ raw →
      (store.setPlaces [raw] .retired).tracked cell address =
        store.tracked cell address := by
    intro address different
    exact tracked_setPlaces_of_notMem (by simpa using different)
  have moved : (store.setPlaces [raw] .retired).tracked cell raw =
      some (.retired, version) := by
    obtain ⟨_, inner, found, sameCell, _, sameVersion⟩ :=
      Store.tracked_eq_some_iff.mp unlinked
    exact (tracked_setPlaces_of_mem (List.mem_singleton_self raw) rfl).mpr
      ⟨inner, found, sameCell, sameVersion⟩
  have back : ∀ address place version', place ≠ .retired →
      (store.setPlaces [raw] .retired).tracked cell address =
          some (place, version') →
        store.tracked cell address = some (place, version') := by
    intro address place version' different known
    by_cases same : address = raw
    · rw [same, moved] at known
      cases known
      exact absurd rfl different
    · rw [← kept address same]
      exact known
  refine holds.setPlaces ?_ (by simp) ?_ rfl
  · intro address member
    rw [List.mem_singleton.mp member]
    exact ⟨_, _, unlinked⟩
  · refine { old with
      current_alive := ?_
      current_only := fun address version' known =>
        old.current_only address version' (back address _ _ (by simp) known)
      retired_iff := ?_
      retired_nodup := ?_
      retired_len := fun unlocked => by
        cases locked.symm.trans unlocked
      fresh_writer := fun address other version' known =>
        old.fresh_writer address other version'
          (back address _ _ (by simp) known)
      unlinked_writer := fun address other version' known =>
        old.unlinked_writer address other version'
          (back address _ _ (by simp) known) }
    · intro alive
      rw [kept]
      · exact old.current_alive alive
      · intro same
        have current := old.current_alive alive
        rw [same, unlinked] at current
        cases current
    · intro address
      by_cases same : address = raw
      · subst same
        simp [moved]
      · rw [kept address same]
        simpa [same] using old.retired_iff address
    · exact List.nodup_append.mpr ⟨old.retired_nodup, by simp, by
        intro first member second same
        rw [List.mem_singleton.mp same]
        rintro rfl
        exact absent member⟩

theorem tracked_of_mem_retired
    (holds : StoreInv store)
    (member : address ∈ (store.cells cell).retired) :
    ∃ version, store.tracked cell address = some (.retired, version) :=
  ((holds.cells cell).retired_iff address).mp member

theorem collect
    {announced : List Addr} (holds : StoreInv store)
    (locked : (store.cells cell).writer = some call) :
    StoreInv (store.collect cell announced call) := by
  have old := holds.cells cell
  have back : ∀ address place version,
      (store.setPlaces (Store.collectUnprotected announced
          (store.cells cell).retired).2 (.freed call)).tracked cell address =
          some (place, version) →
        store.tracked cell address = some (place, version) ∧
          address ∉ (Store.collectUnprotected announced
            (store.cells cell).retired).2 := by
    intro address place version known
    by_cases member : address ∈ (Store.collectUnprotected announced
        (store.cells cell).retired).2
    · rw [tracked_setPlaces_untracked member rfl] at known
      cases known
    · rw [tracked_setPlaces_of_notMem member] at known
      exact ⟨known, member⟩
  refine holds.setPlaces ?_ (by simp) ?_ rfl
  · intro address member
    obtain ⟨version, known⟩ := holds.tracked_of_mem_retired
      (Store.mem_collectUnprotected_freed.mp member).1
    exact ⟨_, version, known⟩
  · refine { old with
      current_alive := ?_
      current_only := fun address version known =>
        old.current_only address version (back address _ _ known).1
      retired_iff := ?_
      retired_nodup :=
        (Store.collectUnprotected_nodup old.retired_nodup).1
      retired_len := fun unlocked => by
        cases locked.symm.trans unlocked
      fresh_writer := fun address other version known =>
        old.fresh_writer address other version (back address _ _ known).1
      unlinked_writer := fun address other version known =>
        old.unlinked_writer address other version
          (back address _ _ known).1 }
    · intro alive
      rw [tracked_setPlaces_of_notMem]
      · exact old.current_alive alive
      · intro member
        obtain ⟨version, known⟩ := holds.tracked_of_mem_retired
          (Store.mem_collectUnprotected_freed.mp member).1
        rw [old.current_alive alive] at known
        cases known
    · intro address
      rw [Store.mem_collectUnprotected_kept]
      constructor
      · rintro ⟨member, isAnnounced⟩
        obtain ⟨version, known⟩ := holds.tracked_of_mem_retired member
        refine ⟨version, ?_⟩
        rw [tracked_setPlaces_of_notMem]
        · exact known
        · intro freed
          exact (Store.mem_collectUnprotected_freed.mp freed).2 isAnnounced
      · rintro ⟨version, known⟩
        obtain ⟨oldKnown, notFreed⟩ := back address _ _ known
        have member := (old.retired_iff address).mpr ⟨version, oldKnown⟩
        refine ⟨member, ?_⟩
        by_contra unannounced
        exact notFreed (Store.mem_collectUnprotected_freed.mpr
          ⟨member, unannounced⟩)

theorem dropCell
    (holds : StoreInv store)
    (alive : (store.cells cell).phase = .alive)
    (unused : (store.cells cell).active = []) :
    StoreInv (store.dropCell cell call) := by
  have old := holds.cells cell
  have unlocked : ∀ other, (store.cells cell).writer ≠ some other := by
    intro other locked
    have active := old.writer_active other locked
    rw [unused] at active
    cases active
  have back : ∀ address place version,
      (store.setPlaces ((store.cells cell).current ::
          (store.cells cell).retired) (.freed call)).tracked cell address =
          some (place, version) →
        store.tracked cell address = some (place, version) ∧
          address ≠ (store.cells cell).current ∧
          address ∉ (store.cells cell).retired := by
    intro address place version known
    by_cases member : address ∈
        (store.cells cell).current :: (store.cells cell).retired
    · rw [tracked_setPlaces_untracked member rfl] at known
      cases known
    · rw [tracked_setPlaces_of_notMem member] at known
      exact ⟨known, by simpa using member⟩
  refine holds.setPlaces ?_ (by simp) ?_ rfl
  · intro address member
    rcases List.mem_cons.mp member with same | retired
    · rw [same]
      exact ⟨_, _, old.current_alive alive⟩
    · obtain ⟨version, known⟩ := holds.tracked_of_mem_retired retired
      exact ⟨_, version, known⟩
  · refine { old with
      current_alive := fun impossible => by cases impossible
      current_only := ?_
      retired_iff := ?_
      retired_nodup := List.nodup_nil
      retired_len := fun _ => rfl
      fresh_writer := fun address other version known =>
        absurd (old.fresh_writer address other version
          (back address _ _ known).1) (unlocked other)
      unlinked_writer := fun address other version known =>
        absurd (old.unlinked_writer address other version
          (back address _ _ known).1) (unlocked other)
      active_alive := ?_
      list_ok := fun impossible => by cases impossible
      unborn := fun impossible => by cases impossible
      unborn_version := fun impossible => by cases impossible }
    · intro address version known
      obtain ⟨oldKnown, notCurrent, _⟩ := back address _ _ known
      exact absurd (old.current_only address version oldKnown).2.symm
        notCurrent
    · intro address
      constructor
      · intro impossible
        cases impossible
      · rintro ⟨version, known⟩
        obtain ⟨oldKnown, _, notRetired⟩ := back address _ _ known
        exact absurd ((old.retired_iff address).mpr ⟨version, oldKnown⟩)
          notRetired
    · intro other active
      rw [show (store.cells cell).active = [] from unused] at active
      cases active

end SetPlaces

end Move

end StoreInv

end RegistryIo.Snapshot
