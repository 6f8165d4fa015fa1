import RegistryIo.Snapshot.StoreMoves

/-!
# Reference counts and allocation

Taking and dropping references, handing a loaded value to the caller, and new
allocations.
-/

namespace RegistryIo.Snapshot

namespace StoreInv

variable {store : Store} {cell : CellId} {address : Addr}
variable {inner : ArcInner} {call : CallId}

section Owners

variable {owner : Owner}

theorem tracked_setArc
    {new : ArcInner} (found : store.heap address = some inner)
    (tracked : ∀ cell, new.trackedFor cell = inner.trackedFor cell)
    (cell : CellId) :
    (store.setArc address new).tracked cell = store.tracked cell := by
  funext other
  by_cases equal : other = address
  · subst equal
    simp [Store.tracked, Store.setArc, found, tracked cell]
  · simp [Store.tracked, Store.setArc, equal]

private theorem tracked_free
    (found : store.heap address = some inner)
    (untracked : inner.place.isTracked = false) (cell : CellId) :
    Store.tracked
        { store with heap := Function.update store.heap address none }
        cell =
      store.tracked cell := by
  funext other
  by_cases equal : other = address
  · subst equal
    simp [Store.tracked, found, ArcInner.trackedFor_of_untracked untracked]
  · simp [Store.tracked, equal]

/-- A change of one allocation that its cell does not see. -/
theorem setArc
    {new : ArcInner} (holds : StoreInv store)
    (found : store.heap address = some inner)
    (version : new.version = inner.version)
    (tracked : ∀ cell, new.trackedFor cell = inner.trackedFor cell)
    (ok : ArcOk store new)
    (users : ∀ handle, (handle, address) ∈ store.handles →
      .user handle ∈ inner.owners → .user handle ∈ new.owners) :
    StoreInv (store.setArc address new) where
  arcs := by
    intro other otherInner otherFound
    by_cases same : other = address
    · subst same
      simp only [Store.setArc, Function.update_self,
        Option.some.injEq] at otherFound
      subst otherFound
      exact { ok with }
    · simp only [Store.setArc, Function.update_of_ne same] at otherFound
      exact { holds.arcs other otherInner otherFound with }
  version_inj := by
    have old :
        ∀ other otherInner,
          (store.setArc address new).heap other = some otherInner →
            ∃ oldInner, store.heap other = some oldInner ∧
              oldInner.version = otherInner.version := by
      intro other otherInner otherFound
      by_cases same : other = address
      · subst same
        simp only [Store.setArc, Function.update_self,
          Option.some.injEq] at otherFound
        subst otherFound
        exact ⟨inner, found, version.symm⟩
      · simp only [Store.setArc, Function.update_of_ne same] at otherFound
        exact ⟨otherInner, otherFound, rfl⟩
    intro first second firstInner secondInner firstFound secondFound same
    obtain ⟨oldFirst, firstOld, firstVersion⟩ :=
      old first firstInner firstFound
    obtain ⟨oldSecond, secondOld, secondVersion⟩ :=
      old second secondInner secondFound
    refine holds.version_inj first second oldFirst oldSecond
      firstOld secondOld ?_
    rw [firstVersion, secondVersion, same]
  cells := by
    intro cell
    rw [tracked_setArc found tracked]
    exact holds.cells cell
  handles_owned := by
    intro handle other member
    obtain ⟨oldInner, oldFound, owned⟩ :=
      holds.handles_owned handle other member
    by_cases same : other = address
    · subst same
      rw [found] at oldFound
      cases oldFound
      exact ⟨new, by simp [Store.setArc], users handle member owned⟩
    · exact ⟨oldInner, by simpa [Store.setArc, same] using oldFound, owned⟩
  handles_nodup := holds.handles_nodup
  handles_lt := holds.handles_lt

/-- An allocation that no cell sees and no handle names is freed. -/
theorem free
    (holds : StoreInv store) (found : store.heap address = some inner)
    (untracked : inner.place.isTracked = false)
    (users : ∀ handle, (handle, address) ∉ store.handles) :
    StoreInv
      { store with heap := Function.update store.heap address none } where
  arcs := by
    intro other otherInner otherFound
    by_cases same : other = address
    · subst same
      simp at otherFound
    · simp only [Function.update_of_ne same] at otherFound
      exact { holds.arcs other otherInner otherFound with }
  version_inj := by
    have old :
        ∀ other otherInner,
          Function.update store.heap address none other = some otherInner →
            store.heap other = some otherInner := by
      intro other otherInner otherFound
      by_cases same : other = address
      · subst same
        simp at otherFound
      · simpa only [Function.update_of_ne same] using otherFound
    intro first second firstInner secondInner firstFound secondFound same
    exact holds.version_inj first second firstInner secondInner
      (old first firstInner firstFound)
      (old second secondInner secondFound) same
  cells := by
    intro cell
    rw [tracked_free found untracked]
    exact holds.cells cell
  handles_owned := by
    intro handle other member
    obtain ⟨oldInner, oldFound, owned⟩ :=
      holds.handles_owned handle other member
    have different : other ≠ address := by
      rintro rfl
      exact users handle member
    exact ⟨oldInner, by simpa [different] using oldFound, owned⟩
  handles_nodup := holds.handles_nodup
  handles_lt := holds.handles_lt

theorem addOwner
    (holds : StoreInv store) (found : store.heap address = some inner)
    (fresh : owner ∉ inner.owners) (notCell : owner ≠ .cell)
    (fallback : ∀ call, owner = .fallback call →
      call ∈ (store.cells inner.cell).fallbackActive)
    (user : ∀ handle, owner = .user handle → handle < store.nextHandle) :
    StoreInv (store.addOwner address owner) := by
  have arc := holds.arcs address inner found
  simp only [Store.addOwner, found]
  refine holds.setArc found rfl (fun _ => rfl) ?_
    (fun _ _ member => List.mem_cons_of_mem owner member)
  refine { arc with
    strong_eq := by simp [arc.strong_eq]
    owned := by simp
    owners_nodup := List.nodup_cons.mpr ⟨fresh, arc.owners_nodup⟩
    cell_iff := by
      rw [List.mem_cons]
      simp only [Ne.symm notCell, false_or]
      exact arc.cell_iff
    fallback_active := ?_
    user_lt := ?_ }
  · intro call member
    rcases List.mem_cons.mp member with same | old
    · exact fallback call same.symm
    · exact arc.fallback_active call old
  · intro handle member
    rcases List.mem_cons.mp member with same | old
    · exact user handle same.symm
    · exact arc.user_lt handle old

/-- The last owner of an allocation is its only owner. -/
theorem owners_eq_singleton
    (holds : StoreInv store) (found : store.heap address = some inner)
    (member : owner ∈ inner.owners) (last : inner.strong = 1) :
    inner.owners = [owner] := by
  have length := (holds.arcs address inner found).strong_eq
  rw [last] at length
  obtain ⟨only, shape⟩ := List.length_eq_one_iff.mp length.symm
  rw [shape] at member
  rw [shape, List.mem_singleton.mp member]

/-- An owner other than the cell is last only after the cell's reference was
dropped. -/
private theorem untracked_of_last
    (holds : StoreInv store) (found : store.heap address = some inner)
    (member : owner ∈ inner.owners)
    (cellOwner : owner = .cell → inner.place.isTracked = false)
    (last : inner.strong = 1) :
    inner.place.isTracked = false := by
  have only := holds.owners_eq_singleton found member last
  by_cases isCell : owner = .cell
  · exact cellOwner isCell
  · have absent : .cell ∉ inner.owners := by
      rw [only]
      simpa using Ne.symm isCell
    rw [(holds.arcs address inner found).cell_iff, not_not] at absent
    rw [absent]
    rfl

private theorem trackedFor_dropped
    (cellOwner : owner = .cell → inner.place.isTracked = false)
    (cell : CellId) :
    ArcInner.trackedFor
        { inner with
          strong := inner.strong - 1
          owners := inner.owners.erase owner
          place := if owner = .cell then .dropped else inner.place } cell =
      inner.trackedFor cell := by
  by_cases isCell : owner = .cell
  · rw [ArcInner.trackedFor_of_untracked (cellOwner isCell),
      ArcInner.trackedFor_of_untracked]
    simp [isCell, Place.isTracked]
  · simp [ArcInner.trackedFor, isCell]

theorem dropOwner
    (holds : StoreInv store) (found : store.heap address = some inner)
    (member : owner ∈ inner.owners)
    (cellOwner : owner = .cell → inner.place.isTracked = false)
    (users : ∀ handle, (handle, address) ∈ store.handles →
      owner ≠ .user handle) :
    StoreInv (store.dropOwner address owner) := by
  have arc := holds.arcs address inner found
  simp only [Store.dropOwner, found]
  split
  · rename_i last
    have only := holds.owners_eq_singleton found member last
    refine holds.free found
      (holds.untracked_of_last found member cellOwner last) ?_
    intro handle inside
    obtain ⟨other, otherFound, owned⟩ :=
      holds.handles_owned handle address inside
    rw [found] at otherFound
    cases otherFound
    rw [only, List.mem_singleton] at owned
    exact users handle inside owned.symm
  · rename_i shared
    have length := List.length_erase_of_mem member
    have positive := List.length_pos_of_mem member
    refine holds.setArc found rfl (trackedFor_dropped cellOwner) ?_ ?_
    · refine { arc with
        strong_eq := by simp [length, arc.strong_eq]
        owned := ?_
        owners_nodup := arc.owners_nodup.erase owner
        cell_iff := ?_
        fallback_active := fun call inside =>
          arc.fallback_active call (List.mem_of_mem_erase inside)
        user_lt := fun handle inside =>
          arc.user_lt handle (List.mem_of_mem_erase inside) }
      · intro empty
        have zero := congrArg List.length empty
        simp only [length, List.length_nil] at zero
        have strong := arc.strong_eq
        omega
      · by_cases isCell : owner = .cell
        · subst isCell
          simp [arc.owners_nodup.mem_erase_iff]
        · rw [List.mem_erase_of_ne (Ne.symm isCell)]
          simpa [isCell] using arc.cell_iff
    · intro handle inside owned
      exact (List.mem_erase_of_ne
        (Ne.symm (users handle inside))).mpr owned

/-- No cell sees a reference go that is not its own. -/
theorem tracked_dropOwner
    (holds : StoreInv store) (found : store.heap address = some inner)
    (member : owner ∈ inner.owners)
    (cellOwner : owner = .cell → inner.place.isTracked = false)
    (cell : CellId) :
    (store.dropOwner address owner).tracked cell = store.tracked cell := by
  simp only [Store.dropOwner, found]
  split
  · rename_i last
    exact tracked_free found
      (holds.untracked_of_last found member cellOwner last) cell
  · exact tracked_setArc found (trackedFor_dropped cellOwner) cell

theorem dropHandle
    {handle : Nat} (holds : StoreInv store)
    (member : (handle, address) ∈ store.handles) :
    StoreInv (store.dropHandle handle address) := by
  obtain ⟨inner, found, owned⟩ := holds.handles_owned handle address member
  have nodup : store.handles.Nodup := List.Nodup.of_map _ holds.handles_nodup
  have unique : ∀ other target, (other, target) ∈
      store.handles.erase (handle, address) → other ≠ handle := by
    intro other target inside
    rintro rfl
    have old := List.mem_of_mem_erase inside
    have same : target = address := by
      have inj := List.inj_on_of_nodup_map holds.handles_nodup old member rfl
      exact congrArg Prod.snd inj
    subst same
    exact (nodup.mem_erase_iff.mp inside).1 rfl
  have shape :
      store.dropHandle handle address =
        Store.dropOwner
          { store with handles := store.handles.erase (handle, address) }
          address (.user handle) := by
    simp only [Store.dropHandle, Store.dropOwner, found]
    split
    · rfl
    · rfl
  have smaller : StoreInv
      { store with handles := store.handles.erase (handle, address) } := by
    refine ⟨fun other otherInner otherFound =>
        { holds.arcs other otherInner otherFound with },
      holds.version_inj, holds.cells, ?_, ?_, ?_⟩
    · intro other target inside
      exact holds.handles_owned other target (List.mem_of_mem_erase inside)
    · exact (List.Sublist.map Prod.fst
        List.erase_sublist).nodup holds.handles_nodup
    · intro other target inside
      exact holds.handles_lt other target (List.mem_of_mem_erase inside)
  rw [shape]
  refine smaller.dropOwner found owned (fun impossible => by cases impossible)
    ?_
  intro other inside same
  cases same
  exact unique handle address inside rfl

theorem giveHandle
    (holds : StoreInv store) (found : store.heap address = some inner)
    (member : .load call ∈ inner.owners) :
    StoreInv (store.giveHandle address call) := by
  have arc := holds.arcs address inner found
  have length := List.length_erase_of_mem member
  have positive := List.length_pos_of_mem member
  have larger : StoreInv
      { store with nextHandle := store.nextHandle + 1 } := by
    refine ⟨fun other otherInner otherFound =>
        { holds.arcs other otherInner otherFound with
          user_lt := fun handle owned => Nat.lt_succ_of_lt
            ((holds.arcs other otherInner otherFound).user_lt handle owned) },
      holds.version_inj, holds.cells, holds.handles_owned,
      holds.handles_nodup, ?_⟩
    intro handle target inside
    exact Nat.lt_succ_of_lt (holds.handles_lt handle target inside)
  have moved : StoreInv
      (Store.setArc { store with nextHandle := store.nextHandle + 1 } address
        { inner with
          owners := .user store.nextHandle ::
            inner.owners.erase (.load call) }) := by
    have fresh : .user store.nextHandle ∉ inner.owners := by
      intro old
      exact Nat.lt_irrefl _ (arc.user_lt _ old)
    refine larger.setArc found rfl (fun _ => rfl) ?_ ?_
    · refine { arc with
        strong_eq := ?_
        owned := by simp
        owners_nodup := List.nodup_cons.mpr
          ⟨fun old => fresh (List.mem_of_mem_erase old),
            arc.owners_nodup.erase _⟩
        cell_iff := ?_
        fallback_active := ?_
        user_lt := ?_ }
      · simp only [List.length_cons, length]
        have strong := arc.strong_eq
        omega
      · rw [List.mem_cons, List.mem_erase_of_ne (by simp)]
        simpa using arc.cell_iff
      · intro other owned
        rcases List.mem_cons.mp owned with impossible | old
        · cases impossible
        · exact arc.fallback_active other (List.mem_of_mem_erase old)
      · intro handle owned
        rcases List.mem_cons.mp owned with same | old
        · cases same
          exact Nat.lt_succ_self _
        · exact Nat.lt_succ_of_lt
            (arc.user_lt handle (List.mem_of_mem_erase old))
    · intro handle _ owned
      refine List.mem_cons_of_mem _ ?_
      exact (List.mem_erase_of_ne (by simp)).mpr owned
  simp only [Store.giveHandle, found]
  refine ⟨fun other otherInner otherFound =>
      { moved.arcs other otherInner otherFound with },
    moved.version_inj, moved.cells, ?_, ?_, ?_⟩
  · intro handle target inside
    rcases List.mem_cons.mp inside with same | old
    · cases same
      exact ⟨_, Function.update_self _ _ _, List.Mem.head _⟩
    · exact moved.handles_owned handle target old
  · refine List.nodup_cons.mpr ⟨?_, holds.handles_nodup⟩
    intro inside
    obtain ⟨⟨handle, target⟩, old, same⟩ := List.mem_map.mp inside
    have smaller := holds.handles_lt handle target old
    have equal : handle = store.nextHandle := same
    omega
  · intro handle target inside
    rcases List.mem_cons.mp inside with same | old
    · cases same
      exact Nat.lt_succ_self _
    · exact moved.handles_lt handle target old

end Owners

section Allocate

variable {value : List Entry} {place : Place} {snap : SnapCell}

theorem tracked_allocArc (other : CellId) (target : Addr) :
    (store.allocArc address cell value place).tracked other target =
      if target = address then
        if cell = other ∧ place.isTracked then
          some (place, store.versions)
        else none
      else store.tracked other target := by
  by_cases same : target = address
  · subst same
    simp [Store.tracked, Store.allocArc, ArcInner.trackedFor]
  · simp [Store.tracked, Store.allocArc, same]

theorem version_lt_versions
    (holds : StoreInv store) (alive : (store.cells cell).phase = .alive) :
    (store.cells cell).version < store.versions := by
  obtain ⟨inner, found, _, _, version⟩ := holds.current_inner alive
  rw [← version]
  exact (holds.arcs _ inner found).version_lt

private theorem allocCell
    (holds : StoreInv store) (free : store.heap address = none)
    (linked : place ≠ .dropped)
    (ok : CellOk ((store.allocArc address cell value place).tracked cell)
      ((store.allocArc address cell value place).values snap.version) snap)
    (fallback : snap.fallbackActive = (store.cells cell).fallbackActive) :
    StoreInv ((store.allocArc address cell value place).setCell cell snap) := by
  have values : ∀ version, version < store.versions →
      (store.allocArc address cell value place).values version =
        store.values version := by
    intro version bound
    exact Function.update_of_ne (Nat.ne_of_lt bound) _ _
  have old : ∀ other inner,
      (store.allocArc address cell value place).heap other = some inner →
        (other = address ∧ inner = ⟨cell, store.versions, value, 1,
          [.cell], place⟩) ∨ store.heap other = some inner := by
    intro other inner found
    by_cases same : other = address
    · subst same
      simp only [Store.allocArc, Function.update_self,
        Option.some.injEq] at found
      exact Or.inl ⟨rfl, found.symm⟩
    · simp only [Store.allocArc, Function.update_of_ne same] at found
      exact Or.inr found
  constructor
  · intro other inner found
    rcases old other inner found with ⟨_, rfl⟩ | found
    · refine ⟨Nat.lt_succ_self _, by simp [Store.allocArc, Store.setCell],
        rfl, by simp, by simp, by simpa using linked, by simp, by simp⟩
    · have arc := holds.arcs other inner found
      refine { arc with
        version_lt := Nat.lt_succ_of_lt arc.version_lt
        value_eq := (values _ arc.version_lt).trans arc.value_eq
        fallback_active := ?_ }
      intro call member
      have active := arc.fallback_active call member
      by_cases same : inner.cell = cell
      · subst same
        simpa [Store.setCell, fallback] using active
      · simpa [Store.setCell, Store.allocArc, same] using active
  · intro first second inner other firstFound secondFound same
    rcases old first inner firstFound with ⟨firstNew, rfl⟩ | firstOld
    · rcases old second other secondFound with ⟨secondNew, rfl⟩ | secondOld
      · rw [firstNew, secondNew]
      · have bound := (holds.arcs second other secondOld).version_lt
        exact absurd same (Nat.ne_of_gt bound)
    · rcases old second other secondFound with ⟨secondNew, rfl⟩ | secondOld
      · have bound := (holds.arcs first inner firstOld).version_lt
        exact absurd same (Nat.ne_of_lt bound)
      · exact holds.version_inj first second inner other
          firstOld secondOld same
  · intro other
    by_cases same : other = cell
    · subst same
      have updated :
          ((store.allocArc address other value place).setCell other
            snap).cells other = snap := by
        simp [Store.setCell]
      rw [updated]
      exact ok
    · have kept :
          ((store.allocArc address cell value place).setCell cell
            snap).cells other = store.cells other := by
        simp [Store.setCell, Store.allocArc, same]
      have tracked :
          ((store.allocArc address cell value place).setCell cell
            snap).tracked other = store.tracked other := by
        funext target
        refine (tracked_allocArc other target).trans ?_
        split
        · rename_i equal
          rw [equal, Store.tracked_of_free other free]
          simp [Ne.symm same]
        · rfl
      rw [kept, tracked]
      refine { holds.cells other with list_ok := fun alive => ?_ }
      have list : ((store.allocArc address cell value place).setCell cell
          snap).values (store.cells other).version =
            store.values (store.cells other).version :=
        values _ (holds.version_lt_versions alive)
      rw [list]
      exact (holds.cells other).list_ok alive
  · intro handle target member
    obtain ⟨inner, found, owned⟩ := holds.handles_owned handle target member
    have different : target ≠ address := by
      rintro rfl
      rw [free] at found
      cases found
    exact ⟨inner, by simpa [Store.setCell, Store.allocArc, different] using
      found, owned⟩
  · exact holds.handles_nodup
  · exact holds.handles_lt

theorem allocFresh
    (holds : StoreInv store) (free : store.heap address = none)
    (locked : (store.cells cell).writer = some call) :
    StoreInv (store.allocArc address cell value (.fresh call)) := by
  have old := holds.cells cell
  have alive := holds.alive_of_writer locked
  have unknown := Store.tracked_of_free cell free
  have back : ∀ target place version, place ≠ .fresh call →
      ((store.allocArc address cell value (.fresh call)).tracked cell target =
          some (place, version) ↔
        store.tracked cell target = some (place, version)) := by
    intro target place version different
    rw [tracked_allocArc]
    split
    · rename_i same
      rw [same, unknown]
      simp [Place.isTracked, Ne.symm different]
    · rfl
  have shape :
      (store.allocArc address cell value (.fresh call)).setCell cell
          (store.cells cell) =
        store.allocArc address cell value (.fresh call) := by
    simp [Store.setCell, Store.allocArc]
  rw [← shape]
  refine holds.allocCell free (by simp) ?_ rfl
  refine { old with
    current_alive := fun alive =>
      (back _ _ _ (by simp)).mpr (old.current_alive alive)
    current_only := fun target version known =>
      old.current_only target version ((back _ _ _ (by simp)).mp known)
    retired_iff := fun target => by
      simp only [back target .retired _ (by simp)]
      exact old.retired_iff target
    fresh_writer := ?_
    unlinked_writer := fun target other version known =>
      old.unlinked_writer target other version
        ((back _ _ _ (by simp)).mp known)
    list_ok := fun alive => ?_ }
  · intro target other version known
    by_cases same : other = call
    · rw [same]
      exact locked
    · exact old.fresh_writer target other version
        ((back _ _ _ (by simpa using same)).mp known)
  · have list :
        (store.allocArc address cell value (.fresh call)).values
            (store.cells cell).version =
          store.values (store.cells cell).version :=
      Function.update_of_ne
        (Nat.ne_of_lt (holds.version_lt_versions alive)) _ _
    rw [list]
    exact old.list_ok alive

theorem newCell
    (holds : StoreInv store) (free : store.heap address = none)
    (unborn : (store.cells cell).phase = .unborn) :
    StoreInv (store.newCell cell address) := by
  have old := holds.cells cell
  have unknown := Store.tracked_of_free cell free
  have new :
      (store.allocArc address cell [] .current).tracked cell address =
        some (.current, store.versions) := by
    rw [tracked_allocArc]
    simp [Place.isTracked]
  have back : ∀ target, target ≠ address →
      (store.allocArc address cell [] .current).tracked cell target =
        store.tracked cell target := by
    intro target different
    rw [tracked_allocArc, if_neg different]
  have other : ∀ target place version, place ≠ .current →
      ((store.allocArc address cell [] .current).tracked cell target =
          some (place, version) ↔
        store.tracked cell target = some (place, version)) := by
    intro target place version different
    by_cases same : target = address
    · subst same
      rw [new, unknown]
      simp [Ne.symm different]
    · rw [back target same]
  refine holds.allocCell free (by simp) ?_ rfl
  refine { old with
    current_alive := fun _ => new
    current_only := ?_
    retired_iff := fun target => by
      simp only [other target .retired _ (by simp)]
      exact old.retired_iff target
    fresh_writer := fun target call version known =>
      old.fresh_writer target call version
        ((other _ _ _ (by simp)).mp known)
    unlinked_writer := fun target call version known =>
      old.unlinked_writer target call version
        ((other _ _ _ (by simp)).mp known)
    active_alive := fun _ _ => rfl
    list_ok := ?_
    unborn := fun impossible => by cases impossible
    unborn_version := fun impossible => by cases impossible }
  · intro target version known
    refine ⟨rfl, ?_⟩
    by_contra different
    rw [back target (Ne.symm different)] at known
    have alive := (old.current_only target version known).1
    rw [unborn] at alive
    cases alive
  · intro _
    have value :
        (store.allocArc address cell [] .current).values store.versions =
          [] := by
      simp [Store.allocArc]
    rw [value]
    refine ⟨List.nodup_nil, fun handler => ?_⟩
    have dead := old.unborn unborn handler
    simp [handlersOf, dead]

end Allocate

end StoreInv

end RegistryIo.Snapshot
