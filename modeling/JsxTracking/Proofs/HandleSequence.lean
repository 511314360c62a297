import Mathlib.Order.Bounds.Basic
import JsxTracking.Proofs.FreshHandles

/-! # Handles given out one after another

The allocator tries one index after another until no name of a handle with that index is in use.
Told without a limit on how far it goes (`HandleAllocator.Finds`), the search still comes to an end,
and the bounded one ends at the same handle with the same collisions. So a handle that is given out
has the least free index from the one on at which the search began, and its collisions are the names
in use that were met on the way (`Allocation.IsNext`). Handles given out one after another are all
different, in their variables too, and use no identifier of the module (`handles_successive`). -/

namespace JsxTracking

theorem ElementHandle.nodup_ownNames (handle : ElementHandle) : handle.ownNames.Nodup := by
  have differ {first second : String} {c d : Char} (has : first.toList[8]? = some c)
      (also : second.toList[8]? = some d) (unlike : c ≠ d) : first ≠ second := by
    rintro rfl
    exact unlike (Option.some.inj (has.symm.trans also))
  have name : handle.name.toList[8]? = some 'R' := by
    rw [toList_name]
    rfl
  have click : handle.clickCallback.toList[8]? = some 'C' := by
    rw [toList_clickCallback]
    rfl
  have state : handle.visibilityState.toList[8]? = some 'S' := by
    rw [toList_visibilityState]
    rfl
  simp [ownNames, differ name click, differ name state, differ click state]

namespace HandleAllocator

variable {taken : List String} {index : Nat} {found other : Allocation}

/-- The names of a handle with the index that are in use, in their order. -/
def clashing (taken : List String) (index : Nat) : List String :=
  (ElementHandle.mk index).ownNames.filter taken.contains

/-- The search for a free handle from an index on, however far it goes. -/
inductive Finds (taken : List String) : Nat → Allocation → Prop
  | here {index : Nat} (free : clashing taken index = []) : Finds taken index ⟨⟨index⟩, []⟩
  | later {index : Nat} {found : Allocation} (busy : clashing taken index ≠ [])
      (onward : Finds taken (index + 1) found) :
      Finds taken index { found with collisions := clashing taken index ++ found.collisions }

/-- The search ends in one way only. -/
theorem Finds.unique (finds : Finds taken index found) (again : Finds taken index other) :
    found = other := by
  induction finds generalizing other with
  | here free =>
    cases again with
    | here => rfl
    | later busy => exact absurd free busy
  | later busy _ ih =>
    cases again with
    | here free => exact absurd free busy
    | later _ onward => rw [ih onward]

/-- A search that may go as far as there is a free index goes there. -/
theorem search_finds {attempts free : Nat} (above : index ≤ free) (near : free ≤ index + attempts)
    (isFree : IsFree taken free) : Finds taken index (search taken attempts index) := by
  induction attempts generalizing index with
  | zero =>
    obtain rfl : index = free := by omega
    exact .here (isFree_iff.mp isFree)
  | succ attempts ih =>
    rw [search]
    split
    case h_1 unused => exact .here unused
    case h_2 busy =>
      have passed : index ≠ free := by
        rintro rfl
        exact busy (isFree_iff.mp isFree)
      exact .later busy (ih (by omega) (by omega))

/-- The search for the next handle comes to an end. -/
theorem allocate_finds (allocator : HandleAllocator) :
    Finds allocator.taken allocator.next allocator.allocate.1 := by
  obtain ⟨free, above, near, isFree⟩ := exists_isFree allocator.taken allocator.next
  exact search_finds above near isFree

/-- The least free index is found, and the names in use before it are told in their order. -/
theorem Finds.least (finds : Finds taken index found) :
    IsLeast {free | index ≤ free ∧ IsFree taken free} found.handle.index ∧
      found.collisions =
        (List.range' index (found.handle.index - index)).flatMap (clashing taken) := by
  induction finds with
  | @here index free =>
    refine ⟨⟨⟨Nat.le_refl _, isFree_iff.mpr free⟩, fun _ further => further.1⟩, ?_⟩
    rw [Nat.sub_self]
    rfl
  | @later index found busy onward ih =>
    obtain ⟨⟨⟨above, isFree⟩, least⟩, collisions⟩ := ih
    refine ⟨⟨⟨Nat.le_of_succ_le above, isFree⟩, fun free further => ?_⟩, ?_⟩
    · rcases Nat.eq_or_lt_of_le further.1 with rfl | beyond
      · exact absurd (isFree_iff.mp further.2) busy
      · exact least ⟨beyond, further.2⟩
    · have far : found.handle.index - index = (found.handle.index - (index + 1)) + 1 := by omega
      rw [far, List.range'_succ, List.flatMap_cons, collisions]

end HandleAllocator

open HandleAllocator

/-- An allocation is the next one from an index on, given the names in use. -/
structure Allocation.IsNext (taken : List String) (start : Nat) (allocation : Allocation) :
    Prop where
  /-- The search comes to an end, and here only. -/
  found : ∀ {other : Allocation}, Finds taken start other ↔ other = allocation
  least : IsLeast {index | start ≤ index ∧ IsFree taken index} allocation.handle.index
  collisions : allocation.collisions =
    (List.range' start (allocation.handle.index - start)).flatMap fun index =>
      (ElementHandle.mk index).ownNames.filter taken.contains

/-- Allocations are made one after another: each is the next one from the index on that follows the
handle before, and the names of that handle are then in use too. -/
def Allocation.AreSuccessive : (taken : List String) → (start : Nat) → List Allocation → Prop
  | _, _, [] => True
  | taken, start, allocation :: rest =>
    allocation.IsNext taken start ∧
      AreSuccessive (allocation.handle.ownNames ++ taken) (allocation.handle.index + 1) rest

namespace HandleAllocator

/-- What an allocator gives out when it is asked for a number of handles. -/
def giveOut (allocator : HandleAllocator) : (count : Nat) → List Allocation
  | 0 => []
  | count + 1 => allocator.allocate.1 :: allocator.allocate.2.giveOut count

theorem length_giveOut (allocator : HandleAllocator) (count : Nat) :
    (allocator.giveOut count).length = count := by
  induction count generalizing allocator with
  | zero => rfl
  | succ count ih => rw [giveOut, List.length_cons, ih]

theorem exists_gives (allocator : HandleAllocator) (count : Nat) :
    ∃ after, allocator.Gives (allocator.giveOut count) after := by
  induction count generalizing allocator with
  | zero => exact ⟨allocator, .nothing allocator⟩
  | succ count ih =>
    obtain ⟨after, later⟩ := ih allocator.allocate.2
    exact ⟨after, .next later⟩

theorem allocate_isNext (allocator : HandleAllocator) :
    allocator.allocate.1.IsNext allocator.taken allocator.next where
  found := ⟨fun finds => finds.unique allocator.allocate_finds,
    fun same => same ▸ allocator.allocate_finds⟩
  least := allocator.allocate_finds.least.1
  collisions := allocator.allocate_finds.least.2

theorem areSuccessive_giveOut (allocator : HandleAllocator) (count : Nat) :
    Allocation.AreSuccessive allocator.taken allocator.next (allocator.giveOut count) := by
  induction count generalizing allocator with
  | zero => trivial
  | succ count ih => exact ⟨allocator.allocate_isNext, ih allocator.allocate.2⟩

end HandleAllocator

/-- Handles with different indices have no variable in common. -/
theorem ElementHandle.nodup_flatMap_ownNames {handles : List ElementHandle}
    (increasing : handles.Pairwise (·.index < ·.index)) : (handles.flatMap ownNames).Nodup := by
  refine List.nodup_flatMap.mpr ⟨fun handle _ => handle.nodup_ownNames, increasing.imp ?_⟩
  rintro first second less name own also
  rw [eq_of_mem_ownNames own also] at less
  exact Nat.lt_irrefl _ less

/-- **Handles for a module.** However many handles are asked for, the search for each of them ends.
Their variables are all different and no identifiers of the module, their indices increase, and each
has the least index after the one before whose names are free; the names that are not, are told. -/
theorem handles_successive (items : List Tree) (count : Nat) :
    let given := (HandleAllocator.ofModule items).giveOut count
    let names := (given.map Allocation.handle).flatMap ElementHandle.ownNames
    given.length = count ∧ names.Nodup ∧ names.Disjoint (Tree.identifiersInItems items) ∧
      (given.map (·.handle.index)).Pairwise (· < ·) ∧
      Allocation.AreSuccessive (Tree.identifiersInItems items) 0 given := by
  obtain ⟨after, gives⟩ := (HandleAllocator.ofModule items).exists_gives count
  obtain ⟨increasing, free⟩ := gives.free
  refine ⟨length_giveOut _ count, ElementHandle.nodup_flatMap_ownNames increasing, ?_, ?_,
    areSuccessive_giveOut (.ofModule items) count⟩
  · intro name own used
    obtain ⟨handle, member, own⟩ := List.mem_flatMap.mp own
    obtain ⟨allocation, among, rfl⟩ := List.mem_map.mp member
    exact (free allocation among).2 name own used
  · rw [List.pairwise_map] at increasing ⊢
    exact increasing

/-- A name in use is passed over and told once. -/
example : ((HandleAllocator.mk 0 ["trackingClick0"]).giveOut 2).map
    (fun allocation => (allocation.handle.name, allocation.collisions)) =
      [("trackingRef1", ["trackingClick0"]), ("trackingRef2", [])] := by
  decide +kernel

end JsxTracking
