import Mathlib.Data.List.Perm.Subperm
import Mathlib.Data.List.Nodup
import JsxTracking.Proofs.Weaving

/-! # Handles are fresh

The variables of different handles are different. The allocator passes over an index only if a name
that is in use belongs to it, and there are no more such indices than names, so its search ends at a
free handle (`HandleAllocator.allocate_free`). Hence all elements of a module get different handles,
whose variables do not occur in the module (`weaveModule_handles`). -/

namespace JsxTracking

namespace ElementHandle

theorem toList_name (handle : ElementHandle) :
    handle.name.toList = "trackingRef".toList ++ Nat.toDigits 10 handle.index := by
  rw [name, String.toList_append, Nat.toString_eq_repr, Nat.toList_repr]

theorem toList_clickCallback (handle : ElementHandle) :
    handle.clickCallback.toList = "trackingClick".toList ++ Nat.toDigits 10 handle.index := by
  rw [clickCallback, String.toList_append, Nat.toString_eq_repr, Nat.toList_repr]

theorem toList_visibilityState (handle : ElementHandle) :
    handle.visibilityState.toList = "trackingShow".toList ++ Nat.toDigits 10 handle.index := by
  rw [visibilityState, String.toList_append, Nat.toString_eq_repr, Nat.toList_repr]

/-- Every variable of a handle is a stem with the index of the handle behind it, and stems can be
told apart. -/
theorem ownNames_spelled {handle : ElementHandle} {name : String}
    (own : name ∈ handle.ownNames) :
    ∃ stem : List Char, name.toList = stem ++ Nat.toDigits 10 handle.index ∧
      (stem = "trackingRef".toList ∧ name.toList[8]? = some 'R' ∨
        stem = "trackingClick".toList ∧ name.toList[8]? = some 'C' ∨
        stem = "trackingShow".toList ∧ name.toList[8]? = some 'S') := by
  simp only [ownNames, List.mem_cons, List.not_mem_nil, or_false] at own
  rcases own with rfl | rfl | rfl
  · refine ⟨_, handle.toList_name, Or.inl ⟨rfl, ?_⟩⟩
    rw [toList_name, List.getElem?_append_left (by decide)]
    exact rfl
  · refine ⟨_, handle.toList_clickCallback, Or.inr (Or.inl ⟨rfl, ?_⟩)⟩
    rw [toList_clickCallback, List.getElem?_append_left (by decide)]
    exact rfl
  · refine ⟨_, handle.toList_visibilityState, Or.inr (Or.inr ⟨rfl, ?_⟩)⟩
    rw [toList_visibilityState, List.getElem?_append_left (by decide)]
    exact rfl

theorem name_mem_ownNames (handle : ElementHandle) : handle.name ∈ handle.ownNames :=
  List.mem_cons_self

theorem clickCallback_mem_ownNames (handle : ElementHandle) :
    handle.clickCallback ∈ handle.ownNames :=
  List.mem_cons_of_mem _ List.mem_cons_self

theorem visibilityState_mem_ownNames (handle : ElementHandle) :
    handle.visibilityState ∈ handle.ownNames :=
  List.mem_cons_of_mem _ (List.mem_cons_of_mem _ List.mem_cons_self)

theorem toDigits_injective {a b : Nat} (same : Nat.toDigits 10 a = Nat.toDigits 10 b) : a = b := by
  have read := congrArg (Nat.ofDigitChars 10 · 0) same
  simp only [Nat.ofDigitChars_ten_toDigits] at read
  exact read

/-- No two handles have a variable in common. -/
theorem eq_of_mem_ownNames {first second : ElementHandle} {name : String}
    (own : name ∈ first.ownNames) (also : name ∈ second.ownNames) : first = second := by
  obtain ⟨stem, spelled, which⟩ := ownNames_spelled own
  obtain ⟨other, respelled, also⟩ := ownNames_spelled also
  have same : stem = other := by
    rcases which with ⟨rfl, letter⟩ | ⟨rfl, letter⟩ | ⟨rfl, letter⟩ <;>
      rcases also with ⟨rfl, letter'⟩ | ⟨rfl, letter'⟩ | ⟨rfl, letter'⟩ <;>
        first | (cases letter.symm.trans letter'; done) | exact rfl
  rw [spelled, same] at respelled
  obtain ⟨index⟩ := first
  obtain ⟨index'⟩ := second
  exact congrArg mk (toDigits_injective (List.append_cancel_left respelled))

/-- The handle is given by the name of its reference. -/
theorem name_injective {first second : ElementHandle} (same : first.name = second.name) :
    first = second := by
  have shared : first.name ∈ second.ownNames := same ▸ second.name_mem_ownNames
  exact eq_of_mem_ownNames first.name_mem_ownNames shared

end ElementHandle

namespace HandleAllocator

/-- None of the variables that a handle with the index would have is in use. -/
def IsFree (taken : List String) (index : Nat) : Prop :=
  ∀ name ∈ (ElementHandle.mk index).ownNames, name ∉ taken

theorem isFree_iff {taken : List String} {index : Nat} :
    IsFree taken index ↔ (ElementHandle.mk index).ownNames.filter taken.contains = [] := by
  simp only [IsFree, List.filter_eq_nil_iff, List.contains_iff_mem]

/-- Among more indices than there are names in use, one is free. -/
theorem exists_isFree (taken : List String) (index : Nat) :
    ∃ free, index ≤ free ∧ free ≤ index + taken.length ∧ IsFree taken free := by
  by_contra none
  push Not at none
  have clash : ∀ other, ∃ name, index ≤ other → other ≤ index + taken.length →
      name ∈ (ElementHandle.mk other).ownNames ∧ name ∈ taken := by
    intro other
    by_cases inRange : index ≤ other ∧ other ≤ index + taken.length
    · have busy := none other inRange.1 inRange.2
      unfold IsFree at busy
      push Not at busy
      obtain ⟨name, own, used⟩ := busy
      exact ⟨name, fun _ _ => ⟨own, used⟩⟩
    · exact ⟨"", fun low high => absurd ⟨low, high⟩ inRange⟩
  choose name clashes using clash
  have distinct : ((List.range' index (taken.length + 1)).map name).Nodup := by
    refine List.Nodup.map_on ?_ List.nodup_range'
    intro first member second member' same
    rw [List.mem_range'_1] at member member'
    have own := (clashes first member.1 (by omega)).1
    rw [same] at own
    have also := (clashes second member'.1 (by omega)).1
    exact congrArg ElementHandle.index (ElementHandle.eq_of_mem_ownNames own also)
  have used : (List.range' index (taken.length + 1)).map name ⊆ taken := by
    intro one member
    obtain ⟨other, inRange, rfl⟩ := List.mem_map.mp member
    rw [List.mem_range'_1] at inRange
    exact (clashes other inRange.1 (by omega)).2
  have fits := (distinct.subperm used).length_le
  rw [List.length_map, List.length_range'] at fits
  omega

/-- A search ends at a free handle, or has passed over as many indices as it may. -/
theorem search_spec (taken : List String) (attempts index : Nat) :
    let found := (search taken attempts index).handle.index
    index ≤ found ∧ (IsFree taken found ∨
      found = index + attempts ∧ ∀ other, index ≤ other → other < found → ¬IsFree taken other) := by
  induction attempts generalizing index with
  | zero => exact ⟨Nat.le_refl _, Or.inr ⟨rfl, fun other low high => by
      exact absurd (Nat.lt_of_le_of_lt low high) (Nat.lt_irrefl _)⟩⟩
  | succ attempts ih =>
    intro found
    have stepped : found = (search taken (attempts + 1) index).handle.index := rfl
    rw [search] at stepped
    split at stepped
    case h_1 unused =>
      rw [stepped]
      exact ⟨Nat.le_refl _, Or.inl (isFree_iff.mpr unused)⟩
    case h_2 clashing busy =>
      obtain ⟨later, ends⟩ := ih (index + 1)
      change found = (search taken attempts (index + 1)).handle.index at stepped
      rw [← stepped] at later ends
      refine ⟨by omega, ends.imp id ?_⟩
      rintro ⟨reached, passed⟩
      refine ⟨by omega, fun other low high => ?_⟩
      rcases Nat.eq_or_lt_of_le low with rfl | above
      · exact fun free => busy (isFree_iff.mp free)
      · exact passed other above high

/-- The handle that is given out next is free. -/
theorem allocate_free (allocator : HandleAllocator) :
    allocator.next ≤ allocator.allocate.1.handle.index ∧
      IsFree allocator.taken allocator.allocate.1.handle.index := by
  obtain ⟨later, ends⟩ := search_spec allocator.taken allocator.taken.length allocator.next
  refine ⟨later, ?_⟩
  rcases ends with free | ⟨reached, passed⟩
  · exact free
  · obtain ⟨free, low, high, isFree⟩ := exists_isFree allocator.taken allocator.next
    rcases Nat.eq_or_lt_of_le high with last | early
    · rw [last, ← reached] at isFree
      exact isFree
    · exact absurd isFree (passed free low (reached ▸ early))

/-- Handles given out one after another increase, and their variables are not in use before. -/
theorem Gives.free {before after : HandleAllocator} {allocations : List Allocation}
    (gives : before.Gives allocations after) :
    (allocations.map Allocation.handle).Pairwise (·.index < ·.index) ∧
      ∀ allocation ∈ allocations, before.next ≤ allocation.handle.index ∧
        IsFree before.taken allocation.handle.index := by
  induction gives with
  | nothing => exact ⟨.nil, fun _ member => absurd member List.not_mem_nil⟩
  | @next allocator after rest later ih =>
    obtain ⟨above, free⟩ := allocator.allocate_free
    obtain ⟨increasing, laterFree⟩ := ih
    have laterIndex : ∀ allocation ∈ rest,
        allocator.allocate.1.handle.index < allocation.handle.index :=
      fun allocation member => (laterFree allocation member).1
    constructor
    · refine List.pairwise_cons.mpr ⟨fun handle member => ?_, increasing⟩
      obtain ⟨allocation, found, rfl⟩ := List.mem_map.mp member
      exact laterIndex allocation found
    · intro allocation member
      rcases List.mem_cons.mp member with rfl | found
      · exact ⟨above, free⟩
      · refine ⟨?_, fun name own used => ?_⟩
        · have next := laterIndex allocation found
          omega
        · exact (laterFree allocation found).2 name own (List.mem_append_right _ used)

end HandleAllocator

/-- The handles given to some elements. -/
def Woven.handles (treatments : List Treatment) : List ElementHandle :=
  treatments.filterMap Treatment.handle?

theorem Woven.handles_eq (treatments : List Treatment) :
    handles treatments = (allocations treatments).map Allocation.handle := by
  rw [handles, allocations, List.map_filterMap]
  rfl

/-- The elements of a module get different handles, and the variables of these do not occur in the
module. -/
theorem weaveModule_handles (source? : Option String) (items : List Tree) :
    (Woven.handles (Woven.treatmentsInItems (weaveModule source? items))).Nodup ∧
      ∀ handle ∈ Woven.handles (Woven.treatmentsInItems (weaveModule source? items)),
        ∀ name ∈ handle.ownNames, name ∉ Tree.identifiersInItems items := by
  obtain ⟨after, weaves⟩ := weaveModule_weaves source? items
  obtain ⟨increasing, free⟩ := weaves.gives.free
  rw [Woven.handles_eq]
  constructor
  · refine increasing.imp fun less same => ?_
    rw [same] at less
    exact Nat.lt_irrefl _ less
  · intro handle member
    obtain ⟨allocation, found, rfl⟩ := List.mem_map.mp member
    exact (free allocation found).2

end JsxTracking
