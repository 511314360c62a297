import JsxTracking.CommandLine.Run

/-! # The order of sources

Sources are compared by the components of their paths, and among those with the same path by the
components of what the path is below its input. Both orders are total, and two sources are at the same
place in them only if all their components are the same. So sorting brings equal sources together, and
the sources that are arranged come in strictly ascending order (`SourceFile.ascending_arrange`): what
was found is among them, each only once. -/

namespace JsxTracking

namespace Path.Component

/-- The place of the form of a component among the forms. -/
def rank : Component → Nat
  | root => 0
  | current => 1
  | parent => 2
  | name _ => 3

/-- The text of a name. -/
def text : Component → String
  | name text => text
  | _ => ""

/-- Components are compared by their forms and then by their names. -/
theorem compare_eq (first second : Component) :
    compare first second = compareLex (compareOn rank) (compareOn text) first second := by
  cases first with
  | name first =>
    cases second with
    | name second =>
      have names : compare (name first) (name second) = (compare first second).then .eq := rfl
      have same : compareLex (compareOn rank) (compareOn text) (name first) (name second) =
          compare first second := rfl
      rw [names, same, Ordering.then_eq]
    | _ => rfl
  | _ => cases second <;> rfl

theorem eq_of_rank_of_text {first second : Component} (rank : first.rank = second.rank)
    (text : first.text = second.text) : first = second := by
  cases first with
  | name first =>
    cases second with
    | name second => exact congrArg name text
    | _ => cases rank
  | _ => cases second <;> first | rfl | cases rank

instance : Std.TransOrd Component := by
  have same : (compare : Component → Component → Ordering) =
      compareLex (compareOn Component.rank) (compareOn text) := funext fun _ => funext fun _ => compare_eq _ _
  unfold Std.TransOrd
  rw [same]
  infer_instance

instance : Std.LawfulEqOrd Component where
  compare_self {component} := by
    rw [compare_eq]
    exact Std.ReflCmp.compare_self
  eq_of_compare {first second} same := by
    rw [compare_eq, compareLex_eq_eq] at same
    exact eq_of_rank_of_text (Std.LawfulEqOrd.eq_of_compare same.1)
      (Std.LawfulEqOrd.eq_of_compare same.2)

end Path.Component

namespace CommandLine.SourceFile

/-- How two sources are compared. -/
def order : SourceFile → SourceFile → Ordering :=
  compareLex (compareOn (Path.components ·.path)) (compareOn (Path.components ·.relative))

instance : Std.TransCmp order :=
  inferInstanceAs (Std.TransCmp (compareLex _ _))

/-- Sources are at the same place in the order if their components are the same. -/
theorem order_eq_iff {first second : SourceFile} :
    order first second = .eq ↔ first.key = second.key := by
  rw [order, compareLex_eq_eq]
  simp only [compareOn, Std.LawfulEqOrd.compare_eq_iff_eq, key, List.cons.injEq, and_true]

/-- Sorted sources come in ascending order. -/
theorem sorted_mergeSort (sources : List SourceFile) :
    (sources.mergeSort isAtMost).Pairwise fun first second => (order first second).isLE := by
  refine List.pairwise_mergeSort (fun _ _ _ => Std.TransCmp.isLE_trans) (fun first second => ?_) sources
  have swapped : order second first = (order first second).swap := Std.OrientedCmp.eq_swap
  rw [swapped]
  cases order first second <;> rfl

theorem sublist_dropRepeated (sources : List SourceFile) :
    (dropRepeated sources).Sublist sources := by
  fun_induction dropRepeated with
  | case1 first second rest same ih => exact ih.trans ((List.sublist_cons_self ..).cons_cons first)
  | case2 first second rest differ ih => exact ih.cons_cons first
  | case3 => exact List.Sublist.refl _

/-- What is left of sources in order comes in strictly ascending order. -/
theorem ascending_dropRepeated {sources : List SourceFile}
    (sorted : sources.Pairwise fun first second => (order first second).isLE) :
    (dropRepeated sources).Pairwise fun first second => order first second = .lt := by
  fun_induction dropRepeated with
  | case1 first second rest same ih =>
    exact ih (sorted.sublist ((List.sublist_cons_self ..).cons_cons first))
  | case2 first second rest differ ih =>
    obtain ⟨least, later⟩ := List.pairwise_cons.mp sorted
    refine List.pairwise_cons.mpr ⟨fun source among => ?_, ih later⟩
    have next : order first second = .lt := by
      have atMost := least second List.mem_cons_self
      have apart : order first second ≠ .eq := fun equal => differ (order_eq_iff.mp equal)
      cases compared : order first second with
      | lt => rfl
      | eq => exact absurd compared apart
      | gt => simp [compared] at atMost
    rcases List.mem_cons.mp ((sublist_dropRepeated _).subset among) with rfl | behind
    · exact next
    · exact Std.TransCmp.lt_of_lt_of_isLE next ((List.pairwise_cons.mp later).1 source behind)
  | case3 sources short =>
    cases sources with
    | nil => exact List.Pairwise.nil
    | cons first rest =>
      cases rest with
      | nil => exact List.pairwise_singleton _ _
      | cons second rest => exact absurd rfl (short first second rest)

theorem exists_dropRepeated (sources : List SourceFile) :
    ∀ source ∈ sources, ∃ kept ∈ dropRepeated sources, kept.key = source.key := by
  fun_induction dropRepeated with
  | case1 first second rest same ih =>
    intro source among
    rcases List.mem_cons.mp among with rfl | later
    · exact ih source List.mem_cons_self
    · rcases List.mem_cons.mp later with rfl | behind
      · rw [← same]
        exact ih first List.mem_cons_self
      · exact ih source (List.mem_cons_of_mem _ behind)
  | case2 first second rest differ ih =>
    intro source among
    rcases List.mem_cons.mp among with rfl | later
    · exact ⟨source, List.mem_cons_self, rfl⟩
    · obtain ⟨kept, there, key⟩ := ih source later
      exact ⟨kept, List.mem_cons_of_mem _ there, key⟩
  | case3 => exact fun source among => ⟨source, among, rfl⟩

/-! ## The sources that are arranged -/

variable {sources : List SourceFile} {source : SourceFile}

/-- **Arranged sources ascend.** Each comes strictly before those that follow it. -/
theorem ascending_arrange (sources : List SourceFile) :
    (arrange sources).Pairwise fun first second => order first second = .lt :=
  ascending_dropRepeated (sorted_mergeSort sources)

theorem mem_of_mem_arrange (among : source ∈ arrange sources) : source ∈ sources :=
  List.mem_mergeSort.mp ((sublist_dropRepeated _).subset among)

theorem exists_arranged (among : source ∈ sources) :
    ∃ kept ∈ arrange sources, kept.key = source.key :=
  exists_dropRepeated _ source (List.mem_mergeSort.mpr among)

/-- No two arranged sources have the same components. -/
theorem nodup_arrange (sources : List SourceFile) : ((arrange sources).map key).Nodup := by
  refine List.pairwise_map.mpr ((ascending_arrange sources).imp fun before same => ?_)
  rw [order_eq_iff.mpr same] at before
  cases before

theorem dropRepeated_of_ascending {sources : List SourceFile}
    (ascending : sources.Pairwise fun first second => order first second = .lt) :
    dropRepeated sources = sources := by
  fun_induction dropRepeated with
  | case1 first second rest same ih =>
    have before := (List.pairwise_cons.mp ascending).1 second List.mem_cons_self
    rw [order_eq_iff.mpr same] at before
    cases before
  | case2 first second rest differ ih => rw [ih ascending.tail]
  | case3 => rfl

/-- Sources that ascend are arranged. -/
theorem arrange_of_ascending {sources : List SourceFile}
    (ascending : sources.Pairwise fun first second => order first second = .lt) :
    arrange sources = sources := by
  have sorted : sources.Pairwise fun first second => isAtMost first second = true :=
    ascending.imp fun {first second} before => by
      rw [show isAtMost first second = (order first second).isLE from rfl, before]
      rfl
  rw [arrange, List.mergeSort_of_pairwise sorted, dropRepeated_of_ascending ascending]

end CommandLine.SourceFile

end JsxTracking
