import JsxTracking.Proofs.Splicing

/-! # The order of spliced hooks

Where groups of hooks go is said here without sorting or merging anything: in front of each statement go
the groups that are queued for its index, as they were queued, and behind the last statement the groups
with a greater position, one position after another (`HookGroup.layout`). A list of groups is *in order*
if positions ascend in it and the groups of one position stand as they were queued. No more than one
arrangement of some groups is in order (`HookGroup.InOrder.unique`), so sorting by insertion arranges them
as they are laid out, and merging them with the statements gives the layout
(`HookGroup.splice_layout`). -/

namespace JsxTracking.HookGroup

/-- The groups that are queued for a position, as they were queued. -/
def queuedAt (groups : List HookGroup) (position : Nat) : List HookGroup :=
  groups.filter fun group => group.position = position

/-- The least number that is greater than all positions. -/
def bound (groups : List HookGroup) : Nat :=
  (groups.map fun group => group.position + 1).foldr max 0

/-- The groups that are queued for a position or a greater one, one position after another. -/
def queuedFrom (groups : List HookGroup) (position : Nat) : List HookGroup :=
  (List.range' position (bound groups - position)).flatMap (queuedAt groups)

/-- Some groups in the order in which their hooks run: by position, and as they were queued for each
position. -/
structure InOrder (groups ordered : List HookGroup) : Prop where
  ascending : ordered.Pairwise fun group later => group.position ≤ later.position
  queued : ∀ position, queuedAt ordered position = queuedAt groups position

/-- A part of a body with spliced hooks: a statement that it had, or the hooks of a group. -/
inductive Part where
  | kept (statement : Tree)
  | spliced (group : HookGroup)

namespace Part

/-- The statements that a part puts into the body. -/
def trees : Part → List Tree
  | kept statement => [statement]
  | spliced group => group.hooks

def statement? : Part → Option Tree
  | kept statement => some statement
  | spliced _ => none

def group? : Part → Option HookGroup
  | kept _ => none
  | spliced group => some group

theorem flatMap_trees_spliced (groups : List HookGroup) :
    (groups.map spliced).flatMap trees = groups.flatMap hooks := by
  rw [List.flatMap_map]
  rfl

theorem filterMap_statement?_spliced (groups : List HookGroup) :
    (groups.map spliced).filterMap statement? = [] := by
  rw [List.filterMap_map]
  exact List.filterMap_eq_nil_iff.mpr fun _ _ => rfl

theorem filterMap_group?_spliced (groups : List HookGroup) :
    (groups.map spliced).filterMap group? = groups := by
  rw [List.filterMap_map]
  exact List.filterMap_some

end Part

/-- The parts of a body: each statement behind the groups that are queued for its index, and last the
groups that are queued for no index of a statement. The first statement has the given index. -/
def layout (index : Nat) (statements : List Tree) (groups : List HookGroup) : List Part :=
  ((statements.zipIdx index).flatMap fun (statement, index) =>
    (queuedAt groups index).map .spliced ++ [.kept statement]) ++
  (queuedFrom groups (index + statements.length)).map .spliced

variable {groups first second : List HookGroup} {group : HookGroup}

/-! ## Groups at their positions -/

theorem mem_queuedAt {position : Nat} :
    group ∈ queuedAt groups position ↔ group ∈ groups ∧ group.position = position := by
  rw [queuedAt, List.mem_filter, decide_eq_true_eq]

theorem queuedAt_cons_self (group : HookGroup) (rest : List HookGroup) :
    queuedAt (group :: rest) group.position = group :: queuedAt rest group.position :=
  List.filter_cons_of_pos (decide_eq_true rfl)

theorem queuedAt_cons_of_ne {position : Nat} (other : group.position ≠ position)
    (rest : List HookGroup) : queuedAt (group :: rest) position = queuedAt rest position :=
  List.filter_cons_of_neg fun same => other (of_decide_eq_true same)

theorem lt_bound (among : group ∈ groups) : group.position < bound groups := by
  induction groups with
  | nil => cases among
  | cons head rest ih =>
    change group.position < max (head.position + 1) (bound rest)
    rcases List.mem_cons.mp among with rfl | later
    · exact Nat.lt_of_lt_of_le (Nat.lt_succ_self _) (Nat.le_max_left ..)
    · exact Nat.lt_of_lt_of_le (ih later) (Nat.le_max_right ..)

theorem queuedAt_eq_nil {position : Nat} (beyond : bound groups ≤ position) :
    queuedAt groups position = [] := by
  refine List.filter_eq_nil_iff.mpr fun group among same => ?_
  have before := lt_bound among
  have same : group.position = position := of_decide_eq_true same
  omega

/-- The groups from a position on are those at the position and those from the next one on. -/
theorem queuedFrom_eq (groups : List HookGroup) (position : Nat) :
    queuedFrom groups position = queuedAt groups position ++ queuedFrom groups (position + 1) := by
  by_cases before : position < bound groups
  · have more : bound groups - position = bound groups - (position + 1) + 1 := by omega
    rw [queuedFrom, more, List.range'_succ, List.flatMap_cons, ← queuedFrom]
  · have beyond := Nat.le_of_not_lt before
    rw [queuedAt_eq_nil beyond, queuedFrom, queuedFrom, Nat.sub_eq_zero_of_le beyond,
      Nat.sub_eq_zero_of_le (Nat.le_succ_of_le beyond)]
    rfl

theorem le_of_mem_queuedFrom {position : Nat} (among : group ∈ queuedFrom groups position) :
    position ≤ group.position := by
  obtain ⟨place, inRange, queued⟩ := List.mem_flatMap.mp among
  rw [(mem_queuedAt.mp queued).2]
  exact (List.mem_range'_1.mp inRange).1

theorem queuedAt_queuedAt (groups : List HookGroup) (position place : Nat) :
    queuedAt (queuedAt groups place) position =
      if place = position then queuedAt groups position else [] := by
  split
  case isTrue same =>
    rw [same]
    exact List.filter_eq_self.mpr fun group queued => decide_eq_true (mem_queuedAt.mp queued).2
  case isFalse other =>
    refine List.filter_eq_nil_iff.mpr fun group queued same => other ?_
    exact (mem_queuedAt.mp queued).2.symm.trans (of_decide_eq_true same)

/-- Of the positions in a range, each gives the groups that are queued for it. -/
theorem queuedAt_range' (groups : List HookGroup) (start count position : Nat) :
    queuedAt ((List.range' start count).flatMap (queuedAt groups)) position =
      if start ≤ position ∧ position < start + count then queuedAt groups position else [] := by
  induction count generalizing start with
  | zero => rw [if_neg (by omega)]; rfl
  | succ count ih =>
    have split (early late : List HookGroup) :
        queuedAt (early ++ late) position = queuedAt early position ++ queuedAt late position :=
      List.filter_append ..
    rw [List.range'_succ, List.flatMap_cons, split, queuedAt_queuedAt, ih]
    by_cases here : start = position
    · rw [if_pos here, if_neg (by omega), if_pos (by omega), List.append_nil]
    · rw [if_neg here, List.nil_append]
      exact if_congr (by omega) rfl rfl

/-! ## Groups in order -/

/-- Ascending groups are determined by those at each position. -/
theorem eq_of_queuedAt_eq
    (ascending : first.Pairwise fun group later => group.position ≤ later.position)
    (ascendingToo : second.Pairwise fun group later => group.position ≤ later.position)
    (same : ∀ position, queuedAt first position = queuedAt second position) : first = second := by
  -- No group of either list stands before the first group of the other.
  have notBefore {group : HookGroup} {rest groups : List HookGroup}
      (ascending : (group :: rest).Pairwise fun group later => group.position ≤ later.position)
      (same : ∀ position, queuedAt groups position = queuedAt (group :: rest) position) :
      ∀ other ∈ groups, group.position ≤ other.position := by
    intro other among
    have queued := mem_queuedAt.mpr ⟨among, rfl⟩
    rw [same] at queued
    rcases List.mem_cons.mp (mem_queuedAt.mp queued).1 with rfl | later
    · exact Nat.le_refl _
    · exact List.rel_of_pairwise_cons ascending later
  induction first generalizing second with
  | nil =>
    cases second with
    | nil => rfl
    | cons group rest =>
      have queued := (same group.position).trans (queuedAt_cons_self group rest)
      cases queued
  | cons group rest ih =>
    cases second with
    | nil =>
      have queued := (queuedAt_cons_self group rest).symm.trans (same group.position)
      cases queued
    | cons other others =>
      have position : group.position = other.position := by
        apply Nat.le_antisymm
        · exact notBefore ascending (fun place => (same place).symm) other List.mem_cons_self
        · exact notBefore ascendingToo same group List.mem_cons_self
      have heads := same group.position
      rw [queuedAt_cons_self, position, queuedAt_cons_self] at heads
      obtain ⟨rfl, tails⟩ := List.cons.inj heads
      refine congrArg _ (ih ascending.of_cons ascendingToo.of_cons fun place => ?_)
      by_cases here : group.position = place
      · rw [← here, tails]
      · rw [← queuedAt_cons_of_ne here, same, queuedAt_cons_of_ne here]

/-- No more than one arrangement of some groups is in order. -/
theorem InOrder.unique (inOrder : InOrder groups first) (other : InOrder groups second) :
    first = second :=
  eq_of_queuedAt_eq inOrder.ascending other.ascending fun position =>
    (inOrder.queued position).trans (other.queued position).symm

/-- A group that is inserted comes before those that are queued for its position. -/
theorem queuedAt_insert (group : HookGroup) (groups : List HookGroup) (position : Nat) :
    queuedAt (insert group groups) position = queuedAt (group :: groups) position := by
  induction groups with
  | nil => rfl
  | cons head rest ih =>
    rw [insert]
    split
    case isFalse => rfl
    case isTrue before =>
      by_cases here : head.position = position
      · have other : group.position ≠ position := by omega
        rw [queuedAt_cons_of_ne other] at ih ⊢
        rw [← here, queuedAt_cons_self, queuedAt_cons_self, here, ih]
      · rw [queuedAt_cons_of_ne here, ih]
        by_cases there : group.position = position
        · rw [← there, queuedAt_cons_self, queuedAt_cons_self, there, queuedAt_cons_of_ne here]
        · rw [queuedAt_cons_of_ne there, queuedAt_cons_of_ne there, queuedAt_cons_of_ne here]

theorem inOrder_sorted (groups : List HookGroup) : InOrder groups (sorted groups) where
  ascending := sorted_pairwise groups
  queued position := by
    induction groups with
    | nil => rfl
    | cons group rest ih =>
      change queuedAt (insert group (sorted rest)) position = _
      rw [queuedAt_insert]
      unfold queuedAt at ih ⊢
      rw [List.filter_cons, List.filter_cons, ih]

theorem inOrder_queuedFrom (groups : List HookGroup) : InOrder groups (queuedFrom groups 0) where
  ascending := by
    refine List.pairwise_flatMap.mpr ⟨fun position _ => ?_, ?_⟩
    · refine List.pairwise_of_forall_mem_list fun group queued later queuedToo => ?_
      rw [(mem_queuedAt.mp queued).2, (mem_queuedAt.mp queuedToo).2]
    · refine List.Pairwise.imp ?_ (List.pairwise_lt_range' (s := 0) (n := bound groups - 0))
      intro position place before group queued later queuedToo
      rw [(mem_queuedAt.mp queued).2, (mem_queuedAt.mp queuedToo).2]
      exact Nat.le_of_lt before
  queued position := by
    rw [queuedFrom, queuedAt_range', Nat.sub_zero, Nat.zero_add]
    by_cases before : position < bound groups
    · rw [if_pos ⟨Nat.zero_le _, before⟩]
    · rw [if_neg fun inRange => before inRange.2, queuedAt_eq_nil (Nat.le_of_not_lt before)]

theorem sorted_eq_queuedFrom (groups : List HookGroup) : sorted groups = queuedFrom groups 0 :=
  (inOrder_sorted groups).unique (inOrder_queuedFrom groups)

/-! ## The layout of a body -/

theorem layout_nil (index : Nat) (groups : List HookGroup) :
    layout index [] groups = (queuedFrom groups index).map .spliced := rfl

theorem layout_cons (index : Nat) (statement : Tree) (rest : List Tree) (groups : List HookGroup) :
    layout index (statement :: rest) groups =
      (queuedAt groups index).map .spliced ++ .kept statement :: layout (index + 1) rest groups := by
  have further : index + (statement :: rest).length = index + 1 + rest.length := by
    rw [List.length_cons]
    omega
  rw [layout, further, List.zipIdx_cons, List.flatMap_cons, List.append_assoc, List.append_assoc]
  rfl

/-- Merging ordered groups with statements gives the layout. -/
theorem merge_queuedFrom (index : Nat) (statements : List Tree) (groups : List HookGroup) :
    merge index (queuedFrom groups index) statements =
      (layout index statements groups).flatMap Part.trees := by
  induction statements generalizing index with
  | nil => rw [layout_nil, Part.flatMap_trees_spliced, merge]
  | cons statement rest ih =>
    have due : ∀ group ∈ queuedAt groups index, decide (group.position ≤ index) = true :=
      fun group queued => decide_eq_true (Nat.le_of_eq (mem_queuedAt.mp queued).2)
    have notDue : ∀ group ∈ queuedFrom groups (index + 1),
        decide (group.position ≤ index) = false :=
      fun group queued => decide_eq_false (Nat.not_le_of_gt (le_of_mem_queuedFrom queued))
    have taken : (queuedFrom groups (index + 1)).takeWhile
        (fun group => group.position ≤ index) = [] := by
      cases later : queuedFrom groups (index + 1) with
      | nil => rfl
      | cons group others =>
        rw [later] at notDue
        exact List.takeWhile_cons_of_neg (Bool.eq_false_iff.mp (notDue group List.mem_cons_self))
    have left : (queuedFrom groups (index + 1)).dropWhile
        (fun group => group.position ≤ index) = queuedFrom groups (index + 1) := by
      have whole := List.takeWhile_append_dropWhile
        (p := fun group : HookGroup => decide (group.position ≤ index))
        (l := queuedFrom groups (index + 1))
      rwa [taken, List.nil_append] at whole
    rw [merge_cons, queuedFrom_eq, List.takeWhile_append_of_pos due, List.dropWhile_append_of_pos due,
      taken, left, List.append_nil, ih, layout_cons, List.flatMap_append, List.flatMap_cons,
      Part.flatMap_trees_spliced]
    rfl

theorem filterMap_statement?_layout (index : Nat) (statements : List Tree)
    (groups : List HookGroup) :
    (layout index statements groups).filterMap Part.statement? = statements := by
  induction statements generalizing index with
  | nil => rw [layout_nil, Part.filterMap_statement?_spliced]
  | cons statement rest ih =>
    rw [layout_cons, List.filterMap_append, Part.filterMap_statement?_spliced, List.nil_append,
      List.filterMap_cons, ih]
    rfl

theorem filterMap_group?_layout (index : Nat) (statements : List Tree) (groups : List HookGroup) :
    (layout index statements groups).filterMap Part.group? = queuedFrom groups index := by
  induction statements generalizing index with
  | nil => rw [layout_nil, Part.filterMap_group?_spliced]
  | cons statement rest ih =>
    rw [layout_cons, List.filterMap_append, Part.filterMap_group?_spliced,
      List.filterMap_cons_none rfl, ih, ← queuedFrom_eq]

/-- **Hooks are spliced in order.** Whatever groups are queued, in any order, some of them for the same
position or behind the end, splicing them into a body lays out the body: in front of each statement stand
the hooks of the groups for its index, as they were queued, and at the end those of all groups with a
greater position, by position and as they were queued. The statements are kept in their order, and each
group stands in just one place. -/
theorem splice_layout (statements : List Tree) (groups : List HookGroup) :
    let parts := layout 0 statements groups
    splice statements groups = parts.flatMap Part.trees ∧
      parts.filterMap Part.statement? = statements ∧
      (parts.filterMap Part.group?).Perm groups ∧
      InOrder groups (parts.filterMap Part.group?) := by
  intro parts
  have statementsKept := filterMap_statement?_layout 0 statements groups
  have arranged : parts.filterMap Part.group? = sorted groups := by
    rw [filterMap_group?_layout, ← sorted_eq_queuedFrom]
  rw [arranged]
  refine ⟨?_, statementsKept, sorted_perm groups, inOrder_sorted groups⟩
  rw [splice, sorted_eq_queuedFrom, merge_queuedFrom]

/-- Two groups for one position, one behind the end, and one for the front that is queued last. -/
example :
    splice [.str "a", .str "b"]
        [⟨7, [.str "end"]⟩, ⟨1, [.str "one", .str "two"]⟩, ⟨1, [.str "three"]⟩, ⟨0, [.str "front"]⟩] =
      [.str "front", .str "a", .str "one", .str "two", .str "three", .str "b", .str "end"] := rfl

end JsxTracking.HookGroup
