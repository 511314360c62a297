import Mathlib.Data.List.Sort
import JsxTracking.Splice

/-! # Where spliced hooks stand

Splicing keeps the statements of a body in their order and puts the hooks of the groups among them
(`HookGroup.splice_interleaved`). The hooks of one group stay together, with exactly the statements
before its position in front of them (`HookGroup.splice_split`). -/

namespace JsxTracking

/-- A body is made of statements and of hooks among them, both in their order. -/
inductive Interleaved : (statements hooks body : List Tree) → Prop
  | nothing : Interleaved [] [] []
  | statement {statements hooks body : List Tree} (statement : Tree)
      (rest : Interleaved statements hooks body) :
      Interleaved (statement :: statements) hooks (statement :: body)
  | hook {statements hooks body : List Tree} (hook : Tree)
      (rest : Interleaved statements hooks body) :
      Interleaved statements (hook :: hooks) (hook :: body)

namespace Interleaved

/-- A body without statements. -/
theorem onlyHooks (hooks : List Tree) : Interleaved [] hooks hooks := by
  induction hooks with
  | nil => exact .nothing
  | cons hook rest ih => exact .hook hook ih

/-- Hooks in front of a body. -/
theorem prepend {statements hooks body : List Tree} (before : List Tree)
    (rest : Interleaved statements hooks body) :
    Interleaved statements (before ++ hooks) (before ++ body) := by
  induction before with
  | nil => exact rest
  | cons hook before ih => exact .hook hook ih

/-- The statements are part of the body. -/
theorem sublist {statements hooks body : List Tree}
    (interleaved : Interleaved statements hooks body) : statements.Sublist body := by
  induction interleaved with
  | nothing => exact .slnil
  | statement statement rest ih => exact ih.cons_cons statement
  | hook hook rest ih => exact ih.cons hook

/-- A body holds nothing but its statements and the hooks. -/
theorem perm {statements hooks body : List Tree}
    (interleaved : Interleaved statements hooks body) : body.Perm (statements ++ hooks) := by
  induction interleaved with
  | nothing => exact .nil
  | statement statement rest ih => exact ih.cons statement
  | hook hook rest ih => exact (ih.cons hook).trans List.perm_middle.symm

end Interleaved

namespace HookGroup

/-- Groups are sorted by insertion. -/
theorem sorted_eq_insertionSort (groups : List HookGroup) :
    sorted groups = groups.insertionSort fun group other => group.position ≤ other.position := by
  have insert_eq (group : HookGroup) (later : List HookGroup) : insert group later =
      later.orderedInsert (fun group other => group.position ≤ other.position) group := by
    induction later with
    | nil => rfl
    | cons first rest ih =>
      rw [insert, List.orderedInsert_cons, ih]
      by_cases due : group.position ≤ first.position
      · rw [if_neg (Nat.not_lt.mpr due), if_pos due]
      · rw [if_pos (Nat.lt_of_not_le due), if_neg due]
  induction groups with
  | nil => rfl
  | cons group rest ih => exact (insert_eq _ _).trans (congrArg _ ih)

/-- Sorting loses no group and adds none. -/
theorem sorted_perm (groups : List HookGroup) : (sorted groups).Perm groups := by
  rw [sorted_eq_insertionSort]
  exact List.perm_insertionSort _ groups

/-- Sorted groups have increasing positions. -/
theorem sorted_pairwise (groups : List HookGroup) :
    (sorted groups).Pairwise fun group later => group.position ≤ later.position := by
  rw [sorted_eq_insertionSort]
  have : Std.Total fun group other : HookGroup => group.position ≤ other.position :=
    ⟨fun group other => Nat.le_total group.position other.position⟩
  have : IsTrans HookGroup fun group other => group.position ≤ other.position :=
    ⟨fun _ _ _ => Nat.le_trans⟩
  exact List.pairwise_insertionSort _ groups

/-- Before a statement go the groups that are due. -/
theorem merge_cons (index : Nat) (groups : List HookGroup) (statement : Tree) (rest : List Tree) :
    merge index groups (statement :: rest) =
      (groups.takeWhile fun group => group.position ≤ index).flatMap hooks ++
        statement :: merge (index + 1) (groups.dropWhile fun group => group.position ≤ index)
          rest := by
  have dropped : groups.drop (groups.takeWhile fun group => group.position ≤ index).length =
      groups.dropWhile fun group => group.position ≤ index := by
    conv => lhs; arg 2; rw [← List.takeWhile_append_dropWhile
      (p := fun group : HookGroup => decide (group.position ≤ index)) (l := groups)]
    exact List.drop_left
  rw [merge, dropped]

/-- Merging keeps the statements and puts all hooks among them. -/
theorem merge_interleaved (index : Nat) (groups : List HookGroup) (statements : List Tree) :
    Interleaved statements (groups.flatMap hooks) (merge index groups statements) := by
  induction statements generalizing index groups with
  | nil => exact .onlyHooks _
  | cons statement rest ih =>
    rw [merge_cons]
    have split : groups.flatMap hooks =
        (groups.takeWhile fun group => group.position ≤ index).flatMap hooks ++
          (groups.dropWhile fun group => group.position ≤ index).flatMap hooks := by
      rw [← List.flatMap_append, List.takeWhile_append_dropWhile]
    rw [split]
    exact .prepend _ (.statement statement (ih _ _))

/-- What is taken while a condition holds ends before the first element that does not meet it. -/
theorem takeWhile_stops (condition : HookGroup → Bool) (early late : List HookGroup)
    {group : HookGroup} (stops : condition group = false) :
    (early ++ group :: late).takeWhile condition = early.takeWhile condition ∧
      (early ++ group :: late).dropWhile condition = early.dropWhile condition ++ group :: late := by
  induction early with
  | nil => simp only [List.nil_append, List.takeWhile_cons, List.dropWhile_cons, stops,
      Bool.false_eq_true, ↓reduceIte, List.takeWhile_nil, List.dropWhile_nil, and_self]
  | cons first rest ih =>
    obtain ⟨taken, left⟩ := ih
    cases holds : condition first with
    | true => simp only [List.cons_append, List.takeWhile_cons, List.dropWhile_cons, holds,
        ↓reduceIte, taken, left, and_self]
    | false => simp only [List.cons_append, List.takeWhile_cons, List.dropWhile_cons, holds,
        Bool.false_eq_true, ↓reduceIte, and_self]

/-- In front of the hooks of a group stand the statements before its position, and only they. -/
theorem merge_split (index : Nat) (early late : List HookGroup) {group : HookGroup}
    (statements : List Tree) (ordered : ∀ earlier ∈ early, earlier.position ≤ group.position) :
    ∃ before after, merge index (early ++ group :: late) statements =
        before ++ group.hooks ++ after ∧
      Interleaved (statements.take (group.position - index)) (early.flatMap hooks) before ∧
      Interleaved (statements.drop (group.position - index)) (late.flatMap hooks) after := by
  induction statements generalizing index early with
  | nil =>
    refine ⟨early.flatMap hooks, late.flatMap hooks, ?_, ?_, ?_⟩
    · simp only [merge, List.flatMap_append, List.flatMap_cons, List.append_assoc]
    · rw [List.take_nil]
      exact .onlyHooks _
    · rw [List.drop_nil]
      exact .onlyHooks _
  | cons statement rest ih =>
    by_cases due : group.position ≤ index
    · -- The group goes in front of the first statement, with all earlier ones.
      have allDue : ∀ earlier ∈ early, decide (earlier.position ≤ index) = true := by
        intro earlier member
        exact decide_eq_true (Nat.le_trans (ordered earlier member) due)
      have rest_eq := merge_cons index late statement rest
      refine ⟨early.flatMap hooks, merge index late (statement :: rest), ?_, ?_, ?_⟩
      · rw [merge_cons, rest_eq, List.takeWhile_append_of_pos allDue,
          List.dropWhile_append_of_pos allDue, List.takeWhile_cons, List.dropWhile_cons]
        simp only [due, decide_true, ↓reduceIte, List.flatMap_append, List.flatMap_cons,
          List.append_assoc]
      · rw [Nat.sub_eq_zero_of_le due, List.take_zero]
        exact .onlyHooks _
      · rw [Nat.sub_eq_zero_of_le due, List.drop_zero]
        exact merge_interleaved _ _ _
    · -- The first statement goes in front of the group.
      have notDue : decide (group.position ≤ index) = false := decide_eq_false due
      have later : group.position - index = group.position - (index + 1) + 1 := by omega
      obtain ⟨before, after, split, front, back⟩ :=
        ih (index + 1) (early.dropWhile fun group => group.position ≤ index)
          fun earlier member => ordered earlier ((List.dropWhile_sublist _).subset member)
      refine ⟨(early.takeWhile fun group => group.position ≤ index).flatMap hooks ++
        statement :: before, after, ?_, ?_, ?_⟩
      · obtain ⟨kept, dropped⟩ := takeWhile_stops
          (fun group => decide (group.position ≤ index)) early late notDue
        rw [merge_cons, kept, dropped, split]
        simp only [List.append_assoc, List.cons_append]
      · rw [later, List.take_succ_cons]
        have whole : early.flatMap hooks =
            (early.takeWhile fun group => group.position ≤ index).flatMap hooks ++
              (early.dropWhile fun group => group.position ≤ index).flatMap hooks := by
          rw [← List.flatMap_append, List.takeWhile_append_dropWhile]
        rw [whole]
        exact .prepend _ (.statement statement front)
      · rw [later, List.drop_succ_cons]
        exact back

/-- Splicing keeps the statements and puts all hooks among them. -/
theorem splice_interleaved (statements : List Tree) (groups : List HookGroup) :
    Interleaved statements ((sorted groups).flatMap hooks) (splice statements groups) :=
  merge_interleaved 0 (sorted groups) statements

/-- The hooks of a group stay together, behind exactly the statements before its position. -/
theorem splice_split (statements : List Tree) {groups : List HookGroup} {group : HookGroup}
    (member : group ∈ groups) :
    ∃ before after earlier later, splice statements groups = before ++ group.hooks ++ after ∧
      Interleaved (statements.take group.position) earlier before ∧
      Interleaved (statements.drop group.position) later after := by
  obtain ⟨early, late, sorted_eq⟩ := List.append_of_mem ((sorted_perm groups).mem_iff.mpr member)
  have ordered : ∀ earlier ∈ early, earlier.position ≤ group.position := by
    have pairwise := sorted_pairwise groups
    rw [sorted_eq, List.pairwise_append] at pairwise
    intro earlier found
    exact pairwise.2.2 earlier found group List.mem_cons_self
  obtain ⟨before, after, split, front, back⟩ :=
    merge_split 0 early late statements ordered
  rw [Nat.sub_zero] at front back
  refine ⟨before, after, _, _, ?_, front, back⟩
  rw [splice, sorted_eq, split]

end HookGroup

end JsxTracking
