import JsxTracking.Proofs.RecordedNames

/-! # The first statement that may leave its function

The scan of a body looks for the first statement with a `return` or `throw` of the function itself, and
passes over the functions and classes in it. Accessors of object literals have a bare block for a
body, and the scan looks into it: what leaves an accessor is taken to leave the function around it
(`Tree.canExit_iff`). So the scan finds the right statement as long as no such accessor stands before
it (`BodyScan.first_exit_iff`). -/

namespace JsxTracking

namespace Kind

/-- Whether a function of the kind has a bare block for a body: an accessor, or a constructor, which
only stands in classes. -/
def hasBareBody : Kind → Bool
  | getterProperty | setterProperty | constructor => true
  | _ => false

/-- What encloses a part is a function or a class. -/
theorem encloses_cases {kind : Kind} {field : Field} (inside : kind.encloses field = true) :
    kind.isFunction = true ∨ kind = classDeclaration ∨ kind = classExpression ∨
      kind.hasBareBody = true := by
  unfold encloses at inside
  split at inside
  case h_1 | h_2 | h_3 | h_14 => cases inside
  case h_4 | h_5 | h_6 | h_7 | h_8 => exact Or.inl rfl
  case h_9 | h_10 | h_11 => exact Or.inr (Or.inr (Or.inr rfl))
  case h_12 => exact Or.inr (Or.inl rfl)
  case h_13 => exact Or.inr (Or.inr (Or.inl rfl))

end Kind

namespace Tree

/-- What holds of a tree whenever it holds of its direct parts holds of every tree. -/
@[elab_as_elim]
theorem byParts {motive : Tree → Prop} (scalar : ∀ tree, tree.isScalar = true → motive tree)
    (list : ∀ items, (∀ item ∈ items, motive item) → motive (list items))
    (node : ∀ kind fields, (∀ part ∈ fields, motive part.2) → motive (node kind fields))
    (tree : Tree) : motive tree :=
  Tree.rec (motive_1 := motive) (motive_2 := fun items => ∀ item ∈ items, motive item)
    (motive_3 := fun fields => ∀ part ∈ fields, motive part.2) (motive_4 := fun part => motive part.2)
    (scalar _ rfl) (fun _ => scalar _ rfl) (fun _ => scalar _ rfl) (fun _ => scalar _ rfl) list node
    (fun _ member => absurd member List.not_mem_nil)
    (fun _ _ first rest => List.forall_mem_cons.mpr ⟨first, rest⟩)
    (fun _ member => absurd member List.not_mem_nil)
    (fun _ _ first rest => List.forall_mem_cons.mpr ⟨first, rest⟩)
    (fun _ _ whole => whole) tree

/-- A `return` or `throw` in a tree leaves an accessor in it: it stands in the body of one, and within
no other function and no class. -/
inductive LeavesAccessor : Tree → Prop
  | body {kind : Kind} {fields : Fields} {field : Field} (accessor : kind.hasBareBody = true)
      (inside : kind.encloses field = true) (exits : (Fields.get fields field).Exits) :
      LeavesAccessor (node kind fields)
  | part {kind : Kind} {fields : Fields} {field : Field}
      (entered : kind.encloses field = false ∨ kind.hasBareBody = true)
      (leaves : LeavesAccessor (Fields.get fields field)) : LeavesAccessor (node kind fields)
  | item {items : List Tree} {item : Tree} (member : item ∈ items) (leaves : LeavesAccessor item) :
      LeavesAccessor (list items)

theorem exists_part_of_fieldsCanExit {fields : Fields} (exits : fieldsCanExit fields = true) :
    ∃ part ∈ fields, part.2.canExit = true := by
  induction fields with
  | nil => cases exits
  | cons first rest ih =>
    rcases Bool.or_eq_true_iff.mp exits with here | later
    · exact ⟨first, List.mem_cons_self, here⟩
    · obtain ⟨part, member, found⟩ := ih later
      exact ⟨part, List.mem_cons_of_mem _ member, found⟩

theorem exists_key_of_keyCanExit {fields : Fields} (exits : keyCanExit fields = true) :
    ∃ part ∈ fields, part.1 = .key ∧ part.2.canExit = true := by
  induction fields with
  | nil => cases exits
  | cons first rest ih =>
    obtain ⟨field, part⟩ := first
    by_cases isKey : field = .key
    · subst isKey
      exact ⟨_, List.mem_cons_self, rfl, exits⟩
    · rw [keyCanExit.eq_3 _ _ fun _ same => isKey (Prod.mk.inj same).1] at exits
      obtain ⟨part, member, found⟩ := ih exits
      exact ⟨part, List.mem_cons_of_mem _ member, found⟩

theorem exists_item_of_itemsCanExit {items : List Tree} (exits : itemsCanExit items = true) :
    ∃ item ∈ items, item.canExit = true := by
  induction items with
  | nil => cases exits
  | cons first rest ih =>
    rcases Bool.or_eq_true_iff.mp exits with here | later
    · exact ⟨first, List.mem_cons_self, here⟩
    · obtain ⟨item, member, found⟩ := ih later
      exact ⟨item, List.mem_cons_of_mem _ member, found⟩

/-- A node that can exit is a `return` or `throw`, or some part of it can exit that lies outside of
functions and classes or in a function with a bare body. -/
theorem canExit_node {kind : Kind} {fields : Fields} (exits : (node kind fields).canExit = true) :
    (kind = .returnStatement ∨ kind = .throwStatement) ∨ ∃ part ∈ fields,
      part.2.canExit = true ∧ (kind.encloses part.1 = false ∨ kind.hasBareBody = true) := by
  unfold canExit at exits
  split at exits
  case h_1 same => exact Or.inl (Or.inl (node.inj same).1)
  case h_2 same => exact Or.inl (Or.inr (node.inj same).1)
  case h_3 | h_4 | h_5 | h_6 | h_7 | h_8 | h_12 => cases exits
  case h_9 same =>
    obtain ⟨rfl, rfl⟩ := node.inj same
    obtain ⟨part, member, isKey, found⟩ := exists_key_of_keyCanExit exits
    exact Or.inr ⟨part, member, found, Or.inl (isKey ▸ rfl)⟩
  case h_10 arrow declaration expression function classDeclaration classExpression method same =>
    obtain ⟨rfl, rfl⟩ := node.inj same
    obtain ⟨part, member, found⟩ := exists_part_of_fieldsCanExit exits
    refine Or.inr ⟨part, member, found, ?_⟩
    cases inside : kind.encloses part.1 with
    | false => exact Or.inl rfl
    | true =>
      rcases Kind.encloses_cases inside with isFunction | isClass | isClass | bare
      · rcases Kind.isFunction_cases isFunction with h | h | h | h | h
        · exact (declaration h).elim
        · exact (expression h).elim
        · exact (function h).elim
        · exact (arrow h).elim
        · exact (method h).elim
      · exact (classDeclaration isClass).elim
      · exact (classExpression isClass).elim
      · exact Or.inr bare
  case h_11 same => cases same

/-- What can exit in a part of a function with a bare body can exit. -/
theorem canExit_bare {kind : Kind} (bare : kind.hasBareBody = true) {fields : Fields} {field : Field}
    (exits : (Fields.get fields field).canExit = true) : (node kind fields).canExit = true := by
  have inParts := fieldsCanExit_of_get exits
  cases kind <;> first | exact inParts | cases bare

/-- What leaves an accessor in a tree can exit. -/
theorem LeavesAccessor.canExit {tree : Tree} (leaves : tree.LeavesAccessor) :
    tree.canExit = true := by
  induction leaves with
  | body accessor inside exits => exact canExit_bare accessor exits.canExit
  | part entered leaves ih => exact entered.elim (canExit_part · ih) (canExit_bare · ih)
  | item member leaves ih =>
    rw [Tree.canExit]
    exact itemsCanExit_of_mem member ih

/-- **A statement can exit if, and only if, it has a `return` or `throw` of the function around it or
of an accessor of an object literal.** -/
theorem canExit_iff (tree : Tree) (wellFormed : tree.isWellFormed = true) :
    tree.canExit = true ↔ tree.Exits ∨ tree.LeavesAccessor := by
  refine ⟨fun exits => ?_, fun cases => cases.elim Exits.canExit LeavesAccessor.canExit⟩
  induction tree using byParts with
  | scalar tree isScalar =>
    cases tree with
    | list | node => cases isScalar
    | null | bool | num | str => cases exits
  | list items ih =>
    obtain ⟨item, member, found⟩ := exists_item_of_itemsCanExit exits
    rcases ih item member (hereditary_isWellFormed.item wellFormed member) found with own | accessor
    · exact Or.inl (.item member own)
    · exact Or.inr (.item member accessor)
  | node kind fields ih =>
    rcases canExit_node exits with statement | ⟨⟨field, part⟩, member, found, entered⟩
    · exact Or.inl (.leaves statement)
    obtain ⟨distinct, -, parts, -⟩ := isWellFormed_node wellFormed
    have inside := ih _ member (parts _ member) found
    obtain rfl := Fields.get_of_mem distinct member
    rcases inside with own | accessor
    · cases inside : kind.encloses field with
      | false => exact Or.inl (.part inside own)
      | true =>
        refine Or.inr (.body (entered.resolve_left fun outside => ?_) inside own)
        exact Bool.false_ne_true (outside.symm.trans inside)
    · exact Or.inr (.part entered accessor)

theorem not_exits_node {kind : Kind} {fields : Fields}
    (stays : kind ≠ .returnStatement ∧ kind ≠ .throwStatement)
    (parts : ∀ part ∈ fields, kind.encloses part.1 = true ∨ ¬part.2.Exits) :
    ¬(node kind fields).Exits := by
  intro exits
  cases exits with
  | leaves statement => exact statement.elim stays.1 stays.2
  | @part _ _ field outside inside =>
    unfold Fields.get at inside
    cases found : fields.lookup field with
    | none =>
      rw [found] at inside
      exact nomatch inside
    | some part =>
      rw [found] at inside
      obtain ⟨before, after, rfl, -⟩ := List.lookup_eq_some_iff.mp found
      rcases parts (field, part) (List.mem_append_right _ List.mem_cons_self) with enclosed | silent
      · exact Bool.false_ne_true (outside.symm.trans enclosed)
      · exact silent inside

theorem not_exits_list {items : List Tree} (each : ∀ item ∈ items, ¬item.Exits) :
    ¬(list items).Exits := by
  rintro (_ | _ | ⟨member, exits⟩)
  exact each _ member exits

end Tree

namespace BodyScan

/-- An index is that of the first statement with a `return` or `throw` of the function itself; without
such a statement it is the end of the body. -/
structure FirstExit (statements : List Tree) (index : Nat) : Prop where
  within : index ≤ statements.length
  earlier : ∀ before < index, ∀ statement, statements[before]? = some statement → ¬statement.Exits
  here : ∀ statement, statements[index]? = some statement → statement.Exits

/-- **The scan finds the first statement with a `return` or `throw` of the function** if, and only if,
no accessor with one stands in an earlier statement. For a single statement it is right unless the
only ones in it leave an accessor. -/
theorem first_exit_iff {statements : List Tree}
    (wellFormed : Tree.itemsAreWellFormed statements = true) :
    (∀ statement ∈ statements, (statement.canExit = true ↔ statement.Exits) ↔
      (statement.LeavesAccessor → statement.Exits)) ∧
    (FirstExit statements (ofStatements statements).firstExit ↔
      ∀ (index : Nat) (statement : Tree), statements[index]? = some statement →
        statement.LeavesAccessor → ∃ before ≤ index, ∃ leaving : Tree,
          statements[before]? = some leaving ∧ leaving.Exits) := by
  have exits_iff {statement : Tree} (member : statement ∈ statements) :=
    statement.canExit_iff (Tree.itemsAreWellFormed_iff.mp wellFormed statement member)
  have late {index : Nat} {statement : Tree} (found : statements[index]? = some statement)
      (early : index < (ofStatements statements).firstExit) : statement.canExit = false := by
    obtain ⟨inside, rfl⟩ := List.getElem?_eq_some_iff.mp found
    exact Bool.eq_false_iff.mpr (Bool.eq_false_iff.mp (List.not_of_lt_findIdx early))
  refine ⟨fun statement member => ?_, fun first index statement found leaves => ?_, fun behind => ?_⟩
  · rw [exits_iff member]
    tauto
  · have reached : (ofStatements statements).firstExit ≤ index := by
      by_contra early
      have stays := late found (Nat.lt_of_not_le early)
      exact Bool.false_ne_true (stays.symm.trans leaves.canExit)
    obtain ⟨inside, -⟩ := List.getElem?_eq_some_iff.mp found
    have at_ := List.getElem?_eq_getElem (Nat.lt_of_le_of_lt reached inside)
    exact ⟨_, reached, _, at_, first.here _ at_⟩
  · refine ⟨List.findIdx_le_length, fun before early statement found exits => ?_,
      fun statement found => ?_⟩
    · exact Bool.false_ne_true ((late found early).symm.trans exits.canExit)
    · obtain ⟨inside, same⟩ := List.getElem?_eq_some_iff.mp found
      have exits : statement.canExit = true := same ▸ List.findIdx_getElem
      rcases (exits_iff (List.mem_of_getElem? found)).mp exits with own | accessor
      · exact own
      · obtain ⟨before, reached, leaving, there, own⟩ := behind _ statement found accessor
        rcases Nat.lt_or_eq_of_le reached with early | rfl
        · exact absurd (late there early) (by simp [own.canExit])
        · obtain rfl := Option.some.inj (there.symm.trans found)
          exact own

/-- `const box = { get size() { return 1; } };` -/
def boxStatement : Tree :=
  Code.constant "box" (.node .objectExpression [(.properties, .list [.node .getterProperty
    [(.key, Code.propertyName "size"), (.body, Code.block [Code.returnValue (Code.number "1")])]])])

/-- Behind a `return` of the function, an accessor is not mistaken. -/
theorem first_exit_iff_guarded :
    let statements := [Code.ifThen (Code.reference "hidden") [Code.returnNothing], boxStatement]
    Tree.itemsAreWellFormed statements = true ∧
      FirstExit statements (ofStatements statements).firstExit := by
  intro statements
  have wellFormed : Tree.itemsAreWellFormed statements = true := by decide +kernel
  have guard : (Code.ifThen (Code.reference "hidden") [Code.returnNothing]).Exits :=
    .part (rfl : Kind.encloses .ifStatement .consequent = false)
      (.part (rfl : Kind.encloses .blockStatement .stmts = false)
        (.item List.mem_cons_self (.leaves (Or.inl rfl))))
  exact ⟨wellFormed, (first_exit_iff wellFormed).2.mpr fun index _ _ _ =>
    ⟨0, Nat.zero_le index, _, rfl, guard⟩⟩

/-- The accessor of a box is taken to leave the function that makes the box. -/
theorem accessor_taken_for_exit :
    ¬ FirstExit [boxStatement, Code.returnValue (Code.reference "box")]
      (ofStatements [boxStatement, Code.returnValue (Code.reference "box")]).firstExit := by
  intro first
  have silent {tree : Tree} (stays : tree.canExit = false) : ¬tree.Exits :=
    fun exits => Bool.false_ne_true (stays.symm.trans exits.canExit)
  refine Tree.not_exits_node (by decide) ?_ (first.here boxStatement rfl)
  refine List.forall_mem_cons.mpr ⟨Or.inr (Tree.not_exits_list (List.forall_mem_singleton.mpr
    (Tree.not_exits_node (by decide) (List.forall_mem_cons.mpr ⟨Or.inr (silent rfl),
      List.forall_mem_singleton.mpr (Or.inr (Tree.not_exits_node (by decide) ?_))⟩)))),
    List.forall_mem_singleton.mpr (Or.inr (silent rfl))⟩
  -- In the object, only the body of the accessor is left.
  refine List.forall_mem_singleton.mpr (Or.inr (Tree.not_exits_list (List.forall_mem_singleton.mpr
    (Tree.not_exits_node (by decide) ?_))))
  exact List.forall_mem_cons.mpr ⟨Or.inr (silent rfl), List.forall_mem_singleton.mpr (Or.inl rfl)⟩

end BodyScan

end JsxTracking
