import JsxTracking.Proofs.FreshHandles
import JsxTracking.Proofs.Images

/-! # Counting names

Whether a variable is declared once and used in one place only is a matter of counting the nodes of
a tree (`Tree.countNodes`). The nodes of the hooks of an element that are spelled like the variable
of a handle are counted here: there are none if the element has another handle, and one of them is a
declaration if it has this one (`Hooks.countNodesInItems_ofElement`). -/

namespace JsxTracking

namespace Kind

/-- Whether a node of the kind is an identifier. -/
def isVariable : Kind → Bool
  | identifier | binding => true
  | _ => false

/-- Whether a node of the kind is an identifier in a pattern. -/
def isBinding : Kind → Bool
  | binding => true
  | _ => false

theorem isVariable_of_isBinding {kind : Kind} (bound : kind.isBinding = true) :
    kind.isVariable = true := by
  cases kind <;> first | rfl | exact absurd bound Bool.false_ne_true

end Kind

namespace Tree

mutual

/-- The number of nodes in a tree that pass a test. -/
def countNodes (test : Kind → Fields → Bool) : Tree → Nat
  | node kind fields => (test kind fields).toNat + countNodesInFields test fields
  | list items => countNodesInItems test items
  | _ => 0

/-- The number of nodes in a list of trees that pass a test. -/
def countNodesInItems (test : Kind → Fields → Bool) : List Tree → Nat
  | [] => 0
  | item :: rest => countNodes test item + countNodesInItems test rest

/-- The number of nodes in the parts of a node that pass a test. -/
def countNodesInFields (test : Kind → Fields → Bool) : List (Field × Tree) → Nat
  | [] => 0
  | (_, part) :: rest => countNodes test part + countNodesInFields test rest

end

/-- Whether a node is an identifier of some kind with a name. -/
def spells (counted : Kind → Bool) (name : String) (kind : Kind) (fields : Fields) : Bool :=
  counted kind && (Fields.get fields .value).text? = some name

/-- Whether a node is the given tree. -/
def isCopy (target : Tree) (kind : Kind) (fields : Fields) : Bool :=
  node kind fields = target

section

variable (test : Kind → Fields → Bool)

theorem countNodesInItems_append (first second : List Tree) :
    countNodesInItems test (first ++ second) =
      countNodesInItems test first + countNodesInItems test second := by
  induction first with
  | nil => exact (Nat.zero_add _).symm
  | cons item rest ih =>
    rw [List.cons_append, countNodesInItems, countNodesInItems, ih, Nat.add_assoc]

theorem countNodesInFields_append (first second : Fields) :
    countNodesInFields test (first ++ second) =
      countNodesInFields test first + countNodesInFields test second := by
  induction first with
  | nil => exact (Nat.zero_add _).symm
  | cons part rest ih =>
    rw [List.cons_append, countNodesInFields, countNodesInFields, ih, Nat.add_assoc]

theorem countNodesInItems_perm {first second : List Tree} (perm : first.Perm second) :
    countNodesInItems test first = countNodesInItems test second := by
  induction perm with
  | nil => rfl
  | cons item _ ih => rw [countNodesInItems, countNodesInItems, ih]
  | swap item other rest => exact Nat.add_left_comm ..
  | trans _ _ ih ih' => rw [ih, ih']

theorem countNodesInItems_eq_zero {items : List Tree}
    (none : ∀ item ∈ items, countNodes test item = 0) : countNodesInItems test items = 0 := by
  induction items with
  | nil => rfl
  | cons item rest ih =>
    rw [countNodesInItems, none item List.mem_cons_self,
      ih fun item member => none item (List.mem_cons_of_mem _ member)]

theorem countNodesInFields_eq_zero {fields : Fields}
    (none : ∀ part ∈ fields, countNodes test part.2 = 0) : countNodesInFields test fields = 0 := by
  induction fields with
  | nil => rfl
  | cons part rest ih =>
    rw [countNodesInFields, none part List.mem_cons_self,
      ih fun part member => none part (List.mem_cons_of_mem _ member)]

theorem countNodes_le_items {items : List Tree} {item : Tree} (member : item ∈ items) :
    countNodes test item ≤ countNodesInItems test items := by
  obtain ⟨before, after, rfl⟩ := List.append_of_mem member
  rw [countNodesInItems_append, countNodesInItems]
  omega

theorem countNodes_le_fields {fields : Fields} {field : Field} {item : Tree}
    (member : (field, item) ∈ fields) :
    countNodes test item ≤ countNodesInFields test fields := by
  obtain ⟨before, after, rfl⟩ := List.append_of_mem member
  rw [countNodesInFields_append, countNodesInFields]
  omega

theorem countNodes_fields_get_le (fields : Fields) (field : Field) :
    (Fields.get fields field).countNodes test ≤ countNodesInFields test fields := by
  unfold Fields.get
  cases found : fields.lookup field with
  | none => exact Nat.zero_le _
  | some part =>
    obtain ⟨before, after, rfl, -⟩ := List.lookup_eq_some_iff.mp found
    exact countNodes_le_fields test (List.mem_append_right _ List.mem_cons_self)

theorem countNodes_get_le (tree : Tree) (field : Field) :
    (tree.get field).countNodes test ≤ tree.countNodes test := by
  cases tree with
  | node kind fields =>
    exact Nat.le_trans (countNodes_fields_get_le test fields field) (Nat.le_add_left _ _)
  | null | bool | num | str | list => exact Nat.zero_le _

theorem countNodesInItems_le (tree : Tree) :
    countNodesInItems test tree.items ≤ tree.countNodes test := by
  cases tree with
  | list items => exact Nat.le_refl _
  | null | bool | num | str | node => exact Nat.zero_le _

/-- Different parts of a node are counted separately. -/
theorem countNodes_add_get_le {fields : Fields} {field other : Field} {part : Tree}
    (member : (field, part) ∈ fields) (differs : field ≠ other) :
    countNodes test part + (Fields.get fields other).countNodes test ≤
      countNodesInFields test fields := by
  induction fields with
  | nil => exact absurd member List.not_mem_nil
  | cons first rest ih =>
    obtain ⟨here, tree⟩ := first
    rw [countNodesInFields, Fields.get_cons]
    rcases List.mem_cons.mp member with same | later
    · obtain ⟨rfl, rfl⟩ := Prod.mk.inj same
      rw [if_neg differs.symm]
      exact Nat.add_le_add_left (countNodes_fields_get_le test rest other) _
    · have bound := ih later
      have single := countNodes_le_fields test later
      split <;> omega

/-- A tree has all the nodes of every tree that stands in it. -/
theorem Occurs.countNodes_le {part tree : Tree} (occurs : part.Occurs tree) :
    part.countNodes test ≤ tree.countNodes test := by
  induction occurs with
  | self => exact Nat.le_refl _
  | item member occurs ih => exact Nat.le_trans ih (countNodes_le_items test member)
  | part member occurs ih =>
    rw [countNodes]
    exact Nat.le_trans ih (Nat.le_trans (countNodes_le_fields test member) (Nat.le_add_left _ _))

mutual

/-- Nodes that pass a stricter test are fewer. -/
theorem countNodes_mono {loose : Kind → Fields → Bool}
    (implied : ∀ kind fields, test kind fields = true → loose kind fields = true) :
    ∀ tree : Tree, tree.countNodes test ≤ tree.countNodes loose
  | node kind fields => by
    have here : (test kind fields).toNat ≤ (loose kind fields).toNat := by
      cases passes : test kind fields with
      | false => exact Nat.zero_le _
      | true => exact Nat.le_of_eq (congrArg Bool.toNat (implied kind fields passes).symm)
    exact Nat.add_le_add here (countNodesInFields_mono implied fields)
  | list items => countNodesInItems_mono implied items
  | null | bool _ | num _ | str _ => Nat.le_refl _

/-- Nodes that pass a stricter test are fewer in a list of trees. -/
theorem countNodesInItems_mono {loose : Kind → Fields → Bool}
    (implied : ∀ kind fields, test kind fields = true → loose kind fields = true) :
    ∀ items : List Tree, countNodesInItems test items ≤ countNodesInItems loose items
  | [] => Nat.le_refl _
  | item :: rest =>
    Nat.add_le_add (countNodes_mono implied item) (countNodesInItems_mono implied rest)

/-- Nodes that pass a stricter test are fewer in the parts of a node. -/
theorem countNodesInFields_mono {loose : Kind → Fields → Bool}
    (implied : ∀ kind fields, test kind fields = true → loose kind fields = true) :
    ∀ fields : List (Field × Tree), countNodesInFields test fields ≤ countNodesInFields loose fields
  | [] => Nat.le_refl _
  | (_, part) :: rest =>
    Nat.add_le_add (countNodes_mono implied part) (countNodesInFields_mono implied rest)

end

end

mutual

/-- If a tree has no copy of itself besides itself and some node in it passes a test, another tree
has no more copies of it than nodes that pass the test. -/
theorem countNodes_isCopy_le {target : Tree} {test : Kind → Fields → Bool}
    (alone : target.countNodes (isCopy target) = 1) (marked : 1 ≤ target.countNodes test) :
    ∀ tree : Tree, tree.countNodes (isCopy target) ≤ tree.countNodes test
  | node kind fields => by
    cases copied : isCopy target kind fields with
    | true =>
      rw [of_decide_eq_true copied, alone]
      exact marked
    | false =>
      rw [countNodes, countNodes, copied, Bool.toNat_false, Nat.zero_add]
      exact Nat.le_trans (countNodesInFields_isCopy_le alone marked fields) (Nat.le_add_left _ _)
  | list items => countNodesInItems_isCopy_le alone marked items
  | null | bool _ | num _ | str _ => Nat.le_refl _

/-- `Tree.countNodes_isCopy_le` for a list of trees. -/
theorem countNodesInItems_isCopy_le {target : Tree} {test : Kind → Fields → Bool}
    (alone : target.countNodes (isCopy target) = 1) (marked : 1 ≤ target.countNodes test) :
    ∀ items : List Tree, countNodesInItems (isCopy target) items ≤ countNodesInItems test items
  | [] => Nat.le_refl _
  | item :: rest => Nat.add_le_add (countNodes_isCopy_le alone marked item)
      (countNodesInItems_isCopy_le alone marked rest)

/-- `Tree.countNodes_isCopy_le` for the parts of a node. -/
theorem countNodesInFields_isCopy_le {target : Tree} {test : Kind → Fields → Bool}
    (alone : target.countNodes (isCopy target) = 1) (marked : 1 ≤ target.countNodes test) :
    ∀ fields : List (Field × Tree),
      countNodesInFields (isCopy target) fields ≤ countNodesInFields test fields
  | [] => Nat.le_refl _
  | (_, part) :: rest => Nat.add_le_add (countNodes_isCopy_le alone marked part)
      (countNodesInFields_isCopy_le alone marked rest)

end

/-- Whether a tree is a variable with its initial value. Nothing else in it declares a name. -/
def isDeclarator : Tree → Bool
  | node .variableDeclarator parts => parts.all fun part =>
      part.1 = .id || part.1 = .initializer || part.2.declaredNames.isEmpty
  | _ => false

/-- Whether the parts of a variable declaration are a list of declarators and what declares no
names. -/
def listsDeclarators (fields : Fields) : Bool :=
  fields.all fun part =>
    if part.1 = .declarations then part.2.isList && part.2.items.all isDeclarator
    else part.2.declaredNames.isEmpty

mutual

/-- Whether a tree is made as a parser makes it: no node has a part twice, a block lists its
statements, an identifier holds no other one, and a variable declaration lists its declarators. -/
def isWellFormed : Tree → Bool
  | node kind fields => (fields.map Prod.fst).Nodup &&
      (kind ≠ .blockStatement || (Fields.get fields .stmts).isList) &&
      (kind ≠ .identifier || (identifiersInFields fields).isEmpty) &&
      (kind ≠ .variableDeclaration || listsDeclarators fields) && fieldsAreWellFormed fields
  | list items => itemsAreWellFormed items
  | _ => true

/-- Whether a list of trees is made as a parser makes it. -/
def itemsAreWellFormed : List Tree → Bool
  | [] => true
  | item :: rest => isWellFormed item && itemsAreWellFormed rest

/-- Whether the parts of a node are made as a parser makes them. -/
def fieldsAreWellFormed : List (Field × Tree) → Bool
  | [] => true
  | (_, part) :: rest => isWellFormed part && fieldsAreWellFormed rest

end

theorem itemsAreWellFormed_iff {items : List Tree} :
    itemsAreWellFormed items = true ↔ ∀ item ∈ items, item.isWellFormed = true := by
  induction items with
  | nil => exact ⟨fun _ _ member => absurd member List.not_mem_nil, fun _ => rfl⟩
  | cons item rest ih => rw [itemsAreWellFormed, Bool.and_eq_true, ih, List.forall_mem_cons]

theorem fieldsAreWellFormed_iff {fields : Fields} :
    fieldsAreWellFormed fields = true ↔ ∀ part ∈ fields, part.2.isWellFormed = true := by
  induction fields with
  | nil => exact ⟨fun _ _ member => absurd member List.not_mem_nil, fun _ => rfl⟩
  | cons part rest ih => rw [fieldsAreWellFormed, Bool.and_eq_true, ih, List.forall_mem_cons]

/-- The parts of a well-formed node. -/
theorem isWellFormed_node {kind : Kind} {fields : Fields}
    (wellFormed : (node kind fields).isWellFormed = true) :
    (fields.map Prod.fst).Nodup ∧
      (kind = .blockStatement → (Fields.get fields .stmts).isList = true) ∧
      (∀ part ∈ fields, part.2.isWellFormed = true) ∧
      (kind = .variableDeclaration → listsDeclarators fields = true) := by
  simp only [isWellFormed, Bool.and_eq_true, decide_eq_true_eq] at wellFormed
  obtain ⟨⟨⟨⟨distinct, listed⟩, -⟩, declarators⟩, parts⟩ := wellFormed
  refine ⟨distinct, fun block => ?_, fieldsAreWellFormed_iff.mp parts, fun declaration => ?_⟩
  · subst block
    simpa using listed
  · subst declaration
    simpa using declarators

/-- A node that is no identifier is not counted as one. -/
theorem spells_other {counted : Kind → Bool}
    (names : ∀ kind, counted kind = true → kind.isVariable = true) {kind : Kind}
    (other : kind.isVariable = false) (name : String) (fields : Fields) :
    spells counted name kind fields = false := by
  have uncounted : counted kind = false := by
    rw [Bool.eq_false_iff]
    intro passes
    exact absurd (other.symm.trans (names kind passes)) Bool.false_ne_true
  rw [spells, uncounted, Bool.false_and]

theorem spells_of_not_mem (counted : Kind → Bool) {name : String} (kind : Kind) {fields : Fields}
    (absent : name ∉ (Fields.get fields .value).text?.toList) :
    spells counted name kind fields = false := by
  refine Bool.and_eq_false_iff.mpr (Or.inr (decide_eq_false fun same => absent ?_))
  rw [same]
  exact List.mem_singleton.mpr rfl

mutual

/-- A name that is not among the identifiers of a tree does not occur in it. -/
theorem countNodes_spells_eq_zero {counted : Kind → Bool} {name : String}
    (names : ∀ kind, counted kind = true → kind.isVariable = true) :
    ∀ tree : Tree, tree.isWellFormed = true → name ∉ tree.identifiers →
      tree.countNodes (spells counted name) = 0
  | node kind fields, wellFormed, absent => by
    simp only [isWellFormed, Bool.and_eq_true] at wellFormed
    obtain ⟨⟨⟨-, alone⟩, -⟩, wellFormedParts⟩ := wellFormed
    rw [countNodes]
    by_cases isIdentifier : kind = .identifier
    · subst isIdentifier
      have nothing : name ∉ identifiersInFields fields := by
        have empty : (identifiersInFields fields).isEmpty = true := by simpa using alone
        rw [List.isEmpty_iff.mp empty]
        exact List.not_mem_nil
      rw [spells_of_not_mem counted _ absent,
        countNodesInFields_spells_eq_zero names fields wellFormedParts nothing]
      rfl
    · by_cases isBinding : kind = .binding
      · subst isBinding
        rw [identifiers, List.mem_append, not_or] at absent
        rw [spells_of_not_mem counted _ absent.1,
          countNodesInFields_spells_eq_zero names fields wellFormedParts absent.2]
        rfl
      · have other : kind.isVariable = false := by
          cases kind <;> first | rfl | exact absurd rfl isIdentifier | exact absurd rfl isBinding
        rw [identifiers.eq_3 kind fields isIdentifier isBinding] at absent
        rw [spells_other names other,
          countNodesInFields_spells_eq_zero names fields wellFormedParts absent]
        rfl
  | list items, wellFormed, absent =>
    countNodesInItems_spells_eq_zero names items wellFormed absent
  | null, _, _ | bool _, _, _ | num _, _, _ | str _, _, _ => rfl

/-- A name that is not among the identifiers of some trees does not occur in them. -/
theorem countNodesInItems_spells_eq_zero {counted : Kind → Bool} {name : String}
    (names : ∀ kind, counted kind = true → kind.isVariable = true) :
    ∀ items : List Tree, itemsAreWellFormed items = true → name ∉ identifiersInItems items →
      countNodesInItems (spells counted name) items = 0
  | [], _, _ => rfl
  | item :: rest, wellFormed, absent => by
    obtain ⟨first, later⟩ := Bool.and_eq_true_iff.mp wellFormed
    rw [identifiersInItems, List.mem_append, not_or] at absent
    rw [countNodesInItems, countNodes_spells_eq_zero names item first absent.1,
      countNodesInItems_spells_eq_zero names rest later absent.2]

/-- A name that is not among the identifiers of the parts of a node does not occur in them. -/
theorem countNodesInFields_spells_eq_zero {counted : Kind → Bool} {name : String}
    (names : ∀ kind, counted kind = true → kind.isVariable = true) :
    ∀ fields : List (Field × Tree), fieldsAreWellFormed fields = true →
      name ∉ identifiersInFields fields → countNodesInFields (spells counted name) fields = 0
  | [], _, _ => rfl
  | (_, part) :: rest, wellFormed, absent => by
    obtain ⟨first, later⟩ := Bool.and_eq_true_iff.mp wellFormed
    rw [identifiersInFields, List.mem_append, not_or] at absent
    rw [countNodesInFields, countNodes_spells_eq_zero names part first absent.1,
      countNodesInFields_spells_eq_zero names rest later absent.2]

end

end Tree

/-- A name without the letter that all references have in one place is none of theirs. -/
theorem ElementHandle.ne_name {text : String} (other : text.toList[8]? ≠ some 'R')
    (handle : ElementHandle) : text ≠ handle.name := by
  rintro rfl
  rw [toList_name] at other
  exact other rfl

theorem ElementHandle.clickCallback_ne_name (handle other : ElementHandle) :
    handle.clickCallback ≠ other.name := by
  refine ne_name ?_ other
  rw [toList_clickCallback]
  exact fun same => absurd (Option.some.inj same) (by decide)

theorem ElementHandle.visibilityState_ne_name (handle other : ElementHandle) :
    handle.visibilityState ≠ other.name := by
  refine ne_name ?_ other
  rw [toList_visibilityState]
  exact fun same => absurd (Option.some.inj same) (by decide)

open JsxTracking.Tree in
/-- The hooks of a marker do not declare a reference, and use only the one of their own handle. -/
theorem Hooks.countNodesInItems_ofMarker {counted : Kind → Bool}
    (names : ∀ kind, counted kind = true → kind.isVariable = true) {handle own : ElementHandle}
    (elsewhere : counted .identifier = true → own ≠ handle) (runtimeGlobal : String)
    (kind : MarkerKind) {value : MarkerValue}
    (clean : ∀ expression, value = .dynamic expression →
      expression.countNodes (spells counted handle.name) = 0) :
    countNodesInItems (spells counted handle.name) (ofMarker own runtimeGlobal (kind, value)) =
      0 := by
  have otherClick := own.clickCallback_ne_name handle
  have otherState := own.visibilityState_ne_name handle
  have unused : spells counted handle.name .identifier [(.value, .str own.name)] = false := by
    refine Bool.and_eq_false_iff.mpr ?_
    rcases Bool.eq_false_or_eq_true (counted .identifier) with uses | not
    · refine Or.inr (decide_eq_false fun same => elsewhere uses ?_)
      exact ElementHandle.name_injective (Option.some.inj same)
    · exact Or.inl not
  cases kind <;> cases value <;>
    simp (disch := decide) [ofMarker, visibility, click, Visibility.state,
      Visibility.watching, Visibility.unmounting, Visibility.readCurrent,
      Visibility.disconnectPrevious, Visibility.resetState, Visibility.observerCallback,
      Click.listener, Click.binding, Click.listenerCall, Click.dependencies, Code.constant,
      Code.call, Code.perform, Code.arrow, Code.arrowTo, Code.block, Code.ifThen, Code.unary,
      Code.binary, Code.member, Code.methodCall, Code.guardedRuntimeCall, Code.construct,
      Code.object, Code.number, Code.string, Code.reference, Code.binding, Code.propertyName,
      Code.arguments, Code.array, Code.assignMember, Code.nullLiteral, Code.returnNothing,
      Code.returnValue, Code.typeofIs, countNodes, countNodesInItems, countNodesInFields,
      spells_other names, MarkerValue.expression, unused] <;>
    simp (disch := first | decide | rfl) [spells, Fields.get, text?, otherClick, otherState,
      HookNames.useEffect, HookNames.useCallback, HookNames.useRef, ElementHandle.ne_name,
      Visibility.stateName, Visibility.elementName, Visibility.observerName,
      Visibility.entriesName, Visibility.entryName, Click.elementName, clean]

open JsxTracking.Tree in
/-- The hooks of an element declare the reference of their handle once. -/
theorem Hooks.countNodesInItems_ofElement {counted : Kind → Bool}
    (names : ∀ kind, counted kind = true → kind.isVariable = true) {handle own : ElementHandle}
    (elsewhere : counted .identifier = true → own ≠ handle) (runtimeGlobal : String)
    {markers : ElementMarkers}
    (clean : ∀ expression ∈ markers.dynamicExpressions,
      expression.countNodes (spells counted handle.name) = 0) :
    countNodesInItems (spells counted handle.name) (ofElement own runtimeGlobal markers) =
      (counted .binding && own = handle).toNat := by
  have declared : (declaration own).countNodes (spells counted handle.name) =
      (counted .binding && own = handle).toNat := by
    have same : (own.name = handle.name) = (own = handle) :=
      propext ⟨ElementHandle.name_injective, fun same => same ▸ rfl⟩
    simp (disch := decide) [declaration, Code.constant, Code.call, Code.binding,
      Code.reference, Code.arguments, Code.nullLiteral, countNodes, countNodesInItems,
      countNodesInFields, spells_other names, HookNames.useRef]
    simp (disch := decide) [spells, Fields.get, text?, ElementHandle.ne_name, same]
  have others : countNodesInItems (spells counted handle.name)
      (markers.values.flatMap (ofMarker own runtimeGlobal)) = 0 := by
    refine countNodesInItems_eq_zero _ fun hook member => ?_
    obtain ⟨⟨kind, value⟩, valued, among⟩ := List.mem_flatMap.mp member
    have none := countNodesInItems_ofMarker names elsewhere runtimeGlobal kind
      fun expression (dynamic : value = .dynamic expression) => clean expression
        (List.mem_filterMap.mpr ⟨(kind, value), valued, by rw [dynamic]⟩)
    have bound := countNodes_le_items (spells counted handle.name) among
    omega
  rw [ofElement, countNodesInItems, declared, others, Nat.add_zero]

open JsxTracking.Tree in
theorem HookGroup.countNodesInItems_splice (test : Kind → Fields → Bool) (statements : List Tree)
    (groups : List HookGroup) : countNodesInItems test (splice statements groups) =
      countNodesInItems test statements + countNodesInItems test (groups.flatMap hooks) := by
  rw [countNodesInItems_perm test (splice_interleaved statements groups).perm,
    countNodesInItems_append,
    countNodesInItems_perm test ((sorted_perm groups).flatMap_right hooks)]

section

variable {counted : Kind → Bool} (names : ∀ kind, counted kind = true → kind.isVariable = true)
  {name : String}
include names

open JsxTracking.Tree in
/-- Hooks that are put into a body, once or more or not at all, bring their own names. -/
theorem HookGroup.countNodes_spliceBody (groups : List HookGroup) (body : Tree) :
    ∃ times, (spliceBody groups body).countNodes (spells counted name) =
      body.countNodes (spells counted name) +
        times * countNodesInItems (spells counted name) (groups.flatMap hooks) := by
  unfold spliceBody
  split
  · exact ⟨0, by rw [Nat.zero_mul, Nat.add_zero]⟩
  split
  case h_1 => exact ⟨0, by rw [Nat.zero_mul, Nat.add_zero]⟩
  case h_2 parts =>
    rw [countNodes, countNodes, spells_other names rfl, spells_other names rfl]
    induction parts with
    | nil => exact ⟨0, by rw [Nat.zero_mul, Nat.add_zero]; rfl⟩
    | cons part rest ih =>
      obtain ⟨times, later⟩ := ih
      rw [List.map_cons, countNodesInFields, countNodesInFields]
      split
      · refine ⟨times + 1, ?_⟩
        rw [countNodes, countNodesInItems_splice, countNodes, Nat.add_mul]
        omega
      · exact ⟨times, by omega⟩
  case h_3 =>
    refine ⟨1, ?_⟩
    rw [countNodes, spells_other names rfl, countNodesInFields, countNodesInFields, countNodes,
      countNodesInItems_append, countNodesInItems_splice, countNodesInItems, countNodesInItems,
      countNodesInItems, countNodes, spells_other names rfl, countNodesInFields,
      countNodesInFields, Bool.toNat_false]
    omega

open JsxTracking.Tree in
/-- Hooks that are put into a function bring their own names. -/
theorem Fields.countNodesInFields_spliceBody (name : String) (groups : List HookGroup)
    (parts : Fields) :
    ∃ times, countNodesInFields (spells counted name) (parts.spliceBody groups) =
      countNodesInFields (spells counted name) parts +
        times * countNodesInItems (spells counted name) (groups.flatMap HookGroup.hooks) := by
  rw [spliceBody_eq_map]
  induction parts with
  | nil => exact ⟨0, by rw [Nat.zero_mul]; rfl⟩
  | cons part rest ih =>
    obtain ⟨times, later⟩ := ih
    rw [List.map_cons, countNodesInFields, countNodesInFields, later]
    split
    · obtain ⟨here, first⟩ := HookGroup.countNodes_spliceBody names groups part.2
      exact ⟨here + times, by rw [first, Nat.add_mul]; omega⟩
    · exact ⟨times, by omega⟩

open JsxTracking.Tree in
/-- What an element forwards to is made of the reference it had and the expressions it spreads. -/
theorem ElementRef.countNodes_forwarded (explicit? : Option Tree) {spreads : List Tree}
    (clean : countNodesInItems (spells counted name) spreads = 0) :
    countNodesInItems (spells counted name) (forwarded? explicit? spreads).toList =
      countNodesInItems (spells counted name) explicit?.toList := by
  unfold forwarded?
  induction spreads generalizing explicit? with
  | nil => rfl
  | cons spread rest ih =>
    rw [countNodesInItems, Nat.add_eq_zero_iff] at clean
    obtain ⟨cleanSpread, cleanRest⟩ := clean
    rw [List.foldl_cons, ih _ cleanRest]
    cases explicit? <;>
      simp (disch := decide) [Code.binary, Code.member, Code.propertyName, countNodesInItems,
        countNodes, countNodesInFields, spells_other names, cleanSpread]

open JsxTracking.Tree in
/-- A generated attribute uses only the reference of its own handle, apart from what it forwards to
and the hooks put into the function that forwards. -/
theorem Attachment.countNodes_attribute {handle : ElementHandle} (attachment : Attachment)
    (elsewhere : counted .identifier = true → attachment.handle ≠ handle) (explicit? : Option Tree)
    (groups : List HookGroup)
    (clean : countNodesInItems (spells counted handle.name) attachment.spreads = 0)
    (unused : explicit? = none →
      countNodesInItems (spells counted handle.name) (groups.flatMap HookGroup.hooks) = 0) :
    (attachment.attribute explicit? groups).countNodes (spells counted handle.name) =
      countNodesInItems (spells counted handle.name) explicit?.toList +
        countNodesInItems (spells counted handle.name) (groups.flatMap HookGroup.hooks) := by
  have own : spells counted handle.name .identifier [(.value, .str attachment.handle.name)] =
      false := by
    refine Bool.and_eq_false_iff.mpr ?_
    rcases Bool.eq_false_or_eq_true (counted .identifier) with uses | not
    · refine Or.inr (decide_eq_false fun same => elsewhere uses ?_)
      exact ElementHandle.name_injective (Option.some.inj same)
    · exact Or.inl not
  rw [← ElementRef.countNodes_forwarded names explicit? clean]
  unfold Attachment.attribute
  cases forwards : ElementRef.forwarded? explicit? attachment.spreads with
  | none =>
    have noReference : explicit? = none := by
      cases explicit? with
      | none => rfl
      | some earlier =>
        obtain ⟨reference, found⟩ := ElementRef.exists_forwarded earlier attachment.spreads
        cases found.symm.trans forwards
    rw [unused noReference]
    simp (disch := decide) [Code.jsxAttribute, Code.propertyName, Code.reference, countNodes,
      countNodesInFields, countNodesInItems, spells_other names, own]
  | some reference =>
    simp (disch := decide) [Code.jsxAttribute, Code.propertyName,
      ElementRef.forwardingFunction, Code.arrow, Code.arrowTo, Code.block, Code.binding, countNodes,
      countNodesInFields, countNodesInItems, spells_other names,
      HookGroup.countNodesInItems_splice, ElementRef.forwardingBody, Code.perform,
      Code.assignMember, Code.reference, Code.member, Code.constant, Code.ifThenElse, Code.typeofIs,
      Code.binary, Code.unary, Code.string, Code.call, Code.arguments, Code.ifThen, own]
    simp (disch := decide) [spells, Fields.get, text?, ElementHandle.ne_name,
      ElementRef.nodeName, ElementRef.forwardName]

open JsxTracking.Tree in
/-- A generated attribute that forwards spells, apart from its own variables, what the statements of
its function do. -/
theorem Attachment.countNodes_statements {handle : ElementHandle} (attachment : Attachment)
    {explicit? : Option Tree} {reference : Tree}
    (found : ElementRef.forwarded? explicit? attachment.spreads = some reference)
    (groups : List HookGroup) :
    (attachment.attribute explicit? groups).countNodes (spells counted handle.name) =
      countNodesInItems (spells counted handle.name)
        (HookGroup.splice (ElementRef.forwardingBody attachment.handle reference) groups) := by
  unfold Attachment.attribute
  rw [found]
  simp (disch := decide) [Code.jsxAttribute, Code.propertyName, ElementRef.forwardingFunction,
    Code.arrow, Code.arrowTo, Code.block, Code.binding, countNodes, countNodesInFields,
    countNodesInItems, spells_other names]
  simp (disch := decide) [spells, Fields.get, text?, ElementHandle.ne_name, ElementRef.nodeName]

end

end JsxTracking
