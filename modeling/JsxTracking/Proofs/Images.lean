import JsxTracking.Proofs.Ownership
import JsxTracking.Proofs.Splicing

/-! # What instrumentation keeps of a tree

A tree without elements is left as it is (`Woven.tree_eq_source`). A statement that is rewritten may
leave its function only if it could before (`Woven.exits_source`). A function that is rewritten
stands in the instrumented module (`Woven.Within.occurs`). -/

namespace JsxTracking

namespace Kind

/-- Whether a part of a node of the kind lies within a nested function or class. The keys of object
members do not. -/
def encloses : Kind → Field → Bool
  | methodProperty, .key | getterProperty, .key | setterProperty, .key => false
  | arrowFunctionExpression, _ | functionDeclaration, _ | functionExpression, _ | function, _
  | methodProperty, _ | getterProperty, _ | setterProperty, _ | constructor, _
  | classDeclaration, _ | classExpression, _ => true
  | _, _ => false

/-- The kinds of functions that may be components. -/
theorem isFunction_cases {kind : Kind} (isFunction : kind.isFunction = true) :
    kind = functionDeclaration ∨ kind = functionExpression ∨ kind = function ∨
      kind = arrowFunctionExpression ∨ kind = methodProperty := by
  unfold Kind.isFunction at isFunction
  split at isFunction
  · exact Or.inl rfl
  · exact Or.inr (Or.inl rfl)
  · exact Or.inr (Or.inr (Or.inl rfl))
  · exact Or.inr (Or.inr (Or.inr (Or.inl rfl)))
  · exact Or.inr (Or.inr (Or.inr (Or.inr rfl)))
  · exact absurd isFunction Bool.false_ne_true

theorem ne_block_of_isFunction {kind : Kind} (isFunction : kind.isFunction = true) :
    kind ≠ blockStatement := by
  rintro rfl
  exact absurd isFunction Bool.false_ne_true

/-- Of such a function, at most the key of an object member lies outside. -/
theorem isFunction_encloses {kind : Kind} (isFunction : kind.isFunction = true) {field : Field}
    (outside : kind.encloses field = false) : field = .key := by
  rcases isFunction_cases isFunction with rfl | rfl | rfl | rfl | rfl
  case inr.inr.inr.inr =>
    by_contra notKey
    have inside : methodProperty.encloses field = true := by
      cases field <;> first | rfl | exact absurd rfl notKey
    exact absurd (outside.symm.trans inside) Bool.false_ne_true
  all_goals exact absurd outside.symm Bool.false_ne_true

end Kind

namespace Step

/-- Attributes are no parts of functions. -/
theorem ofFunction_ne_attributes (scan? : Option BodyScan) (field : Field)
    (attachment? : Option Attachment) : ofFunction scan? field ≠ attributes attachment? := by
  unfold ofFunction
  split <;> exact Step.noConfusion

/-- Attributes are no parts of nodes other than opening tags. -/
theorem within_ne_attributes (step : Step) (kind : Kind) (parts : Fields) (field : Field)
    (attachment? : Option Attachment) :
    step.within kind parts field ≠ attributes attachment? := by
  unfold within
  split
  · split <;> exact Step.noConfusion
  · unfold ofNode
    split <;> first | exact Step.noConfusion | (split <;> exact Step.noConfusion)

end Step

namespace Tree

/-- Whether the tree is a list. -/
def isList : Tree → Bool
  | list _ => true
  | _ => false

/-- A `return` or `throw` stands in the tree, outside the functions and classes in it. -/
inductive Exits : Tree → Prop
  | leaves {kind : Kind} {fields : Fields}
      (statement : kind = .returnStatement ∨ kind = .throwStatement) : Exits (node kind fields)
  | part {kind : Kind} {fields : Fields} {field : Field} (outside : kind.encloses field = false)
      (exits : Exits (Fields.get fields field)) : Exits (node kind fields)
  | item {items : List Tree} {item : Tree} (member : item ∈ items) (exits : Exits item) :
      Exits (list items)

/-- A tree stands somewhere in another one. -/
inductive Occurs (part : Tree) : Tree → Prop
  | self : Occurs part part
  | item {items : List Tree} {item : Tree} (member : item ∈ items) (occurs : Occurs part item) :
      Occurs part (list items)
  | part {kind : Kind} {fields : Fields} {field : Field} {item : Tree}
      (member : (field, item) ∈ fields) (occurs : Occurs part item) :
      Occurs part (node kind fields)

mutual

/-- Whether an element stands in a tree. -/
def holdsElements : Tree → Bool
  | node kind fields => kind = .jsxOpeningElement || holdsElementsInFields fields
  | list items => holdsElementsInItems items
  | _ => false

/-- Whether an element stands in a list of trees. -/
def holdsElementsInItems : List Tree → Bool
  | [] => false
  | item :: rest => holdsElements item || holdsElementsInItems rest

/-- Whether an element stands in the parts of a node. -/
def holdsElementsInFields : List (Field × Tree) → Bool
  | [] => false
  | (_, part) :: rest => holdsElements part || holdsElementsInFields rest

end

theorem holdsElementsInFields_append (first second : Fields) :
    holdsElementsInFields (first ++ second) =
      (holdsElementsInFields first || holdsElementsInFields second) := by
  induction first with
  | nil => rfl
  | cons part rest ih =>
    rw [List.cons_append, holdsElementsInFields, holdsElementsInFields, ih, Bool.or_assoc]

theorem itemsCanExit_of_mem {items : List Tree} {item : Tree} (member : item ∈ items)
    (exits : item.canExit = true) : itemsCanExit items = true := by
  induction items with
  | nil => exact absurd member List.not_mem_nil
  | cons first rest ih =>
    rw [itemsCanExit, Bool.or_eq_true]
    rcases List.mem_cons.mp member with rfl | later
    · exact Or.inl exits
    · exact Or.inr (ih later)

theorem fieldsCanExit_of_get {fields : Fields} {field : Field}
    (exits : (Fields.get fields field).canExit = true) : fieldsCanExit fields = true := by
  induction fields with
  | nil => cases exits
  | cons first rest ih =>
    obtain ⟨other, part⟩ := first
    rw [Fields.get_cons] at exits
    rw [fieldsCanExit, Bool.or_eq_true]
    split at exits
    · exact Or.inl exits
    · exact Or.inr (ih exits)

theorem keyCanExit_of_get {fields : Fields}
    (exits : (Fields.get fields .key).canExit = true) : keyCanExit fields = true := by
  induction fields with
  | nil => cases exits
  | cons first rest ih =>
    obtain ⟨other, part⟩ := first
    rw [Fields.get_cons] at exits
    split at exits
    case isTrue same =>
      rw [← same, keyCanExit]
      exact exits
    case isFalse differs =>
      rw [keyCanExit.eq_3 _ _ (fun key same => differs (Prod.mk.inj same).1.symm)]
      exact ih exits

/-- What can exit in a part outside of functions and classes can exit. -/
theorem canExit_part {kind : Kind} {fields : Fields} {field : Field}
    (outside : kind.encloses field = false) (exits : (Fields.get fields field).canExit = true) :
    (node kind fields).canExit = true := by
  unfold Tree.canExit
  split
  case h_1 | h_2 => rfl
  case h_3 same | h_4 same | h_5 same | h_6 same | h_7 same | h_8 same =>
    injection same with kindSame
    rw [kindSame] at outside
    exact absurd outside.symm Bool.false_ne_true
  case h_9 same =>
    injection same with kindSame fieldsSame
    subst kindSame fieldsSame
    have isKey : field = .key := Kind.isFunction_encloses rfl outside
    rw [isKey] at exits
    exact keyCanExit_of_get exits
  case h_10 same =>
    injection same with kindSame fieldsSame
    rw [← fieldsSame]
    exact fieldsCanExit_of_get exits
  case h_11 same => cases same
  case h_12 notNode _ => exact (notNode kind fields rfl).elim

/-- Whatever leaves the function can exit. -/
theorem Exits.canExit {tree : Tree} (exits : tree.Exits) : tree.canExit = true := by
  induction exits with
  | leaves statement =>
    rcases statement with rfl | rfl <;> rfl
  | item member exits ih =>
    rw [Tree.canExit]
    exact itemsCanExit_of_mem member ih
  | part outside exits ih => exact canExit_part outside ih

end Tree

/-- What a field holds after every part has been changed, each in a way that depends on its field. -/
theorem lookup_map_parts {α β : Type} (change : Field → α → β) (parts : List (Field × α))
    (field : Field) :
    (parts.map fun part => (part.1, change part.1 part.2)).lookup field =
      (parts.lookup field).map (change field) := by
  induction parts with
  | nil => rfl
  | cons first rest ih =>
    obtain ⟨other, part⟩ := first
    rw [List.map_cons, List.lookup_cons, List.lookup_cons, ih]
    cases same : field == other with
    | true =>
      rw [eq_of_beq same]
      rfl
    | false => rfl

/-- Only the body of a function is changed when hooks are put into it. -/
theorem Fields.spliceBody_eq_map (parts : Fields) (groups : List HookGroup) :
    parts.spliceBody groups = parts.map fun part =>
      (part.1, if part.1 = .body then HookGroup.spliceBody groups part.2 else part.2) := by
  unfold spliceBody
  congr 1
  funext part
  obtain ⟨field, part⟩ := part
  cases field <;> rfl

theorem Fields.mem_spliceBody {fields : Fields} {field : Field} {part : Tree}
    (member : (field, part) ∈ fields) (groups : List HookGroup) :
    (field, if field = .body then HookGroup.spliceBody groups part else part) ∈
      fields.spliceBody groups := by
  rw [spliceBody_eq_map]
  exact List.mem_map.mpr ⟨_, member, rfl⟩

/-- What becomes of a part of a block when hooks are put into it. -/
def HookGroup.splicePart (groups : List HookGroup) (field : Field) (part : Tree) : Tree :=
  match field, part with
  | .stmts, .list statements => .list (splice statements groups)
  | _, part => part

theorem HookGroup.splicePart_of_ne {field : Field} (other : field ≠ .stmts)
    (groups : List HookGroup) (part : Tree) : splicePart groups field part = part := by
  unfold splicePart
  split
  case h_1 => exact absurd rfl other
  case h_2 => rfl

/-- Only the statements of a block are changed when hooks are put into it. -/
theorem HookGroup.spliceBody_node {groups : List HookGroup} (some : groups ≠ []) (fields : Fields) :
    spliceBody groups (.node .blockStatement fields) =
      .node .blockStatement (fields.map fun part =>
        (part.1, splicePart groups part.1 part.2)) := by
  unfold spliceBody
  rw [if_neg fun empty => some (List.isEmpty_iff.mp empty)]
  refine congrArg (Tree.node _) (List.map_congr_left ?_)
  rintro ⟨field, part⟩ -
  cases field <;> first | rfl | (cases part <;> rfl)

/-- No hooks change nothing. -/
theorem Fields.spliceBody_nil (parts : Fields) : parts.spliceBody [] = parts := by
  rw [spliceBody_eq_map]
  refine (List.map_congr_left fun part _ => ?_).trans (List.map_id' parts)
  change (part.1, if part.1 = .body then part.2 else part.2) = part
  rw [ite_self]

theorem Fields.lookup_spliceBody (parts : Fields) (groups : List HookGroup) (field : Field) :
    (parts.spliceBody groups).lookup field = (parts.lookup field).map fun part =>
      if field = .body then HookGroup.spliceBody groups part else part := by
  rw [spliceBody_eq_map]
  exact lookup_map_parts (fun field part =>
    if field = .body then HookGroup.spliceBody groups part else part) parts field

namespace Woven

variable (runtimeGlobal : String)

theorem treesInParts_eq_map (parts : List (Field × Woven)) :
    treesInParts runtimeGlobal parts = parts.map fun part => (part.1, part.2.tree runtimeGlobal) := by
  induction parts with
  | nil => rfl
  | cons first rest ih => rw [treesInParts, ih, List.map_cons]

theorem sourcesInParts_eq_map (parts : List (Field × Woven)) :
    sourcesInParts parts = parts.map fun part => (part.1, part.2.source) := by
  induction parts with
  | nil => rfl
  | cons first rest ih => rw [sourcesInParts, ih, List.map_cons]

theorem lookup_treesInParts (parts : List (Field × Woven)) (field : Field) :
    (treesInParts runtimeGlobal parts).lookup field =
      (parts.lookup field).map (tree runtimeGlobal) := by
  rw [treesInParts_eq_map]
  exact lookup_map_parts (fun _ => tree runtimeGlobal) parts field

theorem lookup_sourcesInParts (parts : List (Field × Woven)) (field : Field) :
    (sourcesInParts parts).lookup field = (parts.lookup field).map source := by
  rw [sourcesInParts_eq_map]
  exact lookup_map_parts (fun _ => source) parts field

theorem mem_of_lookup {parts : List (Field × Woven)} {field : Field} {item : Woven}
    (found : parts.lookup field = some item) : (field, item) ∈ parts := by
  obtain ⟨before, after, rfl, -⟩ := List.lookup_eq_some_iff.mp found
  exact List.mem_append_right _ List.mem_cons_self

/-- A part of a node is instrumented in its place. -/
theorem mem_treesInParts {parts : List (Field × Woven)} {field : Field} {item : Woven}
    (member : (field, item) ∈ parts) :
    (field, item.tree runtimeGlobal) ∈ treesInParts runtimeGlobal parts := by
  rw [treesInParts_eq_map]
  exact List.mem_map.mpr ⟨_, member, rfl⟩

/-- A statement of a list, or an attribute that is not taken away, is instrumented in its place. -/
theorem mem_trees {items : List Woven} {part : Tree} :
    part ∈ trees runtimeGlobal items ↔
      ∃ item ∈ items, item.isRemoved = false ∧ part = item.tree runtimeGlobal := by
  induction items with
  | nil => simp only [trees, List.not_mem_nil, false_and, exists_false]
  | cons first rest ih =>
    rw [trees]
    cases taken : first.isRemoved with
    | true => simp only [↓reduceIte, ih, List.mem_cons, exists_eq_or_imp, taken,
        Bool.true_eq_false, false_and, false_or]
    | false => simp only [Bool.false_eq_true, ↓reduceIte, List.mem_cons, ih, exists_eq_or_imp, taken,
        true_and]

theorem mem_sources {items : List Woven} {part : Tree} :
    part ∈ sources items ↔ ∃ item ∈ items, item.isGenerated = false ∧ part = item.source := by
  induction items with
  | nil => simp only [sources, List.not_mem_nil, false_and, exists_false]
  | cons first rest ih =>
    rw [sources]
    cases made : first.isGenerated with
    | true => simp only [↓reduceIte, ih, List.mem_cons, exists_eq_or_imp, made,
        Bool.true_eq_false, false_and, false_or]
    | false => simp only [Bool.false_eq_true, ↓reduceIte, List.mem_cons, ih, exists_eq_or_imp, made,
        true_and]

mutual

/-- A tree without elements is left as it is, and nothing is decided in it. -/
theorem tree_eq_source {enclosure : Enclosure} {step : Step}
    (notAttributes : ∀ attachment?, step ≠ .attributes attachment?) :
    ∀ woven : Woven, woven.Follows enclosure step → woven.source.holdsElements = false →
      woven.tree runtimeGlobal = woven.source ∧ woven.elements = []
  | kept _, _, _ => ⟨rfl, rfl⟩
  | list items, follows, plain => by
    cases step with
    | keep => exact follows.elim
    | statements => exact follows.elim
    | attributes attachment? => exact (notAttributes attachment? rfl).elim
    | visit | announce | componentBody =>
      obtain ⟨same, nothing⟩ := trees_eq_sources items
        (fun item member => ⟨enclosure, FollowsItems.member follows member⟩) plain
      exact ⟨congrArg Tree.list same, nothing⟩
  | statements items, follows, plain => by
    obtain ⟨same, nothing⟩ := trees_eq_sources items (fun item member => by
      obtain ⟨index, found⟩ := List.getElem?_of_mem member
      exact ⟨_, follows.2.getElem found⟩) plain
    exact ⟨congrArg Tree.list same, nothing⟩
  | node kind parts, follows, plain => by
    obtain ⟨-, -, -, within⟩ := follows
    obtain ⟨same, nothing⟩ := treesInParts_eq_sourcesInParts
      (step.within_ne_attributes kind (sourcesInParts parts)) parts within (Bool.or_eq_false_iff.mp plain).2
    exact ⟨congrArg (Tree.node kind) same, nothing⟩
  | function kind outer scan? inner, follows, plain => by
    obtain ⟨-, -, -, outside, -, inside⟩ := follows
    obtain ⟨-, plainParts⟩ := Bool.or_eq_false_iff.mp plain
    rw [Tree.holdsElementsInFields_append, Bool.or_eq_false_iff] at plainParts
    obtain ⟨sameOuter, nothingOuter⟩ := treesInParts_eq_sourcesInParts
      (fun _ _ => Step.noConfusion) outer outside plainParts.1
    obtain ⟨sameInner, nothingInner⟩ := treesInParts_eq_sourcesInParts
      (Step.ofFunction_ne_attributes scan?) inner inside plainParts.2
    constructor
    · have noGroups : groups runtimeGlobal scan? (elementsInParts inner) = [] := by
        rw [nothingInner]
        cases scan? <;> rfl
      rw [tree, source, noGroups, Fields.spliceBody_nil, sameOuter, sameInner]
    · cases scan? with
      | none => rw [elements, nothingOuter, nothingInner, List.append_nil]
      | some scan => exact nothingOuter
  | opening treatment parts, follows, plain => absurd plain.symm Bool.false_ne_true
  | removed _, follows, _ | reference .., follows, _ => follows.elim

/-- Trees without elements are left as they are. -/
theorem trees_eq_sources :
    ∀ items : List Woven, (∀ item ∈ items, ∃ enclosure, item.Follows enclosure .visit) →
      Tree.holdsElementsInItems (sources items) = false →
      trees runtimeGlobal items = sources items ∧ elementsInItems items = []
  | [], _, _ => ⟨rfl, rfl⟩
  | item :: rest, follows, plain => by
    obtain ⟨enclosure, first⟩ := follows item List.mem_cons_self
    obtain ⟨notRemoved, notGenerated⟩ := first.ordinary
    rw [sources, if_neg (Bool.eq_false_iff.mp notGenerated)] at plain ⊢
    obtain ⟨plainFirst, plainRest⟩ := Bool.or_eq_false_iff.mp plain
    obtain ⟨same, nothing⟩ := tree_eq_source (fun _ => Step.noConfusion) item first plainFirst
    obtain ⟨sameRest, nothingRest⟩ := trees_eq_sources rest
      (fun item member => follows item (List.mem_cons_of_mem _ member)) plainRest
    rw [trees, if_neg (Bool.eq_false_iff.mp notRemoved), same, sameRest, elementsInItems, nothing,
      nothingRest]
    exact ⟨rfl, rfl⟩

/-- Parts without elements are left as they are. -/
theorem treesInParts_eq_sourcesInParts {enclosure : Enclosure} {step : Field → Step}
    (notAttributes : ∀ field attachment?, step field ≠ .attributes attachment?) :
    ∀ parts : List (Field × Woven), FollowsParts enclosure step parts →
      Tree.holdsElementsInFields (sourcesInParts parts) = false →
      treesInParts runtimeGlobal parts = sourcesInParts parts ∧ elementsInParts parts = []
  | [], _, _ => ⟨rfl, rfl⟩
  | (field, part) :: rest, follows, plain => by
    obtain ⟨plainFirst, plainRest⟩ := Bool.or_eq_false_iff.mp plain
    obtain ⟨same, nothing⟩ := tree_eq_source (notAttributes field) part follows.1 plainFirst
    obtain ⟨sameRest, nothingRest⟩ :=
      treesInParts_eq_sourcesInParts notAttributes rest follows.2 plainRest
    rw [treesInParts, sourcesInParts, elementsInParts, same, sameRest, nothing, nothingRest]
    exact ⟨rfl, rfl⟩

end

/-- A generated attribute does not leave the function. -/
theorem attribute_not_exits (attachment : Attachment) (explicit? : Option Tree)
    (groups : List HookGroup) : ¬(attachment.attribute explicit? groups).Exits := by
  intro exits
  have stays : (attachment.attribute explicit? groups).canExit = false := by
    unfold Attachment.attribute
    split <;> rfl
  exact Bool.false_ne_true (stays.symm.trans exits.canExit)

/-- Instrumentation keeps the kind of a node. -/
theorem kind?_tree (woven : Woven) : (woven.tree runtimeGlobal).kind? = woven.source.kind? := by
  cases woven <;> rfl

/-- Instrumentation keeps text. -/
theorem text?_tree (woven : Woven) : (woven.tree runtimeGlobal).text? = woven.source.text? := by
  cases woven <;> rfl

/-- There is at most one reference to replace. -/
theorem toList_head?_trees {replaced : List Woven} (alone : replaced.length ≤ 1) :
    (trees runtimeGlobal replaced).head?.toList = trees runtimeGlobal replaced := by
  match replaced, alone with
  | [], _ => rfl
  | [item], _ =>
    rw [trees]
    split <;> rfl

/-- A reference that is replaced is the only one. -/
theorem head?_trees {replaced : List Woven} {item : Woven} (alone : replaced.length ≤ 1)
    (member : item ∈ replaced) (stays : item.isRemoved = false) :
    (trees runtimeGlobal replaced).head? = some (item.tree runtimeGlobal) := by
  match replaced, member, alone with
  | [only], member, _ =>
    obtain rfl := List.mem_singleton.mp member
    rw [trees, if_neg (Bool.eq_false_iff.mp stays)]
    rfl

/-- What a field of an instrumented node holds is the instrumented part of the node. -/
theorem get_treesInParts_cases (parts : List (Field × Woven)) (field : Field) :
    Fields.get (treesInParts runtimeGlobal parts) field = .null ∧
        Fields.get (sourcesInParts parts) field = .null ∨
      ∃ item, (field, item) ∈ parts ∧
        Fields.get (treesInParts runtimeGlobal parts) field = item.tree runtimeGlobal ∧
        Fields.get (sourcesInParts parts) field = item.source := by
  unfold Fields.get
  rw [lookup_treesInParts, lookup_sourcesInParts]
  cases found : parts.lookup field with
  | none => exact Or.inl ⟨rfl, rfl⟩
  | some item => exact Or.inr ⟨item, mem_of_lookup found, rfl, rfl⟩

theorem trees_append (first second : List Woven) :
    trees runtimeGlobal (first ++ second) =
      trees runtimeGlobal first ++ trees runtimeGlobal second := by
  induction first with
  | nil => rfl
  | cons item rest ih =>
    rw [List.cons_append, trees, trees, ih]
    split <;> rfl

theorem treesInParts_append (first second : List (Field × Woven)) :
    treesInParts runtimeGlobal (first ++ second) =
      treesInParts runtimeGlobal first ++ treesInParts runtimeGlobal second := by
  simp only [treesInParts_eq_map, List.map_append]

theorem sourcesInParts_append (first second : List (Field × Woven)) :
    sourcesInParts (first ++ second) = sourcesInParts first ++ sourcesInParts second := by
  simp only [sourcesInParts_eq_map, List.map_append]

/-- Outside the body of a function, its parts are instrumented in their places. -/
theorem get_function_parts (outer inner : List (Field × Woven)) (groups : List HookGroup)
    {field : Field} (notBody : field ≠ .body) :
    Fields.get (treesInParts runtimeGlobal outer ++
        (treesInParts runtimeGlobal inner).spliceBody groups) field =
      Fields.get (treesInParts runtimeGlobal (outer ++ inner)) field := by
  unfold Fields.get
  rw [treesInParts_append, List.lookup_append, List.lookup_append, Fields.lookup_spliceBody]
  simp only [if_neg notBody, Option.map_id']

/-- A tree of a list that may leave the function after instrumentation could do so before, if all
of them are such. -/
theorem exits_sources {part : Tree} {items : List Woven} (exits : part.Exits)
    (member : part ∈ trees runtimeGlobal items)
    (could : ∀ item ∈ items, part = item.tree runtimeGlobal → item.source.Exits) :
    (Tree.list (sources items)).Exits := by
  obtain ⟨item, found, -, image⟩ := (mem_trees runtimeGlobal).mp member
  have notGenerated : item.isGenerated = false := by
    cases item with
    | reference attachment replaced scan? =>
      rw [image] at exits
      exact (attribute_not_exits _ _ _ exits).elim
    | kept | list | statements | node | function | opening | removed => rfl
  exact .item (mem_sources.mpr ⟨item, found, notGenerated, rfl⟩) (could item found image)

/-- A decided tree that may leave the function after instrumentation could do so before. -/
theorem exits_source {part : Tree} (exits : part.Exits) {woven : Woven}
    (image : part = woven.tree runtimeGlobal) {enclosure : Enclosure} {step : Step}
    (decided : Decided enclosure step woven) : woven.source.Exits := by
  induction exits generalizing woven enclosure step with
  | @leaves kind fields statement =>
    cases woven with
    | kept tree | removed tree =>
      obtain rfl : _ = tree := image
      exact .leaves statement
    | list items | statements items => cases image
    | node kind parts =>
      injection image with same
      exact .leaves (same ▸ statement)
    | function kind outer scan? inner =>
      injection image with same
      cases decided with
      | follows follows =>
        obtain ⟨-, isFunction, -⟩ := follows
        rw [← same] at isFunction
        rcases statement with rfl | rfl <;> exact absurd isFunction Bool.false_ne_true
    | opening treatment parts =>
      injection image with same
      rcases statement with rfl | rfl <;> cases same
    | reference attachment replaced scan? =>
      exact (attribute_not_exits _ _ _ (image ▸ Tree.Exits.leaves statement)).elim
  | @part kind fields field outside exits ih =>
    cases woven with
    | kept tree | removed tree =>
      obtain rfl : _ = tree := image
      exact .part outside exits
    | list items | statements items => cases image
    | node kind parts =>
      injection image with same sameParts
      subst same sameParts
      rcases get_treesInParts_cases runtimeGlobal parts field with ⟨missing, -⟩ |
        ⟨item, member, instrumented, held⟩
      · rw [missing] at exits
        cases exits
      · obtain ⟨_, _, within, -⟩ := decided.held (.part member)
        exact .part outside (held ▸ ih instrumented within)
    | function kind outer scan? inner =>
      injection image with same sameParts
      subst same sameParts
      have isFunction : kind.isFunction = true := by
        cases decided with
        | follows follows => exact follows.2.1
      have notBody : field ≠ .body := by
        rw [Kind.isFunction_encloses isFunction outside]
        exact Field.noConfusion
      rw [get_function_parts _ _ _ _ notBody] at exits ih
      rcases get_treesInParts_cases runtimeGlobal (outer ++ inner) field with ⟨missing, -⟩ |
        ⟨item, member, instrumented, held⟩
      · rw [missing] at exits
        cases exits
      · rw [sourcesInParts_append] at held
        rcases List.mem_append.mp member with first | second
        · obtain ⟨_, _, within, -⟩ := decided.held (.outer first)
          exact .part outside (held ▸ ih instrumented within)
        · obtain ⟨_, _, within, -⟩ := decided.held (.inner second)
          exact .part outside (held ▸ ih instrumented within)
    | opening treatment parts =>
      injection image with same sameParts
      subst same sameParts
      rcases get_treesInParts_cases runtimeGlobal parts field with ⟨missing, -⟩ |
        ⟨item, member, instrumented, held⟩
      · rw [missing] at exits
        cases exits
      · obtain ⟨_, _, within, -⟩ := decided.held (.opening member)
        exact .part outside (held ▸ ih instrumented within)
    | reference attachment replaced scan? =>
      exact (attribute_not_exits _ _ _ (image ▸ Tree.Exits.part outside exits)).elim
  | @item items item member exits ih =>
    cases woven with
    | kept tree | removed tree =>
      obtain rfl : _ = tree := image
      exact .item member exits
    | list held =>
      injection image with same
      refine exits_sources runtimeGlobal exits (same ▸ member) fun item found image => ?_
      obtain ⟨_, _, within, -⟩ := decided.held (.item found)
      exact ih image within
    | statements held =>
      injection image with same
      refine exits_sources runtimeGlobal exits (same ▸ member) fun item found image => ?_
      obtain ⟨_, _, within, -⟩ := decided.held (.statement found)
      exact ih image within
    | node kind parts | function kind outer scan? inner | opening treatment parts => cases image
    | reference attachment replaced scan? =>
      exact (attribute_not_exits _ _ _ (image ▸ Tree.Exits.item member exits)).elim

end Woven

/-- A node that stands in a body, and is not the body itself, still does so when hooks are put into
the body. -/
theorem Tree.Occurs.spliceBody {kind : Kind} {fields : Fields} {body : Tree}
    (notBlock : kind ≠ .blockStatement) (occurs : (node kind fields).Occurs body)
    (groups : List HookGroup) : (node kind fields).Occurs (HookGroup.spliceBody groups body) := by
  unfold HookGroup.spliceBody
  split
  · exact occurs
  split
  case h_1 => cases occurs
  case h_2 blockParts =>
    cases occurs with
    | self => exact absurd rfl notBlock
    | @part _ _ field item member within =>
      refine .part (List.mem_map.mpr ⟨_, member, rfl⟩) ?_
      split
      case h_1 statements same =>
        obtain ⟨-, rfl⟩ := Prod.mk.inj same
        cases within with
        | item found inside =>
          have kept := (HookGroup.splice_interleaved statements groups).sublist.subset found
          exact .item kept inside
      case h_2 => exact within
  case h_3 =>
    have returned : (node kind fields).Occurs (Code.returnValue body) :=
      .part List.mem_cons_self occurs
    exact .part List.mem_cons_self
      (.item (List.mem_append_right _ List.mem_cons_self) returned)

/-- An element that had a reference is forwarded to it or to one that overrides it. -/
theorem ElementRef.exists_forwarded (earlier : Tree) (spreads : List Tree) :
    ∃ reference, forwarded? (some earlier) spreads = some reference := by
  induction spreads generalizing earlier with
  | nil => exact ⟨earlier, rfl⟩
  | cons spread rest ih => exact ih (Code.binary "??" (Code.member spread "ref") earlier)

/-- The reference that an element had stands in what the element is forwarded to. -/
theorem ElementRef.occurs_forwarded {earlier reference : Tree} {spreads : List Tree}
    (found : forwarded? (some earlier) spreads = some reference) {part : Tree}
    (occurs : part.Occurs earlier) : part.Occurs reference := by
  induction spreads generalizing earlier with
  | nil =>
    obtain rfl := Option.some.inj found
    exact occurs
  | cons spread rest ih => exact ih found (.part (List.mem_cons_of_mem _ List.mem_cons_self) occurs)

/-- The reference that an element had stands in the generated attribute that forwards to it. -/
theorem Attachment.occurs_attribute {part expression : Tree} (occurs : part.Occurs expression)
    (attachment : Attachment) (groups : List HookGroup) :
    part.Occurs (attachment.attribute (some expression) groups) := by
  obtain ⟨reference, found⟩ := ElementRef.exists_forwarded expression attachment.spreads
  have within := ElementRef.occurs_forwarded found occurs
  unfold Attachment.attribute
  rw [found]
  have stored : part.Occurs (Code.constant ElementRef.forwardName reference) :=
    .part List.mem_cons_self (.item List.mem_cons_self
      (.part (List.mem_cons_of_mem _ List.mem_cons_self) within))
  have kept := (HookGroup.splice_interleaved
    (ElementRef.forwardingBody attachment.handle reference) groups).sublist.subset
    (List.mem_cons_of_mem _ List.mem_cons_self)
  have inBody := Tree.Occurs.item kept stored
  exact .part (List.mem_cons_of_mem _ List.mem_cons_self) (.part List.mem_cons_self
    (.part (List.mem_cons_of_mem _ List.mem_cons_self) (.part List.mem_cons_self inBody)))

namespace Woven

variable (runtimeGlobal : String)

/-- What holds something that is not taken away is not taken away. -/
theorem Within.not_removed {part whole : Woven} (within : part.Within whole)
    (stays : part.isRemoved = false) : whole.isRemoved = false := by
  cases within with
  | self => exact stays
  | step holds within => cases holds <;> rfl

/-- What stands in a decided tree and is not taken away stands, instrumented, in the instrumented
tree, unless it is a block. -/
theorem Within.occurs {part whole : Woven} (within : part.Within whole) {kind : Kind}
    {fields : Fields} (shape : part.tree runtimeGlobal = .node kind fields)
    (notBlock : kind ≠ .blockStatement) (stays : part.isRemoved = false) {enclosure : Enclosure}
    {step : Step} (decided : Decided enclosure step whole) :
    (part.tree runtimeGlobal).Occurs (whole.tree runtimeGlobal) := by
  induction within generalizing enclosure step with
  | self => exact .self
  | @step whole item frame? entered? holds inside ih =>
    obtain ⟨_, _, held, -⟩ := decided.held holds
    have occurs := ih held
    have notRemoved := inside.not_removed stays
    cases holds with
    | item member | statement member =>
      exact .item ((mem_trees runtimeGlobal).mpr ⟨item, member, notRemoved, rfl⟩) occurs
    | part member | opening member => exact .part (mem_treesInParts runtimeGlobal member) occurs
    | outer member =>
      exact .part (List.mem_append_left _ (mem_treesInParts runtimeGlobal member)) occurs
    | @inner _ _ _ parts field _ member =>
      refine .part (List.mem_append_right _
        (Fields.mem_spliceBody (mem_treesInParts runtimeGlobal member) _)) ?_
      split
      · rw [shape] at occurs ⊢
        exact occurs.spliceBody notBlock _
      · exact occurs
    | @replaced attachment replaced _ _ member =>
      cases decided with
      | follows follows => exact follows.elim
      | reference alone scanned follows =>
        rw [tree, head?_trees runtimeGlobal alone member notRemoved]
        exact attachment.occurs_attribute occurs _

end Woven

end JsxTracking
