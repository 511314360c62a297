import JsxTracking.Proofs.Carried
import JsxTracking.Proofs.HookPlacement

/-! # Which markers are left

Weaving takes the markers off every element it visits. A marker can only be left in a tree that is
copied or kept without a visit (`Woven.leftovers`): the value of another marker, which goes into
hooks, an expression that a forwarded element spreads, and the parts of a component that are neither
parameters nor body. If there is none in them, no marker is left in the module and transforming it
again changes nothing; and only then (`transformed_again_unchanged_iff`). -/

namespace JsxTracking

namespace Tree

theorem hasMarkersInItems_eq_any (items : List Tree) :
    hasMarkersInItems items = items.any hasMarkers := by
  induction items with
  | nil => rfl
  | cons item rest ih => rw [hasMarkersInItems, ih, List.any_cons]

theorem hasMarkersInFields_eq_any (fields : Fields) :
    hasMarkersInFields fields = fields.any fun part => part.2.hasMarkers := by
  induction fields with
  | nil => rfl
  | cons part rest ih => rw [hasMarkersInFields, ih, List.any_cons]

/-- Markers are on elements. -/
theorem hasMarkers_node {kind : Kind} (notOpening : kind ≠ .jsxOpeningElement) (fields : Fields) :
    (node kind fields).hasMarkers = hasMarkersInFields fields :=
  hasMarkers.eq_2 kind fields notOpening

/-- A tree has the markers of every tree that stands in it. -/
theorem Occurs.hasMarkers {part tree : Tree} (occurs : part.Occurs tree)
    (marked : part.hasMarkers = true) : tree.hasMarkers = true := by
  induction occurs with
  | self => exact marked
  | item member occurs ih =>
    change hasMarkersInItems _ = true
    rw [hasMarkersInItems_eq_any]
    exact List.any_eq_true.mpr ⟨_, member, ih⟩
  | @part kind fields field item member occurs ih =>
    have inFields : hasMarkersInFields fields = true := by
      rw [hasMarkersInFields_eq_any]
      exact List.any_eq_true.mpr ⟨_, member, ih⟩
    by_cases opening : kind = .jsxOpeningElement
    · rw [opening]
      exact Bool.or_eq_true_iff.mpr (Or.inr inFields)
    · rw [hasMarkers_node opening]
      exact inFields

mutual

/-- If a tree has markers, an element stands in it that carries one. -/
theorem exists_marked : ∀ tree : Tree, tree.hasMarkers = true →
    ∃ fields, (node .jsxOpeningElement fields).Occurs tree ∧
      ∃ attr ∈ (Fields.get fields .attributes).items, attr.isMarker = true
  | node kind parts, marked => by
    have inParts (inside : hasMarkersInFields parts = true) :
        ∃ fields, (node .jsxOpeningElement fields).Occurs (node kind parts) ∧
          ∃ attr ∈ (Fields.get fields .attributes).items, attr.isMarker = true := by
      obtain ⟨part, member, fields, occurs, carries⟩ := exists_marked_in_fields parts inside
      exact ⟨fields, .part member occurs, carries⟩
    by_cases opening : kind = .jsxOpeningElement
    · subst opening
      rcases Bool.or_eq_true_iff.mp marked with here | inside
      · exact ⟨parts, .self, List.any_eq_true.mp here⟩
      · exact inParts inside
    · rw [hasMarkers_node opening] at marked
      exact inParts marked
  | list items, marked => by
    obtain ⟨item, member, fields, occurs, carries⟩ := exists_marked_in_items items marked
    exact ⟨fields, .item member occurs, carries⟩
  | null, marked | bool _, marked | num _, marked | str _, marked =>
    absurd marked Bool.false_ne_true

/-- If a list of trees has markers, an element stands in one of them that carries one. -/
theorem exists_marked_in_items : ∀ items : List Tree, hasMarkersInItems items = true →
    ∃ item ∈ items, ∃ fields, (node .jsxOpeningElement fields).Occurs item ∧
      ∃ attr ∈ (Fields.get fields .attributes).items, attr.isMarker = true
  | [], marked => absurd marked Bool.false_ne_true
  | item :: rest, marked => by
    rcases Bool.or_eq_true_iff.mp marked with first | later
    · exact ⟨item, List.mem_cons_self, exists_marked item first⟩
    · obtain ⟨other, member, found⟩ := exists_marked_in_items rest later
      exact ⟨other, List.mem_cons_of_mem _ member, found⟩

/-- If the parts of a node have markers, an element stands in one of them that carries one. -/
theorem exists_marked_in_fields : ∀ parts : List (Field × Tree),
    hasMarkersInFields parts = true →
    ∃ part ∈ parts, ∃ fields, (node .jsxOpeningElement fields).Occurs part.2 ∧
      ∃ attr ∈ (Fields.get fields .attributes).items, attr.isMarker = true
  | [], marked => absurd marked Bool.false_ne_true
  | (field, part) :: rest, marked => by
    rcases Bool.or_eq_true_iff.mp marked with first | later
    · exact ⟨(field, part), List.mem_cons_self, exists_marked part first⟩
    · obtain ⟨other, member, found⟩ := exists_marked_in_fields rest later
      exact ⟨other, List.mem_cons_of_mem _ member, found⟩

end

/-- A list of trees has markers if an element stands in one of them that carries one. -/
theorem hasMarkersInItems_iff (items : List Tree) : hasMarkersInItems items = true ↔
    ∃ item ∈ items, ∃ fields, (node .jsxOpeningElement fields).Occurs item ∧
      ∃ attr ∈ (Fields.get fields .attributes).items, attr.isMarker = true := by
  refine ⟨exists_marked_in_items items, ?_⟩
  rintro ⟨item, member, fields, occurs, carries⟩
  rw [hasMarkersInItems_eq_any]
  refine List.any_eq_true.mpr ⟨item, member, occurs.hasMarkers ?_⟩
  exact Bool.or_eq_true_iff.mpr (Or.inl (List.any_eq_true.mpr carries))

/-- Whether hooks can be put into the body of a function. -/
def takesHooks : Tree → Bool
  | null => false
  | node .blockStatement fields => fields.any fun part => part.1 = .stmts && part.2.isList
  | _ => true

end Tree

/-- The hooks of a marker hold a copy of its value, and no other marker. -/
theorem Hooks.hasMarkers_ofMarker (handle : ElementHandle) (runtimeGlobal : String)
    (kind : MarkerKind) (value : MarkerValue) :
    (Hooks.ofMarker handle runtimeGlobal (kind, value)).any Tree.hasMarkers =
      value.expression.hasMarkers := by
  cases kind <;> cases value <;>
    simp [Hooks.ofMarker, Hooks.visibility, Hooks.click, Hooks.Visibility.state,
      Hooks.Visibility.watching, Hooks.Visibility.unmounting, Hooks.Visibility.readCurrent,
      Hooks.Visibility.disconnectPrevious, Hooks.Visibility.resetState,
      Hooks.Visibility.observerCallback, Hooks.Click.listener, Hooks.Click.binding,
      Hooks.Click.listenerCall, Hooks.Click.dependencies, Code.constant, Code.call, Code.perform,
      Code.arrow, Code.arrowTo, Code.block, Code.ifThen, Code.unary, Code.binary, Code.member,
      Code.methodCall, Code.guardedRuntimeCall, Code.construct, Code.object, Code.number,
      Code.string, Code.reference, Code.binding, Code.propertyName, Code.arguments, Code.array,
      Code.assignMember, Code.nullLiteral, Code.returnNothing, Code.returnValue, Code.typeofIs,
      Tree.hasMarkers, Tree.hasMarkersInItems, Tree.hasMarkersInFields, MarkerValue.expression]

namespace Tree

theorem isKind_iff {tree : Tree} {kind : Kind} :
    tree.isKind kind = true ↔ ∃ fields, tree = node kind fields := by
  cases tree <;> simp [isKind, kind?]

/-- The name of an attribute is the text of a name. -/
theorem attributeName?_eq (tree : Tree) : tree.attributeName? =
    if tree.isKind .jsxAttribute then
      if (tree.get .name).isKind .name then ((tree.get .name).get .value).text? else none
    else none := by
  by_cases carries : tree.isKind .jsxAttribute = true
  · obtain ⟨fields, rfl⟩ := isKind_iff.mp carries
    rw [if_pos carries, attributeName?.eq_1]
    by_cases named : ((node .jsxAttribute fields).get .name).isKind .name = true
    · obtain ⟨parts, found⟩ := isKind_iff.mp named
      change Fields.get fields .name = _ at found
      rw [if_pos named, get, found]
      rfl
    · rw [if_neg named]
      split
      case h_1 parts found => exact absurd (isKind_iff.mpr ⟨parts, found⟩) named
      case h_2 => rfl
  · rw [if_neg carries]
    unfold attributeName?
    split
    case h_1 fields => exact absurd rfl carries
    case h_2 => rfl

end Tree

namespace Woven

variable (runtimeGlobal : String)

/-- Apart from bodies, what a part of an instrumented tree is, is an instrumented part. -/
theorem get_tree (woven : Woven) (field : Field) (notBody : field ≠ .body)
    (notGenerated : woven.isGenerated = false) :
    ∃ part : Woven, (woven.tree runtimeGlobal).get field = part.tree runtimeGlobal ∧
      woven.source.get field = part.source := by
  have ofParts (parts : List (Field × Woven)) : ∃ part : Woven,
      Fields.get (treesInParts runtimeGlobal parts) field = part.tree runtimeGlobal ∧
        Fields.get (sourcesInParts parts) field = part.source := by
    rcases get_treesInParts_cases runtimeGlobal parts field with ⟨missing, absent⟩ |
      ⟨item, -, instrumented, held⟩
    · exact ⟨.kept .null, missing, absent⟩
    · exact ⟨item, instrumented, held⟩
  cases woven with
  | kept tree | removed tree => exact ⟨.kept (tree.get field), rfl, rfl⟩
  | list items | statements items => exact ⟨.kept .null, rfl, rfl⟩
  | node kind parts | opening treatment parts => exact ofParts parts
  | function kind outer scan? inner =>
    obtain ⟨part, instrumented, held⟩ := ofParts (outer ++ inner)
    refine ⟨part, ?_, ?_⟩
    · exact (get_function_parts runtimeGlobal outer inner _ notBody).trans instrumented
    · rw [sourcesInParts_append] at held
      exact held
  | reference => cases notGenerated

/-- Instrumentation keeps the names of attributes. -/
theorem attributeName?_tree (woven : Woven) :
    (woven.tree runtimeGlobal).attributeName? = woven.source.attributeName? := by
  cases made : woven.isGenerated with
  | true =>
    cases woven with
    | reference => rfl
    | kept | list | statements | node | function | opening | removed => cases made
  | false =>
    obtain ⟨name, is, was⟩ := woven.get_tree runtimeGlobal .name Field.noConfusion made
    have sameKind := woven.kind?_tree runtimeGlobal
    have sameName := name.kind?_tree runtimeGlobal
    rw [Tree.attributeName?_eq, Tree.attributeName?_eq, Tree.isKind, Tree.isKind, sameKind, is, was,
      Tree.isKind, Tree.isKind, sameName]
    cases written : name.isGenerated with
    | true =>
      cases name with
      | reference => rfl
      | kept | list | statements | node | function | opening | removed => cases written
    | false =>
      obtain ⟨value, isValue, wasValue⟩ :=
        name.get_tree runtimeGlobal .value Field.noConfusion written
      rw [isValue, wasValue, value.text?_tree runtimeGlobal]

/-- Instrumentation keeps markers markers. -/
theorem isMarker_tree (woven : Woven) :
    (woven.tree runtimeGlobal).isMarker = woven.source.isMarker := by
  rw [Tree.isMarker, Tree.isMarker, Tree.markerKind?, Tree.markerKind?, attributeName?_tree]

end Woven

/-- Hooks bring their own markers into the statements they are put among. -/
theorem HookGroup.hasMarkersInItems_splice (statements : List Tree) (groups : List HookGroup) :
    Tree.hasMarkersInItems (splice statements groups) =
      (Tree.hasMarkersInItems statements || (groups.flatMap hooks).any Tree.hasMarkers) := by
  rw [Tree.hasMarkersInItems_eq_any, Tree.hasMarkersInItems_eq_any,
    (splice_interleaved statements groups).perm.any_eq, List.any_append, List.any_flatMap,
    List.any_flatMap, (sorted_perm groups).any_eq]

/-- Hooks bring their own markers into a body, if it takes them. -/
theorem HookGroup.hasMarkers_spliceBody (groups : List HookGroup) (body : Tree) :
    (spliceBody groups body).hasMarkers =
      (body.hasMarkers || (body.takesHooks && (groups.flatMap hooks).any Tree.hasMarkers)) := by
  unfold spliceBody
  split
  case isTrue empty =>
    rw [List.isEmpty_iff.mp empty, List.flatMap_nil, List.any_nil, Bool.and_false, Bool.or_false]
  case isFalse =>
    split
    case h_1 => rfl
    case h_2 parts =>
      rw [Tree.hasMarkers_node Kind.noConfusion, Tree.hasMarkers_node Kind.noConfusion,
        Tree.takesHooks]
      induction parts with
      | nil => rfl
      | cons part rest ih =>
        rw [List.map_cons, Tree.hasMarkersInFields, Tree.hasMarkersInFields, ih, List.any_cons]
        split
        case h_1 statements =>
          change (Tree.hasMarkersInItems (splice statements groups) || _) =
            (Tree.hasMarkersInItems statements || _ || ((true && true || _) && _))
          rw [hasMarkersInItems_splice]
          cases (groups.flatMap hooks).any Tree.hasMarkers <;> simp
        case h_2 other =>
          have notStatements : (decide (part.1 = .stmts) && part.2.isList) = false := by
            obtain ⟨field, part⟩ := part
            cases part with
            | list items =>
              refine Bool.and_eq_false_iff.mpr (Or.inl (decide_eq_false ?_))
              rintro rfl
              exact other items rfl
            | null | bool | num | str | node => exact Bool.and_false _
          rw [notStatements, Bool.false_or, Bool.or_assoc]
    case h_3 notNull notBlock =>
      have takes : body.takesHooks = true := by
        unfold Tree.takesHooks
        split
        case h_1 => exact (notNull rfl).elim
        case h_2 fields => exact (notBlock fields rfl).elim
        case h_3 => rfl
      rw [takes, Bool.true_and, Tree.hasMarkers_node Kind.noConfusion]
      change (Tree.hasMarkersInItems (splice [] groups ++ [Code.returnValue body]) || false) = _
      rw [Bool.or_false, Tree.hasMarkersInItems_eq_any, List.any_append,
        ← Tree.hasMarkersInItems_eq_any, hasMarkersInItems_splice]
      change (_ || ((body.hasMarkers || false) || false)) = _
      rw [Bool.or_false, Bool.or_false, Bool.or_comm]
      rfl

/-- Hooks bring their own markers into a function, if its body takes them. -/
theorem Fields.hasMarkersInFields_spliceBody (parts : Fields) (groups : List HookGroup) :
    Tree.hasMarkersInFields (parts.spliceBody groups) =
      (Tree.hasMarkersInFields parts ||
        ((parts.any fun part => part.1 = .body && part.2.takesHooks) &&
          (groups.flatMap HookGroup.hooks).any Tree.hasMarkers)) := by
  rw [spliceBody_eq_map]
  induction parts with
  | nil => rfl
  | cons part rest ih =>
    rw [List.map_cons, Tree.hasMarkersInFields, ih, Tree.hasMarkersInFields, List.any_cons]
    by_cases isBody : part.1 = .body
    · rw [if_pos isBody, HookGroup.hasMarkers_spliceBody, decide_eq_true isBody, Bool.true_and]
      cases (groups.flatMap HookGroup.hooks).any Tree.hasMarkers
      · simp only [Bool.and_false, Bool.or_false]
      · simp only [Bool.and_true]
        ac_rfl
    · rw [if_neg isBody, decide_eq_false isBody, Bool.false_and, Bool.false_or, Bool.or_assoc]

/-- What an element forwards to is made of the reference it had and the expressions it spreads. -/
theorem ElementRef.hasMarkers_forwarded? (explicit? : Option Tree) (spreads : List Tree) :
    (forwarded? explicit? spreads).toList.any Tree.hasMarkers =
      (explicit?.toList.any Tree.hasMarkers || spreads.any Tree.hasMarkers) := by
  unfold forwarded?
  induction spreads generalizing explicit? with
  | nil => rw [List.foldl_nil, List.any_nil, Bool.or_false]
  | cons spread rest ih =>
    rw [List.foldl_cons, ih, List.any_cons, ← Bool.or_assoc]
    congr 1
    cases explicit? with
    | none =>
      change ((spread.hasMarkers || (false || false)) || false) = (false || spread.hasMarkers)
      simp only [Bool.or_false, Bool.false_or]
    | some earlier =>
      change (((spread.hasMarkers || (false || false)) || (earlier.hasMarkers || (false || false)))
        || false) = ((earlier.hasMarkers || false) || spread.hasMarkers)
      simp only [Bool.or_false]
      exact Bool.or_comm _ _

/-- A generated attribute holds what the element forwards to, and the hooks put into the function
that forwards. -/
theorem Attachment.hasMarkers_attribute (attachment : Attachment) (explicit? : Option Tree)
    (groups : List HookGroup)
    (unused : explicit? = none → (groups.flatMap HookGroup.hooks).any Tree.hasMarkers = false) :
    (attachment.attribute explicit? groups).hasMarkers =
      ((explicit?.toList.any Tree.hasMarkers || attachment.spreads.any Tree.hasMarkers) ||
        (groups.flatMap HookGroup.hooks).any Tree.hasMarkers) := by
  rw [← ElementRef.hasMarkers_forwarded?]
  unfold Attachment.attribute
  cases forwards : ElementRef.forwarded? explicit? attachment.spreads with
  | none =>
    have noReference : explicit? = none := by
      cases explicit? with
      | none => rfl
      | some earlier =>
        obtain ⟨reference, found⟩ := ElementRef.exists_forwarded earlier attachment.spreads
        cases found.symm.trans forwards
    rw [unused noReference]
    rfl
  | some reference =>
    simp only [Code.jsxAttribute, Code.propertyName, ElementRef.forwardingFunction, Code.arrow,
      Code.arrowTo, Code.block, Code.binding, Tree.hasMarkers, Tree.hasMarkersInFields,
      Tree.hasMarkersInItems, Bool.or_false, Bool.false_or, HookGroup.hasMarkersInItems_splice,
      Option.toList_some, List.any_cons, List.any_nil]
    congr 1
    simp [ElementRef.forwardingBody, Code.perform, Code.assignMember, Code.reference, Code.member,
      Code.propertyName, Code.constant, Code.binding, Code.ifThenElse, Code.typeofIs, Code.binary,
      Code.unary, Code.string, Code.block, Code.call, Code.arguments, Code.ifThen,
      Tree.hasMarkers, Tree.hasMarkersInFields, Tree.hasMarkersInItems]

namespace Woven

/-- The values that hooks of some elements evaluate, if the elements have hooks. -/
def hookValues (scan? : Option BodyScan) (elements : List Treatment) : List Tree :=
  match scan? with
  | none => []
  | some _ => elements.flatMap fun treatment =>
    match treatment.outcome with
    | .instrumented .. => treatment.markers.dynamicExpressions
    | _ => []

mutual

/-- What instrumentation keeps or copies without a visit: the trees it keeps, the expressions that
forwarded elements spread, and the values that hooks evaluate. -/
def leftovers : Woven → List Tree
  | kept tree => [tree]
  | removed _ => []
  | list items | statements items => leftoversInItems items
  | node _ parts | opening _ parts => leftoversInParts parts
  | function _ outer scan? inner => leftoversInParts outer ++ leftoversInParts inner ++
    if inner.any fun part => part.1 = .body && part.2.source.takesHooks then
      hookValues scan? (elementsInParts inner) else []
  | reference attachment replaced scan? => leftoversInItems replaced ++ attachment.spreads ++
    hookValues scan? (elementsInItems replaced)

/-- `Woven.leftovers` for a list of trees. -/
def leftoversInItems : List Woven → List Tree
  | [] => []
  | item :: rest => leftovers item ++ leftoversInItems rest

/-- `Woven.leftovers` for the parts of a node. -/
def leftoversInParts : List (Field × Woven) → List Tree
  | [] => []
  | (_, part) :: rest => leftovers part ++ leftoversInParts rest

end

variable (runtimeGlobal : String)

/-- The hooks of some elements hold the values they evaluate, and no other marker. -/
theorem hasMarkers_groups (scan? : Option BodyScan) (elements : List Treatment) :
    ((groups runtimeGlobal scan? elements).flatMap HookGroup.hooks).any Tree.hasMarkers =
      (hookValues scan? elements).any Tree.hasMarkers := by
  cases scan? with
  | none => rfl
  | some scan =>
    rw [groups, hookValues, List.any_flatMap, List.any_flatMap, List.any_filterMap]
    congr 1
    funext treatment
    cases outcome : treatment.outcome with
    | plain | refused reason => simp only [Treatment.group?, outcome, List.any_nil]
    | instrumented allocation position shared =>
      have unmarked : (Hooks.declaration allocation.handle).hasMarkers = false := rfl
      simp only [Treatment.group?, outcome, Hooks.ofElement, List.any_cons, unmarked,
        Bool.false_or, List.any_flatMap, ElementMarkers.dynamicExpressions, List.any_filterMap]
      congr 1
      funext marker
      obtain ⟨kind, value⟩ := marker
      rw [Hooks.hasMarkers_ofMarker]
      cases value <;> rfl

/-- Bodies that take hooks still do so after instrumentation. -/
theorem takesHooks_tree {woven : Woven} {enclosure : Enclosure} {step : Step}
    (follows : woven.Follows enclosure step) :
    (woven.tree runtimeGlobal).takesHooks = woven.source.takesHooks := by
  cases woven with
  | kept | removed | list | statements | opening | reference => rfl
  | node kind parts =>
    by_cases block : kind = .blockStatement
    · rw [block, tree, source, Tree.takesHooks, Tree.takesHooks, treesInParts_eq_map,
        sourcesInParts_eq_map, List.any_map, List.any_map]
      congr 1
      funext part
      have sameList : (part.2.tree runtimeGlobal).isList = part.2.source.isList := by
        cases part.2 <;> rfl
      exact congrArg (decide (part.1 = .stmts) && ·) sameList
    · rw [tree, source, Tree.takesHooks.eq_3 _ Tree.noConfusion fun _ same =>
          block (Tree.node.inj same).1, Tree.takesHooks.eq_3 _ Tree.noConfusion fun _ same =>
          block (Tree.node.inj same).1]
  | function kind outer scan? inner =>
    rcases Kind.isFunction_cases follows.2.1 with rfl | rfl | rfl | rfl | rfl <;> rfl

theorem any_takesHooks (parts : List (Field × Woven))
    (follows : ∀ part ∈ parts, ∃ enclosure step, part.2.Follows enclosure step) :
    ((treesInParts runtimeGlobal parts).any fun part => part.1 = .body && part.2.takesHooks) =
      parts.any fun part => part.1 = .body && part.2.source.takesHooks := by
  induction parts with
  | nil => rfl
  | cons part rest ih =>
    obtain ⟨enclosure, step, first⟩ := follows part List.mem_cons_self
    rw [treesInParts, List.any_cons, List.any_cons, takesHooks_tree runtimeGlobal first,
      ih fun part member => follows part (List.mem_cons_of_mem _ member)]

/-- The attributes that an element has after instrumentation are no markers. -/
theorem FollowsAttributes.unmarked {enclosure : Enclosure} {attachment? : Option Attachment}
    {explicit? : Option Tree} {items : List Woven}
    (follows : FollowsAttributes enclosure attachment? explicit? items) :
    (trees runtimeGlobal items).any Tree.isMarker = false := by
  induction items generalizing explicit? with
  | nil => rfl
  | cons item rest ih =>
    cases item with
    | reference attachment replaced scan? =>
      obtain ⟨-, rfl, -⟩ := follows
      rfl
    | removed attr =>
      unfold FollowsAttributes at follows
      change (trees runtimeGlobal rest).any Tree.isMarker = false
      split at follows
      · exact ih follows
      · exact ih follows.2.2.2.2
    | kept | list | statements | node | function | opening =>
      refine Bool.or_eq_false_iff.mpr ⟨?_, ih follows.2.2⟩
      rw [isMarker_tree]
      exact follows.1

/-- An element has no markers after instrumentation. -/
theorem FollowsParts.unmarked {enclosure : Enclosure} {attachment? : Option Attachment}
    {parts : List (Field × Woven)}
    (follows : FollowsParts enclosure (Step.ofOpening attachment?) parts) :
    (Fields.get (treesInParts runtimeGlobal parts) .attributes).items.any Tree.isMarker =
      false := by
  rcases get_treesInParts_cases runtimeGlobal parts .attributes with ⟨missing, -⟩ |
    ⟨item, member, instrumented, -⟩
  · rw [missing]
    rfl
  · rw [instrumented]
    have held := follows.member member
    cases item with
    | kept tree =>
      rcases held with keep | scalar
      · cases keep
      · cases tree with
        | list | node => cases scalar
        | null | bool | num | str => rfl
    | list items => exact FollowsAttributes.unmarked runtimeGlobal held
    | statements items => cases held.1
    | node | function | opening => rfl
    | removed | reference => exact held.elim

mutual

/-- The markers left in an instrumented tree are those in its leftovers. -/
theorem hasMarkers_tree : ∀ woven : Woven,
    (∃ enclosure step, Decided enclosure step woven) → woven.isRemoved = false →
    (woven.tree runtimeGlobal).hasMarkers = woven.leftovers.any Tree.hasMarkers
  | kept tree, _, _ => (Bool.or_false _).symm
  | removed _, _, taken => absurd taken.symm Bool.false_ne_true
  | list items, ⟨_, _, decided⟩, _ => by
    refine hasMarkersInItems_trees items fun item member => ?_
    obtain ⟨inner, next, held, -⟩ := decided.held (.item member)
    exact ⟨inner, next, held⟩
  | statements items, ⟨_, _, decided⟩, _ => by
    refine hasMarkersInItems_trees items fun item member => ?_
    obtain ⟨inner, next, held, -⟩ := decided.held (.statement member)
    exact ⟨inner, next, held⟩
  | node kind parts, ⟨_, _, decided⟩, _ => by
    cases decided with
    | follows follows =>
      obtain ⟨-, -, notOpening, within⟩ := follows
      rw [tree, Tree.hasMarkers_node notOpening]
      exact hasMarkersInFields_trees parts fun part member => ⟨_, _, within.member member⟩
  | function kind outer scan? inner, ⟨_, _, decided⟩, _ => by
    cases decided with
    | follows follows =>
      obtain ⟨-, isFunction, -, outside, -, inside⟩ := follows
      have notOpening : kind ≠ .jsxOpeningElement := by
        rintro rfl
        exact absurd isFunction Bool.false_ne_true
      have takes := any_takesHooks runtimeGlobal inner
        fun part member => ⟨_, _, inside.member member⟩
      rw [tree, Tree.hasMarkers_node notOpening, Tree.hasMarkersInFields_eq_any, List.any_append,
        ← Tree.hasMarkersInFields_eq_any, ← Tree.hasMarkersInFields_eq_any,
        Fields.hasMarkersInFields_spliceBody, takes, hasMarkers_groups,
        hasMarkersInFields_trees outer fun part member => ⟨_, _, outside.member member⟩,
        hasMarkersInFields_trees inner fun part member => ⟨_, _, inside.member member⟩,
        leftovers, List.any_append, List.any_append, Bool.or_assoc]
      congr 2
      split
      case isTrue takesThem => rw [takesThem, Bool.true_and]
      case isFalse takesNone => rw [Bool.eq_false_iff.mpr takesNone, Bool.false_and, List.any_nil]
  | opening treatment parts, ⟨_, _, decided⟩, _ => by
    cases decided with
    | follows follows =>
      obtain ⟨-, -, within⟩ := follows
      rw [tree, Tree.hasMarkers, within.unmarked, Bool.false_or]
      exact hasMarkersInFields_trees parts fun part member => ⟨_, _, within.member member⟩
  | reference attachment replaced scan?, ⟨_, _, decided⟩, _ => by
    cases decided with
    | follows follows => exact follows.elim
    | reference alone scanned within =>
      have held := hasMarkersInItems_trees replaced
        fun item member => ⟨_, _, .follows (within.member member)⟩
      rw [Tree.hasMarkersInItems_eq_any] at held
      rw [tree, attachment.hasMarkers_attribute, toList_head?_trees runtimeGlobal alone, held, hasMarkers_groups, leftovers,
        List.any_append, List.any_append]
      -- An element without references to forward to has no other elements in them.
      intro nothing
      have empty : replaced = [] := by
        match replaced, alone with
        | [], _ => rfl
        | [item], _ =>
          rw [trees, if_neg (Bool.eq_false_iff.mp within.1.ordinary.1)] at nothing
          cases nothing
      rw [empty]
      cases scan? <;> rfl

/-- The markers left in a list of instrumented trees are those in their leftovers. -/
theorem hasMarkersInItems_trees : ∀ items : List Woven,
    (∀ item ∈ items, ∃ enclosure step, Decided enclosure step item) →
    Tree.hasMarkersInItems (trees runtimeGlobal items) =
      (leftoversInItems items).any Tree.hasMarkers
  | [], _ => rfl
  | item :: rest, decided => by
    have later := hasMarkersInItems_trees rest
      fun item member => decided item (List.mem_cons_of_mem _ member)
    rw [trees, leftoversInItems, List.any_append]
    cases taken : item.isRemoved with
    | true =>
      cases item with
      | removed attr => exact later
      | kept | list | statements | node | function | opening | reference => cases taken
    | false =>
      rw [if_neg Bool.false_ne_true, Tree.hasMarkersInItems, later,
        hasMarkers_tree item (decided item List.mem_cons_self) taken]

/-- The markers left in the parts of an instrumented node are those in their leftovers. -/
theorem hasMarkersInFields_trees : ∀ parts : List (Field × Woven),
    (∀ part ∈ parts, ∃ enclosure step, part.2.Follows enclosure step) →
    Tree.hasMarkersInFields (treesInParts runtimeGlobal parts) =
      (leftoversInParts parts).any Tree.hasMarkers
  | [], _ => rfl
  | (field, part) :: rest, follows => by
    obtain ⟨enclosure, step, first⟩ := follows (field, part) List.mem_cons_self
    rw [treesInParts, Tree.hasMarkersInFields, leftoversInParts, List.any_append,
      hasMarkers_tree part ⟨enclosure, step, .follows first⟩ first.ordinary.1,
      hasMarkersInFields_trees rest fun part member => follows part (List.mem_cons_of_mem _ member)]

end

end Woven

namespace Imports

theorem hasMarkersInItems_insertAt (items : List Tree) (index : Nat) {added : Tree}
    (unmarked : added.hasMarkers = false) :
    Tree.hasMarkersInItems (insertAt items index added) = Tree.hasMarkersInItems items := by
  rw [Tree.hasMarkersInItems_eq_any, Tree.hasMarkersInItems_eq_any, insertAt, List.any_append,
    List.any_cons, unmarked, Bool.false_or, ← List.any_append, List.take_append_drop]

/-- The imports added to a module bring no markers. -/
theorem hasMarkersInItems_inject (url : String) (items : List Tree) :
    Tree.hasMarkersInItems (inject url items).1 = Tree.hasMarkersInItems items := by
  have loaded : Tree.hasMarkersInItems (withRuntime url items).1 =
      Tree.hasMarkersInItems items := by
    unfold withRuntime
    split
    · rfl
    · exact hasMarkersInItems_insertAt items _ rfl
  unfold inject
  simp only
  split
  · exact loaded
  · rw [hasMarkersInItems_insertAt _ _ rfl, loaded]

end Imports

/-- The markers left in an instrumented module are those in its leftovers. -/
theorem hasMarkersInItems_instrumentModule (options : Options) (file : String)
    (source? : Option String) (items : List Tree) :
    Tree.hasMarkersInItems (instrumentModule options file source? items).items =
      (Woven.leftoversInItems (weaveModule source? items)).any Tree.hasMarkers := by
  have follows := weaveModule_follows source? items
  have visited := Woven.hasMarkersInItems_trees options.runtimeGlobal (weaveModule source? items)
    fun item member => ⟨_, _, .follows (follows.member member)⟩
  unfold instrumentModule
  simp only
  split
  · exact visited
  · rw [Imports.hasMarkersInItems_inject, visited]

/-- Attributes that are no markers ask for nothing. -/
theorem ElementMarkers.scan_unmarked {attributes : List Tree}
    (unmarked : ∀ attr ∈ attributes, attr.isMarker = false) : scan attributes = {} := by
  unfold scan
  induction attributes with
  | nil => rfl
  | cons attr rest ih =>
    have skipped : add {} attr = {} := by
      have none := Option.not_isSome_iff_eq_none.mp
        (Bool.eq_false_iff.mp (unmarked attr List.mem_cons_self))
      rw [add, none]
    rw [List.foldl_cons, skipped]
    exact ih fun attr member => unmarked attr (List.mem_cons_of_mem _ member)

theorem Tree.hereditary_unmarked : Hereditary fun tree => tree.hasMarkers = false where
  null := rfl
  item := fun {items item} whole member => by
    rw [Bool.eq_false_iff] at whole ⊢
    exact fun marked => whole ((Occurs.item member .self).hasMarkers marked)
  part := fun {kind fields field part} whole member => by
    rw [Bool.eq_false_iff] at whole ⊢
    exact fun marked => whole ((Occurs.part member .self).hasMarkers marked)

/-- Elements of a module without markers have none. -/
theorem markers_of_unmarked {source? : Option String} {items : List Tree} {treatment : Treatment}
    (visited : treatment ∈ Woven.treatmentsInItems (weaveModule source? items))
    (unmarked : Tree.hasMarkersInItems items = false) :
    treatment.markers = {} ∧ treatment.outcome = .plain := by
  obtain ⟨enclosure, parts, suits, bare⟩ := exists_suits visited Tree.hereditary_unmarked unmarked
  have nothing : treatment.markers = {} := by
    rw [suits.markers]
    apply ElementMarkers.scan_unmarked
    intro attr member
    exact Bool.eq_false_iff.mpr (List.any_eq_false.mp (Bool.or_eq_false_iff.mp bare).1 attr member)
  refine ⟨nothing, ?_⟩
  have decision := suits.outcome
  cases outcome : treatment.outcome with
  | plain => rfl
  | refused | instrumented =>
    rw [outcome, nothing] at decision
    exact absurd decision.1 Bool.false_ne_true

/-- Elements are only instrumented in modules with markers. -/
theorem hasMarkers_of_instrumented {source? : Option String} {items : List Tree}
    {treatment : Treatment}
    (visited : treatment ∈ Woven.treatmentsInItems (weaveModule source? items))
    {handle : ElementHandle} (given : treatment.handle? = some handle) :
    Tree.hasMarkersInItems items = true := by
  by_contra unmarked
  have plain := (markers_of_unmarked visited (Bool.eq_false_iff.mpr unmarked)).2
  simp [Treatment.handle?, Treatment.allocation?, plain] at given

/-- A module without markers is returned as it is. -/
theorem transformModule_unmarked {items : List Tree}
    (unmarked : Tree.hasMarkersInItems items = false) (options : Options) (registry : Registry)
    (file : String) (source? : Option String) :
    transformModule options registry file source? items =
      ({ items, points := [], diagnostics := [], instrumented := false, handles := 0 },
        registry) := by
  rw [transformModule, if_neg (Bool.eq_false_iff.mp unmarked)]

/-- `return <div data-track-show={label(<b data-track-click={"buy"} />)} />;` -/
def nestedMarkers : List Tree :=
  [Code.returnValue (markedElement "div" "data-track-show"
    (Code.call (Code.reference "label") [markedElement "b" "data-track-click" (Code.string "buy")]))]

end JsxTracking
