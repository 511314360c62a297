import JsxTracking.Proofs.RecordedNames
import JsxTracking.Proofs.Rewriting

/-! # Taking the changes back

What instrumentation generates can be taken away again: hooks, references and imports. What is left
is the module as it was, without the markers of the elements that were visited. It is the module
without any markers if there are none in the trees that were left without a visit
(`Rewriting.Allowed.withoutMarkers`), and only then (`Rewriting.Allowed.leaves`). -/

namespace JsxTracking

namespace Tree

/-- A list of attributes without the markers among them. -/
def dropMarkers : Tree → Tree
  | list items => list (stripMarkers items)
  | tree => tree

/-- A part of a node, without the markers in it if it holds the attributes of an element. -/
def dropPart (kind : Kind) (field : Field) (part : Tree) : Tree :=
  if kind = .jsxOpeningElement ∧ field = .attributes then part.dropMarkers else part

mutual

/-- A tree with all markers taken away. -/
def withoutMarkers : Tree → Tree
  | node kind fields => node kind (withoutMarkersInFields kind fields)
  | list items => list (withoutMarkersInItems items)
  | tree => tree

/-- A list of trees with all markers taken away. -/
def withoutMarkersInItems : List Tree → List Tree
  | [] => []
  | item :: rest => withoutMarkers item :: withoutMarkersInItems rest

/-- The parts of a node with all markers taken away. -/
def withoutMarkersInFields (kind : Kind) : List (Field × Tree) → Fields
  | [] => []
  | (field, part) :: rest =>
    (field, dropPart kind field (withoutMarkers part)) :: withoutMarkersInFields kind rest

end

theorem withoutMarkersInItems_eq_map (items : List Tree) :
    withoutMarkersInItems items = items.map withoutMarkers := by
  induction items with
  | nil => rfl
  | cons item rest ih => rw [withoutMarkersInItems, ih, List.map_cons]

theorem withoutMarkersInFields_eq_map (kind : Kind) (fields : Fields) :
    withoutMarkersInFields kind fields =
      fields.map fun part => (part.1, dropPart kind part.1 part.2.withoutMarkers) := by
  induction fields with
  | nil => rfl
  | cons part rest ih => rw [withoutMarkersInFields, ih, List.map_cons]

theorem dropPart_of_ne {kind : Kind} {field : Field}
    (other : kind = .jsxOpeningElement → field ≠ .attributes) (part : Tree) :
    dropPart kind field part = part := by
  apply if_neg
  rintro ⟨isOpening, isAttributes⟩
  exact other isOpening isAttributes

@[simp] theorem isList_withoutMarkers (tree : Tree) : tree.withoutMarkers.isList = tree.isList := by
  cases tree <;> rfl

theorem dropPart_of_unlisted {kind : Kind} {field : Field} {part : Tree}
    (unlisted : kind = .jsxOpeningElement → field = .attributes → part.isList = false) :
    dropPart kind field part = part := by
  unfold dropPart
  split
  case isTrue drops =>
    have noList := unlisted drops.1 drops.2
    cases part with
    | list items => cases noList
    | null | bool | num | str | node => rfl
  case isFalse => rfl

@[simp] theorem kind?_withoutMarkers (tree : Tree) : tree.withoutMarkers.kind? = tree.kind? := by
  cases tree <;> rfl

@[simp] theorem isKind_withoutMarkers (tree : Tree) (kind : Kind) :
    tree.withoutMarkers.isKind kind = tree.isKind kind := by
  rw [isKind, isKind, kind?_withoutMarkers]

@[simp] theorem text?_withoutMarkers (tree : Tree) : tree.withoutMarkers.text? = tree.text? := by
  cases tree <;> rfl

theorem get_withoutMarkers {tree : Tree} {field : Field}
    (other : tree.isKind .jsxOpeningElement = true → field ≠ .attributes) :
    tree.withoutMarkers.get field = (tree.get field).withoutMarkers := by
  cases tree with
  | node kind fields =>
    have changed := lookup_map_parts (fun field part => dropPart kind field (withoutMarkers part))
      fields field
    rw [withoutMarkers, withoutMarkersInFields_eq_map, get, get, Fields.get, Fields.get, changed]
    cases fields.lookup field with
    | none => rfl
    | some part =>
      exact dropPart_of_ne (fun same => other (by rw [same]; exact decide_eq_true rfl)) _
  | null | bool | num | str | list => rfl

/-- Attributes keep their names. -/
@[simp] theorem attributeName?_withoutMarkers (attr : Tree) :
    attr.withoutMarkers.attributeName? = attr.attributeName? := by
  have named : attr.withoutMarkers.get .name = (attr.get .name).withoutMarkers :=
    get_withoutMarkers fun _ => Field.noConfusion
  have valued : (attr.get .name).withoutMarkers.get .value =
      ((attr.get .name).get .value).withoutMarkers := get_withoutMarkers fun _ => Field.noConfusion
  rw [attributeName?_eq, attributeName?_eq, isKind_withoutMarkers, named, isKind_withoutMarkers,
    valued, text?_withoutMarkers]

@[simp] theorem isMarker_withoutMarkers (attr : Tree) :
    attr.withoutMarkers.isMarker = attr.isMarker := by
  rw [isMarker, isMarker, markerKind?, markerKind?, attributeName?_withoutMarkers]

@[simp] theorem isRef_withoutMarkers (attr : Tree) : attr.withoutMarkers.isRef = attr.isRef := by
  rw [isRef, isRef, attributeName?_withoutMarkers]

theorem stripMarkers_withoutMarkers (attributes : List Tree) :
    stripMarkers (attributes.map withoutMarkers) = (stripMarkers attributes).map withoutMarkers := by
  rw [stripMarkers, stripMarkers, List.filter_map]
  congr 2
  funext attr
  exact congrArg (!·) attr.isMarker_withoutMarkers

theorem spreadExpression?_withoutMarkers (attr : Tree) :
    attr.withoutMarkers.spreadExpression? = attr.spreadExpression?.map withoutMarkers := by
  cases attr with
  | node kind fields =>
    by_cases spreads : kind = .spreadElement
    · subst spreads
      have held : ((node .spreadElement fields).withoutMarkers).get .arguments =
          ((node .spreadElement fields).get .arguments).withoutMarkers :=
        get_withoutMarkers fun _ => Field.noConfusion
      exact congrArg some held
    · rw [withoutMarkers]
      unfold spreadExpression?
      split
      case h_1 same => exact absurd (node.inj same).1 spreads
      case h_2 =>
        split
        case h_1 same => exact absurd (node.inj same).1 spreads
        case h_2 => rfl
  | null | bool | num | str | list => rfl

/-- The expression of a `ref` is what its container holds. -/
theorem refExpression?_iff {attr expression : Tree} : attr.refExpression? = some expression ↔
    (attr.get .value).isKind .jsxExpressionContainer = true ∧
      (attr.get .value).get .expression = expression ∧
      expression.isKind .jsxEmptyExpression = false := by
  unfold refExpression?
  split
  case h_1 fields value =>
    rw [value]
    change _ ↔ true = true ∧ Fields.get fields .expression = expression ∧ _
    split
    case h_1 parts empty =>
      rw [empty]
      constructor
      · intro impossible
        cases impossible
      · rintro ⟨-, rfl, other⟩
        cases other
    case h_2 other =>
      constructor
      · intro found
        obtain rfl := Option.some.inj found
        refine ⟨rfl, rfl, ?_⟩
        rw [Bool.eq_false_iff]
        intro isEmpty
        obtain ⟨parts, empty⟩ := isKind_iff.mp isEmpty
        exact other parts empty
      · rintro ⟨-, rfl, -⟩
        rfl
  case h_2 other =>
    constructor
    · intro impossible
      cases impossible
    · rintro ⟨isContainer, -, -⟩
      obtain ⟨fields, value⟩ := isKind_iff.mp isContainer
      exact absurd value (other fields)

theorem refExpression?_withoutMarkers {attr expression : Tree}
    (found : attr.refExpression? = some expression) :
    attr.withoutMarkers.refExpression? = some expression.withoutMarkers := by
  obtain ⟨isContainer, rfl, notEmpty⟩ := refExpression?_iff.mp found
  have valued : attr.withoutMarkers.get .value = (attr.get .value).withoutMarkers :=
    get_withoutMarkers fun _ => Field.noConfusion
  have held : (attr.get .value).withoutMarkers.get .expression =
      ((attr.get .value).get .expression).withoutMarkers :=
    get_withoutMarkers fun _ => Field.noConfusion
  apply refExpression?_iff.mpr
  rw [valued, held, isKind_withoutMarkers, isKind_withoutMarkers]
  exact ⟨isContainer, rfl, notEmpty⟩

/-- A marker is no reference and spreads nothing. -/
theorem isMarker_other {attr : Tree} (isMarker : attr.isMarker = true) :
    attr.isRef = false ∧ attr.spreadExpression? = none := by
  unfold Tree.isMarker markerKind? at isMarker
  constructor
  · rw [Bool.eq_false_iff]
    intro isRef
    rw [of_decide_eq_true isRef] at isMarker
    revert isMarker
    decide
  · unfold spreadExpression?
    split
    case h_1 => cases isMarker
    case h_2 => rfl

theorem hasMarkers_dropMarkers {tree : Tree} (unmarked : tree.hasMarkers = false) :
    tree.dropMarkers.hasMarkers = false := by
  cases tree with
  | list items =>
    rw [dropMarkers, hasMarkers, hasMarkersInItems_eq_any]
    rw [hasMarkers, hasMarkersInItems_eq_any] at unmarked
    apply List.any_eq_false.mpr
    intro item member
    exact List.any_eq_false.mp unmarked item (List.mem_of_mem_filter member)
  | null | bool | num | str | node => exact unmarked

/-- No attribute of an element is a marker after the markers are taken away. -/
theorem noMarkers_attributes (fields : Fields) :
    (Fields.get (withoutMarkersInFields .jsxOpeningElement fields) .attributes).items.any isMarker =
      false := by
  have changed := lookup_map_parts
    (fun field part => dropPart .jsxOpeningElement field (withoutMarkers part)) fields .attributes
  rw [withoutMarkersInFields_eq_map, Fields.get, changed]
  cases fields.lookup .attributes with
  | none => rfl
  | some part =>
    change ((dropPart .jsxOpeningElement .attributes part.withoutMarkers).items).any isMarker = false
    rw [dropPart, if_pos ⟨rfl, rfl⟩]
    cases part with
    | list items =>
      apply List.any_eq_false.mpr
      intro attr member
      simpa using (List.mem_filter.mp member).2
    | null | bool | num | str | node => rfl

mutual

/-- Nothing is left of the markers. -/
theorem hasMarkers_withoutMarkers : ∀ tree : Tree, tree.withoutMarkers.hasMarkers = false
  | node kind fields => by
    have inside := hasMarkersInFields_withoutMarkers kind fields
    rw [withoutMarkers]
    by_cases opening : kind = .jsxOpeningElement
    · subst opening
      exact Bool.or_eq_false_iff.mpr ⟨noMarkers_attributes fields, inside⟩
    · rw [hasMarkers_node opening]
      exact inside
  | list items => hasMarkersInItems_withoutMarkers items
  | null | bool _ | num _ | str _ => rfl

/-- `Tree.hasMarkers_withoutMarkers` for a list of trees. -/
theorem hasMarkersInItems_withoutMarkers : ∀ items : List Tree,
    hasMarkersInItems (withoutMarkersInItems items) = false
  | [] => rfl
  | item :: rest => Bool.or_eq_false_iff.mpr
      ⟨hasMarkers_withoutMarkers item, hasMarkersInItems_withoutMarkers rest⟩

/-- `Tree.hasMarkers_withoutMarkers` for the parts of a node. -/
theorem hasMarkersInFields_withoutMarkers (kind : Kind) : ∀ fields : List (Field × Tree),
    hasMarkersInFields (withoutMarkersInFields kind fields) = false
  | [] => rfl
  | (field, part) :: rest => by
    have whole := hasMarkers_withoutMarkers part
    refine Bool.or_eq_false_iff.mpr ⟨?_, hasMarkersInFields_withoutMarkers kind rest⟩
    unfold dropPart
    split
    · exact hasMarkers_dropMarkers whole
    · exact whole

end

/-- Attributes that are no markers are kept. -/
theorem dropMarkers_of_unmarked {tree : Tree} (unmarked : tree.items.any isMarker = false) :
    tree.withoutMarkers.dropMarkers = tree.withoutMarkers := by
  cases tree with
  | list items =>
    rw [withoutMarkers, withoutMarkersInItems_eq_map, dropMarkers, stripMarkers_withoutMarkers]
    refine congrArg (fun kept => list (kept.map withoutMarkers)) (List.filter_eq_self.mpr ?_)
    intro attr member
    simpa using List.any_eq_false.mp unmarked attr member
  | null | bool | num | str | node => rfl

mutual

/-- A well-formed tree without markers is left as it is. -/
theorem withoutMarkers_of_unmarked : ∀ tree : Tree, tree.isWellFormed = true →
    tree.hasMarkers = false → tree.withoutMarkers = tree
  | node kind fields, wellFormed, unmarked => by
    have inside : hasMarkersInFields fields = false := by
      by_cases opening : kind = .jsxOpeningElement
      · subst opening
        exact (Bool.or_eq_false_iff.mp unmarked).2
      · rw [hasMarkers_node opening] at unmarked
        exact unmarked
    obtain ⟨distinct, -, parts, -⟩ := isWellFormed_node wellFormed
    have same := map_withoutMarkers_of_unmarked fields (fieldsAreWellFormed_iff.mpr parts) inside
    rw [withoutMarkers, withoutMarkersInFields_eq_map]
    refine congrArg (node kind) (Eq.trans (List.map_congr_left fun part member => ?_) same)
    refine Prod.ext rfl ?_
    unfold dropPart
    split
    case isTrue drops =>
      obtain ⟨field, part⟩ := part
      obtain ⟨rfl, rfl⟩ := drops
      have bare := (Bool.or_eq_false_iff.mp unmarked).1
      rw [Fields.get_of_mem distinct member] at bare
      exact dropMarkers_of_unmarked bare
    case isFalse => rfl
  | list items, wellFormed, unmarked =>
    congrArg list (withoutMarkersInItems_of_unmarked items wellFormed unmarked)
  | null, _, _ | bool _, _, _ | num _, _, _ | str _, _, _ => rfl

/-- `Tree.withoutMarkers_of_unmarked` for a list of trees. -/
theorem withoutMarkersInItems_of_unmarked : ∀ items : List Tree, itemsAreWellFormed items = true →
    hasMarkersInItems items = false → withoutMarkersInItems items = items
  | [], _, _ => rfl
  | item :: rest, wellFormed, unmarked => by
    obtain ⟨first, later⟩ := Bool.or_eq_false_iff.mp unmarked
    obtain ⟨formed, formedRest⟩ := Bool.and_eq_true_iff.mp wellFormed
    rw [withoutMarkersInItems, withoutMarkers_of_unmarked item formed first,
      withoutMarkersInItems_of_unmarked rest formedRest later]

/-- `Tree.withoutMarkers_of_unmarked` for the parts of a node. -/
theorem map_withoutMarkers_of_unmarked : ∀ fields : List (Field × Tree),
    fieldsAreWellFormed fields = true → hasMarkersInFields fields = false →
    fields.map (fun part => (part.1, part.2.withoutMarkers)) = fields
  | [], _, _ => rfl
  | (field, part) :: rest, wellFormed, unmarked => by
    obtain ⟨first, later⟩ := Bool.or_eq_false_iff.mp unmarked
    obtain ⟨formed, formedRest⟩ := Bool.and_eq_true_iff.mp wellFormed
    rw [List.map_cons, withoutMarkers_of_unmarked part formed first,
      map_withoutMarkers_of_unmarked rest formedRest later]

end

end Tree

namespace ElementRef

/-- Markers do not matter to what is spread after the last reference. -/
theorem trailingSpreads_stripMarkers (attributes : List Tree) :
    trailingSpreads (stripMarkers attributes) = trailingSpreads attributes := by
  have stripped (backwards : List Tree) :
      (stripMarkers backwards).takeWhile (fun attr => !attr.isRef) =
        stripMarkers (backwards.takeWhile fun attr => !attr.isRef) := by
    induction backwards with
    | nil => rfl
    | cons attr rest ih =>
      unfold stripMarkers at ih ⊢
      cases isMarker : attr.isMarker with
      | true =>
        have other := (Tree.isMarker_other isMarker).1
        simp [isMarker, other, ih]
      | false => cases isRef : attr.isRef <;> simp [isMarker, isRef, ih]
  have silent (attr : Tree) (isMarker : ¬ (!attr.isMarker) = true) : attr.spreadExpression? = none :=
    (Tree.isMarker_other (by simpa using isMarker)).2
  rw [trailingSpreads, trailingSpreads, stripMarkers, ← List.filter_reverse]
  change ((stripMarkers attributes.reverse).takeWhile _).reverse.filterMap _ = _
  rw [stripped, stripMarkers, ← List.filter_reverse, List.filterMap_filter]
  congr 1
  funext attr
  split
  · rfl
  · exact (silent attr ‹_›).symm

theorem trailingSpreads_withoutMarkers (attributes : List Tree) :
    trailingSpreads (attributes.map Tree.withoutMarkers) =
      (trailingSpreads attributes).map Tree.withoutMarkers := by
  have sameRefs : ((fun attr => !attr.isRef) ∘ Tree.withoutMarkers) = fun attr => !attr.isRef := by
    funext attr
    exact congrArg (!·) attr.isRef_withoutMarkers
  rw [trailingSpreads, trailingSpreads, ← List.map_reverse, List.takeWhile_map, sameRefs,
    ← List.map_reverse, List.filterMap_map, List.map_filterMap]
  congr 1
  funext attr
  exact attr.spreadExpression?_withoutMarkers

end ElementRef

namespace Change

/-- The change made to a tree without its markers. -/
def withoutMarkers : Change → Change
  | reference attachment explicit? => reference attachment (explicit?.map Tree.withoutMarkers)
  | change => change

theorem map_hooks_withoutMarkers (elements : List Tracked) :
    (elements.map hooks).map withoutMarkers = elements.map hooks := by
  rw [List.map_map]
  rfl

/-- Whether a property holds of the trees that the change leaves as they were in the module. -/
def Leaves (holds : Tree → Prop) : Change → Prop
  | unvisited tree => holds tree
  | reference attachment _ => ∀ spread ∈ attachment.spreads, holds spread
  | _ => True

end Change

/-- What becomes of the tree without its markers. -/
def Rewriting.withoutMarkers (rewriting : Rewriting) : Rewriting :=
  ⟨rewriting.source.withoutMarkers, rewriting.image, rewriting.changes.map Change.withoutMarkers⟩

section

variable {runtimeGlobal : String}

/-- What is rewritten in the attributes of an element has their hereditary properties, and is changed
with them. -/
theorem AttributesRewritten.within {holds : Tree → Prop} {attachment? : Option Attachment}
    {attributes images : List Tree} {within : List Rewriting} {changes : List Change}
    (rewritten : AttributesRewritten runtimeGlobal attachment? attributes within images changes)
    (hereditary : Tree.Hereditary holds) (whole : ∀ attr ∈ attributes, holds attr) :
    ∀ item ∈ within, holds item.source ∧ ∀ change ∈ item.changes, change ∈ changes := by
  intro item among
  cases rewritten with
  | plain =>
    refine ⟨whole _ (List.mem_map_of_mem among), fun change inside => ?_⟩
    exact List.mem_flatMap.mpr ⟨item, among, inside⟩
  | added _ gives =>
    refine ⟨whole _ (List.mem_map_of_mem among), fun change inside => ?_⟩
    exact List.mem_append_left _ (List.mem_flatMap.mpr ⟨item, among, inside⟩)
  | @replaced attachment attr generated front back explicit elements hooks isRef expression arranged
      gives =>
    simp only [List.mem_append, List.mem_cons, List.mem_map] at whole
    simp only [List.mem_append, List.mem_singleton] at among
    simp only [List.mem_append, List.mem_flatMap]
    rcases among with (early | late) | rfl
    · refine ⟨whole _ (Or.inl ⟨item, early, rfl⟩), fun change inside => ?_⟩
      exact Or.inl (Or.inl (Or.inl (Or.inl ⟨item, early, inside⟩)))
    · refine ⟨whole _ (Or.inr (Or.inr ⟨item, late, rfl⟩)), fun change inside => ?_⟩
      exact Or.inl (Or.inl (Or.inl (Or.inr ⟨item, late, inside⟩)))
    · refine ⟨hereditary.refExpression (whole attr (Or.inr (Or.inl rfl))) expression, ?_⟩
      exact fun change inside => Or.inl (Or.inl (Or.inr inside))

theorem AttributesRewritten.leaves {holds : Tree → Prop} {attachment? : Option Attachment}
    {attributes images : List Tree} {within : List Rewriting} {changes : List Change}
    (rewritten : AttributesRewritten runtimeGlobal attachment? attributes within images changes)
    (hereditary : Tree.Hereditary holds) (whole : ∀ attr ∈ attributes, holds attr)
    (spread : ∀ attachment ∈ attachment?, ∀ spread ∈ attachment.spreads, holds spread)
    (each : ∀ item ∈ within, holds item.source → ∀ change ∈ item.changes, change.Leaves holds) :
    ∀ change ∈ changes, change.Leaves holds := by
  intro change member
  cases rewritten with
  | plain =>
    obtain ⟨item, among, inside⟩ := List.mem_flatMap.mp member
    exact each item among (whole _ (List.mem_map_of_mem among)) change inside
  | @added attachment _ _ gives =>
    rcases List.mem_append.mp member with here | own
    · obtain ⟨item, among, inside⟩ := List.mem_flatMap.mp here
      exact each item among (whole _ (List.mem_map_of_mem among)) change inside
    · obtain rfl := List.mem_singleton.mp own
      exact spread attachment rfl
  | @replaced attachment attr generated front back explicit elements hooks isRef expression arranged
      gives =>
    simp only [List.mem_append, List.mem_flatMap, List.mem_map, List.mem_singleton] at member
    simp only [List.mem_append, List.mem_cons, List.mem_map] at whole
    rcases member with (((⟨item, among, inside⟩ | ⟨item, among, inside⟩) | inside) |
      ⟨element, -, rfl⟩) | rfl
    · exact each item (by simp [among]) (whole _ (Or.inl ⟨item, among, rfl⟩)) change inside
    · exact each item (by simp [among]) (whole _ (Or.inr (Or.inr ⟨item, among, rfl⟩))) change inside
    · refine each explicit (by simp) ?_ change inside
      exact hereditary.refExpression (whole attr (Or.inr (Or.inl rfl))) expression
    · trivial
    · exact spread attachment rfl

namespace Rewriting

/-- What is left of a tree without a visit has the hereditary properties of the tree. -/
theorem Allowed.leaves {holds : Tree → Prop} (hereditary : Tree.Hereditary holds)
    {rewriting : Rewriting} (allowed : rewriting.Allowed runtimeGlobal)
    (whole : holds rewriting.source) : ∀ change ∈ rewriting.changes, change.Leaves holds := by
  have inParts {kind : Kind} {parts : List (Field × Rewriting)}
      (whole : holds (.node kind (sourcesInParts parts)))
      (each : ∀ part ∈ parts, holds part.2.source → ∀ change ∈ part.2.changes, change.Leaves holds) :
      ∀ change ∈ changesInParts parts, change.Leaves holds := by
    intro change member
    obtain ⟨part, among, inside⟩ := List.mem_flatMap.mp member
    refine each part among ?_ change inside
    exact hereditary.part whole (List.mem_map.mpr ⟨part, among, rfl⟩)
  induction allowed with
  | unvisited tree =>
    intro change member
    obtain rfl := List.mem_singleton.mp member
    exact whole
  | scalar => exact fun change member => absurd member List.not_mem_nil
  | list each ih =>
    intro change member
    obtain ⟨item, among, inside⟩ := List.mem_flatMap.mp member
    exact ih item among (hereditary.item whole (List.mem_map_of_mem among)) change inside
  | node unattributed each ih => exact inParts whole ih
  | component isFunction each arranged gains ih =>
    intro change member
    rcases List.mem_append.mp member with kept | hooked
    · exact inParts whole ih change kept
    · obtain ⟨element, -, rfl⟩ := List.mem_map.mp hooked
      trivial
  | @opening early late attributes images attachment? within inAttributes others spread each
      eachWithin rewritten ih ihWithin =>
    have held {field : Field} {tree : Tree} (member : (field, tree) ∈ sourcesInParts early ++
        (.attributes, .list attributes) :: sourcesInParts late) : holds tree :=
      hereditary.part whole member
    have inList : ∀ attr ∈ attributes, holds attr := fun attr member =>
      hereditary.item (held (List.mem_append_right _ List.mem_cons_self)) member
    have middle := rewritten.leaves hereditary
      (fun attr member => inList attr (List.mem_of_mem_filter member))
      (fun attachment due expression member =>
        hereditary.trailingSpreads inList expression ((spread attachment due).1 ▸ member)) ihWithin
    intro change member
    simp only [List.mem_append, changesInParts, List.mem_flatMap] at member
    rcases member with ((given | ⟨part, among, inside⟩) | inside) | ⟨part, among, inside⟩
    · cases attachment? with
      | none => cases given
      | some attachment =>
        obtain rfl := List.mem_singleton.mp given
        trivial
    · exact ih part (List.mem_append_left _ among)
        (held (List.mem_append_left _ (List.mem_map.mpr ⟨part, among, rfl⟩))) change inside
    · exact middle change inside
    · exact ih part (List.mem_append_right _ among)
        (held (List.mem_append_right _ (List.mem_cons_of_mem _ (List.mem_map.mpr
          ⟨part, among, rfl⟩)))) change inside

/-- Changes made to some trees are made to them without their markers. -/
theorem map_withoutMarkers (items : List Rewriting) :
    (items.map withoutMarkers).map source = (items.map source).map Tree.withoutMarkers ∧
      (items.map withoutMarkers).map image = items.map image ∧
      (items.map withoutMarkers).flatMap changes =
        (items.flatMap changes).map Change.withoutMarkers := by
  refine ⟨?_, ?_, ?_⟩
  · rw [List.map_map, List.map_map]
    rfl
  · rw [List.map_map]
    rfl
  · rw [List.flatMap_map, List.map_flatMap]
    rfl

/-- The parts of a node without their markers. -/
def partsWithoutMarkers (parts : List (Field × Rewriting)) : List (Field × Rewriting) :=
  parts.map fun part => (part.1, part.2.withoutMarkers)

theorem imagesInParts_withoutMarkers (parts : List (Field × Rewriting)) :
    imagesInParts (partsWithoutMarkers parts) = imagesInParts parts := by
  rw [imagesInParts, partsWithoutMarkers, List.map_map]
  rfl

theorem changesInParts_withoutMarkers (parts : List (Field × Rewriting)) :
    changesInParts (partsWithoutMarkers parts) =
      (changesInParts parts).map Change.withoutMarkers := by
  rw [changesInParts, changesInParts, partsWithoutMarkers, List.flatMap_map, List.map_flatMap]
  rfl

theorem sourcesInParts_withoutMarkers {kind : Kind} {parts : List (Field × Rewriting)}
    (kept : ∀ part ∈ parts, Tree.dropPart kind part.1 part.2.source.withoutMarkers =
      part.2.source.withoutMarkers) :
    sourcesInParts (partsWithoutMarkers parts) =
      Tree.withoutMarkersInFields kind (sourcesInParts parts) := by
  rw [Tree.withoutMarkersInFields_eq_map, sourcesInParts, sourcesInParts, partsWithoutMarkers,
    List.map_map, List.map_map]
  apply List.map_congr_left
  intro part member
  exact Prod.ext rfl (kept part member).symm

/-- The parts of an opening tag with all markers taken away. -/
theorem withoutMarkersInFields_opening {early late : List (Field × Rewriting)}
    (others : ∀ part ∈ early ++ late, part.1 ≠ .attributes) (attributes : List Tree) :
    Tree.withoutMarkersInFields .jsxOpeningElement
        (sourcesInParts early ++ (.attributes, .list attributes) :: sourcesInParts late) =
      sourcesInParts (partsWithoutMarkers early) ++
        (.attributes, .list (stripMarkers (attributes.map Tree.withoutMarkers))) ::
          sourcesInParts (partsWithoutMarkers late) := by
  have kept {parts : List (Field × Rewriting)} (among : ∀ part ∈ parts, part ∈ early ++ late) :
      sourcesInParts (partsWithoutMarkers parts) =
        Tree.withoutMarkersInFields .jsxOpeningElement (sourcesInParts parts) := by
    apply sourcesInParts_withoutMarkers
    intro part member
    exact Tree.dropPart_of_ne (fun _ => others part (among part member)) _
  rw [kept fun part => List.mem_append_left _, kept fun part => List.mem_append_right _,
    ← Tree.withoutMarkersInItems_eq_map]
  simp only [Tree.withoutMarkersInFields_eq_map, List.map_append, List.map_cons]
  rfl

end Rewriting

theorem AttributesRewritten.withoutMarkers {attachment? : Option Attachment}
    {attributes images : List Tree} {within : List Rewriting} {changes : List Change}
    (rewritten : AttributesRewritten runtimeGlobal attachment? attributes within images changes) :
    AttributesRewritten runtimeGlobal attachment? (attributes.map Tree.withoutMarkers)
      (within.map Rewriting.withoutMarkers) images (changes.map Change.withoutMarkers) := by
  cases rewritten with
  | plain =>
    obtain ⟨sources, images, changed⟩ := Rewriting.map_withoutMarkers within
    rw [← sources, ← images, ← changed]
    exact .plain _
  | @added attachment _ _ gives =>
    obtain ⟨sources, images, changed⟩ := Rewriting.map_withoutMarkers within
    rw [← sources, ← images, List.map_append, ← changed]
    exact .added _ gives
  | @replaced attachment attr generated front back explicit elements hooks isRef expression arranged
      gives =>
    obtain ⟨sources, images, changed⟩ := Rewriting.map_withoutMarkers front
    obtain ⟨sources', images', changed'⟩ := Rewriting.map_withoutMarkers back
    have named : attr.withoutMarkers.isRef = true := attr.isRef_withoutMarkers.trans isRef
    have whole := @AttributesRewritten.replaced runtimeGlobal attachment _ generated
      (front.map Rewriting.withoutMarkers) (back.map Rewriting.withoutMarkers)
      explicit.withoutMarkers elements hooks named (Tree.refExpression?_withoutMarkers expression)
      arranged gives
    rw [sources, sources', images, images', changed, changed'] at whole
    simp only [List.map_append, List.map_cons, List.map_nil, Change.map_hooks_withoutMarkers]
    exact whole

/-- The reference of an element is among the changes. -/
theorem AttributesRewritten.mem_reference {attachment : Attachment} {attributes images : List Tree}
    {within : List Rewriting} {changes : List Change}
    (rewritten : AttributesRewritten runtimeGlobal (some attachment) attributes within images changes) :
    ∃ explicit?, Change.reference attachment explicit? ∈ changes := by
  cases rewritten with
  | added _ gives => exact ⟨none, List.mem_append_right _ List.mem_cons_self⟩
  | replaced => exact ⟨_, List.mem_append_right _ List.mem_cons_self⟩

/-- What is forwarded is the same without the markers, if it has none. -/
theorem AttributesRewritten.spreads_withoutMarkers {attachment : Attachment}
    {attributes stripped images : List Tree} {within : List Rewriting} {changes : List Change}
    (rewritten : AttributesRewritten runtimeGlobal (some attachment) stripped within images changes)
    (spread : attachment.spreads = ElementRef.trailingSpreads attributes)
    (wellFormed : ∀ attr ∈ attributes, attr.isWellFormed = true)
    (unmarked : ∀ change ∈ changes, change.Leaves fun tree => tree.hasMarkers = false) :
    attachment.spreads =
      ElementRef.trailingSpreads (stripMarkers (attributes.map Tree.withoutMarkers)) := by
  obtain ⟨explicit?, member⟩ := rewritten.mem_reference
  have bare := unmarked _ member
  rw [ElementRef.trailingSpreads_stripMarkers, ElementRef.trailingSpreads_withoutMarkers, ← spread]
  refine ((List.map_congr_left fun expression among => ?_).trans (List.map_id _)).symm
  refine Tree.withoutMarkers_of_unmarked expression ?_ (bare expression among)
  exact Tree.hereditary_isWellFormed.trailingSpreads wellFormed expression (spread ▸ among)

namespace Rewriting

/-- If nothing with markers is left without a visit, the changes may be made to the tree without its
markers as well. -/
theorem Allowed.withoutMarkers {rewriting : Rewriting} (allowed : rewriting.Allowed runtimeGlobal)
    (wellFormed : rewriting.source.isWellFormed = true)
    (unmarked : ∀ change ∈ rewriting.changes, change.Leaves fun tree => tree.hasMarkers = false) :
    rewriting.withoutMarkers.Allowed runtimeGlobal := by
  have inParts {parts : List (Field × Rewriting)}
      (wellFormed : ∀ part ∈ sourcesInParts parts, part.2.isWellFormed = true)
      (unmarked : ∀ change ∈ changesInParts parts, change.Leaves fun tree => tree.hasMarkers = false)
      (each : ∀ part ∈ parts, part.2.source.isWellFormed = true →
        (∀ change ∈ part.2.changes, change.Leaves fun tree => tree.hasMarkers = false) →
        part.2.withoutMarkers.Allowed runtimeGlobal) :
      ∀ part ∈ partsWithoutMarkers parts, part.2.Allowed runtimeGlobal := by
    intro part member
    obtain ⟨origin, among, rfl⟩ := List.mem_map.mp member
    apply each origin among
    · exact wellFormed _ (List.mem_map.mpr ⟨origin, among, rfl⟩)
    · intro change inside
      exact unmarked change (List.mem_flatMap.mpr ⟨origin, among, inside⟩)
  induction allowed with
  | unvisited tree =>
    have bare : tree.hasMarkers = false := unmarked _ List.mem_cons_self
    rw [Rewriting.withoutMarkers, Tree.withoutMarkers_of_unmarked tree wellFormed bare]
    exact .unvisited tree
  | @scalar tree isScalar =>
    have same : tree.withoutMarkers = tree := by
      cases tree with
      | list | node => cases isScalar
      | null | bool | num | str => rfl
    rw [Rewriting.withoutMarkers, same]
    exact .scalar isScalar
  | @list items each ih =>
    obtain ⟨sources, images, changed⟩ := map_withoutMarkers items
    rw [Rewriting.withoutMarkers, Tree.withoutMarkers, Tree.withoutMarkersInItems_eq_map, ← sources,
      ← images, ← changed]
    apply Allowed.list
    intro item member
    obtain ⟨origin, among, rfl⟩ := List.mem_map.mp member
    apply ih origin among
    · exact Tree.itemsAreWellFormed_iff.mp wellFormed _ (List.mem_map_of_mem among)
    · intro change inside
      exact unmarked change (List.mem_flatMap.mpr ⟨origin, among, inside⟩)
  | @node kind parts unattributed each ih =>
    obtain ⟨-, -, formed, -⟩ := Tree.isWellFormed_node wellFormed
    have unlisted : ∀ part ∈ parts, kind = .jsxOpeningElement → part.1 = .attributes →
        part.2.source.withoutMarkers.isList = false := by
      intro part member isOpening isAttributes
      rw [Tree.isList_withoutMarkers]
      exact unattributed isOpening part member isAttributes
    rw [Rewriting.withoutMarkers, Tree.withoutMarkers, ← sourcesInParts_withoutMarkers
      (fun part member => Tree.dropPart_of_unlisted (unlisted part member)),
      ← imagesInParts_withoutMarkers, ← changesInParts_withoutMarkers]
    refine .node ?_ (inParts formed unmarked ih)
    intro isOpening part member isAttributes
    obtain ⟨origin, among, rfl⟩ := List.mem_map.mp member
    exact unlisted origin among isOpening isAttributes
  | @component kind early late body elements hooks gained isFunction each arranged gains ih =>
    obtain ⟨-, -, formed, -⟩ := Tree.isWellFormed_node wellFormed
    have kept : ∀ part ∈ early ++ (.body, body) :: late,
        Tree.dropPart kind part.1 part.2.source.withoutMarkers = part.2.source.withoutMarkers := by
      intro part member
      apply Tree.dropPart_of_ne
      rintro rfl
      cases isFunction
    have split : partsWithoutMarkers (early ++ (.body, body) :: late) = partsWithoutMarkers early ++
        (.body, body.withoutMarkers) :: partsWithoutMarkers late := List.map_append
    have within := inParts formed (fun change member => unmarked change (List.mem_append_left _ member)) ih
    rw [split] at within
    rw [Rewriting.withoutMarkers, Tree.withoutMarkers, ← sourcesInParts_withoutMarkers kept,
      List.map_append, ← changesInParts_withoutMarkers, Change.map_hooks_withoutMarkers, split,
      ← imagesInParts_withoutMarkers early, ← imagesInParts_withoutMarkers late]
    exact .component isFunction within arranged gains
  | @opening early late attributes images attachment? within inAttributes others spread each
      eachWithin rewritten ih ihWithin =>
    obtain ⟨-, -, formed, -⟩ := Tree.isWellFormed_node wellFormed
    simp only [List.mem_append] at unmarked
    have inAttributes' := rewritten.withoutMarkers
    rw [← Tree.stripMarkers_withoutMarkers, ← stripMarkers_idempotent] at inAttributes'
    have around : ∀ part ∈ partsWithoutMarkers early ++ partsWithoutMarkers late,
        part.2.Allowed runtimeGlobal := by
      rw [partsWithoutMarkers, partsWithoutMarkers, ← List.map_append]
      refine inParts (fun part member => formed part ?_) (fun change member => unmarked change ?_) ih
      · rw [sourcesInParts, List.map_append] at member
        exact List.mem_append.mpr ((List.mem_append.mp member).imp_right (List.mem_cons_of_mem _))
      · rw [changesInParts, List.flatMap_append] at member
        exact (List.mem_append.mp member).imp (fun inside => Or.inl (Or.inr inside)) id
    have listed : ∀ attr ∈ attributes, attr.isWellFormed = true :=
      Tree.itemsAreWellFormed_iff.mp (formed _ (List.mem_append_right _ List.mem_cons_self))
    have spread' : ∀ attachment ∈ attachment?, attachment.spreads =
        ElementRef.trailingSpreads (stripMarkers (attributes.map Tree.withoutMarkers)) ∧
          attachment.spreads.all Tree.isPlainPath = true := by
      intro attachment due
      obtain ⟨same, plain⟩ := spread attachment due
      obtain rfl : attachment? = some attachment := due
      exact ⟨rewritten.spreads_withoutMarkers same listed fun change inside =>
        unmarked change (Or.inl (Or.inr inside)), plain⟩
    have eachWithin' : ∀ item ∈ within.map Rewriting.withoutMarkers, item.Allowed runtimeGlobal := by
      intro item member
      obtain ⟨origin, among, rfl⟩ := List.mem_map.mp member
      obtain ⟨wellFormed, inside⟩ := rewritten.within Tree.hereditary_isWellFormed
        (fun attr member => listed attr (List.mem_of_mem_filter member)) origin among
      exact ihWithin origin among wellFormed fun change here =>
        unmarked change (Or.inl (Or.inr (inside change here)))
    have apart : ∀ part ∈ partsWithoutMarkers early ++ partsWithoutMarkers late,
        part.1 ≠ .attributes := by
      intro part among
      rw [partsWithoutMarkers, partsWithoutMarkers, ← List.map_append] at among
      obtain ⟨origin, member, rfl⟩ := List.mem_map.mp among
      exact others origin member
    have whole := Allowed.opening apart spread' around eachWithin' inAttributes'
    have given : (attachment?.map fun attachment => Change.element attachment.handle).toList.map
        Change.withoutMarkers =
        (attachment?.map fun attachment => Change.element attachment.handle).toList := by
      cases attachment? <;> rfl
    rw [imagesInParts_withoutMarkers, imagesInParts_withoutMarkers, changesInParts_withoutMarkers,
      changesInParts_withoutMarkers, ← withoutMarkersInFields_opening others] at whole
    rw [Rewriting.withoutMarkers]
    simp only [List.map_append, given]
    exact whole

/-- No markers appear among attributes. -/
theorem Allowed.items_unmarked {rewriting : Rewriting} (allowed : rewriting.Allowed runtimeGlobal)
    (bare : rewriting.source.items.any Tree.isMarker = false) :
    rewriting.image.items.any Tree.isMarker = false := by
  cases allowed with
  | unvisited | scalar => exact bare
  | list each =>
    apply List.any_eq_false.mpr
    intro image member
    obtain ⟨item, among, rfl⟩ := List.mem_map.mp member
    rw [(each item among).isMarker_image]
    exact List.any_eq_false.mp bare _ (List.mem_map_of_mem among)
  | node | component | opening => rfl

end Rewriting

/-- Whether a node is a function. -/
def Tree.isFunctionNode (kind : Kind) (_ : Fields) : Bool :=
  kind.isFunction

/-- A generated reference that is no function has no markers. -/
theorem Attachment.Gives.unmarked {attachment : Attachment} {explicit? : Option Tree}
    {hooks : List Tree} {generated : Tree} (gives : attachment.Gives explicit? hooks generated)
    (noFunction : generated.countNodes Tree.isFunctionNode = 0) :
    generated.isMarker = false ∧ generated.hasMarkers = false := by
  cases gives with
  | handle => exact ⟨rfl, rfl⟩
  | function =>
    simp [Code.jsxAttribute, ElementRef.forwardingFunction, Code.arrow, Code.arrowTo,
      Tree.countNodes, Tree.countNodesInFields, Tree.isFunctionNode, Kind.isFunction] at noFunction

theorem AttributesRewritten.unmarked {attachment? : Option Attachment}
    {attributes images : List Tree} {within : List Rewriting} {changes : List Change}
    (rewritten : AttributesRewritten runtimeGlobal attachment? attributes within images changes)
    (plain : ∀ attr ∈ attributes, attr.isMarker = false)
    (allowed : ∀ item ∈ within, item.Allowed runtimeGlobal)
    (each : ∀ item ∈ within, item.image.countNodes Tree.isFunctionNode = 0 →
      item.image.hasMarkers = false)
    (noFunctions : Tree.countNodesInItems Tree.isFunctionNode images = 0) :
    ∀ image ∈ images, image.isMarker = false ∧ image.hasMarkers = false := by
  have alone {image : Tree} (member : image ∈ images) :
      image.countNodes Tree.isFunctionNode = 0 :=
    Nat.le_zero.mp (noFunctions ▸ Tree.countNodes_le_items Tree.isFunctionNode member)
  intro image member
  have here := alone member
  cases rewritten with
  | plain =>
    obtain ⟨item, among, rfl⟩ := List.mem_map.mp member
    refine ⟨?_, each item among here⟩
    exact (allowed item among).isMarker_image.trans (plain _ (List.mem_map_of_mem among))
  | added _ gives =>
    rcases List.mem_append.mp member with kept | own
    · obtain ⟨item, among, rfl⟩ := List.mem_map.mp kept
      refine ⟨?_, each item among here⟩
      exact (allowed item among).isMarker_image.trans (plain _ (List.mem_map_of_mem among))
    · obtain rfl := List.mem_singleton.mp own
      exact gives.unmarked here
  | @replaced attachment attr generated front back explicit elements hooks isRef expression arranged
      gives =>
    simp only [List.mem_append, List.mem_map, List.mem_singleton] at member
    simp only [List.mem_append, List.mem_cons, List.mem_map] at plain
    rcases member with (⟨item, among, rfl⟩ | ⟨item, among, rfl⟩) | rfl
    · refine ⟨?_, each item (by simp [among]) here⟩
      exact (allowed item (by simp [among])).isMarker_image.trans
        (plain _ (Or.inl ⟨item, among, rfl⟩))
    · refine ⟨?_, each item (by simp [among]) here⟩
      exact (allowed item (by simp [among])).isMarker_image.trans
        (plain _ (Or.inr (Or.inr ⟨item, among, rfl⟩)))
    · exact gives.unmarked here

namespace Rewriting

/-- Where nothing becomes a function, no markers appear. -/
theorem Allowed.unmarked {rewriting : Rewriting} (allowed : rewriting.Allowed runtimeGlobal)
    (bare : rewriting.source.hasMarkers = false)
    (noFunctions : rewriting.image.countNodes Tree.isFunctionNode = 0) :
    rewriting.image.hasMarkers = false := by
  have inParts {kind : Kind} {parts : List (Field × Rewriting)}
      (bare : (Tree.node kind (sourcesInParts parts)).hasMarkers = false)
      (noFunctions : Tree.countNodesInFields Tree.isFunctionNode (imagesInParts parts) = 0)
      (each : ∀ part ∈ parts, part.2.source.hasMarkers = false →
        part.2.image.countNodes Tree.isFunctionNode = 0 → part.2.image.hasMarkers = false) :
      Tree.hasMarkersInFields (imagesInParts parts) = false := by
    rw [Tree.hasMarkersInFields_eq_any]
    apply List.any_eq_false.mpr
    intro part member
    obtain ⟨origin, among, rfl⟩ := List.mem_map.mp member
    apply Bool.eq_false_iff.mp
    apply each origin among
    · exact Tree.hereditary_unmarked.part bare (List.mem_map.mpr ⟨origin, among, rfl⟩)
    · exact Nat.le_zero.mp (noFunctions ▸ Tree.countNodes_le_fields Tree.isFunctionNode member)
  induction allowed with
  | unvisited | scalar => exact bare
  | @list items each ih =>
    rw [Tree.hasMarkers, Tree.hasMarkersInItems_eq_any]
    apply List.any_eq_false.mpr
    intro image member
    obtain ⟨item, among, rfl⟩ := List.mem_map.mp member
    apply Bool.eq_false_iff.mp
    apply ih item among
    · exact Tree.hereditary_unmarked.item bare (List.mem_map_of_mem among)
    · exact Nat.le_zero.mp (noFunctions ▸ Tree.countNodes_le_items Tree.isFunctionNode member)
  | @node kind parts unattributed each ih =>
    rw [Tree.countNodes, Nat.add_eq_zero_iff] at noFunctions
    have inside := inParts bare noFunctions.2 ih
    by_cases opening : kind = .jsxOpeningElement
    · subst opening
      refine Bool.or_eq_false_iff.mpr ⟨?_, inside⟩
      obtain ⟨part, allowed, image, source⟩ := get_inParts each .attributes
      have plain := (Bool.or_eq_false_iff.mp bare).1
      rw [source] at plain
      rw [image]
      exact allowed.items_unmarked plain
    · rw [Tree.hasMarkers_node opening]
      exact inside
  | component isFunction each arranged gains ih =>
    rw [Tree.countNodes, Tree.isFunctionNode, isFunction, Bool.toNat_true] at noFunctions
    omega
  | @opening early late attributes images attachment? within inAttributes others spread each
      eachWithin rewritten ih ihWithin =>
    have held {field : Field} {tree : Tree} (member : (field, tree) ∈ sourcesInParts early ++
        (.attributes, .list attributes) :: sourcesInParts late) : tree.hasMarkers = false :=
      Tree.hereditary_unmarked.part bare member
    rw [Tree.countNodes, Tree.countNodesInFields_append, Tree.countNodesInFields, Tree.countNodes]
      at noFunctions
    have plain := rewritten.unmarked
      (fun attr member => by simpa using (List.mem_filter.mp member).2) eachWithin
      (fun item among => ihWithin item among (rewritten.within Tree.hereditary_unmarked
        (fun attr member => Tree.hereditary_unmarked.item
          (held (List.mem_append_right _ List.mem_cons_self)) (List.mem_of_mem_filter member))
        item among).1)
      (by omega)
    have found : Fields.get (imagesInParts early ++ (.attributes, .list images) ::
        imagesInParts late) .attributes = .list images := by
      refine get_middle (fun part member => ?_) _ _
      obtain ⟨origin, among, rfl⟩ := List.mem_map.mp member
      exact others origin (List.mem_append_left _ among)
    have beside {parts : List (Field × Rewriting)} (among : ∀ part ∈ parts, part ∈ early ++ late)
        (inSource : ∀ part ∈ sourcesInParts parts, part ∈ sourcesInParts early ++
          (.attributes, .list attributes) :: sourcesInParts late)
        (noFunctions : Tree.countNodesInFields Tree.isFunctionNode (imagesInParts parts) = 0) :
        ∀ part ∈ imagesInParts parts, part.2.hasMarkers = false := by
      intro part member
      obtain ⟨origin, within, rfl⟩ := List.mem_map.mp member
      apply ih origin (among origin within)
      · exact held (inSource _ (List.mem_map.mpr ⟨origin, within, rfl⟩))
      · exact Nat.le_zero.mp (noFunctions ▸ Tree.countNodes_le_fields Tree.isFunctionNode member)
    refine Bool.or_eq_false_iff.mpr ⟨?_, ?_⟩
    · rw [found]
      exact List.any_eq_false.mpr fun image member => Bool.eq_false_iff.mp (plain image member).1
    · rw [Tree.hasMarkersInFields_eq_any]
      apply List.any_eq_false.mpr
      intro part member
      apply Bool.eq_false_iff.mp
      rcases List.mem_append.mp member with before | after
      · exact beside (fun part => List.mem_append_left _) (fun part => List.mem_append_left _)
          (by omega) part before
      · rcases List.mem_cons.mp after with rfl | behind
        · rw [Tree.hasMarkers, Tree.hasMarkersInItems_eq_any]
          exact List.any_eq_false.mpr fun image member => Bool.eq_false_iff.mp (plain image member).2
        · exact beside (fun part => List.mem_append_right _)
            (fun part member => List.mem_append_right _ (List.mem_cons_of_mem _ member))
            (by omega) part behind

end Rewriting

end

/-- If the changes made to a module are taken back, the module is restored. It is restored without
its markers if, and only if, none are left in it without a visit. -/
theorem restored_without_markers_iff (options : Options) (registry : Registry) (file : String)
    (source? : Option String) {items : List Tree}
    (wellFormed : Tree.itemsAreWellFormed items = true) :
    let output := (transformModule options registry file source? items).1
    let changes := moduleChanges source? items
    output.Restores options items changes ∧
      (output.Restores options (Tree.withoutMarkersInItems items)
          (changes.map Change.withoutMarkers) ↔
        ∀ change ∈ changes, change.Leaves fun tree => tree.hasMarkers = false) := by
  intro output changes
  have restores := transformModule_restores options registry file source? wellFormed
  refine ⟨restores, fun restored => ?_, fun unmarked => ?_⟩
  · obtain ⟨visited, added, allowed, -⟩ := restored
    have left := allowed.leaves Tree.hereditary_unmarked
      (Tree.hasMarkersInItems_withoutMarkers items)
    intro change member
    have same := left change.withoutMarkers (List.mem_map_of_mem member)
    cases change with
    | unvisited | element | reference | hooks => exact same
  · obtain ⟨visited, added, allowed, few, unneeded, interleaved⟩ := restores
    exact ⟨visited, added, allowed.withoutMarkers wellFormed unmarked, few, unneeded, interleaved⟩

theorem restored_without_markers_page :
    let output := (transformModule {} {} "page.jsx" none [pageOf trackedStatements]).1
    let changes := moduleChanges none [pageOf trackedStatements]
    Tree.itemsAreWellFormed [pageOf trackedStatements] = true ∧
      output.Restores {} [pageOf trackedStatements] changes ∧
      (output.Restores {} (Tree.withoutMarkersInItems [pageOf trackedStatements])
          (changes.map Change.withoutMarkers) ↔
        ∀ change ∈ changes, change.Leaves fun tree => tree.hasMarkers = false) := by
  refine ⟨by decide +kernel, ?_⟩
  exact restored_without_markers_iff {} {} "page.jsx" none (by decide +kernel)

/-- ``f<{ [<b data-track-show="x" />]: T }>();`` -/
def markedTypeArgument : Tree :=
  Code.perform (.node .callExpression
    [(.callee, Code.reference "f"), (.arguments, .list []),
      (.typeArguments, .node (.other "TsTypeParameterInstantiation")
        [(.params, .list [.node .tsTypeLiteral
          [(.members, .list [.node .tsPropertySignature
            [(.key, markedElement "b" "data-track-show" (Code.string "x"))]])]])])])

/-- A marker in the type arguments of a call is left, whatever is taken back. -/
theorem marker_left_in_type_arguments :
    let output := (transformModule {} {} "page.tsx" none [markedTypeArgument]).1
    ¬ ∃ changes, output.Restores {} (Tree.withoutMarkersInItems [markedTypeArgument]) changes := by
  rintro output ⟨changes, visited, added, allowed, -, unneeded, interleaved⟩
  obtain rfl := unneeded (by decide +kernel)
  have same : visited = output.items :=
    interleaved.sublist.eq_of_length (by simpa using interleaved.perm.length_eq.symm)
  subst same
  have noFunctions : Tree.countNodesInItems Tree.isFunctionNode output.items = 0 := by decide +kernel
  have marked : Tree.hasMarkersInItems output.items = true := by decide +kernel
  have bare := allowed.unmarked (Tree.hasMarkersInItems_withoutMarkers _) noFunctions
  exact absurd (bare.symm.trans marked) Bool.false_ne_true

end JsxTracking
