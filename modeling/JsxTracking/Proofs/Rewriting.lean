import JsxTracking.Proofs.HandleScope
import JsxTracking.Proofs.MarkerRemoval

/-! # What instrumentation changes

An instrumented tree is the tree it was made from with some changes. `Rewriting.Allowed` lists the
ways in which a tree may change: elements lose their markers and may get a generated reference in
place of their own, functions may get hooks in their bodies, and some trees are left without a
visit. Every other node and list keeps its parts. The changes are listed in visiting order, those of
an element before the ones inside of it. Whatever is woven is rewritten in this way
(`Woven.Follows.allowed`). -/

namespace JsxTracking

/-- An element whose markers are instrumented. -/
structure Tracked where
  handle : ElementHandle
  markers : ElementMarkers
  deriving DecidableEq, Repr, Inhabited

/-- The hooks of the element. -/
def Tracked.hooks (runtimeGlobal : String) (element : Tracked) : List Tree :=
  Hooks.ofElement element.handle runtimeGlobal element.markers

/-- The element as an instrumented one, if it is. -/
def Treatment.tracked? (treatment : Treatment) : Option Tracked :=
  treatment.handle?.map (⟨·, treatment.markers⟩)

/-- A change made by instrumentation. -/
inductive Change where
  /-- A tree is left as it is, its markers with it. -/
  | unvisited (tree : Tree)
  /-- An element gets a handle. -/
  | element (handle : ElementHandle)
  /-- An element gets a generated `ref` attribute, which takes the place of an explicit reference
  with the given expression, if it has one. -/
  | reference (attachment : Attachment) (explicit? : Option Tree)
  /-- A function gets the hooks of an element. -/
  | hooks (element : Tracked)
  deriving DecidableEq, Repr, Inhabited

/-- A tree, the instrumented tree that stands in its place, and the changes made to it. -/
structure Rewriting where
  source : Tree
  image : Tree
  changes : List Change

namespace Rewriting

/-- The parts of a node before instrumentation. -/
def sourcesInParts (parts : List (Field × Rewriting)) : Fields :=
  parts.map fun part => (part.1, part.2.source)

/-- The parts of a node after instrumentation. -/
def imagesInParts (parts : List (Field × Rewriting)) : Fields :=
  parts.map fun part => (part.1, part.2.image)

/-- The changes made to the parts of a node. -/
def changesInParts (parts : List (Field × Rewriting)) : List Change :=
  parts.flatMap fun part => part.2.changes

end Rewriting

/-- The body of a function with hooks in it: they stand among the statements of a block, or in front
of a `return` of the expression that the body was. -/
inductive Tree.Gains (hooks : List Tree) : Tree → Tree → Prop
  | block {early late : Fields} {statements merged : List Tree}
      (merge : Interleaved statements hooks merged) :
      Gains hooks (.node .blockStatement (early ++ (.stmts, .list statements) :: late))
        (.node .blockStatement (early ++ (.stmts, .list merged) :: late))
  | expression {body : Tree} (present : body ≠ .null) (noBlock : body.isKind .blockStatement = false) :
      Gains hooks body (Code.block (hooks ++ [Code.returnValue body]))

/-- The generated `ref` attribute of an element with the given explicit reference: the handle itself,
or a function that forwards, with hooks in its body. -/
inductive Attachment.Gives (attachment : Attachment) (explicit? : Option Tree) (hooks : List Tree) :
    Tree → Prop
  | handle (unforwarded : ElementRef.forwarded? explicit? attachment.spreads = none)
      (bare : hooks = []) :
      Gives attachment explicit? hooks
        (Code.jsxAttribute "ref" (Code.reference attachment.handle.name))
  | function {reference : Tree} {body : List Tree}
      (forwarded : ElementRef.forwarded? explicit? attachment.spreads = some reference)
      (merge : Interleaved (ElementRef.forwardingBody attachment.handle reference) hooks body) :
      Gives attachment explicit? hooks
        (Code.jsxAttribute "ref" (ElementRef.forwardingFunction body))

/-- The hooks of some elements, element by element in some order. -/
def Tracked.Arranged (runtimeGlobal : String) (elements : List Tracked) (hooks : List Tree) : Prop :=
  ∃ groups : List (List Tree), groups.Perm (elements.map (Tracked.hooks runtimeGlobal)) ∧
    hooks = groups.flatten

/-- The attributes of an element that are no markers, the trees that are rewritten among them, and
the attributes after instrumentation. They stay in their order. A generated `ref` comes last and
holds the expression of the explicit one that it replaces, with hooks if it is a function. -/
inductive AttributesRewritten (runtimeGlobal : String) : Option Attachment → List Tree →
    List Rewriting → List Tree → List Change → Prop
  | plain (attributes : List Rewriting) :
      AttributesRewritten runtimeGlobal none (attributes.map Rewriting.source) attributes
        (attributes.map Rewriting.image) (attributes.flatMap Rewriting.changes)
  | added {attachment : Attachment} {generated : Tree} (attributes : List Rewriting)
      (gives : attachment.Gives none [] generated) :
      AttributesRewritten runtimeGlobal (some attachment) (attributes.map Rewriting.source) attributes
        (attributes.map Rewriting.image ++ [generated])
        (attributes.flatMap Rewriting.changes ++ [.reference attachment none])
  | replaced {attachment : Attachment} {attr generated : Tree} (front back : List Rewriting)
      {explicit : Rewriting} {elements : List Tracked} {hooks : List Tree} (isRef : attr.isRef = true)
      (expression : attr.refExpression? = some explicit.source)
      (arranged : Tracked.Arranged runtimeGlobal elements hooks)
      (gives : attachment.Gives (some explicit.image) hooks generated) :
      AttributesRewritten runtimeGlobal (some attachment)
        (front.map Rewriting.source ++ attr :: back.map Rewriting.source)
        (front ++ back ++ [explicit])
        (front.map Rewriting.image ++ back.map Rewriting.image ++ [generated])
        (front.flatMap Rewriting.changes ++ back.flatMap Rewriting.changes ++ explicit.changes ++
          elements.map Change.hooks ++ [.reference attachment (some explicit.source)])

namespace Rewriting

/-- The ways in which instrumentation may change a tree. -/
inductive Allowed (runtimeGlobal : String) : Rewriting → Prop
  | unvisited (tree : Tree) : Allowed runtimeGlobal ⟨tree, tree, [.unvisited tree]⟩
  | scalar {tree : Tree} (scalar : tree.isScalar = true) : Allowed runtimeGlobal ⟨tree, tree, []⟩
  | list {items : List Rewriting} (each : ∀ item ∈ items, item.Allowed runtimeGlobal) :
      Allowed runtimeGlobal ⟨.list (items.map source), .list (items.map image), items.flatMap changes⟩
  | node {kind : Kind} {parts : List (Field × Rewriting)}
      (unattributed : kind = .jsxOpeningElement →
        ∀ part ∈ parts, part.1 = .attributes → part.2.source.isList = false)
      (each : ∀ part ∈ parts, part.2.Allowed runtimeGlobal) :
      Allowed runtimeGlobal
        ⟨.node kind (sourcesInParts parts), .node kind (imagesInParts parts), changesInParts parts⟩
  | component {kind : Kind} {early late : List (Field × Rewriting)} {body : Rewriting}
      {elements : List Tracked} {hooks : List Tree} {gained : Tree} (isFunction : kind.isFunction = true)
      (each : ∀ part ∈ early ++ (.body, body) :: late, part.2.Allowed runtimeGlobal)
      (arranged : Tracked.Arranged runtimeGlobal elements hooks)
      (gains : body.image.Gains hooks gained) :
      Allowed runtimeGlobal
        ⟨.node kind (sourcesInParts (early ++ (.body, body) :: late)),
          .node kind (imagesInParts early ++ (.body, gained) :: imagesInParts late),
          changesInParts (early ++ (.body, body) :: late) ++ elements.map Change.hooks⟩
  | opening {early late : List (Field × Rewriting)} {attributes images : List Tree}
      {attachment? : Option Attachment} {within : List Rewriting} {inAttributes : List Change}
      (others : ∀ part ∈ early ++ late, part.1 ≠ .attributes)
      (spread : ∀ attachment ∈ attachment?,
        attachment.spreads = ElementRef.trailingSpreads attributes ∧
          attachment.spreads.all Tree.isPlainPath = true)
      (each : ∀ part ∈ early ++ late, part.2.Allowed runtimeGlobal)
      (eachWithin : ∀ item ∈ within, item.Allowed runtimeGlobal)
      (rewritten : AttributesRewritten runtimeGlobal attachment? (stripMarkers attributes) within
        images inAttributes) :
      Allowed runtimeGlobal
        ⟨.node .jsxOpeningElement
            (sourcesInParts early ++ (.attributes, .list attributes) :: sourcesInParts late),
          .node .jsxOpeningElement
            (imagesInParts early ++ (.attributes, .list images) :: imagesInParts late),
          (attachment?.map fun attachment => Change.element attachment.handle).toList ++
            changesInParts early ++ inAttributes ++ changesInParts late⟩

section

variable {runtimeGlobal : String} {rewriting : Rewriting}

/-- Nodes stay of their kind. -/
theorem Allowed.kind?_image (allowed : rewriting.Allowed runtimeGlobal) :
    rewriting.image.kind? = rewriting.source.kind? := by
  cases allowed <;> rfl

/-- Text stays text. -/
theorem Allowed.text?_image (allowed : rewriting.Allowed runtimeGlobal) :
    rewriting.image.text? = rewriting.source.text? := by
  cases allowed <;> rfl

theorem get_inParts {parts : List (Field × Rewriting)}
    (each : ∀ part ∈ parts, part.2.Allowed runtimeGlobal) (field : Field) :
    ∃ part : Rewriting, part.Allowed runtimeGlobal ∧
      Fields.get (imagesInParts parts) field = part.image ∧
      Fields.get (sourcesInParts parts) field = part.source := by
  unfold Fields.get imagesInParts sourcesInParts
  rw [lookup_map_parts fun _ => image, lookup_map_parts fun _ => source]
  cases found : parts.lookup field with
  | none => exact ⟨⟨.null, .null, []⟩, .scalar rfl, rfl, rfl⟩
  | some part =>
    obtain ⟨before, after, rfl, -⟩ := List.lookup_eq_some_iff.mp found
    exact ⟨part, each _ (List.mem_append_right _ List.mem_cons_self), rfl, rfl⟩

theorem get_skip {field other : Field} (differs : field ≠ other) (early late : Fields)
    (part : Tree) : Fields.get (early ++ (other, part) :: late) field =
      Fields.get (early ++ late) field := by
  have skipped : (field == other) = false := beq_eq_false_iff_ne.mpr differs
  unfold Fields.get
  rw [List.lookup_append, List.lookup_append, List.lookup_cons, skipped]

theorem get_middle {field : Field} {early : Fields} (others : ∀ part ∈ early, part.1 ≠ field)
    (part : Tree) (late : Fields) : Fields.get (early ++ (field, part) :: late) field = part := by
  have before : early.lookup field = none :=
    List.lookup_eq_none_iff.mpr fun other member => bne_iff_ne.mpr (others other member).symm
  unfold Fields.get
  rw [List.lookup_append, before, Option.none_or, List.lookup_cons_self, Option.getD_some]

/-- Bodies and attributes apart, what a part of a node becomes is allowed. -/
theorem Allowed.get (allowed : rewriting.Allowed runtimeGlobal) (field : Field)
    (notBody : field ≠ .body) (notAttributes : field ≠ .attributes) :
    ∃ part : Rewriting, part.Allowed runtimeGlobal ∧
      rewriting.image.get field = part.image ∧ rewriting.source.get field = part.source := by
  cases allowed with
  | unvisited tree => exact ⟨_, .unvisited (tree.get field), rfl, rfl⟩
  | @scalar tree isScalar =>
    refine ⟨⟨.null, .null, []⟩, .scalar rfl, ?_⟩
    cases tree with
    | list | node => cases isScalar
    | null | bool | num | str => exact ⟨rfl, rfl⟩
  | list each => exact ⟨⟨.null, .null, []⟩, .scalar rfl, rfl, rfl⟩
  | node unattributed each => exact get_inParts each field
  | @component kind early late body elements hooks gained isFunction each arranged gains =>
    obtain ⟨part, allowed, image, source⟩ := get_inParts
      (fun part (member : part ∈ early ++ late) => each part (List.mem_append.mpr
        ((List.mem_append.mp member).imp_right (List.mem_cons_of_mem _)))) field
    refine ⟨part, allowed, ?_, ?_⟩
    · rw [Tree.get, get_skip notBody, ← image, imagesInParts, imagesInParts, imagesInParts,
        List.map_append]
    · rw [← source, Tree.get, sourcesInParts, sourcesInParts, List.map_append, List.map_append]
      exact get_skip notBody _ _ _
  | @opening early late attributes images attachment? within inAttributes others spread each
      eachWithin rewritten =>
    obtain ⟨part, allowed, image, source⟩ := get_inParts each field
    refine ⟨part, allowed, ?_, ?_⟩
    · rw [Tree.get, get_skip notAttributes, ← image, imagesInParts, imagesInParts, imagesInParts,
        List.map_append]
    · rw [Tree.get, get_skip notAttributes, ← source, sourcesInParts, sourcesInParts,
        sourcesInParts, List.map_append]

/-- Attributes keep their names. -/
theorem Allowed.attributeName?_image (allowed : rewriting.Allowed runtimeGlobal) :
    rewriting.image.attributeName? = rewriting.source.attributeName? := by
  obtain ⟨name, allowedName, isName, wasName⟩ :=
    allowed.get .name Field.noConfusion Field.noConfusion
  obtain ⟨value, allowedValue, isValue, wasValue⟩ :=
    allowedName.get .value Field.noConfusion Field.noConfusion
  rw [Tree.attributeName?_eq, Tree.attributeName?_eq, Tree.isKind, Tree.isKind, allowed.kind?_image,
    isName, wasName, Tree.isKind, Tree.isKind, allowedName.kind?_image, isValue, wasValue,
    allowedValue.text?_image]

theorem Allowed.isMarker_image (allowed : rewriting.Allowed runtimeGlobal) :
    rewriting.image.isMarker = rewriting.source.isMarker := by
  rw [Tree.isMarker, Tree.isMarker, Tree.markerKind?, Tree.markerKind?,
    allowed.attributeName?_image]

end

end Rewriting

namespace Woven

/-- The elements whose hooks go into a function which holds the given ones: none, unless it is a
component. -/
def tracked (scan? : Option BodyScan) (elements : List Treatment) : List Tracked :=
  match scan? with
  | none => []
  | some _ => elements.filterMap Treatment.tracked?

/-- Whether a function with the given parts has a body that takes hooks. -/
def hasBody (parts : List (Field × Woven)) : Bool :=
  parts.any fun part => part.1 = .body && part.2.source.takesHooks

mutual

/-- The changes made to a woven tree. -/
def changes : Woven → List Change
  | kept tree => if tree.isScalar then [] else [.unvisited tree]
  | removed _ => []
  | list items | statements items => changesInItems items
  | node _ parts => changesInParts parts
  | function _ outer scan? inner => changesInParts outer ++ changesInParts inner ++
    (if hasBody inner then tracked scan? (elementsInParts inner) else []).map Change.hooks
  | opening treatment parts => (treatment.handle?.map Change.element).toList ++ changesInParts parts
  | reference attachment replaced scan? => changesInItems replaced ++
    (tracked scan? (elementsInItems replaced)).map Change.hooks ++
      [.reference attachment (sources replaced).head?]

/-- The changes made to a list of woven trees. -/
def changesInItems : List Woven → List Change
  | [] => []
  | item :: rest => changes item ++ changesInItems rest

/-- The changes made to the parts of a woven node. -/
def changesInParts : List (Field × Woven) → List Change
  | [] => []
  | (_, part) :: rest => changes part ++ changesInParts rest

end

/-- What becomes of a woven tree. -/
def rewriting (runtimeGlobal : String) (woven : Woven) : Rewriting :=
  ⟨woven.source, woven.tree runtimeGlobal, woven.changes⟩

/-- What becomes of the parts of a woven node. -/
def rewritingParts (runtimeGlobal : String) (parts : List (Field × Woven)) :
    List (Field × Rewriting) :=
  parts.map fun part => (part.1, part.2.rewriting runtimeGlobal)

theorem changesInParts_eq_flatMap (parts : List (Field × Woven)) :
    changesInParts parts = parts.flatMap fun part => part.2.changes := by
  induction parts with
  | nil => rfl
  | cons part rest ih => rw [changesInParts, ih, List.flatMap_cons]

section

variable (runtimeGlobal : String)

theorem sourcesInParts_rewritingParts (parts : List (Field × Woven)) :
    Rewriting.sourcesInParts (rewritingParts runtimeGlobal parts) = sourcesInParts parts := by
  rw [Rewriting.sourcesInParts, rewritingParts, List.map_map, sourcesInParts_eq_map]
  rfl

theorem imagesInParts_rewritingParts (parts : List (Field × Woven)) :
    Rewriting.imagesInParts (rewritingParts runtimeGlobal parts) =
      treesInParts runtimeGlobal parts := by
  rw [Rewriting.imagesInParts, rewritingParts, List.map_map, treesInParts_eq_map]
  rfl

theorem changesInParts_rewritingParts (parts : List (Field × Woven)) :
    Rewriting.changesInParts (rewritingParts runtimeGlobal parts) = changesInParts parts := by
  rw [Rewriting.changesInParts, rewritingParts, List.flatMap_map, changesInParts_eq_flatMap]
  rfl

theorem rewritingParts_split (early late : List (Field × Woven)) (item : Woven) (field : Field) :
    rewritingParts runtimeGlobal (early ++ (field, item) :: late) =
      rewritingParts runtimeGlobal early ++
        (field, item.rewriting runtimeGlobal) :: rewritingParts runtimeGlobal late := by
  rw [rewritingParts, List.map_append, List.map_cons]
  rfl

/-- Trees that are neither taken away nor generated are rewritten one by one. -/
theorem rewriting_items {items : List Woven}
    (ordinary : ∀ item ∈ items, item.isRemoved = false ∧ item.isGenerated = false) :
    sources items = (items.map (rewriting runtimeGlobal)).map Rewriting.source ∧
      trees runtimeGlobal items = (items.map (rewriting runtimeGlobal)).map Rewriting.image ∧
      changesInItems items = (items.map (rewriting runtimeGlobal)).flatMap Rewriting.changes := by
  induction items with
  | nil => exact ⟨rfl, rfl, rfl⟩
  | cons item rest ih =>
    obtain ⟨notRemoved, notGenerated⟩ := ordinary item List.mem_cons_self
    obtain ⟨source, image, changed⟩ :=
      ih fun item member => ordinary item (List.mem_cons_of_mem _ member)
    rw [sources, if_neg (Bool.eq_false_iff.mp notGenerated), trees,
      if_neg (Bool.eq_false_iff.mp notRemoved), changesInItems, source, image, changed]
    exact ⟨rfl, rfl, rfl⟩

/-- The groups of hooks that go into a function are those of its elements. -/
theorem map_hooks_groups (scan? : Option BodyScan) (elements : List Treatment) :
    (groups runtimeGlobal scan? elements).map HookGroup.hooks =
      (tracked scan? elements).map (Tracked.hooks runtimeGlobal) := by
  cases scan? with
  | none => rfl
  | some scan =>
    rw [groups, tracked, List.map_filterMap, List.map_filterMap]
    congr 1
    funext treatment
    cases outcome : treatment.outcome <;>
      simp [Treatment.group?, Treatment.tracked?, Treatment.handle?, Treatment.allocation?,
        Tracked.hooks, outcome]

theorem groups_arranged (scan? : Option BodyScan) (elements : List Treatment) :
    Tracked.Arranged runtimeGlobal (tracked scan? elements)
      ((HookGroup.sorted (groups runtimeGlobal scan? elements)).flatMap HookGroup.hooks) := by
  refine ⟨(HookGroup.sorted (groups runtimeGlobal scan? elements)).map HookGroup.hooks, ?_,
    List.flatMap_def⟩
  rw [← map_hooks_groups]
  exact (HookGroup.sorted_perm _).map _

end

end Woven

/-- A part of a node whose parts are all different stands among others. -/
theorem exists_split {α : Type} {parts : List (Field × α)} (distinct : (parts.map Prod.fst).Nodup)
    {field : Field} {item : α} (member : (field, item) ∈ parts) :
    ∃ early late, parts = early ++ (field, item) :: late ∧
      ∀ part ∈ early ++ late, part.1 ≠ field := by
  obtain ⟨early, late, rfl⟩ := List.append_of_mem member
  refine ⟨early, late, rfl, fun part among same => ?_⟩
  rw [List.map_append, List.map_cons, List.nodup_middle, List.nodup_cons, ← List.map_append]
    at distinct
  exact distinct.1 (List.mem_map.mpr ⟨part, among, same⟩)

namespace Tree

/-- A well-formed body takes hooks unless it is missing. -/
theorem takesHooks_of_ne_null {body : Tree} (wellFormed : body.isWellFormed = true)
    (present : body ≠ null) : body.takesHooks = true := by
  unfold takesHooks
  split
  case h_1 => exact absurd rfl present
  case h_2 fields =>
    obtain ⟨-, listed, -⟩ := Tree.isWellFormed_node wellFormed
    have isList := listed rfl
    unfold Fields.get at isList
    cases found : fields.lookup .stmts with
    | none =>
      rw [found] at isList
      cases isList
    | some statements =>
      rw [found] at isList
      obtain ⟨early, late, rfl, -⟩ := List.lookup_eq_some_iff.mp found
      exact List.any_eq_true.mpr ⟨_, List.mem_append_right _ List.mem_cons_self,
        Bool.and_eq_true_iff.mpr ⟨decide_eq_true rfl, isList⟩⟩
  case h_3 => rfl

end Tree

/-- Hooks that are put into a body stand in it as they should. -/
theorem HookGroup.spliceBody_gains {groups : List HookGroup} (some : groups ≠ []) {body : Tree}
    (present : body ≠ .null) (blocks : ∀ fields, body = .node .blockStatement fields →
      (fields.map Prod.fst).Nodup ∧ ∃ statements, (.stmts, Tree.list statements) ∈ fields) :
    body.Gains ((sorted groups).flatMap hooks) (spliceBody groups body) := by
  by_cases block : ∃ fields, body = .node .blockStatement fields
  · obtain ⟨fields, rfl⟩ := block
    obtain ⟨distinct, statements, listed⟩ := blocks fields rfl
    obtain ⟨early, late, rfl, others⟩ := exists_split distinct listed
    rw [spliceBody_statements some others]
    exact .block (splice_interleaved statements groups)
  · have noBlock : ∀ fields, body ≠ .node .blockStatement fields :=
      fun fields same => block ⟨fields, same⟩
    rw [spliceBody_expression some present noBlock]
    exact .expression present (Bool.eq_false_iff.mpr fun isBlock => block (Tree.isKind_iff.mp isBlock))

/-- The last reference is supported also without the attributes before it. -/
theorem ElementRef.isUnsupported_cons {attr : Tree} {rest : List Tree}
    (supported : isUnsupported (attr :: rest) = false) : isUnsupported rest = false := by
  unfold isUnsupported explicit? at supported ⊢
  rw [List.filter_cons] at supported
  split at supported
  case isTrue =>
    cases found : (rest.filter Tree.isRef).getLast? with
    | none => rfl
    | some last =>
      rw [List.getLast?_cons, found] at supported
      exact supported
  case isFalse => exact supported

/-- The last reference has an expression if it is supported. -/
theorem ElementRef.exists_refExpression {attr : Tree} {rest : List Tree} (isRef : attr.isRef = true)
    (last : rest.any Tree.isRef = false) (supported : isUnsupported (attr :: rest) = false) :
    ∃ expression, attr.refExpression? = some expression := by
  have none : rest.filter Tree.isRef = [] :=
    List.filter_eq_nil_iff.mpr fun other member => List.any_eq_false.mp last other member
  have lastRef : explicit? (attr :: rest) = some attr := by
    rw [explicit?, List.filter_cons_of_pos isRef, none]
    rfl
  rw [isUnsupported, lastRef, Option.any_some, Option.isNone_eq_false_iff] at supported
  exact Option.isSome_iff_exists.mp supported

/-- One more attribute in front. -/
theorem AttributesRewritten.cons {runtimeGlobal : String} {attachment? : Option Attachment}
    {attributes images : List Tree} {within : List Rewriting} {changes : List Change}
    (item : Rewriting)
    (rewritten : AttributesRewritten runtimeGlobal attachment? attributes within images changes) :
    AttributesRewritten runtimeGlobal attachment? (item.source :: attributes) (item :: within)
      (item.image :: images) (item.changes ++ changes) := by
  cases rewritten with
  | plain => exact .plain (item :: within)
  | added _ gives =>
    rw [← List.append_assoc]
    exact .added (item :: within) gives
  | replaced front back isRef expression arranged gives =>
    have whole := AttributesRewritten.replaced (item :: front) back isRef expression arranged gives
    simp only [List.map_cons, List.flatMap_cons, List.cons_append, List.append_assoc] at whole ⊢
    exact whole

/-- An element without attributes has no handle. -/
theorem Treatment.Suits.unmarked {treatment : Treatment} {enclosure : Enclosure} {parts : Fields}
    (suits : treatment.Suits enclosure parts) (bare : (parts.get .attributes).items = []) :
    treatment.handle? = none := by
  have outcome := suits.outcome
  have noValues : treatment.markers.hasValues = false := by
    rw [suits.markers, bare]
    rfl
  cases decision : treatment.outcome with
  | plain | refused reason => simp [Treatment.handle?, Treatment.allocation?, decision]
  | instrumented allocation position shared =>
    rw [decision] at outcome
    exact absurd (noValues.symm.trans outcome.1) Bool.false_ne_true

/-- The last reference of an element that gets a handle has an expression, and the element spreads
only plain paths after it. -/
theorem Treatment.Suits.supported {treatment : Treatment} {enclosure : Enclosure} {parts : Fields}
    (suits : treatment.Suits enclosure parts) (given : treatment.handle?.isSome = true) :
    ElementRef.isUnsupported (parts.get .attributes).items = false ∧
      (ElementRef.trailingSpreads (parts.get .attributes).items).all Tree.isPlainPath = true := by
  have outcome := suits.outcome
  cases decision : treatment.outcome with
  | plain | refused reason => simp [Treatment.handle?, Treatment.allocation?, decision] at given
  | instrumented allocation position shared =>
    rw [decision] at outcome
    obtain ⟨-, placed, -⟩ := outcome
    unfold Enclosure.place at placed
    split at placed
    · cases placed
    · cases placed
    · split at placed
      case isTrue => cases placed
      case isFalse supported =>
        split at placed
        case isTrue => cases placed
        case isFalse plain => exact ⟨Bool.eq_false_iff.mpr supported, by simpa using plain⟩

/-- The generated attribute of an element is one that its attachment gives. -/
theorem Attachment.attribute_gives (attachment : Attachment) (explicit? : Option Tree)
    (groups : List HookGroup) (unused : explicit? = none → groups = []) :
    attachment.Gives explicit? ((HookGroup.sorted groups).flatMap HookGroup.hooks)
      (attachment.attribute explicit? groups) := by
  unfold Attachment.attribute
  cases forwards : ElementRef.forwarded? explicit? attachment.spreads with
  | none =>
    have noReference : explicit? = none := by
      cases explicit? with
      | none => rfl
      | some earlier =>
        obtain ⟨reference, found⟩ := ElementRef.exists_forwarded earlier attachment.spreads
        cases found.symm.trans forwards
    rw [unused noReference]
    exact .handle forwards rfl
  | some reference => exact .function forwards (HookGroup.splice_interleaved _ groups)

namespace Woven

variable {runtimeGlobal : String}

/-- What a woven tree holds is smaller. -/
theorem Holds.sizeOf_lt {whole item : Woven} {frame? : Option Frame} {scan? : Option BodyScan}
    (holds : whole.Holds frame? scan? item) : sizeOf item < sizeOf whole := by
  cases holds with
  | item member | statement member | replaced member =>
    have less := List.sizeOf_lt_of_mem member
    simp only [list.sizeOf_spec, statements.sizeOf_spec, reference.sizeOf_spec]
    omega
  | part member | outer member | inner member | opening member =>
    have less := List.sizeOf_lt_of_mem member
    simp only [Prod.mk.sizeOf_spec] at less
    simp only [node.sizeOf_spec, function.sizeOf_spec, opening.sizeOf_spec]
    omega

/-- Instrumentation keeps lists lists. -/
theorem isList_tree (woven : Woven) (runtimeGlobal : String) :
    (woven.tree runtimeGlobal).isList = woven.source.isList := by
  cases woven <;> rfl

/-- Fields are named as before. -/
theorem map_fst_treesInParts (runtimeGlobal : String) (parts : List (Field × Woven)) :
    (treesInParts runtimeGlobal parts).map Prod.fst = parts.map Prod.fst := by
  rw [treesInParts_eq_map, List.map_map]
  rfl

theorem map_fst_sourcesInParts (parts : List (Field × Woven)) :
    (sourcesInParts parts).map Prod.fst = parts.map Prod.fst := by
  rw [sourcesInParts_eq_map, List.map_map]
  rfl

/-- The body of a function, instrumented: if it is a block, it lists its statements. -/
theorem Follows.tree_block {body : Woven} {enclosure : Enclosure} {step : Step}
    (follows : body.Follows enclosure step) (wellFormed : body.source.isWellFormed = true)
    {fields : Fields} (block : body.tree runtimeGlobal = .node .blockStatement fields) :
    (fields.map Prod.fst).Nodup ∧ ∃ statements, (.stmts, Tree.list statements) ∈ fields := by
  have listed {fields : Fields} (isList : (Fields.get fields .stmts).isList = true) :
      ∃ statements, (.stmts, Tree.list statements) ∈ fields := by
    unfold Fields.get at isList
    cases found : fields.lookup .stmts with
    | none =>
      rw [found] at isList
      cases isList
    | some part =>
      rw [found] at isList
      obtain ⟨early, late, rfl, -⟩ := List.lookup_eq_some_iff.mp found
      cases part with
      | list statements => exact ⟨statements, List.mem_append_right _ List.mem_cons_self⟩
      | null | bool | num | str | node => cases isList
  cases body with
  | kept tree =>
    obtain rfl : tree = .node .blockStatement fields := block
    obtain ⟨distinct, isList, -⟩ := Tree.isWellFormed_node wellFormed
    exact ⟨distinct, listed (isList rfl)⟩
  | node kind parts =>
    injection block with same sameFields
    subst same sameFields
    obtain ⟨distinct, isList, -⟩ := Tree.isWellFormed_node wellFormed
    rw [map_fst_sourcesInParts] at distinct
    refine ⟨(map_fst_treesInParts runtimeGlobal parts).symm ▸ distinct, listed ?_⟩
    rcases get_treesInParts_cases runtimeGlobal parts .stmts with ⟨-, missing⟩ |
      ⟨item, -, instrumented, held⟩
    · have absent := isList rfl
      rw [missing] at absent
      cases absent
    · rw [instrumented, isList_tree, ← held]
      exact isList rfl
  | function kind outer scan? inner =>
    injection block with same
    exact absurd same (Kind.ne_block_of_isFunction follows.2.1)
  | opening treatment parts =>
    injection block with same
    cases same
  | list | statements => cases block
  | removed | reference => exact follows.elim

/-- What is missing stays missing. -/
theorem Follows.tree_null {woven : Woven} {enclosure : Enclosure} {step : Step}
    (follows : woven.Follows enclosure step) (missing : woven.source = .null) :
    woven.tree runtimeGlobal = .null := by
  cases woven with
  | kept tree => exact missing
  | list | statements | node | function | opening => cases missing
  | removed | reference => exact follows.elim

/-- The parts of a node are rewritten if each of them is. -/
theorem allowed_parts {parts : List (Field × Woven)}
    (each : ∀ part ∈ parts, (part.2.rewriting runtimeGlobal).Allowed runtimeGlobal) :
    ∀ part ∈ rewritingParts runtimeGlobal parts, part.2.Allowed runtimeGlobal := by
  intro part member
  obtain ⟨origin, among, rfl⟩ := List.mem_map.mp member
  exact each origin among

/-- A node with the parts in their places is rewritten if each of them is. -/
theorem allowed_node {kind : Kind} {parts : List (Field × Woven)}
    (unattributed : kind = .jsxOpeningElement →
      ∀ part ∈ parts, part.1 = .attributes → part.2.source.isList = false)
    (each : ∀ part ∈ parts, (part.2.rewriting runtimeGlobal).Allowed runtimeGlobal) :
    Rewriting.Allowed runtimeGlobal ⟨.node kind (sourcesInParts parts),
      .node kind (treesInParts runtimeGlobal parts), changesInParts parts⟩ := by
  rw [← sourcesInParts_rewritingParts runtimeGlobal, ← changesInParts_rewritingParts runtimeGlobal,
    ← imagesInParts_rewritingParts]
  refine .node (fun opening part member => ?_) (allowed_parts each)
  obtain ⟨origin, among, rfl⟩ := List.mem_map.mp member
  exact unattributed opening origin among

theorem changesInParts_append (first second : List (Field × Woven)) :
    changesInParts (first ++ second) = changesInParts first ++ changesInParts second := by
  simp only [changesInParts_eq_flatMap, List.flatMap_append]

/-- Parts other than a body are left as they are when hooks are put into the body. -/
theorem spliceBody_others (runtimeGlobal : String) {parts : List (Field × Woven)} (others : ∀ part ∈ parts, part.1 ≠ .body)
    (groups : List HookGroup) :
    (treesInParts runtimeGlobal parts).spliceBody groups = treesInParts runtimeGlobal parts := by
  refine Fields.spliceBody_of_absent (fun part member => ?_) groups
  rw [treesInParts_eq_map] at member
  obtain ⟨origin, among, rfl⟩ := List.mem_map.mp member
  exact others origin among

/-- A function as one node with hooks put into its body. -/
theorem Follows.tree_function (runtimeGlobal : String) {kind : Kind}
    {outer inner : List (Field × Woven)} {scan? : Option BodyScan} {enclosure : Enclosure}
    {step : Step} (follows : (function kind outer scan? inner).Follows enclosure step) :
    (function kind outer scan? inner).tree runtimeGlobal =
      .node kind ((treesInParts runtimeGlobal (outer ++ inner)).spliceBody
        (groups runtimeGlobal scan? (elementsInParts inner))) := by
  obtain ⟨-, -, keys, -⟩ := follows
  have outside : ∀ part ∈ outer, part.1 ≠ .body := by
    intro part member
    rw [keys part member]
    exact Field.noConfusion
  rw [tree, treesInParts_append, Fields.spliceBody_append, spliceBody_others runtimeGlobal outside]

/-- A function that gets no hooks has its parts changed in their places. -/
theorem spliceBody_unhooked {parts : List (Field × Woven)} {groups : List HookGroup}
    (unhooked : groups = [] ∨ ∀ part ∈ parts, part.1 = .body → part.2.tree runtimeGlobal = .null) :
    (treesInParts runtimeGlobal parts).spliceBody groups = treesInParts runtimeGlobal parts := by
  rcases unhooked with rfl | missing
  · exact Fields.spliceBody_nil _
  · rw [Fields.spliceBody_eq_map, treesInParts_eq_map, List.map_map]
    refine List.map_congr_left fun part member => ?_
    by_cases isBody : part.1 = .body
    · simp only [Function.comp_apply, missing part member isBody, isBody, ↓reduceIte]
      rw [HookGroup.spliceBody]
      split <;> rfl
    · simp only [Function.comp_apply, if_neg isBody]

/-- A function is rewritten if its parts are: hooks go into its body. -/
theorem Follows.allowed_function {kind : Kind} {outer inner : List (Field × Woven)}
    {scan? : Option BodyScan} {enclosure : Enclosure} {step : Step}
    (follows : (function kind outer scan? inner).Follows enclosure step)
    (wellFormed : (function kind outer scan? inner).source.isWellFormed = true)
    (each : ∀ part ∈ outer ++ inner, (part.2.rewriting runtimeGlobal).Allowed runtimeGlobal) :
    ((function kind outer scan? inner).rewriting runtimeGlobal).Allowed runtimeGlobal := by
  have shape := follows.tree_function runtimeGlobal
  have arranged := groups_arranged runtimeGlobal scan? (elementsInParts inner)
  obtain ⟨-, isFunction, keys, -, -, within⟩ := follows
  obtain ⟨distinct, -, parts, -⟩ := Tree.isWellFormed_node wellFormed
  rw [← sourcesInParts_append] at distinct parts
  rw [map_fst_sourcesInParts] at distinct
  rw [rewriting, shape, source, changes, ← sourcesInParts_append, ← changesInParts_append]
  generalize found : groups runtimeGlobal scan? (elementsInParts inner) = hooked at arranged ⊢
  -- Hooks are put into the body if there are any and the function has one.
  by_cases takes : hooked ≠ [] ∧ hasBody inner = true
  · obtain ⟨some, present⟩ := takes
    obtain ⟨⟨field, body⟩, member, isBody⟩ := List.any_eq_true.mp present
    simp only [Bool.and_eq_true, decide_eq_true_eq] at isBody
    obtain ⟨rfl, takes⟩ := isBody
    have visited := within.member member
    have whole := parts (.body, body.source)
      (mem_sourcesInParts (List.mem_append_right outer member))
    have there : body.tree runtimeGlobal ≠ .null := by
      rintro missing
      rw [← takesHooks_tree runtimeGlobal visited, missing] at takes
      cases takes
    have gains := HookGroup.spliceBody_gains some there fun fields => visited.tree_block whole
    obtain ⟨early, late, split, others⟩ := exists_split distinct (List.mem_append_right outer member)
    rw [split] at each ⊢
    have allowed := allowed_parts each
    rw [rewritingParts_split] at allowed
    have component := Rewriting.Allowed.component isFunction allowed arranged gains
    rw [← rewritingParts_split, sourcesInParts_rewritingParts, changesInParts_rewritingParts,
      imagesInParts_rewritingParts, imagesInParts_rewritingParts] at component
    have image : (treesInParts runtimeGlobal (early ++ (.body, body) :: late)).spliceBody hooked =
        treesInParts runtimeGlobal early ++
          (.body, HookGroup.spliceBody hooked (body.tree runtimeGlobal)) ::
            treesInParts runtimeGlobal late := by
      have front := spliceBody_others runtimeGlobal
        (fun part member => others part (List.mem_append_left _ member)) hooked
      have back := spliceBody_others runtimeGlobal
        (fun part member => others part (List.mem_append_right _ member)) hooked
      rw [treesInParts_append, Fields.spliceBody_append, front, treesInParts]
      exact congrArg (_ ++ (Field.body, _) :: ·) back
    rw [image, if_pos present]
    exact component
  · have missing : hooked = [] ∨ hasBody inner = false := by
      by_contra neither
      rw [not_or, Bool.not_eq_false] at neither
      exact takes neither
    have absent : hasBody inner = false →
        ∀ part ∈ outer ++ inner, part.1 = .body → part.2.tree runtimeGlobal = .null := by
      intro absent part member isBody
      rcases List.mem_append.mp member with outside | inside
      · exact absurd (isBody.symm.trans (keys part outside)) Field.noConfusion
      · refine (within.member inside).tree_null (by_contra fun present => ?_)
        have takes := Tree.takesHooks_of_ne_null (parts _ (mem_sourcesInParts member)) present
        exact List.any_eq_false.mp absent part inside
          (Bool.and_eq_true_iff.mpr ⟨decide_eq_true isBody, takes⟩)
    have unhooked := spliceBody_unhooked (missing.imp_right absent)
    have unchanged : (if hasBody inner = true then tracked scan? (elementsInParts inner) else []) =
        [] := by
      rcases missing with none | absent
      · have same := map_hooks_groups runtimeGlobal scan? (elementsInParts inner)
        rw [found, none, List.map_nil] at same
        rw [List.map_eq_nil_iff.mp same.symm, ite_self]
      · rw [if_neg (Bool.eq_false_iff.mp absent)]
    rw [unhooked, unchanged, List.map_nil, List.append_nil]
    refine allowed_node (fun opening => ?_) each
    rw [opening] at isFunction
    exact absurd isFunction Bool.false_ne_true

/-- The first of the attributes of an element: the generated reference, a marker, an explicit
reference that is replaced, or an attribute that stays. -/
theorem FollowsAttributes.cons_cases {enclosure : Enclosure} {attachment? : Option Attachment}
    {explicit? : Option Tree} {first : Woven} {rest : List Woven}
    (follows : FollowsAttributes enclosure attachment? explicit? (first :: rest)) :
    (∃ attachment replaced scan?, first = reference attachment replaced scan? ∧ rest = [] ∧
        attachment? = some attachment ∧
        sources replaced = (explicit?.bind Tree.refExpression?).toList ∧
        FollowsItems (enclosure.enterForwarding scan?) replaced) ∨
      (∃ attr, first = removed attr ∧ attr.isMarker = true ∧
        FollowsAttributes enclosure attachment? explicit? rest) ∨
      (∃ attr, first = removed attr ∧ attr.isMarker = false ∧ attr.isRef = true ∧
        explicit? = none ∧ (sources rest).any Tree.isRef = false ∧
        ∃ attachment, attachment? = some attachment ∧
          FollowsAttributes enclosure (some attachment) (some attr) rest) ∨
      (first.source.isMarker = false ∧ first.Follows enclosure .visit ∧
        FollowsAttributes enclosure attachment? explicit? rest) := by
  cases first with
  | reference attachment replaced scan? =>
    obtain ⟨same, last, single, -, within⟩ := follows
    exact Or.inl ⟨attachment, replaced, scan?, rfl, last, same, single, within⟩
  | removed attr =>
    unfold FollowsAttributes at follows
    split at follows
    case isTrue isMarker => exact Or.inr (Or.inl ⟨attr, rfl, isMarker, follows⟩)
    case isFalse unmarked =>
      obtain ⟨isRef, due, first, last, later⟩ := follows
      obtain ⟨attachment, rfl⟩ := Option.isSome_iff_exists.mp due
      exact Or.inr (Or.inr (Or.inl ⟨attr, rfl, Bool.eq_false_iff.mpr unmarked, isRef, first, last,
        attachment, rfl, later⟩))
  | kept | list | statements | node | function | opening =>
    exact Or.inr (Or.inr (Or.inr follows))

/-- An attribute that stays is rewritten before the others. -/
theorem Follows.attribute_cons (runtimeGlobal : String) {enclosure : Enclosure} {item : Woven}
    (follows : item.Follows enclosure .visit) (unmarked : item.source.isMarker = false)
    (rest : List Woven) :
    stripMarkers (sources (item :: rest)) = item.source :: stripMarkers (sources rest) ∧
      trees runtimeGlobal (item :: rest) = item.tree runtimeGlobal :: trees runtimeGlobal rest := by
  obtain ⟨notRemoved, notGenerated⟩ := follows.ordinary
  rw [sources, if_neg (Bool.eq_false_iff.mp notGenerated), trees,
    if_neg (Bool.eq_false_iff.mp notRemoved)]
  exact ⟨List.filter_cons_of_pos (by rw [unmarked]; rfl), rfl⟩

/-- The attributes behind an explicit reference, and the generated one that replaces it. -/
theorem FollowsAttributes.behind (runtimeGlobal : String) {enclosure : Enclosure}
    {attachment : Attachment} {attr expression : Tree} {items : List Woven}
    (follows : FollowsAttributes enclosure (some attachment) (some attr) items)
    (found : attr.refExpression? = some expression) :
    ∃ (back : List Woven) (explicit : Woven) (scan? : Option BodyScan),
      stripMarkers (sources items) = (back.map (rewriting runtimeGlobal)).map Rewriting.source ∧
      trees runtimeGlobal items = (back.map (rewriting runtimeGlobal)).map Rewriting.image ++
        [(reference attachment [explicit] scan?).tree runtimeGlobal] ∧
      changesInItems items = (back.map (rewriting runtimeGlobal)).flatMap Rewriting.changes ++
        (reference attachment [explicit] scan?).changes ∧
      explicit.source = expression ∧ explicit.Follows (enclosure.enterForwarding scan?) .visit ∧
      reference attachment [explicit] scan? ∈ items ∧
      ∀ item ∈ back, item ∈ items ∧ item.Follows enclosure .visit := by
  induction items with
  | nil => cases follows
  | cons first rest ih =>
    rcases follows.cons_cases with ⟨own, replaced, scan?, rfl, rfl, same, single, within⟩ |
      ⟨marker, rfl, isMarker, further⟩ | ⟨_, _, _, _, second, _⟩ | ⟨unmarked, visited, further⟩
    · obtain rfl := Option.some.inj same
      rw [Option.bind_some, found, Option.toList_some] at single
      have lengths := congrArg List.length single
      rw [within.length_sources] at lengths
      obtain ⟨explicit, rfl⟩ := List.length_eq_one_iff.mp lengths
      rw [sources, if_neg (Bool.eq_false_iff.mp within.1.ordinary.2)] at single
      exact ⟨[], explicit, scan?, rfl, rfl, List.append_nil _, (List.cons.inj single).1, within.1,
        List.mem_cons_self, fun item member => absurd member List.not_mem_nil⟩
    · obtain ⟨back, explicit, scan?, strips, images, changed, same, visited, member, others⟩ :=
        ih further
      refine ⟨back, explicit, scan?, ?_, images, changed, same, visited,
        List.mem_cons_of_mem _ member,
        fun item among => (others item among).imp_left (List.mem_cons_of_mem _)⟩
      rw [← strips]
      exact List.filter_cons_of_neg (by rw [source, isMarker]; decide)
    · exact absurd second (Option.some_ne_none _)
    · obtain ⟨back, explicit, scan?, strips, images, changed, same, inside, member, others⟩ :=
        ih further
      obtain ⟨stays, instrumented⟩ := visited.attribute_cons runtimeGlobal unmarked rest
      refine ⟨first :: back, explicit, scan?, ?_, ?_, ?_, same, inside,
        List.mem_cons_of_mem _ member, ?_⟩
      · rw [stays, strips]
        rfl
      · rw [instrumented, images]
        rfl
      · rw [changesInItems, changed, ← List.append_assoc]
        rfl
      · intro item among
        rcases List.mem_cons.mp among with rfl | later
        · exact ⟨List.mem_cons_self, visited⟩
        · exact (others item later).imp_left (List.mem_cons_of_mem _)

/-- The attributes of an element are rewritten if what is woven in them is. -/
theorem FollowsAttributes.rewritten (runtimeGlobal : String) {enclosure : Enclosure}
    {attachment? : Option Attachment} {items : List Woven} (follows : FollowsAttributes enclosure attachment? none items)
    (supported : attachment?.isSome = true → ElementRef.isUnsupported (sources items) = false)
    (wellFormed : ∀ attr ∈ sources items, attr.isWellFormed = true)
    (each : ∀ item : Woven, sizeOf item < sizeOf items → ∀ enclosure, item.Follows enclosure .visit →
      item.source.isWellFormed = true → (item.rewriting runtimeGlobal).Allowed runtimeGlobal) :
    ∃ within : List Rewriting, (∀ item ∈ within, item.Allowed runtimeGlobal) ∧
      AttributesRewritten runtimeGlobal attachment? (stripMarkers (sources items)) within
        (trees runtimeGlobal items) (changesInItems items) := by
  induction items with
  | nil =>
    obtain rfl : attachment? = none := follows
    exact ⟨[], fun item member => absurd member List.not_mem_nil, .plain []⟩
  | cons first rest ih =>
    have behind (item : Woven) (less : sizeOf item < sizeOf rest) :
        sizeOf item < sizeOf (first :: rest) := by
      simp only [List.cons.sizeOf_spec]
      omega
    rcases follows.cons_cases with ⟨attachment, replaced, scan?, rfl, rfl, rfl, single, within⟩ |
      ⟨marker, rfl, isMarker, further⟩ | ⟨attr, rfl, unmarked, isRef, -, last, attachment, rfl, later⟩ |
      ⟨unmarked, visited, further⟩
    · have alone := within.length_sources
      rw [single] at alone
      obtain rfl := List.length_eq_zero_iff.mp alone.symm
      have noGroups : groups runtimeGlobal scan? (elementsInItems []) = [] := by cases scan? <;> rfl
      have untracked : tracked scan? (elementsInItems []) = [] := by cases scan? <;> rfl
      have gives := attachment.attribute_gives none [] fun _ => rfl
      refine ⟨[], fun item member => absurd member List.not_mem_nil, ?_⟩
      have image : (reference attachment [] scan?).tree runtimeGlobal =
          attachment.attribute none [] := by
        rw [tree, noGroups]
        rfl
      change AttributesRewritten runtimeGlobal (some attachment) [] [] [tree runtimeGlobal _] _
      rw [changesInItems, changes, untracked, image]
      exact .added [] gives
    · obtain ⟨within, allowed, rewritten⟩ := ih further
        (fun due => ElementRef.isUnsupported_cons (supported due))
        (fun attr member => wellFormed attr (List.mem_cons_of_mem _ member))
        (fun item less => each item (behind item less))
      refine ⟨within, allowed, ?_⟩
      have strips : stripMarkers (sources (removed marker :: rest)) = stripMarkers (sources rest) :=
        List.filter_cons_of_neg (by rw [source, isMarker]; decide)
      rw [strips]
      exact rewritten
    · obtain ⟨expression, found⟩ := ElementRef.exists_refExpression isRef last (supported rfl)
      obtain ⟨back, explicit, scan?, strips, images, changed, rfl, visited, member, others⟩ :=
        later.behind runtimeGlobal found
      have inside : sizeOf explicit < sizeOf rest := by
        have held : (reference attachment [explicit] scan?).Holds none scan? explicit :=
          .replaced List.mem_cons_self
        have less := held.sizeOf_lt
        have among := List.sizeOf_lt_of_mem member
        omega
      have explicitAllowed := each explicit (behind explicit inside) _ visited
        (Tree.hereditary_isWellFormed.refExpression (wellFormed attr List.mem_cons_self) found)
      have shape : (reference attachment [explicit] scan?).tree runtimeGlobal =
          attachment.attribute (some (explicit.tree runtimeGlobal))
            (groups runtimeGlobal scan? (elementsInItems [explicit])) := by
        rw [tree, trees, if_neg (Bool.eq_false_iff.mp visited.ordinary.1)]
        rfl
      have gives := attachment.attribute_gives (some (explicit.rewriting runtimeGlobal).image)
        (groups runtimeGlobal scan? (elementsInItems [explicit]))
        fun impossible => absurd impossible (Option.some_ne_none _)
      have whole := AttributesRewritten.replaced [] (back.map (rewriting runtimeGlobal)) isRef found
        (groups_arranged runtimeGlobal scan? (elementsInItems [explicit])) gives
      refine ⟨back.map (rewriting runtimeGlobal) ++ [explicit.rewriting runtimeGlobal],
        fun item among => ?_, ?_⟩
      · rcases List.mem_append.mp among with front | last
        · obtain ⟨origin, found, rfl⟩ := List.mem_map.mp front
          obtain ⟨held, follows⟩ := others origin found
          refine each origin (behind origin (List.sizeOf_lt_of_mem held)) enclosure follows
            (wellFormed _ (List.mem_cons_of_mem _ (mem_sources.mpr
              ⟨origin, held, follows.ordinary.2, rfl⟩)))
        · rw [List.mem_singleton.mp last]
          exact explicitAllowed
      · have stripped : stripMarkers (sources (removed attr :: rest)) =
            attr :: stripMarkers (sources rest) :=
          List.filter_cons_of_pos (by rw [source, unmarked]; rfl)
        have listed : changesInItems (removed attr :: rest) =
            (back.map (rewriting runtimeGlobal)).flatMap Rewriting.changes ++ explicit.changes ++
              (tracked scan? (elementsInItems [explicit])).map Change.hooks ++
              [.reference attachment (some explicit.source)] := by
          change changesInItems rest = _
          rw [changed, changes, changesInItems, changesInItems, List.append_nil, sources,
            if_neg (Bool.eq_false_iff.mp visited.ordinary.2), List.head?_cons]
          simp only [List.append_assoc]
        have instrumented : trees runtimeGlobal (removed attr :: rest) = trees runtimeGlobal rest := rfl
        rw [stripped, listed, instrumented, images, strips, shape]
        exact whole
    · have shape : sources (first :: rest) = first.source :: sources rest := by
        rw [sources, if_neg (Bool.eq_false_iff.mp visited.ordinary.2)]
      rw [shape] at supported wellFormed
      obtain ⟨within, allowed, rewritten⟩ := ih further
        (fun due => ElementRef.isUnsupported_cons (supported due))
        (fun attr member => wellFormed attr (List.mem_cons_of_mem _ member))
        (fun item less => each item (behind item less))
      obtain ⟨stays, instrumented⟩ :=
        visited.attribute_cons runtimeGlobal unmarked rest
      have here := each first (by simp only [List.cons.sizeOf_spec]; omega) enclosure visited
        (wellFormed _ List.mem_cons_self)
      refine ⟨first.rewriting runtimeGlobal :: within, fun item member => ?_, ?_⟩
      · rcases List.mem_cons.mp member with rfl | among
        · exact here
        · exact allowed item among
      · rw [stays, instrumented, changesInItems]
        exact rewritten.cons (first.rewriting runtimeGlobal)

/-- Attributes that are no list are visited like anything else. -/
theorem Follows.unlisted {woven : Woven} {enclosure : Enclosure} {attachment? : Option Attachment}
    (follows : woven.Follows enclosure (.attributes attachment?)) (unlisted : ∀ items, woven ≠ list items) :
    woven.Follows enclosure .visit ∧ woven.source.isList = false := by
  cases woven with
  | kept tree =>
    rcases follows with keep | scalar
    · cases keep
    · refine ⟨Or.inr scalar, ?_⟩
      cases tree with
      | list | node => cases scalar
      | null | bool | num | str => rfl
  | list items => exact absurd rfl (unlisted items)
  | statements items => cases follows.1
  | node kind parts => exact ⟨⟨Step.noConfusion, follows.2⟩, rfl⟩
  | function kind outer scan? inner => exact ⟨⟨Step.noConfusion, follows.2⟩, rfl⟩
  | opening treatment parts => exact ⟨⟨Step.noConfusion, follows.2⟩, rfl⟩
  | removed | reference => exact follows.elim

/-- An opening tag is rewritten if what is woven in it is. -/
theorem Follows.allowed_opening {treatment : Treatment} {parts : List (Field × Woven)}
    {enclosure : Enclosure} {step : Step}
    (follows : (opening treatment parts).Follows enclosure step)
    (wellFormed : (opening treatment parts).source.isWellFormed = true)
    (each : ∀ item : Woven, sizeOf item < sizeOf parts → ∀ enclosure step,
      item.Follows enclosure step → (∀ attachment?, step ≠ .attributes attachment?) →
      item.source.isWellFormed = true → (item.rewriting runtimeGlobal).Allowed runtimeGlobal) :
    ((opening treatment parts).rewriting runtimeGlobal).Allowed runtimeGlobal := by
  obtain ⟨-, suits, within⟩ := follows
  obtain ⟨distinct, -, formed, -⟩ := Tree.isWellFormed_node wellFormed
  rw [map_fst_sourcesInParts] at distinct
  have smaller {field : Field} {item : Woven} (member : (field, item) ∈ parts) :
      sizeOf item < sizeOf parts := by
    have less := List.sizeOf_lt_of_mem member
    simp only [Prod.mk.sizeOf_spec] at less
    omega
  have other {field : Field} {item : Woven} (member : (field, item) ∈ parts)
      (other : field ≠ .attributes) : (item.rewriting runtimeGlobal).Allowed runtimeGlobal := by
    have visited := within.member member
    have step : Step.ofOpening (treatment.attachment?
        (Fields.get (sourcesInParts parts) .attributes).items) field = .visit := by
      unfold Step.ofOpening
      split
      · exact absurd rfl other
      · rfl
    rw [step] at visited
    exact each item (smaller member) _ _ visited (fun _ => Step.noConfusion)
      (formed _ (mem_sourcesInParts member))
  by_cases listed : ∃ items, (.attributes, list items) ∈ parts
  · obtain ⟨items, member⟩ := listed
    obtain ⟨early, late, rfl, others⟩ := exists_split distinct member
    have found : Fields.get (sourcesInParts (early ++ (.attributes, list items) :: late))
        .attributes = .list (sources items) := by
      rw [sourcesInParts_append, sourcesInParts, source]
      refine Rewriting.get_middle (fun part among => ?_) _ _
      rw [sourcesInParts_eq_map] at among
      obtain ⟨origin, member, rfl⟩ := List.mem_map.mp among
      exact others origin (List.mem_append_left _ member)
    have visited : FollowsAttributes enclosure (treatment.attachment? (sources items)) none items := by
      have held := within.member member
      rw [found] at held
      exact held
    have supported := suits.supported
    rw [found] at supported
    obtain ⟨rewritten, allowed, attributes⟩ := visited.rewritten runtimeGlobal
      (fun due => (supported (by
        rw [Treatment.attachment?, Option.isSome_map] at due
        exact due)).1)
      (Tree.itemsAreWellFormed_iff.mp (formed _ (mem_sourcesInParts member)))
      (fun item less around follows whole => each item
        (Nat.lt_trans less (Nat.lt_trans (by simp only [list.sizeOf_spec]; omega) (smaller member)))
        around .visit follows (fun _ => Step.noConfusion) whole)
    have around : ∀ part ∈ rewritingParts runtimeGlobal early ++ rewritingParts runtimeGlobal late,
        part.2.Allowed runtimeGlobal := by
      rw [rewritingParts, rewritingParts, ← List.map_append]
      refine allowed_parts fun part among => ?_
      have listed : part ∈ early ++ (.attributes, list items) :: late :=
        List.mem_append.mpr ((List.mem_append.mp among).imp_right (List.mem_cons_of_mem _))
      exact other listed (others _ among)
    have spread : ∀ attachment ∈ treatment.attachment? (sources items),
        attachment.spreads = ElementRef.trailingSpreads (sources items) ∧
          attachment.spreads.all Tree.isPlainPath = true := by
      intro attachment due
      obtain ⟨handle, given, rfl⟩ := Option.map_eq_some_iff.mp due
      exact ⟨rfl, (supported (Option.isSome_iff_exists.mpr ⟨handle, given⟩)).2⟩
    have apart : ∀ part ∈ rewritingParts runtimeGlobal early ++ rewritingParts runtimeGlobal late,
        part.1 ≠ .attributes := by
      intro part among
      rw [rewritingParts, rewritingParts, ← List.map_append] at among
      obtain ⟨origin, member, rfl⟩ := List.mem_map.mp among
      exact others origin member
    have whole := Rewriting.Allowed.opening apart spread around allowed attributes
    have handled : (treatment.attachment? (sources items)).map
        (fun attachment => Change.element attachment.handle) = treatment.handle?.map .element := by
      rw [Treatment.attachment?, Option.map_map]
      rfl
    rw [handled, sourcesInParts_rewritingParts, sourcesInParts_rewritingParts,
      imagesInParts_rewritingParts, imagesInParts_rewritingParts, changesInParts_rewritingParts,
      changesInParts_rewritingParts] at whole
    rw [rewriting, source, tree, changes, sourcesInParts_append, treesInParts_append,
      changesInParts_append, sourcesInParts, treesInParts, changesInParts, source, tree, changes]
    simp only [List.append_assoc] at whole ⊢
    exact whole
  · have unlisted {field : Field} {item : Woven} (member : (field, item) ∈ parts)
        (isAttributes : field = .attributes) :
        item.Follows enclosure .visit ∧ item.source.isList = false := by
      subst isAttributes
      exact Follows.unlisted (within.member member) fun items same =>
        listed ⟨items, same ▸ member⟩
    have bare : (Fields.get (sourcesInParts parts) .attributes).items = [] := by
      rcases get_treesInParts_cases runtimeGlobal parts .attributes with ⟨-, missing⟩ |
        ⟨item, member, -, held⟩
      · rw [missing]
        rfl
      · have isList := (unlisted member rfl).2
        rw [held]
        cases form : item.source with
        | list items =>
          rw [form] at isList
          cases isList
        | null | bool | num | str | node => rfl
    rw [rewriting, changes, suits.unmarked bare]
    refine allowed_node (fun _ part member isAttributes => (unlisted member isAttributes).2)
      fun part member => ?_
    by_cases isAttributes : part.1 = .attributes
    · exact each part.2 (smaller member) _ _ (unlisted member isAttributes).1
        (fun _ => Step.noConfusion) (formed _ (mem_sourcesInParts member))
    · exact other member isAttributes

/-- Whatever is woven, attributes of elements apart, is rewritten in the ways that are allowed. -/
theorem Follows.allowed (runtimeGlobal : String) (woven : Woven) {enclosure : Enclosure}
    {step : Step} (follows : woven.Follows enclosure step)
    (notAttributes : ∀ attachment?, step ≠ .attributes attachment?)
    (wellFormed : woven.source.isWellFormed = true) :
    (woven.rewriting runtimeGlobal).Allowed runtimeGlobal := by
  induction size : sizeOf woven using Nat.strong_induction_on generalizing woven enclosure step with
  | _ n ih =>
    subst size
    have items' (items : List Woven) (less : sizeOf items < sizeOf woven)
        (formed : ∀ item ∈ sources items, item.isWellFormed = true)
        (visited : ∀ item ∈ items, ∃ enclosure, item.Follows enclosure .visit) :
        Rewriting.Allowed runtimeGlobal
          ⟨.list (sources items), .list (trees runtimeGlobal items), changesInItems items⟩ := by
      obtain ⟨source, image, changed⟩ := rewriting_items runtimeGlobal fun item member =>
        (visited item member).choose_spec.ordinary
      rw [source, image, changed]
      refine .list fun item among => ?_
      obtain ⟨origin, member, rfl⟩ := List.mem_map.mp among
      obtain ⟨around, follows⟩ := visited origin member
      refine ih (sizeOf origin) ?_ origin follows (fun _ => Step.noConfusion)
        (formed _ (mem_sources.mpr ⟨origin, member, follows.ordinary.2, rfl⟩)) rfl
      exact Nat.lt_trans (List.sizeOf_lt_of_mem member) less
    cases woven with
    | kept tree =>
      rw [rewriting, source, Woven.tree, changes]
      split
      case isTrue scalar => exact .scalar scalar
      case isFalse => exact .unvisited tree
    | list items =>
      refine items' items (by simp only [list.sizeOf_spec]; omega)
        (Tree.itemsAreWellFormed_iff.mp wellFormed) fun item member => ?_
      cases step with
      | keep | statements => exact follows.elim
      | attributes attachment? => exact absurd rfl (notAttributes attachment?)
      | visit | announce | componentBody => exact ⟨_, FollowsItems.member follows member⟩
    | statements items =>
      refine items' items (by simp only [statements.sizeOf_spec]; omega)
        (Tree.itemsAreWellFormed_iff.mp wellFormed) fun item member => ?_
      obtain ⟨index, found⟩ := List.getElem?_of_mem member
      exact ⟨_, follows.2.getElem found⟩
    | node kind parts =>
      obtain ⟨-, -, notOpening, within⟩ := follows
      obtain ⟨-, -, formed, -⟩ := Tree.isWellFormed_node wellFormed
      exact allowed_node (fun isOpening => absurd isOpening notOpening) fun ⟨field, item⟩ member =>
        ih (sizeOf item) (Holds.part member).sizeOf_lt item (within.member member)
          (step.within_ne_attributes kind _ field) (formed _ (mem_sourcesInParts member)) rfl
    | function kind outer scan? inner =>
      refine follows.allowed_function wellFormed fun ⟨field, item⟩ member => ?_
      obtain ⟨-, -, -, outside, -, within⟩ := follows
      obtain ⟨-, -, formed, -⟩ := Tree.isWellFormed_node wellFormed
      rw [← sourcesInParts_append] at formed
      have whole := formed _ (mem_sourcesInParts member)
      rcases List.mem_append.mp member with first | second
      · exact ih (sizeOf item) (Holds.outer first).sizeOf_lt item (outside.member first)
          (fun _ => Step.noConfusion) whole rfl
      · exact ih (sizeOf item) (Holds.inner second).sizeOf_lt item (within.member second)
          (Step.ofFunction_ne_attributes scan? field) whole rfl
    | opening treatment parts =>
      refine follows.allowed_opening wellFormed fun item less around next inside ordinary whole =>
        ih (sizeOf item) ?_ item inside ordinary whole rfl
      simp only [opening.sizeOf_spec]
      omega
    | removed | reference => exact follows.elim

end Woven

/-- A body without hooks. -/
theorem Interleaved.onlyStatements (statements : List Tree) :
    Interleaved statements [] statements := by
  induction statements with
  | nil => exact .nothing
  | cons statement rest ih => exact .statement statement ih

namespace Imports

/-- An item put into a list stands among the others. -/
theorem insertAt_interleaved {statements hooks items : List Tree}
    (interleaved : Interleaved statements hooks items) (index : Nat) (item : Tree) :
    ∃ before after, hooks = before ++ after ∧
      Interleaved statements (before ++ item :: after) (insertAt items index item) := by
  induction interleaved generalizing index with
  | nothing => exact ⟨[], [], rfl, by cases index <;> exact .hook item .nothing⟩
  | @statement statements hooks body first rest ih =>
    cases index with
    | zero => exact ⟨[], hooks, rfl, .hook item (.statement first rest)⟩
    | succ index =>
      obtain ⟨before, after, rfl, later⟩ := ih index
      exact ⟨before, after, rfl, .statement first later⟩
  | @hook statements hooks body first rest ih =>
    cases index with
    | zero => exact ⟨[], first :: hooks, rfl, .hook item (.hook first rest)⟩
    | succ index =>
      obtain ⟨before, after, rfl, later⟩ := ih index
      exact ⟨first :: before, after, rfl, .hook first later⟩

/-- The items of a module stay in their order when imports are added to it. -/
theorem inject_interleaved (url : String) (items : List Tree) :
    ∃ added : List Tree, added.Subperm [runtime url, hooks] ∧
      Interleaved items added (inject url items).1 := by
  have loaded : ∃ added : List Tree, added.Sublist [runtime url] ∧
      Interleaved items added (withRuntime url items).1 := by
    unfold withRuntime
    split
    · exact ⟨[], List.nil_sublist _, .onlyStatements items⟩
    · obtain ⟨before, after, none, interleaved⟩ :=
        insertAt_interleaved (.onlyStatements items) (runtimePosition items) (runtime url)
      obtain ⟨rfl, rfl⟩ := List.append_eq_nil_iff.mp none.symm
      exact ⟨[runtime url], .refl _, interleaved⟩
  obtain ⟨added, few, interleaved⟩ := loaded
  unfold inject
  simp only
  split
  · exact ⟨added, (few.trans (List.sublist_append_left [runtime url] [hooks])).subperm, interleaved⟩
  · obtain ⟨before, after, rfl, whole⟩ :=
      insertAt_interleaved interleaved ((withRuntime url items).2 + 1) hooks
    refine ⟨_, ?_, whole⟩
    refine List.perm_middle.subperm.trans ?_
    exact ((few.cons_cons hooks).subperm).trans (List.Perm.swap _ _ _).subperm

end Imports

/-- What is woven from a well-formed module is rewritten in the ways that are allowed. -/
theorem weaveModule_rewritten (runtimeGlobal : String) (source? : Option String) {items : List Tree}
    (wellFormed : Tree.itemsAreWellFormed items = true) :
    Rewriting.Allowed runtimeGlobal
      ⟨.list items, .list (Woven.trees runtimeGlobal (weaveModule source? items)),
        Woven.changesInItems (weaveModule source? items)⟩ := by
  have sourced := weaveModule_source source? items
  have follows := weaveModule_follows source? items
  have allowed := follows.allowed runtimeGlobal _
    (fun _ => Step.noConfusion) (by rw [sourced]; exact wellFormed)
  rw [Woven.rewriting, sourced] at allowed
  exact allowed

/-- An instrumented module has the woven items in their order, and imports if an element has a
handle. -/
theorem instrumentModule_interleaved (options : Options) (file : String) (source? : Option String)
    (items : List Tree) :
    ∃ added : List Tree, added.Subperm [Imports.runtime options.runtimeUrl, Imports.hooks] ∧
      ((instrumentModule options file source? items).handles = 0 → added = []) ∧
      Interleaved (Woven.trees options.runtimeGlobal (weaveModule source? items)) added
        (instrumentModule options file source? items).items := by
  unfold instrumentModule
  simp only
  split
  case isTrue => exact ⟨[], List.nil_subperm, fun _ => rfl, .onlyStatements _⟩
  case isFalse some =>
    obtain ⟨added, few, interleaved⟩ := Imports.inject_interleaved options.runtimeUrl
      (Woven.trees options.runtimeGlobal (weaveModule source? items))
    refine ⟨added, few, fun none => ?_, interleaved⟩
    exact absurd (List.isEmpty_iff.mpr (List.length_eq_zero_iff.mp none)) some

/-- The changes made to a module. A module without markers is left as it is. -/
def moduleChanges (source? : Option String) (items : List Tree) : List Change :=
  if Tree.hasMarkersInItems items then Woven.changesInItems (weaveModule source? items)
  else [.unvisited (.list items)]

/-- The output is a module with some changes made to it, and with imports if it has handles: when
all that is taken back, the module is restored. -/
def ModuleOutput.Restores (output : ModuleOutput) (options : Options) (items : List Tree)
    (changes : List Change) : Prop :=
  ∃ visited added : List Tree,
    Rewriting.Allowed options.runtimeGlobal ⟨.list items, .list visited, changes⟩ ∧
    added.Subperm [Imports.runtime options.runtimeUrl, Imports.hooks] ∧
    (output.handles = 0 → added = []) ∧
    Interleaved visited added output.items

/-- A transformed module is the module with the changes made to it. -/
theorem transformModule_restores (options : Options) (registry : Registry) (file : String)
    (source? : Option String) {items : List Tree}
    (wellFormed : Tree.itemsAreWellFormed items = true) :
    (transformModule options registry file source? items).1.Restores options items
      (moduleChanges source? items) := by
  unfold moduleChanges
  split
  case isTrue marked =>
    obtain ⟨added, few, unneeded, interleaved⟩ :=
      instrumentModule_interleaved options file source? items
    rw [transformModule, if_pos marked]
    exact ⟨_, added, weaveModule_rewritten options.runtimeGlobal source? wellFormed, few, unneeded,
      interleaved⟩
  case isFalse unmarked =>
    rw [transformModule, if_neg unmarked]
    exact ⟨items, [], .unvisited _, List.nil_subperm, fun _ => rfl, .onlyStatements items⟩

end JsxTracking
