import JsxTracking.Proofs.HandleUses
import JsxTracking.Proofs.MarkerRemoval
import JsxTracking.Proofs.RecordedNames

/-! # Modules without markers

A module without markers is returned without being instrumented. Nothing would come of instrumenting
it: the pass leaves a tree as it is in which no element carries a marker (`Woven.tree_of_unmarked`),
gives out no handle and finds nothing. So it does not show that the pass is left out
(`instrumentation_of_unmarked`). -/

namespace JsxTracking

/-- A marker is an attribute with the name of a marker. -/
theorem Tree.isMarker_iff {attr : Tree} :
    attr.isMarker = true ↔ ∃ kind : MarkerKind, attr.attributeName? = some kind.attributeName := by
  rw [isMarker, markerKind?]
  cases attr.attributeName? with
  | none => simp
  | some name =>
    rw [Option.bind_some, MarkerKind.ofAttribute?]
    split
    case isTrue shown => simpa using ⟨MarkerKind.visible, shown⟩
    case isFalse notShown =>
      split
      case isTrue clicked => simpa using ⟨MarkerKind.click, clicked⟩
      case isFalse notClicked =>
        refine ⟨fun impossible => absurd impossible Bool.false_ne_true, ?_⟩
        rintro ⟨kind, same⟩
        cases kind
        · exact absurd (Option.some.inj same) notShown
        · exact absurd (Option.some.inj same) notClicked

/-- An allocator that has given out nothing is as it was. -/
theorem HandleAllocator.Gives.eq_of_nil {before after : HandleAllocator} {given : List Allocation}
    (gives : before.Gives given after) (nothing : given = []) : after = before := by
  cases gives with
  | nothing => rfl
  | next => cases nothing

namespace Woven

variable {runtimeGlobal : String}

theorem treatmentsInItems_eq_flatMap (items : List Woven) :
    treatmentsInItems items = items.flatMap treatments := by
  induction items with
  | nil => rfl
  | cons item rest ih => rw [treatmentsInItems, ih, List.flatMap_cons]

theorem treatmentsInParts_eq_flatMap (parts : List (Field × Woven)) :
    treatmentsInParts parts = parts.flatMap fun part => part.2.treatments := by
  induction parts with
  | nil => rfl
  | cons part rest ih => rw [treatmentsInParts, ih, List.flatMap_cons]

/-- If an element gets no reference and carries no marker, its attributes are visited like any other
trees. -/
theorem FollowsAttributes.visited {enclosure : Enclosure} {items : List Woven}
    (follows : FollowsAttributes enclosure none none items)
    (unmarked : (sources items).any Tree.isMarker = false) :
    ∀ item ∈ items, ∃ enclosure, item.Follows enclosure .visit := by
  induction items with
  | nil => exact fun _ member => absurd member List.not_mem_nil
  | cons first rest ih =>
    cases first with
    | reference => exact absurd follows.1 (Option.some_ne_none _).symm
    | removed attr =>
      -- Without a reference to come, only markers are taken away.
      have notMarker : attr.isMarker = false := (Bool.or_eq_false_iff.mp unmarked).1
      simp only [FollowsAttributes, notMarker, Bool.false_eq_true, ↓reduceIte, Option.isSome_none,
        false_and, and_false] at follows
    | kept | list | statements | node | function | opening =>
      obtain ⟨-, here, later⟩ := follows
      intro item member
      rcases List.mem_cons.mp member with rfl | member
      · exact ⟨enclosure, here⟩
      · exact ih later (Bool.or_eq_false_iff.mp unmarked).2 item member

/-- The tree is made as a parser makes it, no element in it carries a marker, and no element that was
visited has hooks. -/
structure Unmarked (runtimeGlobal : String) (woven : Woven) : Prop where
  wellFormed : woven.source.isWellFormed = true
  unmarked : woven.source.hasMarkers = false
  unhooked : ∀ treatment ∈ woven.treatments, treatment.group? runtimeGlobal = none

theorem Unmarked.item {items : List Woven} (clean : Unmarked runtimeGlobal (.list items))
    {item : Woven} (member : item ∈ items) (notGenerated : item.isGenerated = false) :
    Unmarked runtimeGlobal item := by
  have among : item.source ∈ sources items := mem_sources.mpr ⟨item, member, notGenerated, rfl⟩
  refine ⟨Tree.hereditary_isWellFormed.item clean.wellFormed among,
    Tree.hereditary_unmarked.item clean.unmarked among, fun treatment visited => ?_⟩
  apply clean.unhooked
  rw [treatments, treatmentsInItems_eq_flatMap]
  exact List.mem_flatMap.mpr ⟨item, member, visited⟩

theorem Unmarked.part {whole : Woven} {kind : Kind} {parts : List (Field × Woven)}
    (clean : Unmarked runtimeGlobal whole) (source : whole.source = .node kind (sourcesInParts parts))
    (within : treatmentsInParts parts ⊆ whole.treatments) {part : Field × Woven}
    (member : part ∈ parts) : Unmarked runtimeGlobal part.2 := by
  obtain ⟨wellFormed, unmarked, unhooked⟩ := clean
  rw [source] at wellFormed unmarked
  have among := mem_sourcesInParts member
  refine ⟨Tree.hereditary_isWellFormed.part wellFormed among,
    Tree.hereditary_unmarked.part unmarked among, fun treatment visited => ?_⟩
  apply unhooked
  apply within
  rw [treatmentsInParts_eq_flatMap]
  exact List.mem_flatMap.mpr ⟨part, member, visited⟩

/-- If the tree is visited as the attributes of an element, none of them is a marker and the element
gets no reference. -/
def Unattached (step : Step) (woven : Woven) : Prop :=
  ∀ attachment?, step = .attributes attachment? →
    attachment? = none ∧ woven.source.items.any Tree.isMarker = false

/-- An element without markers gets no reference. -/
theorem Unmarked.unattached {treatment : Treatment} {parts : List (Field × Woven)}
    (clean : Unmarked runtimeGlobal (.opening treatment parts)) (attributes : List Tree)
    {field : Field} {part : Woven} (member : (field, part) ∈ parts) :
    Unattached (Step.ofOpening (treatment.attachment? attributes) field) part := by
  intro attachment? visited
  have unhooked := clean.unhooked treatment List.mem_cons_self
  obtain ⟨distinct, -⟩ := Tree.isWellFormed_node clean.wellFormed
  by_cases isAttributes : field = .attributes
  · subst isAttributes
    constructor
    · obtain rfl : treatment.attachment? attributes = attachment? := Step.attributes.inj visited
      cases outcome : treatment.outcome with
      | plain => simp [Treatment.attachment?, Treatment.handle?, Treatment.allocation?, outcome]
      | refused => simp [Treatment.attachment?, Treatment.handle?, Treatment.allocation?, outcome]
      | instrumented => simp [Treatment.group?, outcome] at unhooked
    · rw [← Fields.get_of_mem distinct (mem_sourcesInParts member)]
      exact (Bool.or_eq_false_iff.mp clean.unmarked).1
  · rw [Step.ofOpening.eq_2 _ _ isAttributes] at visited
    cases visited

mutual

/-- A tree in which no element carries a marker is left as it is. -/
theorem tree_of_unmarked : ∀ (woven : Woven) {enclosure : Enclosure} {step : Step},
    woven.Follows enclosure step → Unattached step woven → Unmarked runtimeGlobal woven →
      woven.tree runtimeGlobal = woven.source
  | kept _, _, _, _, _, _ => rfl
  | list items, enclosure, step, follows, unattached, clean => by
    have visited : ∀ item ∈ items, ∃ enclosure, item.Follows enclosure .visit := by
      cases step with
      | keep => exact follows.elim
      | statements => exact follows.elim
      | attributes attachment? =>
        obtain ⟨rfl, bare⟩ := unattached attachment? rfl
        exact FollowsAttributes.visited follows bare
      | visit | announce | componentBody =>
        exact fun item member => ⟨enclosure, FollowsItems.member follows member⟩
    exact congrArg Tree.list (trees_of_unmarked items visited fun item member =>
      clean.item member (visited item member).choose_spec.ordinary.2)
  | statements items, enclosure, step, follows, _, clean => by
    have visited : ∀ item ∈ items, ∃ enclosure, item.Follows enclosure .visit := by
      intro item member
      obtain ⟨index, found⟩ := List.getElem?_of_mem member
      exact ⟨_, follows.2.getElem found⟩
    have clean : Unmarked runtimeGlobal (.list items) := ⟨clean.1, clean.2, clean.3⟩
    exact congrArg Tree.list (trees_of_unmarked items visited fun item member =>
      clean.item member (visited item member).choose_spec.ordinary.2)
  | node kind parts, enclosure, step, follows, _, clean => by
    obtain ⟨-, -, -, within⟩ := follows
    exact congrArg (Tree.node kind) (treesInParts_of_unmarked parts fun part member =>
      ⟨⟨_, _, within.member member, fun attachment? same =>
        absurd same (step.within_ne_attributes kind _ _ attachment?)⟩,
        clean.part rfl (List.Subset.refl _) member⟩)
  | function kind outer scan? inner, enclosure, step, follows, _, clean => by
    obtain ⟨-, -, -, outside, -, inside⟩ := follows
    have whole : (function kind outer scan? inner).source =
        .node kind (sourcesInParts (outer ++ inner)) := by
      rw [sourcesInParts_append]
      rfl
    have visited : treatmentsInParts (outer ++ inner) ⊆
        (function kind outer scan? inner).treatments := by
      rw [treatmentsInParts_append]
      exact List.Subset.refl _
    have within (part : Field × Woven) (member : part ∈ outer ++ inner) :
        Unmarked runtimeGlobal part.2 := clean.part whole visited member
    have sameOuter := treesInParts_of_unmarked outer fun part member =>
      ⟨⟨_, _, outside.member member, fun _ same => Step.noConfusion same⟩,
        within part (List.mem_append_left _ member)⟩
    have sameInner := treesInParts_of_unmarked inner fun part member =>
      ⟨⟨_, _, inside.member member, fun attachment? same =>
        absurd same (Step.ofFunction_ne_attributes scan? _ attachment?)⟩,
        within part (List.mem_append_right _ member)⟩
    have noGroups : groups runtimeGlobal scan? (elementsInParts inner) = [] := by
      cases scan? with
      | none => rfl
      | some scan =>
        apply List.filterMap_eq_nil_iff.mpr
        intro treatment among
        exact clean.unhooked treatment (List.mem_append_right _
          ((treatmentsInParts_perm inner).mem_iff.mpr (List.mem_append_left _ among)))
    rw [tree, source, noGroups, Fields.spliceBody_nil, sameOuter, sameInner]
  | opening treatment parts, enclosure, step, follows, _, clean => by
    obtain ⟨-, -, within⟩ := follows
    exact congrArg (Tree.node _) (treesInParts_of_unmarked parts fun part member =>
      ⟨⟨_, _, within.member member, clean.unattached _ member⟩,
        clean.part rfl (List.subset_cons_self _ _) member⟩)
  | removed _, _, _, follows, _, _ | reference .., _, _, follows, _, _ => follows.elim

/-- Trees in which no element carries a marker are left as they are. -/
theorem trees_of_unmarked : ∀ items : List Woven,
    (∀ item ∈ items, ∃ enclosure, item.Follows enclosure .visit) →
    (∀ item ∈ items, Unmarked runtimeGlobal item) → trees runtimeGlobal items = sources items
  | [], _, _ => rfl
  | item :: rest, visited, clean => by
    obtain ⟨enclosure, follows⟩ := visited item List.mem_cons_self
    obtain ⟨notRemoved, notGenerated⟩ := follows.ordinary
    rw [trees, if_neg (Bool.eq_false_iff.mp notRemoved), sources,
      if_neg (Bool.eq_false_iff.mp notGenerated),
      tree_of_unmarked item follows (fun _ same => Step.noConfusion same)
        (clean item List.mem_cons_self),
      trees_of_unmarked rest (fun other member => visited other (List.mem_cons_of_mem _ member))
        fun other member => clean other (List.mem_cons_of_mem _ member)]

/-- Parts in which no element carries a marker are left as they are. -/
theorem treesInParts_of_unmarked : ∀ parts : List (Field × Woven),
    (∀ part ∈ parts, (∃ enclosure step, part.2.Follows enclosure step ∧ Unattached step part.2) ∧
      Unmarked runtimeGlobal part.2) →
    treesInParts runtimeGlobal parts = sourcesInParts parts
  | [], _ => rfl
  | (field, part) :: rest, clean => by
    obtain ⟨⟨enclosure, step, follows, unattached⟩, here⟩ := clean _ List.mem_cons_self
    rw [treesInParts, sourcesInParts, tree_of_unmarked part follows unattached here,
      treesInParts_of_unmarked rest fun other member => clean other (List.mem_cons_of_mem _ member)]

end

end Woven

variable {items : List Tree}

/-- The pass leaves a module without markers as it is. -/
theorem trees_weaveModule_of_unmarked (runtimeGlobal : String) (source? : Option String)
    (wellFormed : Tree.itemsAreWellFormed items = true)
    (unmarked : Tree.hasMarkersInItems items = false) :
    Woven.trees runtimeGlobal (weaveModule source? items) = items := by
  have follows := weaveModule_follows source? items
  have visited : ∀ item ∈ weaveModule source? items, ∃ enclosure, item.Follows enclosure .visit :=
    fun item member => ⟨.outside, follows.member member⟩
  have clean : Woven.Unmarked runtimeGlobal (.list (weaveModule source? items)) := by
    refine ⟨?_, ?_, fun treatment member => ?_⟩
    · rw [weaveModule_source]
      exact wellFormed
    · rw [weaveModule_source]
      exact unmarked
    · simp [Treatment.group?, (markers_of_unmarked member unmarked).2]
  rw [Woven.trees_of_unmarked _ visited fun item member =>
    clean.item member (visited item member).choose_spec.ordinary.2]
  exact Tree.list.inj (weaveModule_source source? items)

/-- The pass finds nothing in a module without markers. -/
theorem findings_of_unmarked (file : String) (source? : Option String)
    (unmarked : Tree.hasMarkersInItems items = false) :
    (Woven.treatmentsInItems (weaveModule source? items)).flatMap (Treatment.findings file) = [] := by
  apply List.flatMap_eq_nil_iff.mpr
  intro treatment member
  obtain ⟨bare, plain⟩ := markers_of_unmarked member unmarked
  simp [Treatment.findings, bare, plain]

theorem handles_of_unmarked (source? : Option String)
    (unmarked : Tree.hasMarkersInItems items = false) :
    (Woven.treatmentsInItems (weaveModule source? items)).filterMap Treatment.handle? = [] := by
  apply List.filterMap_eq_nil_iff.mpr
  intro treatment member
  simp [Treatment.handle?, Treatment.allocation?, (markers_of_unmarked member unmarked).2]

/-- The pass gives out no handle in a module without markers. -/
theorem allocator_of_unmarked (source? : Option String)
    (unmarked : Tree.hasMarkersInItems items = false) :
    ((weaveItems { source? } items).run { allocator := .ofModule items }).2.allocator =
      .ofModule items := by
  have nothing : Woven.allocations (Woven.treatmentsInItems (weaveModule source? items)) = [] := by
    apply List.filterMap_eq_nil_iff.mpr
    intro treatment member
    simp [Treatment.allocation?, (markers_of_unmarked member unmarked).2]
  exact (weaveItems_weaves { source? } items { allocator := .ofModule items }).gives.eq_of_nil nothing

/-- **The early exit does not show.** A module counts as one without markers if no element anywhere
in it carries a marker attribute. If such a module were instrumented all the same, it would be left as
it is: no handle would be given out, nothing found, and the registry not asked. -/
theorem instrumentation_of_unmarked (options : Options) (file : String) (source? : Option String)
    (items : List Tree) (wellFormed : Tree.itemsAreWellFormed items = true) :
    (Tree.hasMarkersInItems items = true ↔
      ∃ item ∈ items, ∃ fields, (Tree.node .jsxOpeningElement fields).Occurs item ∧
        ∃ attr ∈ (Fields.get fields .attributes).items, ∃ kind : MarkerKind,
          attr.attributeName? = some kind.attributeName) ∧
    (Tree.hasMarkersInItems items = false →
      Woven.trees options.runtimeGlobal (weaveModule source? items) = items ∧
      ((weaveItems { source? } items).run { allocator := .ofModule items }).2.allocator =
        .ofModule items ∧
      instrumentModule options file source? items = { items, findings := [], handles := 0 } ∧
      ∀ registry : Registry,
        registry.settle file (instrumentModule options file source? items).findings =
          ({}, registry) ∧
        transformModule options registry file source? items =
          ({ items, points := [], diagnostics := [], instrumented := false, handles := 0 },
            registry)) := by
  constructor
  · rw [Tree.hasMarkersInItems_iff]
    simp only [Tree.isMarker_iff]
  · intro unmarked
    have same := trees_weaveModule_of_unmarked options.runtimeGlobal source? wellFormed unmarked
    have found := findings_of_unmarked file source? unmarked
    have instrumented : instrumentModule options file source? items =
        { items, findings := [], handles := 0 } := by
      simp only [instrumentModule, same, found, handles_of_unmarked source? unmarked,
        List.isEmpty_nil, ↓reduceIte, List.length_nil]
    refine ⟨same, allocator_of_unmarked source? unmarked, instrumented, fun registry => ?_⟩
    rw [instrumented]
    exact ⟨rfl, transformModule_unmarked unmarked options registry file source?⟩

/-- `return <div data-track={"buy"} />;` -/
def untrackedStatements : List Tree :=
  [Code.returnValue (markedElement "div" "data-track" (Code.string "buy"))]

theorem instrumentation_of_unmarked_page :
    let items := [pageOf untrackedStatements]
    Tree.itemsAreWellFormed items = true ∧ Tree.hasMarkersInItems items = false ∧
      instrumentModule {} "page.jsx" none items = { items, findings := [], handles := 0 } := by
  intro items
  have wellFormed : Tree.itemsAreWellFormed items = true := by decide +kernel
  have unmarked : Tree.hasMarkersInItems items = false := by decide +kernel
  exact ⟨wellFormed, unmarked,
    ((instrumentation_of_unmarked {} "page.jsx" none items wellFormed).2 unmarked).2.2.1⟩

end JsxTracking
