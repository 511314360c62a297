import JsxTracking.Proofs.NameCounts

/-! # What instrumentation takes from a module

A property that passes from a tree to all trees in it is shared by everything that instrumentation
carries from one place of the module to another: the values of markers, which go into hooks, the
expressions that elements spread, and the references that they replace (`Decided.held_carries`,
`Within.carries`). -/

namespace JsxTracking

/-- A property of trees passes from a tree to all trees in it. -/
structure Tree.Hereditary (holds : Tree → Prop) : Prop where
  null : holds .null
  item : ∀ {items : List Tree} {item : Tree}, holds (.list items) → item ∈ items → holds item
  part : ∀ {kind : Kind} {fields : Fields} {field : Field} {part : Tree},
    holds (.node kind fields) → (field, part) ∈ fields → holds part

namespace Tree.Hereditary

variable {holds : Tree → Prop} (hereditary : Hereditary holds)
include hereditary

theorem fields_get {fields : Fields} (parts : ∀ part ∈ fields, holds part.2) (field : Field) :
    holds (Fields.get fields field) := by
  unfold Fields.get
  cases found : fields.lookup field with
  | none => exact hereditary.null
  | some part =>
    obtain ⟨before, after, rfl, -⟩ := List.lookup_eq_some_iff.mp found
    exact parts (field, part) (List.mem_append_right _ List.mem_cons_self)

theorem get {tree : Tree} (whole : holds tree) (field : Field) : holds (tree.get field) := by
  cases tree with
  | node kind fields =>
    exact hereditary.fields_get (fun _ member => hereditary.part whole member) field
  | null | bool | num | str | list => exact hereditary.null

/-- What holds of a tree holds of every tree that stands in it. -/
theorem occurs {part whole : Tree} (occurs : part.Occurs whole) (holding : holds whole) :
    holds part := by
  induction occurs with
  | self => exact holding
  | item member _ ih => exact ih (hereditary.item holding member)
  | part member _ ih => exact ih (hereditary.part holding member)

mutual

theorem unparenthesized : ∀ tree : Tree, holds tree → holds tree.unparenthesized
  | node kind fields, whole => by
    unfold Tree.unparenthesized
    split
    case h_1 same =>
      injection same with _ sameFields
      subst sameFields
      exact parenthesizedIn fields fun part member => hereditary.part whole member
    case h_2 => exact whole
  | .list _, whole | .null, whole | .bool _, whole | .num _, whole | .str _, whole => whole

theorem parenthesizedIn : ∀ fields : List (Field × Tree), (∀ part ∈ fields, holds part.2) →
    holds (Tree.parenthesizedIn fields)
  | [], _ => hereditary.null
  | (field, part) :: rest, parts => by
    unfold Tree.parenthesizedIn
    split
    case h_1 => exact hereditary.null
    case h_2 same =>
      injection same with samePart
      injection samePart with _ samePart
      subst samePart
      exact unparenthesized part (parts (field, part) List.mem_cons_self)
    case h_3 same =>
      injection same with _ sameRest
      subst sameRest
      exact parenthesizedIn rest fun part member => parts part (List.mem_cons_of_mem _ member)

end

/-- What a marker evaluates comes from its attribute. -/
theorem dynamic {value expression : Tree} (whole : holds value)
    (found : MarkerValue.ofAttributeValue? value = some (.dynamic expression)) :
    holds expression := by
  have ofExpression {tree : Tree} (inside : holds tree)
      (same : MarkerValue.ofExpression tree = .dynamic expression) : holds expression := by
    have inner := hereditary.unparenthesized tree inside
    unfold MarkerValue.ofExpression at same
    split at same
    case h_1 => cases same
    case h_2 fields form =>
      split at same
      · cases same
      · rw [← MarkerValue.dynamic.inj same, ← form]
        exact inner
    case h_3 => exact MarkerValue.dynamic.inj same ▸ inner
  unfold MarkerValue.ofAttributeValue? at found
  split at found
  case h_1 => cases found
  case h_2 => cases Option.some.inj found
  case h_3 fields =>
    split at found
    case h_1 => cases found
    case h_2 =>
      exact ofExpression (hereditary.get whole .expression) (Option.some.inj found)
  case h_4 => exact MarkerValue.dynamic.inj (Option.some.inj found) ▸ whole

/-- What the markers of an element evaluate comes from its attributes. -/
theorem dynamicExpressions {attributes : List Tree} (whole : ∀ attr ∈ attributes, holds attr) :
    ∀ expression ∈ (ElementMarkers.scan attributes).dynamicExpressions, holds expression := by
  have scanned (markers : ElementMarkers)
      (earlier : ∀ kind expression, markers.value? kind = some (.dynamic expression) →
        holds expression) : ∀ kind expression,
      (attributes.foldl ElementMarkers.add markers).value? kind = some (.dynamic expression) →
      holds expression := by
    induction attributes generalizing markers with
    | nil => exact earlier
    | cons attr rest ih =>
      refine ih (fun attr member => whole attr (List.mem_cons_of_mem _ member)) _ ?_
      intro kind expression found
      unfold ElementMarkers.add at found
      split at found
      · exact earlier kind expression found
      case h_2 own same =>
        split at found
        case h_1 value valued =>
          cases own <;> cases kind <;>
            first
            | exact earlier .visible expression found
            | exact earlier .click expression found
            | exact hereditary.dynamic (hereditary.get (whole attr List.mem_cons_self) .value)
                (valued.trans found)
        case h_2 =>
          cases own <;> cases kind <;>
            first
            | exact earlier .visible expression found
            | exact earlier .click expression found
            | cases found
  intro expression member
  obtain ⟨⟨kind, value⟩, valued, dynamic⟩ := List.mem_filterMap.mp member
  cases value with
  | literal name => cases dynamic
  | dynamic tree =>
    obtain rfl := Option.some.inj dynamic
    refine scanned {} (fun kind _ found => by cases kind <;> cases found) kind _ ?_
    unfold ElementMarkers.scan at valued
    generalize attributes.foldl ElementMarkers.add {} = markers at valued
    rcases List.mem_append.mp valued with visible | click
    · obtain ⟨held, found, same⟩ := Option.map_eq_some_iff.mp (Option.mem_toList.mp visible)
      obtain ⟨rfl, rfl⟩ := Prod.mk.inj same
      exact found
    · obtain ⟨held, found, same⟩ := Option.map_eq_some_iff.mp (Option.mem_toList.mp click)
      obtain ⟨rfl, rfl⟩ := Prod.mk.inj same
      exact found

/-- The attributes of an element come from its opening tag. -/
theorem attributes {kind : Kind} {fields : Fields} (whole : holds (.node kind fields)) :
    ∀ attr ∈ (Fields.get fields .attributes).items, holds attr := by
  intro attr among
  have list := hereditary.get whole .attributes
  change holds (Fields.get fields .attributes) at list
  cases form : Fields.get fields .attributes with
  | list items =>
    rw [form] at list among
    exact hereditary.item list among
  | null | bool | num | str | node =>
    rw [form] at among
    exact absurd among List.not_mem_nil

/-- What an element spreads comes from its attributes. -/
theorem trailingSpreads {attributes : List Tree} (whole : ∀ attr ∈ attributes, holds attr) :
    ∀ spread ∈ ElementRef.trailingSpreads attributes, holds spread := by
  intro spread member
  obtain ⟨attr, among, found⟩ := List.mem_filterMap.mp member
  have carried : attr ∈ attributes := by
    rw [List.mem_reverse] at among
    exact List.mem_reverse.mp ((List.takeWhile_sublist _).subset among)
  unfold Tree.spreadExpression? at found
  split at found
  case h_1 fields =>
    rw [← Option.some.inj found]
    exact hereditary.get (whole _ carried) .arguments
  case h_2 => cases found

/-- The expression of a reference comes from its attribute. -/
theorem refExpression {attr expression : Tree} (whole : holds attr)
    (found : attr.refExpression? = some expression) : holds expression := by
  rw [attr.refExpression?_eq found]
  exact hereditary.get (hereditary.get whole .value) .expression

/-- The property also passes on together with the lack of nodes that pass a test. -/
theorem without (test : Kind → Fields → Bool) :
    Hereditary fun tree => holds tree ∧ tree.countNodes test = 0 where
  null := ⟨hereditary.null, rfl⟩
  item := fun {items item} whole member => by
    refine ⟨hereditary.item whole.1 member, ?_⟩
    have bound := countNodes_le_items test member
    exact Nat.le_zero.mp (whole.2 ▸ bound)
  part := fun {kind fields field part} whole member => by
    refine ⟨hereditary.part whole.1 member, ?_⟩
    have bound := countNodes_le_fields test member
    have none := whole.2
    rw [countNodes] at none
    omega

end Tree.Hereditary

theorem Tree.hereditary_isWellFormed : Hereditary fun tree => tree.isWellFormed = true where
  null := rfl
  item := fun whole member => itemsAreWellFormed_iff.mp whole _ member
  part := fun whole member => (isWellFormed_node whole).2.2.1 _ member

namespace Woven

/-- A property holds of what an attachment forwards to, and its handle is an allowed one. -/
def CarriesAttachment (holds : Tree → Prop) (allowed : ElementHandle → Prop)
    (attachment : Attachment) : Prop :=
  allowed attachment.handle ∧ ∀ spread ∈ attachment.spreads, holds spread

/-- A property holds of everything that a tree takes from the module when it is visited by a step,
and the references that it gets are those of allowed handles. -/
def Carries (holds : Tree → Prop) (allowed : ElementHandle → Prop) : Step → Woven → Prop
  | .attributes (some attachment), list items =>
    CarriesAttachment holds allowed attachment ∧ ∀ item ∈ sources items, holds item
  | _, reference attachment replaced _ =>
    CarriesAttachment holds allowed attachment ∧ ∀ item ∈ sources replaced, holds item
  | _, woven => holds woven.source

variable {holds : Tree → Prop} {allowed : ElementHandle → Prop}

theorem carries_of_source {step : Step} {woven : Woven}
    (ordinary : woven.isGenerated = false)
    (notAttributes : ∀ attachment, step ≠ .attributes (some attachment))
    (whole : holds woven.source) : Carries holds allowed step woven := by
  unfold Carries
  split
  case h_1 attachment items => exact absurd rfl (notAttributes attachment)
  case h_2 => cases ordinary
  case h_3 => exact whole

theorem Carries.mono {step : Step} {woven : Woven} (carries : Carries holds allowed step woven) :
    Carries holds (fun _ => True) step woven := by
  unfold Carries at carries ⊢
  split at carries
  · exact ⟨⟨trivial, carries.1.2⟩, carries.2⟩
  · exact ⟨⟨trivial, carries.1.2⟩, carries.2⟩
  · exact carries

/-- What is taken from a node is the node. -/
theorem Carries.node {step : Step} {woven : Woven} {kind : Kind} {fields : Fields}
    (carries : Carries holds allowed step woven) (ordinary : woven.isGenerated = false)
    (same : woven.source = .node kind fields) : holds (.node kind fields) := by
  rw [← same]
  unfold Carries at carries
  split at carries
  case h_1 => cases same
  case h_2 => cases ordinary
  case h_3 => exact carries

theorem mem_sourcesInParts {parts : List (Field × Woven)} {field : Field} {item : Woven}
    (member : (field, item) ∈ parts) : (field, item.source) ∈ sourcesInParts parts := by
  rw [sourcesInParts_eq_map]
  exact List.mem_map.mpr ⟨_, member, rfl⟩

variable (hereditary : Tree.Hereditary holds)
include hereditary

/-- What the attributes of an element take from the module. -/
theorem FollowsAttributes.carries {enclosure : Enclosure} {attachment? : Option Attachment}
    {explicit? : Option Tree} {items : List Woven}
    (follows : FollowsAttributes enclosure attachment? explicit? items)
    (attached : ∀ attachment ∈ attachment?, CarriesAttachment holds allowed attachment)
    (whole : ∀ item ∈ sources items, holds item) (replaced : ∀ attr ∈ explicit?, holds attr) :
    ∀ item ∈ items, Carries holds allowed .visit item := by
  induction items generalizing explicit? with
  | nil => exact fun item member => absurd member List.not_mem_nil
  | cons first rest ih =>
    intro item member
    cases first with
    | reference attachment within scan? =>
      obtain ⟨same, rfl, single, -, -⟩ := follows
      obtain rfl := List.mem_singleton.mp member
      refine ⟨attached attachment same, fun tree among => ?_⟩
      rw [single, Option.mem_toList] at among
      obtain ⟨attr, explicit, found⟩ := Option.bind_eq_some_iff.mp among
      exact hereditary.refExpression (replaced attr explicit) found
    | removed attr =>
      have kept := whole attr List.mem_cons_self
      have later : ∀ item ∈ sources rest, holds item :=
        fun item among => whole item (List.mem_cons_of_mem _ among)
      rcases List.mem_cons.mp member with rfl | among
      · exact carries_of_source rfl (fun _ => Step.noConfusion) kept
      · unfold FollowsAttributes at follows
        split at follows
        · exact ih follows later replaced item among
        · refine ih follows.2.2.2.2 later (fun other same => ?_) item among
          obtain rfl := Option.some.inj same
          exact kept
    | kept | list | statements | node | function | opening =>
      rcases List.mem_cons.mp member with rfl | among
      · exact carries_of_source rfl (fun _ => Step.noConfusion) (whole _ List.mem_cons_self)
      · exact ih follows.2.2 (fun item among => whole item (List.mem_cons_of_mem _ among))
          replaced item among

/-- The trees that a decided tree holds are decided, and take no more from the module than it. -/
theorem Decided.held_carries {enclosure : Enclosure} {step : Step} {whole item : Woven}
    {frame? : Option Frame} {scan? : Option BodyScan} (decided : Decided enclosure step whole)
    (carries : Carries holds allowed step whole)
    (attached : ∀ treatment parts, whole = opening treatment parts →
      ∀ handle ∈ treatment.handle?, allowed handle)
    (held : whole.Holds frame? scan? item) :
    ∃ within next, Decided within next item ∧ Carries holds allowed next item := by
  cases held with
  | @item items _ member =>
    cases decided with
    | follows follows =>
      have visited {enclosure : Enclosure} (follows : FollowsItems enclosure items)
          (sourced : holds (.list (sources items))) : ∃ within next, Decided within next item ∧
            Carries holds allowed next item := by
        have ordinary := (follows.member member).ordinary.2
        refine ⟨_, _, .follows (follows.member member),
          carries_of_source ordinary (fun _ => Step.noConfusion) ?_⟩
        exact hereditary.item sourced (mem_sources.mpr ⟨item, member, ordinary, rfl⟩)
      cases step with
      | keep | statements => exact follows.elim
      | visit | announce | componentBody => exact visited follows carries
      | «attributes» attachment? =>
        refine ⟨_, _, FollowsAttributes.member follows member, ?_⟩
        cases attachment? with
        | none =>
          exact FollowsAttributes.carries hereditary follows
            (fun _ impossible => absurd impossible (Option.not_mem_none _))
            (fun item among => hereditary.item carries among)
            (fun _ impossible => absurd impossible (Option.not_mem_none _)) item member
        | some attachment =>
          refine FollowsAttributes.carries hereditary follows (fun other same => ?_) carries.2
            (fun _ impossible => absurd impossible (Option.not_mem_none _)) item member
          exact Option.some.inj same ▸ carries.1
  | statement member =>
    cases decided with
    | follows follows =>
      obtain ⟨rfl, within⟩ := follows
      obtain ⟨index, found⟩ := List.getElem?_of_mem member
      have ordinary := (within.getElem found).ordinary.2
      refine ⟨_, _, .follows (within.getElem found),
        carries_of_source ordinary (fun _ => Step.noConfusion) ?_⟩
      exact hereditary.item carries (mem_sources.mpr ⟨item, member, ordinary, rfl⟩)
  | @part kind parts field _ member =>
    cases decided with
    | follows follows =>
      obtain ⟨-, -, -, within⟩ := follows
      refine ⟨_, _, .follows (within.member member),
        carries_of_source (within.member member).ordinary.2
          (fun attachment => step.within_ne_attributes kind _ field (some attachment)) ?_⟩
      exact hereditary.part (carries.node rfl rfl) (mem_sourcesInParts member)
  | @outer kind outer scan? inner field _ member =>
    cases decided with
    | follows follows =>
      obtain ⟨-, -, -, within, -, -⟩ := follows
      refine ⟨_, _, .follows (within.member member),
        carries_of_source (within.member member).ordinary.2 (fun _ => Step.noConfusion) ?_⟩
      exact hereditary.part (carries.node rfl rfl) (List.mem_append_left _ (mem_sourcesInParts member))
  | @inner kind outer scan? inner field _ member =>
    cases decided with
    | follows follows =>
      obtain ⟨-, -, -, -, -, within⟩ := follows
      refine ⟨_, _, .follows (within.member member),
        carries_of_source (within.member member).ordinary.2
          (fun attachment => Step.ofFunction_ne_attributes _ field (some attachment)) ?_⟩
      exact hereditary.part (carries.node rfl rfl) (List.mem_append_right _ (mem_sourcesInParts member))
  | @opening treatment parts field _ member =>
    cases decided with
    | follows follows =>
      obtain ⟨-, -, within⟩ := follows
      have held := within.member member
      have whole := hereditary.part (carries.node rfl rfl) (mem_sourcesInParts member)
      refine ⟨_, _, .follows held, ?_⟩
      unfold Carries
      split
      case h_1 attachment items isAttributes =>
        have inAttributes := hereditary.attributes (carries.node rfl rfl)
        have same : treatment.attachment?
            (Fields.get (sourcesInParts parts) .attributes).items = some attachment := by
          unfold Step.ofOpening at isAttributes
          split at isAttributes
          · exact Step.attributes.inj isAttributes
          · cases isAttributes
        obtain ⟨handle, given, rfl⟩ := Option.map_eq_some_iff.mp same
        exact ⟨⟨attached treatment parts rfl handle given,
            hereditary.trailingSpreads inAttributes⟩,
          fun item among => hereditary.item whole among⟩
      case h_2 => exact held.elim
      case h_3 => exact whole
  | @replaced attachment replaced scan? _ member =>
    cases decided with
    | follows follows => exact follows.elim
    | reference alone scanned within =>
      have ordinary := (within.member member).ordinary.2
      refine ⟨_, _, .follows (within.member member),
        carries_of_source ordinary (fun _ => Step.noConfusion) ?_⟩
      exact carries.2 _ (mem_sources.mpr ⟨item, member, ordinary, rfl⟩)

/-- What stands in a decided tree takes no more from the module than the tree. -/
theorem Within.carries {part whole : Woven} (within : part.Within whole) {enclosure : Enclosure}
    {step : Step} (decided : Decided enclosure step whole)
    (carries : Carries holds (fun _ => True) step whole) :
    ∃ inner next, Decided inner next part ∧ Carries holds (fun _ => True) next part := by
  induction within generalizing enclosure step with
  | self => exact ⟨enclosure, step, decided, carries⟩
  | step held within ih =>
    obtain ⟨inner, next, decidedItem, carriesItem⟩ :=
      decided.held_carries hereditary carries (fun _ _ _ _ _ => trivial) held
    exact ih decidedItem carriesItem

/-- What the markers of an element evaluate is taken from the module. -/
theorem Decided.dynamicExpressions {enclosure : Enclosure} {step : Step} {whole : Woven}
    (decided : Decided enclosure step whole) (carries : Carries holds (fun _ => True) step whole) :
    ∀ treatment ∈ whole.treatments, ∀ expression ∈ treatment.markers.dynamicExpressions,
      holds expression := by
  intro treatment member
  obtain ⟨parts, within⟩ := exists_within_of_mem_treatments whole member
  obtain ⟨inner, next, decidedTag, carriesTag⟩ := within.carries hereditary decided carries
  cases decidedTag with
  | follows follows =>
    obtain ⟨-, suits, -⟩ := follows
    rw [suits.markers]
    exact hereditary.dynamicExpressions (hereditary.attributes (carriesTag.node rfl rfl))

end Woven

/-- What stands in a woven module is decided, and takes no more from the module than is in it. -/
theorem Woven.Within.carries_module {source? : Option String} {items : List Tree} {part : Woven}
    (within : part.Within (.list (weaveModule source? items))) {holds : Tree → Prop}
    (hereditary : Tree.Hereditary holds) (whole : holds (.list items)) :
    ∃ enclosure step, Decided enclosure step part ∧ Carries holds (fun _ => True) step part := by
  refine within.carries hereditary (.follows (weaveModule_follows source? items)) ?_
  change holds (Woven.list (weaveModule source? items)).source
  rw [weaveModule_source]
  exact whole

/-- A visited element is treated as some enclosure asks for, and its opening tag is taken from the
module. -/
theorem exists_suits {source? : Option String} {items : List Tree} {treatment : Treatment}
    (visited : treatment ∈ Woven.treatmentsInItems (weaveModule source? items))
    {holds : Tree → Prop} (hereditary : Tree.Hereditary holds) (whole : holds (.list items)) :
    ∃ enclosure parts, treatment.Suits enclosure parts ∧ holds (.node .jsxOpeningElement parts) := by
  obtain ⟨parts, within⟩ := Woven.exists_within_of_mem_treatments
    (.list (weaveModule source? items)) visited
  obtain ⟨inner, next, decided, carries⟩ := within.carries_module hereditary whole
  cases decided with
  | follows follows => exact ⟨inner, _, follows.2.1, carries.node rfl rfl⟩

/-- What holds of a module and all its parts holds of the values of its markers. -/
theorem values_of_visited {source? : Option String} {items : List Tree} {treatment : Treatment}
    (visited : treatment ∈ Woven.treatmentsInItems (weaveModule source? items))
    {holds : Tree → Prop} (hereditary : Tree.Hereditary holds) (whole : holds (.list items)) :
    ∀ value ∈ treatment.markers.dynamicExpressions, holds value := by
  obtain ⟨enclosure, parts, suits, held⟩ := exists_suits visited hereditary whole
  rw [suits.markers]
  exact hereditary.dynamicExpressions (hereditary.attributes held)

end JsxTracking
