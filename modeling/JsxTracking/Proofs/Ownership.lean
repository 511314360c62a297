import JsxTracking.Proofs.Weaving

/-! # Which component owns an element

A woven tree holds other ones. An element belongs to the nearest component around it, and what was
decided about it was decided in an enclosure of that component: within a component, the way down to
an element only adds functions and classes to the enclosure (`Woven.Owned.decided`). Every element
is owned by the tree it stands in or by a component inside that tree
(`Woven.Within.owned_or_component`). -/

namespace JsxTracking

namespace Enclosure

/-- The component whose body takes the hooks of what is enclosed, and the index of the statement
that holds it. -/
def home? : Enclosure → Option (BodyScan × Nat)
  | component scan statement _ => some (scan, statement)
  | outside | classBody => none

/-- Within one enclosure, hooks go into the component that the other one stands for, if anywhere.
In a narrow sense, they also go there for the same statement. -/
def Near (narrow : Bool) (inner outer : Enclosure) : Prop :=
  inner.home? = none ∨ inner.home?.map Prod.fst = outer.home?.map Prod.fst ∧
    (narrow = true → inner.home? = outer.home?)

theorem Near.refl (narrow : Bool) (enclosure : Enclosure) : Near narrow enclosure enclosure :=
  Or.inr ⟨rfl, fun _ => rfl⟩

theorem Near.trans {narrow : Bool} {inner middle outer : Enclosure}
    (first : Near narrow inner middle) (second : Near narrow middle outer) :
    Near narrow inner outer := by
  rcases first with nowhere | ⟨component, statement⟩
  · exact Or.inl nowhere
  · rcases second with nowhere | ⟨component', statement'⟩
    · rw [nowhere] at component
      exact Or.inl (Option.map_eq_none_iff.mp component)
    · exact Or.inr ⟨component.trans component', fun asked =>
        (statement asked).trans (statement' asked)⟩

theorem enterPlain_near (narrow : Bool) (enclosure : Enclosure) :
    Near narrow enclosure.enterPlain enclosure := by
  cases enclosure <;> exact Or.inr ⟨rfl, fun _ => rfl⟩

theorem enterNode_near (narrow : Bool) (enclosure : Enclosure) (kind : Kind) :
    Near narrow (enclosure.enterNode kind) enclosure := by
  unfold enterNode
  split
  · exact Or.inl rfl
  · exact Or.inl rfl
  · exact Near.refl narrow enclosure

theorem atStatement_near (index : Nat) (enclosure : Enclosure) :
    Near false (enclosure.atStatement index) enclosure := by
  cases enclosure <;> exact Or.inr ⟨rfl, fun narrow => absurd narrow Bool.false_ne_true⟩

/-- Hooks are placed by the scan of the component around them. -/
theorem place_position {enclosure : Enclosure} {markers : ElementMarkers} {attributes : List Tree}
    {position : Nat} (placed : enclosure.place markers attributes = .ok position) :
    ∃ scan statement, enclosure.home? = some (scan, statement) ∧
      position = if markers.dynamicExpressions = [] then scan.literalPosition
        else scan.dynamicPosition statement := by
  cases enclosure with
  | outside => cases placed
  | classBody => cases placed
  | component scan statement nested =>
    refine ⟨scan, statement, rfl, ?_⟩
    unfold place at placed
    simp only at placed
    split at placed
    · cases placed
    split at placed
    · cases placed
    split at placed
    case h_1 noExpressions =>
      rw [if_pos noExpressions]
      exact (Except.ok.inj placed).symm
    case h_2 someExpressions =>
      rw [if_neg someExpressions]
      split at placed
      · exact (Except.ok.inj placed).symm
      · cases placed

end Enclosure

namespace Step

/-- Whether a part that is visited by the step is not the body of a component. -/
def isOrdinary : Step → Bool
  | componentBody | statements => false
  | _ => true

/-- Within a part that is not the body of a component, no part is. -/
theorem within_isOrdinary {step : Step} (ordinary : step.isOrdinary = true) (kind : Kind)
    (parts : Fields) (field : Field) : (step.within kind parts field).isOrdinary = true := by
  have notBody : ¬(step = componentBody ∧ kind = .blockStatement) := by
    rintro ⟨rfl, -⟩
    exact Bool.false_ne_true ordinary
  rw [within, if_neg notBody]
  unfold ofNode
  split <;> first | rfl | (split <;> rfl)

end Step

/-- A step from a node to one of its parts, as the module has them. -/
structure Frame where
  kind : Kind
  parts : Fields
  field : Field
  deriving DecidableEq, Repr, Inhabited

namespace Woven

/-- What a woven tree holds directly: by which step from a node, and as part of which component, if
it is one. -/
inductive Holds : Woven → Option Frame → Option BodyScan → Woven → Prop
  | item {items : List Woven} {item : Woven} (member : item ∈ items) :
      Holds (.list items) none none item
  | statement {items : List Woven} {item : Woven} (member : item ∈ items) :
      Holds (.statements items) none none item
  | part {kind : Kind} {parts : List (Field × Woven)} {field : Field} {item : Woven}
      (member : (field, item) ∈ parts) :
      Holds (.node kind parts) (some ⟨kind, sourcesInParts parts, field⟩) none item
  | outer {kind : Kind} {outer : List (Field × Woven)} {scan? : Option BodyScan}
      {inner : List (Field × Woven)} {field : Field} {item : Woven}
      (member : (field, item) ∈ outer) :
      Holds (.function kind outer scan? inner)
        (some ⟨kind, sourcesInParts outer ++ sourcesInParts inner, field⟩) none item
  | inner {kind : Kind} {outer : List (Field × Woven)} {scan? : Option BodyScan}
      {inner : List (Field × Woven)} {field : Field} {item : Woven}
      (member : (field, item) ∈ inner) :
      Holds (.function kind outer scan? inner)
        (some ⟨kind, sourcesInParts outer ++ sourcesInParts inner, field⟩) scan? item
  | opening {treatment : Treatment} {parts : List (Field × Woven)} {field : Field} {item : Woven}
      (member : (field, item) ∈ parts) :
      Holds (.opening treatment parts)
        (some ⟨.jsxOpeningElement, sourcesInParts parts, field⟩) none item
  | replaced {attachment : Attachment} {replaced : List Woven} {scan? : Option BodyScan}
      {item : Woven} (member : item ∈ replaced) :
      Holds (.reference attachment replaced scan?) none scan? item

/-- A woven tree stands somewhere in another one. -/
inductive Within (part : Woven) : Woven → Prop
  | self : Within part part
  | step {whole item : Woven} {frame? : Option Frame} {scan? : Option BodyScan}
      (holds : whole.Holds frame? scan? item) (within : Within part item) : Within part whole

/-- A woven tree stands in another one, with no component between them. The steps from nodes to
their parts are listed from the inner ones to the outer ones. -/
inductive Owned (part : Woven) : List Frame → Woven → Prop
  | self : Owned part [] part
  | step {whole item : Woven} {frame? : Option Frame} {path : List Frame}
      (holds : whole.Holds frame? none item) (owned : Owned part path item) :
      Owned part (path ++ frame?.toList) whole

/-- The nearest component around an element, the part of it in which the element stands, and the way
there. The function that forwards a reference has no parts. -/
inductive Hosts (component : Woven) (treatment : Treatment) : Option Field → List Frame → Prop
  | intro {frame? : Option Frame} {scan : BodyScan} {item : Woven} {parts : List (Field × Woven)}
      {path : List Frame} (held : component.Holds frame? (some scan) item)
      (owned : (opening treatment parts).Owned path item) :
      Hosts component treatment (frame?.map Frame.field) path

/-- What is decided in a woven tree is what the pass decides in an enclosure, also if the tree is an
attribute. -/
inductive Decided (enclosure : Enclosure) : Step → Woven → Prop
  | follows {step : Step} {woven : Woven} (follows : woven.Follows enclosure step) :
      Decided enclosure step woven
  | removed (attr : Tree) : Decided enclosure .visit (.removed attr)
  | reference {attachment : Attachment} {replaced : List Woven} {scan? : Option BodyScan}
      (alone : replaced.length ≤ 1)
      (scanned : ∀ scan ∈ scan?, some scan = forwardingScan attachment (sources replaced).head?)
      (follows : FollowsItems (enclosure.enterForwarding scan?) replaced) :
      Decided enclosure .visit (.reference attachment replaced scan?)

theorem FollowsItems.member {enclosure : Enclosure} {items : List Woven} {item : Woven}
    (follows : FollowsItems enclosure items) (member : item ∈ items) :
    item.Follows enclosure .visit := by
  induction items with
  | nil => exact absurd member List.not_mem_nil
  | cons first rest ih =>
    rcases List.mem_cons.mp member with rfl | later
    · exact follows.1
    · exact ih follows.2 later

/-- Trees that are visited are all there in the source. -/
theorem FollowsItems.length_sources {enclosure : Enclosure} {items : List Woven}
    (follows : FollowsItems enclosure items) : (sources items).length = items.length := by
  induction items with
  | nil => rfl
  | cons first rest ih =>
    rw [sources, if_neg (Bool.eq_false_iff.mp follows.1.ordinary.2), List.length_cons, ih follows.2,
      List.length_cons]

theorem FollowsParts.member {enclosure : Enclosure} {step : Field → Step}
    {parts : List (Field × Woven)} {field : Field} {item : Woven}
    (follows : FollowsParts enclosure step parts) (member : (field, item) ∈ parts) :
    item.Follows enclosure (step field) := by
  induction parts with
  | nil => exact absurd member List.not_mem_nil
  | cons first rest ih =>
    rcases List.mem_cons.mp member with rfl | later
    · exact follows.1
    · exact ih follows.2 later

theorem FollowsStatements.getElem {enclosure : Enclosure} {start index : Nat} {items : List Woven}
    {item : Woven} (follows : FollowsStatements enclosure start items)
    (found : items[index]? = some item) :
    item.Follows (enclosure.atStatement (start + index)) .visit := by
  induction items generalizing start index with
  | nil => exact absurd found (by simp)
  | cons first rest ih =>
    cases index with
    | zero =>
      obtain rfl := Option.some.inj found
      exact follows.1
    | succ index =>
      rw [Nat.add_comm index 1, ← Nat.add_assoc]
      exact ih follows.2 found

theorem FollowsAttributes.member {enclosure : Enclosure} {attachment? : Option Attachment}
    {explicit? : Option Tree} {items : List Woven} {item : Woven}
    (follows : FollowsAttributes enclosure attachment? explicit? items) (member : item ∈ items) :
    Decided enclosure .visit item := by
  induction items generalizing explicit? with
  | nil => exact absurd member List.not_mem_nil
  | cons first rest ih =>
    cases first with
    | reference attachment replaced scan? =>
      obtain ⟨-, rfl, single, scanned, within⟩ := follows
      rcases List.mem_cons.mp member with rfl | later
      · refine .reference ?_ scanned within
        rw [← within.length_sources, single]
        exact Option.length_toList_le
      · exact absurd later List.not_mem_nil
    | removed attr =>
      rcases List.mem_cons.mp member with rfl | later
      · exact .removed attr
      · unfold FollowsAttributes at follows
        split at follows
        · exact ih follows later
        · exact ih follows.2.2.2.2 later
    | kept | list | statements | node | function | opening =>
      rcases List.mem_cons.mp member with rfl | later
      · exact .follows follows.2.1
      · exact ih follows.2.2 later

section Steps

variable {enclosure : Enclosure} {step : Step} {item : Woven} {field : Field}

theorem Decided.items {items : List Woven} (decided : Decided enclosure step (.list items))
    (member : item ∈ items) : Decided enclosure .visit item := by
  cases decided with
  | follows follows =>
    cases step with
    | keep => exact follows.elim
    | statements => exact follows.elim
    | attributes attachment? => exact FollowsAttributes.member follows member
    | visit | announce | componentBody => exact .follows (FollowsItems.member follows member)

theorem Decided.statement {items : List Woven} (decided : Decided enclosure step (.statements items))
    (member : item ∈ items) :
    step = .statements ∧ ∃ index, Decided (enclosure.atStatement index) .visit item := by
  cases decided with
  | follows follows =>
    obtain ⟨same, within⟩ := follows
    obtain ⟨index, found⟩ := List.getElem?_of_mem member
    exact ⟨same, _, .follows (within.getElem found)⟩

theorem Decided.part {kind : Kind} {parts : List (Field × Woven)}
    (decided : Decided enclosure step (.node kind parts)) (member : (field, item) ∈ parts) :
    Decided (enclosure.enterNode kind) (step.within kind (sourcesInParts parts) field) item := by
  cases decided with
  | follows follows => exact .follows (follows.2.2.2.member member)

theorem Decided.outer {kind : Kind} {outer inner : List (Field × Woven)} {scan? : Option BodyScan}
    (decided : Decided enclosure step (.function kind outer scan? inner))
    (member : (field, item) ∈ outer) : Decided enclosure .visit item := by
  cases decided with
  | follows follows => exact .follows (follows.2.2.2.1.member member)

theorem Decided.inner {kind : Kind} {outer inner : List (Field × Woven)} {scan? : Option BodyScan}
    (decided : Decided enclosure step (.function kind outer scan? inner))
    (member : (field, item) ∈ inner) :
    Decided (enclosure.enterFunction scan?) (Step.ofFunction scan? field) item := by
  cases decided with
  | follows follows => exact .follows (follows.2.2.2.2.2.member member)

theorem Decided.tagPart {treatment : Treatment} {parts : List (Field × Woven)}
    (decided : Decided enclosure step (opening treatment parts)) (member : (field, item) ∈ parts) :
    ∃ attachment?, Decided enclosure (Step.ofOpening attachment? field) item := by
  cases decided with
  | follows follows => exact ⟨_, .follows (follows.2.2.member member)⟩

theorem Decided.replaced {attachment : Attachment} {replaced : List Woven} {scan? : Option BodyScan}
    (decided : Decided enclosure step (.reference attachment replaced scan?))
    (member : item ∈ replaced) : Decided (enclosure.enterForwarding scan?) .visit item := by
  cases decided with
  | follows follows => exact follows.elim
  | reference alone scanned within => exact .follows (within.member member)

end Steps

/-- What a decided tree holds is decided. Unless the way leads into a component, hooks go to the same
component; unless it leads into its body, they go there for the same statement. -/
theorem Decided.held {enclosure : Enclosure} {step : Step} {whole item : Woven}
    {frame? : Option Frame} {scan? : Option BodyScan} (decided : Decided enclosure step whole)
    (holds : whole.Holds frame? scan? item) :
    ∃ within next, Decided within next item ∧ (scan? = none → ∀ narrow,
      (narrow = true → step.isOrdinary = true) →
        (narrow = true → next.isOrdinary = true) ∧ within.Near narrow enclosure) := by
  cases holds with
  | item member =>
    exact ⟨enclosure, .visit, decided.items member, fun _ _ _ => ⟨fun _ => rfl, .refl _ _⟩⟩
  | statement member =>
    obtain ⟨rfl, index, within⟩ := decided.statement member
    refine ⟨_, .visit, within, fun _ narrow ordinary => ⟨fun _ => rfl, ?_⟩⟩
    cases narrow with
    | false => exact enclosure.atStatement_near _
    | true => exact absurd (ordinary rfl) Bool.false_ne_true
  | part member =>
    exact ⟨_, _, decided.part member, fun _ narrow ordinary =>
      ⟨fun asked => Step.within_isOrdinary (ordinary asked) .., enclosure.enterNode_near _ _⟩⟩
  | outer member =>
    exact ⟨enclosure, .visit, decided.outer member, fun _ _ _ => ⟨fun _ => rfl, .refl _ _⟩⟩
  | inner member =>
    refine ⟨_, _, decided.inner member, ?_⟩
    rintro rfl narrow -
    exact ⟨fun _ => rfl, enclosure.enterPlain_near _⟩
  | opening member =>
    obtain ⟨_, within⟩ := decided.tagPart member
    refine ⟨enclosure, _, within, fun _ _ _ => ⟨fun _ => ?_, .refl _ _⟩⟩
    unfold Step.ofOpening
    split <;> rfl
  | replaced member =>
    refine ⟨_, .visit, decided.replaced member, ?_⟩
    rintro rfl narrow -
    exact ⟨fun _ => rfl, enclosure.enterPlain_near _⟩

/-- Only attributes are taken away. -/
theorem Decided.part_ordinary {enclosure : Enclosure} {step : Step} {whole item : Woven}
    {frame : Frame} {scan? : Option BodyScan} (decided : Decided enclosure step whole)
    (holds : whole.Holds (some frame) scan? item) :
    item.isRemoved = false ∧ item.isGenerated = false := by
  cases holds with
  | part member =>
    cases decided with
    | follows follows => exact (follows.2.2.2.member member).ordinary
  | outer member =>
    cases decided with
    | follows follows => exact (follows.2.2.2.1.member member).ordinary
  | inner member =>
    cases decided with
    | follows follows => exact (follows.2.2.2.2.2.member member).ordinary
  | opening member =>
    cases decided with
    | follows follows => exact (follows.2.2.member member).ordinary

theorem Owned.within {part whole : Woven} {path : List Frame} (owned : part.Owned path whole) :
    part.Within whole := by
  induction owned with
  | self => exact .self
  | step holds owned ih => exact .step holds ih

/-- What stands in a decided tree is decided. -/
theorem Within.decided {part whole : Woven} (within : part.Within whole)
    {enclosure : Enclosure} {step : Step} (decided : Decided enclosure step whole) :
    ∃ inner next, Decided inner next part := by
  induction within generalizing enclosure step with
  | self => exact ⟨enclosure, step, decided⟩
  | step holds within ih =>
    obtain ⟨inner, next, held, -⟩ := decided.held holds
    exact ih held

/-- What a decided tree owns is decided, and its hooks go where those of the tree go. -/
theorem Owned.decided {part whole : Woven} {path : List Frame} (owned : part.Owned path whole)
    {enclosure : Enclosure} {step : Step} (decided : Decided enclosure step whole) {narrow : Bool}
    (ordinary : narrow = true → step.isOrdinary = true) :
    ∃ inner next, Decided inner next part ∧ inner.Near narrow enclosure := by
  induction owned generalizing enclosure step with
  | self => exact ⟨enclosure, step, decided, .refl _ _⟩
  | step holds owned ih =>
    obtain ⟨inner, next, held, near⟩ := decided.held holds
    obtain ⟨stays, close⟩ := near rfl narrow ordinary
    obtain ⟨innermost, last, reached, closer⟩ := ih held stays
    exact ⟨innermost, last, reached, closer.trans close⟩

/-- What stands in a tree is owned by it or by a component in it. -/
theorem Within.owned_or_component {part whole : Woven} (within : part.Within whole) :
    (∃ path, part.Owned path whole) ∨
      ∃ (component : Woven) (frame? : Option Frame) (scan : BodyScan) (item : Woven)
        (path : List Frame), component.Within whole ∧ component.Holds frame? (some scan) item ∧
          part.Owned path item := by
  induction within with
  | self => exact Or.inl ⟨[], .self⟩
  | @step whole item frame? scan? holds within ih =>
    rcases ih with ⟨path, owned⟩ | ⟨component, inner?, scan, held, path, inside, entered, owned⟩
    · cases scan? with
      | none => exact Or.inl ⟨_, .step holds owned⟩
      | some scan => exact Or.inr ⟨whole, frame?, scan, item, path, .self, holds, owned⟩
    · exact Or.inr ⟨component, inner?, scan, held, path, .step holds inside, entered, owned⟩

mutual

/-- The elements of a tree are the opening tags in it. -/
theorem exists_within_of_mem_treatments {treatment : Treatment} :
    ∀ woven : Woven, treatment ∈ woven.treatments →
      ∃ parts, (opening treatment parts).Within woven
  | kept _, member | removed _, member => absurd member List.not_mem_nil
  | list items, member => by
    obtain ⟨item, found, parts, within⟩ := exists_within_of_mem_treatmentsInItems items member
    exact ⟨parts, .step (.item found) within⟩
  | statements items, member => by
    obtain ⟨item, found, parts, within⟩ := exists_within_of_mem_treatmentsInItems items member
    exact ⟨parts, .step (.statement found) within⟩
  | node kind parts, member => by
    obtain ⟨field, item, found, parts, within⟩ :=
      exists_within_of_mem_treatmentsInParts parts member
    exact ⟨parts, .step (.part found) within⟩
  | function kind outer scan? inner, member => by
    rcases List.mem_append.mp member with outside | inside
    · obtain ⟨field, item, found, parts, within⟩ :=
        exists_within_of_mem_treatmentsInParts outer outside
      exact ⟨parts, .step (.outer found) within⟩
    · obtain ⟨field, item, found, parts, within⟩ :=
        exists_within_of_mem_treatmentsInParts inner inside
      exact ⟨parts, .step (.inner found) within⟩
  | opening other parts, member => by
    rcases List.mem_cons.mp member with rfl | inside
    · exact ⟨parts, .self⟩
    · obtain ⟨field, item, found, parts, within⟩ :=
        exists_within_of_mem_treatmentsInParts parts inside
      exact ⟨parts, .step (.opening found) within⟩
  | reference attachment replaced scan?, member => by
    obtain ⟨item, found, parts, within⟩ := exists_within_of_mem_treatmentsInItems replaced member
    exact ⟨parts, .step (.replaced found) within⟩

/-- The elements in a list of trees are the opening tags in them. -/
theorem exists_within_of_mem_treatmentsInItems {treatment : Treatment} :
    ∀ items : List Woven, treatment ∈ treatmentsInItems items →
      ∃ item ∈ items, ∃ parts, (opening treatment parts).Within item
  | [], member => absurd member List.not_mem_nil
  | item :: rest, member => by
    rcases List.mem_append.mp member with first | later
    · obtain ⟨parts, within⟩ := exists_within_of_mem_treatments item first
      exact ⟨item, List.mem_cons_self, parts, within⟩
    · obtain ⟨other, found, parts, within⟩ := exists_within_of_mem_treatmentsInItems rest later
      exact ⟨other, List.mem_cons_of_mem _ found, parts, within⟩

/-- The elements in the parts of a node are the opening tags in them. -/
theorem exists_within_of_mem_treatmentsInParts {treatment : Treatment} :
    ∀ parts : List (Field × Woven), treatment ∈ treatmentsInParts parts →
      ∃ field item, (field, item) ∈ parts ∧ ∃ inside, (opening treatment inside).Within item
  | [], member => absurd member List.not_mem_nil
  | (field, item) :: rest, member => by
    rcases List.mem_append.mp member with first | later
    · obtain ⟨inside, within⟩ := exists_within_of_mem_treatments item first
      exact ⟨field, item, List.mem_cons_self, inside, within⟩
    · obtain ⟨other, held, found, inside, within⟩ :=
        exists_within_of_mem_treatmentsInParts rest later
      exact ⟨other, held, List.mem_cons_of_mem _ found, inside, within⟩

end

mutual

/-- The elements that a tree owns are the opening tags that it owns. -/
theorem exists_owned_of_mem_elements {treatment : Treatment} :
    ∀ woven : Woven, treatment ∈ woven.elements →
      ∃ parts path, (opening treatment parts).Owned path woven
  | kept _, member | removed _, member => absurd member List.not_mem_nil
  | list items, member => by
    obtain ⟨item, found, parts, path, owned⟩ := exists_owned_of_mem_elementsInItems items member
    exact ⟨parts, _, .step (.item found) owned⟩
  | statements items, member => by
    obtain ⟨item, found, parts, path, owned⟩ := exists_owned_of_mem_elementsInItems items member
    exact ⟨parts, _, .step (.statement found) owned⟩
  | node kind parts, member => by
    obtain ⟨field, item, found, inside, path, owned⟩ :=
      exists_owned_of_mem_elementsInParts parts member
    exact ⟨inside, _, .step (.part found) owned⟩
  | function kind outer none inner, member => by
    rcases List.mem_append.mp member with outside | inside
    · obtain ⟨field, item, found, parts, path, owned⟩ :=
        exists_owned_of_mem_elementsInParts outer outside
      exact ⟨parts, _, .step (.outer found) owned⟩
    · obtain ⟨field, item, found, parts, path, owned⟩ :=
        exists_owned_of_mem_elementsInParts inner inside
      exact ⟨parts, _, .step (.inner found) owned⟩
  | function kind outer (some scan) inner, member => by
    obtain ⟨field, item, found, parts, path, owned⟩ :=
      exists_owned_of_mem_elementsInParts outer member
    exact ⟨parts, _, .step (.outer found) owned⟩
  | opening other parts, member => by
    rcases List.mem_cons.mp member with rfl | inside
    · exact ⟨parts, [], .self⟩
    · obtain ⟨field, item, found, inside, path, owned⟩ :=
        exists_owned_of_mem_elementsInParts parts inside
      exact ⟨inside, _, .step (.opening found) owned⟩
  | reference attachment replaced none, member => by
    obtain ⟨item, found, parts, path, owned⟩ := exists_owned_of_mem_elementsInItems replaced member
    exact ⟨parts, _, .step (.replaced found) owned⟩
  | reference _ _ (some _), member => absurd member List.not_mem_nil

/-- The elements that a list of trees owns are the opening tags that they own. -/
theorem exists_owned_of_mem_elementsInItems {treatment : Treatment} :
    ∀ items : List Woven, treatment ∈ elementsInItems items →
      ∃ item ∈ items, ∃ parts path, (opening treatment parts).Owned path item
  | [], member => absurd member List.not_mem_nil
  | item :: rest, member => by
    rcases List.mem_append.mp member with first | later
    · obtain ⟨parts, path, owned⟩ := exists_owned_of_mem_elements item first
      exact ⟨item, List.mem_cons_self, parts, path, owned⟩
    · obtain ⟨other, found, parts, path, owned⟩ := exists_owned_of_mem_elementsInItems rest later
      exact ⟨other, List.mem_cons_of_mem _ found, parts, path, owned⟩

/-- The elements that the parts of a node own are the opening tags that they own. -/
theorem exists_owned_of_mem_elementsInParts {treatment : Treatment} :
    ∀ parts : List (Field × Woven), treatment ∈ elementsInParts parts →
      ∃ field item, (field, item) ∈ parts ∧
        ∃ inside path, (opening treatment inside).Owned path item
  | [], member => absurd member List.not_mem_nil
  | (field, item) :: rest, member => by
    rcases List.mem_append.mp member with first | later
    · obtain ⟨inside, path, owned⟩ := exists_owned_of_mem_elements item first
      exact ⟨field, item, List.mem_cons_self, inside, path, owned⟩
    · obtain ⟨other, held, found, inside, path, owned⟩ :=
        exists_owned_of_mem_elementsInParts rest later
      exact ⟨other, held, List.mem_cons_of_mem _ found, inside, path, owned⟩

end

/-- An instrumented element that a tree owns has its hooks placed by the scan of the component around
the tree. -/
theorem Owned.position {treatment : Treatment} {parts : List (Field × Woven)} {path : List Frame}
    {woven : Woven} (owned : (opening treatment parts).Owned path woven) {enclosure : Enclosure}
    {step : Step} (follows : woven.Follows enclosure step) {narrow : Bool}
    (ordinary : narrow = true → step.isOrdinary = true) {allocation : Allocation} {position : Nat}
    {shared : Bool} (outcome : treatment.outcome = .instrumented allocation position shared) :
    ∃ scan statement, enclosure.home?.map Prod.fst = some scan ∧
      (narrow = true → enclosure.home? = some (scan, statement)) ∧
      position = if treatment.markers.dynamicExpressions = [] then scan.literalPosition
        else scan.dynamicPosition statement := by
  obtain ⟨inner, next, decided, near⟩ := owned.decided (.follows follows) ordinary
  cases decided with
  | follows treated =>
    obtain ⟨-, suits, -⟩ := treated
    have decision := suits.outcome
    rw [outcome] at decision
    obtain ⟨-, placed, -⟩ := decision
    obtain ⟨scan, statement, home, placement⟩ := Enclosure.place_position placed
    rcases near with nowhere | ⟨component, same⟩
    · exact absurd (nowhere.symm.trans home) (Option.some_ne_none _).symm
    · refine ⟨scan, statement, ?_, fun asked => (same asked) ▸ home, placement⟩
      rw [← component, home]
      rfl

end Woven

/-- Every instrumented element stands in a component. -/
theorem exists_component {source? : Option String} {items : List Tree} {treatment : Treatment}
    (visited : treatment ∈ Woven.treatmentsInItems (weaveModule source? items))
    {handle : ElementHandle} (given : treatment.handle? = some handle) :
    ∃ (component : Woven) (field? : Option Field) (path : List Frame),
      component.Within (.list (weaveModule source? items)) ∧
        component.Hosts treatment field? path := by
  obtain ⟨parts, within⟩ := Woven.exists_within_of_mem_treatments
    (.list (weaveModule source? items)) visited
  rcases within.owned_or_component with ⟨path, owned⟩ |
    ⟨component, frame?, scan, item, path, inside, held, owned⟩
  · -- Outside of all components nothing is instrumented.
    cases outcome : treatment.outcome with
    | plain | refused reason =>
      simp [Treatment.handle?, Treatment.allocation?, outcome] at given
    | instrumented allocation position shared =>
      obtain ⟨scan, _, home, -⟩ := owned.position (weaveModule_follows source? items)
        (fun (narrow : false = true) => absurd narrow Bool.false_ne_true) outcome
      cases home
  · exact ⟨component, _, path, inside, .intro held owned⟩

end JsxTracking
