import Mathlib.Data.List.Pairwise
import JsxTracking.Proofs.FreshHandles
import JsxTracking.Proofs.HookPlacement
import JsxTracking.Proofs.MarkerRemoval
import JsxTracking.Proofs.Ownership
import JsxTracking.Proofs.Settlement

/-! # Handles that are noted to be shared

An element in a function within its component may be rendered many times, and its instances share one
handle. The pass notes that when the element stands in a nested function as it sees them: a function
of the source, or the function that it has itself put around an explicit reference. The accessors of
an object are no functions to it. `Woven.Covers` lists what lies between an element and its component,
and `shared_note_iff` says which of that leads to a note. -/

namespace JsxTracking

/-! ## The notes of a module -/

/-- The note on an element whose instances share its handle. -/
def Treatment.sharedNote? (file : String) (treatment : Treatment) : Option Diagnostic :=
  match treatment.outcome with
  | .instrumented allocation _ true =>
    some ((Problem.shared treatment.elementName allocation.handle).diagnostic file treatment.line?)
  | _ => none

/-- Of all that is said of an element, the note is what is about a shared handle. -/
theorem Treatment.sharedNotes_findings (file : String) (treatment : Treatment) :
    ((treatment.findings file).filterMap (Finding.diagnostic? file)).filter
      (fun diagnostic => diagnostic.code = .sharedHandle) = (treatment.sharedNote? file).toList := by
  obtain ⟨elementName, line?, markers, outcome⟩ := treatment
  have missing : ((markers.missing.map fun kind =>
      Finding.problem (.missingValue kind elementName) line?).filterMap
        (Finding.diagnostic? file)).filter
          (fun diagnostic => diagnostic.code = .sharedHandle) = [] := by
    simp [List.filterMap_map, Problem.diagnostic, Problem.code]
  have points : (markers.values.map fun marker =>
      Finding.point (.ofMarker marker.1 marker.2 elementName file) line?).filterMap
        (Finding.diagnostic? file) = [] := by
    simp [List.filterMap_map]
  unfold findings sharedNote?
  rw [List.filterMap_append, List.filter_append, missing, List.nil_append]
  cases outcome with
  | plain => rfl
  | refused reason => rfl
  | instrumented allocation position shared =>
    obtain ⟨handle, collisions⟩ := allocation
    have clashing : ((if collisions.isEmpty then [] else
        [Finding.problem (.collision collisions elementName handle) line?]).filterMap
          (Finding.diagnostic? file)).filter
            (fun diagnostic => diagnostic.code = .sharedHandle) = [] := by
      split <;> rfl
    simp only [List.filterMap_append, List.filter_append, clashing, List.nil_append]
    rw [points, List.filter_nil, List.append_nil]
    cases shared <;> rfl

/-- The notes on shared handles in a report are those on the elements, in visiting order. -/
theorem sharedNotes_eq (options : Options) (registry : Registry) (file : String)
    (source? : Option String) (items : List Tree) :
    (transformModule options registry file source? items).1.diagnostics.filter
        (fun diagnostic => diagnostic.code = .sharedHandle) =
      (Woven.treatmentsInItems (weaveModule source? items)).filterMap
        (Treatment.sharedNote? file) := by
  have reported := (registry.settle_spec file (moduleFindings options file source? items)
    (fun diagnostic => diagnostic.code = .sharedHandle) (by
      rintro diagnostic duplicate
      simp [duplicate])).2
  rw [transformModule_settles] at reported
  refine reported.trans ?_
  unfold moduleFindings
  split
  case isTrue =>
    have found : (instrumentModule options file source? items).findings =
        (Woven.treatmentsInItems (weaveModule source? items)).flatMap (Treatment.findings file) :=
      rfl
    rw [found, List.filterMap_flatMap, List.filter_flatMap, List.filterMap_eq_flatMap_toList]
    exact List.flatMap_congr fun treatment _ => treatment.sharedNotes_findings file
  case isFalse unmarked =>
    symm
    apply List.filterMap_eq_nil_iff.mpr
    intro treatment visited
    rw [Treatment.sharedNote?,
      (markers_of_unmarked visited (Bool.eq_false_iff.mpr unmarked)).2]

/-- The digits at the end of a note are the index of the handle. -/
theorem Problem.digits_shared (elementName : String) (handle : ElementHandle) :
    (Problem.shared elementName handle).message.toList.reverse.takeWhile Char.isDigit =
      (Nat.toDigits 10 handle.index).reverse := by
  have digits : ∀ digit ∈ (Nat.toDigits 10 handle.index).reverse, digit.isDigit = true := by
    intro digit among
    exact Nat.isDigit_of_mem_toDigits (b := 10) (by decide) (by decide) (List.mem_reverse.mp among)
  have stem : "trackingRef".toList.reverse = 'f' :: "eRgnikcart".toList := by decide
  -- Whatever the element is called, the letter before the index ends the digits.
  have wording : (Problem.shared elementName handle).message = "<" ++ elementName ++
      "> is rendered by a nested function; all of its instances share " ++ handle.name := rfl
  rw [wording, String.toList_append, handle.toList_name, List.reverse_append, List.reverse_append,
    List.append_assoc, List.takeWhile_append_of_pos digits, stem, List.cons_append,
    List.takeWhile_cons_of_neg (by decide), List.append_nil]

/-- A note tells of which handle it speaks. -/
theorem Problem.shared_injective {elementName otherName : String} {handle other : ElementHandle}
    (same : (Problem.shared elementName handle).message = (Problem.shared otherName other).message) :
    handle = other := by
  have digits := digits_shared elementName handle
  rw [same, digits_shared] at digits
  obtain ⟨index⟩ := handle
  obtain ⟨otherIndex⟩ := other
  exact congrArg ElementHandle.mk
    (ElementHandle.toDigits_injective (List.reverse_injective digits)).symm

/-! ## What lies between an element and its component -/

namespace Enclosure

/-- Hooks go nowhere from the inner enclosure, or somewhere from both; and then handles are shared
within the inner one if they are within the outer one, or a nested function lies between. -/
def Deeper (nested : Bool) (inner outer : Enclosure) : Prop :=
  inner.home? = none ∨ outer.home? ≠ none ∧ inner.isShared = (outer.isShared || nested)

theorem Deeper.refl (enclosure : Enclosure) : Deeper false enclosure enclosure := by
  cases home : enclosure.home? with
  | none => exact Or.inl home
  | some place => exact Or.inr ⟨home ▸ Option.some_ne_none place, (Bool.or_false _).symm⟩

theorem Deeper.trans {within between : Bool} {inner middle outer : Enclosure}
    (first : Deeper within inner middle) (second : Deeper between middle outer) :
    Deeper (within || between) inner outer := by
  rcases first with nowhere | ⟨somewhere, shared⟩
  · exact Or.inl nowhere
  · rcases second with nowhere | ⟨home, sharedAround⟩
    · exact absurd nowhere somewhere
    · refine Or.inr ⟨home, ?_⟩
      rw [shared, sharedAround, Bool.or_assoc, Bool.or_comm between]

theorem enterPlain_deeper (enclosure : Enclosure) :
    Deeper true enclosure.enterPlain enclosure := by
  cases enclosure with
  | outside | classBody => exact Or.inl rfl
  | component scan statement nested =>
    exact Or.inr ⟨Option.some_ne_none _, (Bool.or_true nested).symm⟩

theorem enterNode_deeper (enclosure : Enclosure) (kind : Kind) :
    Deeper false (enclosure.enterNode kind) enclosure := by
  unfold enterNode
  split
  · exact Or.inl rfl
  · exact Or.inl rfl
  · exact Deeper.refl enclosure

theorem atStatement_deeper (index : Nat) (enclosure : Enclosure) :
    Deeper false (enclosure.atStatement index) enclosure := by
  cases enclosure with
  | outside | classBody => exact Or.inl rfl
  | component scan statement nested =>
    exact Or.inr ⟨Option.some_ne_none _, (Bool.or_false nested).symm⟩

end Enclosure

/-- What may lie between an element and its component. -/
inductive Layer where
  /-- A function of the source that is no component. -/
  | function (kind : Kind)
  /-- An accessor of an object. -/
  | accessor (kind : Kind)
  /-- The generated function that forwards an element to its explicit reference. -/
  | forwarding
  deriving DecidableEq, Repr, Inhabited

namespace Layer

/-- Whether the source has the layer as a function of its own. -/
def isWritten : Layer → Bool
  | function _ | accessor _ => true
  | forwarding => false

/-- Whether the pass takes the layer for a nested function. -/
def isNested : Layer → Bool
  | function _ | forwarding => true
  | accessor _ => false

/-- The layer that a part of a node is covered by. The key of an accessor is not within it. -/
def ofPart? (kind : Kind) (field : Field) : Option Layer :=
  if (kind = .getterProperty ∨ kind = .setterProperty) ∧ field ≠ .key then some (accessor kind)
  else none

theorem any_isNested (layers : List Layer) :
    layers.any isNested = true ↔ (∃ kind, function kind ∈ layers) ∨ forwarding ∈ layers := by
  rw [List.any_eq_true]
  constructor
  · rintro ⟨layer, among, nested⟩
    cases layer with
    | function kind => exact Or.inl ⟨kind, among⟩
    | accessor kind => cases nested
    | forwarding => exact Or.inr among
  · rintro (⟨kind, among⟩ | among)
    · exact ⟨_, among, rfl⟩
    · exact ⟨_, among, rfl⟩

theorem exists_isWritten (layers : List Layer) :
    (∃ layer ∈ layers, layer.isWritten = true) ↔
      (∃ kind, function kind ∈ layers) ∨ ∃ kind, accessor kind ∈ layers := by
  constructor
  · rintro ⟨layer, among, written⟩
    cases layer with
    | function kind => exact Or.inl ⟨kind, among⟩
    | accessor kind => exact Or.inr ⟨kind, among⟩
    | forwarding => cases written
  · rintro (⟨kind, among⟩ | ⟨kind, among⟩)
    · exact ⟨_, among, rfl⟩
    · exact ⟨_, among, rfl⟩

theorem isNested_ofPart? (kind : Kind) (field : Field) :
    (ofPart? kind field).any isNested = false := by
  unfold ofPart?
  split <;> rfl

end Layer

namespace Woven

/-- What a woven tree holds directly as part of the same component, and the layer that is entered on
the way. -/
inductive Enters : Woven → Option Layer → Woven → Prop
  | item {items : List Woven} {item : Woven} (member : item ∈ items) :
      Enters (.list items) none item
  | statement {items : List Woven} {item : Woven} (member : item ∈ items) :
      Enters (.statements items) none item
  | part {kind : Kind} {parts : List (Field × Woven)} {field : Field} {item : Woven}
      (member : (field, item) ∈ parts) :
      Enters (.node kind parts) (Layer.ofPart? kind field) item
  | outer {kind : Kind} {outer : List (Field × Woven)} {scan? : Option BodyScan}
      {inner : List (Field × Woven)} {field : Field} {item : Woven}
      (member : (field, item) ∈ outer) :
      Enters (.function kind outer scan? inner) none item
  | inner {kind : Kind} {outer inner : List (Field × Woven)} {field : Field} {item : Woven}
      (member : (field, item) ∈ inner) :
      Enters (.function kind outer none inner) (some (.function kind)) item
  | opening {treatment : Treatment} {parts : List (Field × Woven)} {field : Field} {item : Woven}
      (member : (field, item) ∈ parts) :
      Enters (.opening treatment parts) none item
  | replaced {attachment : Attachment} {replaced : List Woven} {item : Woven}
      (member : item ∈ replaced) :
      Enters (.reference attachment replaced none) (some .forwarding) item

/-- A woven tree stands in another one, with no component between them. The layers around it are
listed from the inner ones to the outer ones. -/
inductive Covered (part : Woven) : List Layer → Woven → Prop
  | self : Covered part [] part
  | step {whole item : Woven} {layer? : Option Layer} {layers : List Layer}
      (enters : whole.Enters layer? item) (covered : Covered part layers item) :
      Covered part (layers ++ layer?.toList) whole

/-- The nearest component around an element, and the layers between them. -/
inductive Covers (component : Woven) (treatment : Treatment) : List Layer → Prop
  | intro {frame? : Option Frame} {scan : BodyScan} {item : Woven} {parts : List (Field × Woven)}
      {layers : List Layer} (held : component.Holds frame? (some scan) item)
      (covered : (opening treatment parts).Covered layers item) :
      Covers component treatment layers

theorem Holds.enters {whole item : Woven} {frame? : Option Frame}
    (holds : whole.Holds frame? none item) : ∃ layer?, whole.Enters layer? item := by
  cases holds with
  | item member => exact ⟨_, .item member⟩
  | statement member => exact ⟨_, .statement member⟩
  | part member => exact ⟨_, .part member⟩
  | outer member => exact ⟨_, .outer member⟩
  | inner member => exact ⟨_, .inner member⟩
  | opening member => exact ⟨_, .opening member⟩
  | replaced member => exact ⟨_, .replaced member⟩

theorem Owned.covered {part whole : Woven} {path : List Frame} (owned : part.Owned path whole) :
    ∃ layers, part.Covered layers whole := by
  induction owned with
  | self => exact ⟨[], .self⟩
  | step holds owned ih =>
    obtain ⟨layers, covered⟩ := ih
    obtain ⟨layer?, enters⟩ := holds.enters
    exact ⟨_, .step enters covered⟩

theorem Hosts.covers {component : Woven} {treatment : Treatment} {field? : Option Field}
    {path : List Frame} (hosts : component.Hosts treatment field? path) :
    ∃ layers, component.Covers treatment layers := by
  obtain ⟨held, owned⟩ := hosts
  obtain ⟨layers, covered⟩ := owned.covered
  exact ⟨layers, .intro held covered⟩

/-- One step into a decided tree goes as deep as the layer that it enters. -/
theorem Decided.entered {enclosure : Enclosure} {step : Step} {whole item : Woven}
    {layer? : Option Layer} (decided : Decided enclosure step whole)
    (enters : whole.Enters layer? item) :
    ∃ within next, Decided within next item ∧
      within.Deeper (layer?.any Layer.isNested) enclosure := by
  cases enters with
  | item member => exact ⟨_, _, decided.items member, .refl _⟩
  | statement member =>
    obtain ⟨-, index, within⟩ := decided.statement member
    exact ⟨_, _, within, enclosure.atStatement_deeper index⟩
  | part member =>
    rw [Layer.isNested_ofPart?]
    exact ⟨_, _, decided.part member, enclosure.enterNode_deeper _⟩
  | outer member => exact ⟨_, _, decided.outer member, .refl _⟩
  | inner member => exact ⟨_, _, decided.inner member, enclosure.enterPlain_deeper⟩
  | opening member =>
    obtain ⟨_, within⟩ := decided.tagPart member
    exact ⟨_, _, within, .refl _⟩
  | replaced member => exact ⟨_, _, decided.replaced member, enclosure.enterPlain_deeper⟩

/-- The way down to what a decided tree covers goes as deep as the layers on it. -/
theorem Covered.decided {part whole : Woven} {layers : List Layer}
    (covered : part.Covered layers whole) {enclosure : Enclosure} {step : Step}
    (decided : Decided enclosure step whole) :
    ∃ inner next, Decided inner next part ∧
      inner.Deeper (layers.any Layer.isNested) enclosure := by
  induction covered generalizing enclosure step with
  | self => exact ⟨enclosure, step, decided, .refl _⟩
  | @step whole item layer? layers enters covered ih =>
    obtain ⟨within, next, entered, deeper⟩ := decided.entered enters
    obtain ⟨inner, last, reached, deepest⟩ := ih entered
    refine ⟨inner, last, reached, ?_⟩
    have along : (layers ++ layer?.toList).any Layer.isNested =
        (layers.any Layer.isNested || layer?.any Layer.isNested) := by
      cases layer? <;> simp
    rw [along]
    exact deepest.trans deeper

/-- Right within a component nothing is shared. -/
theorem Decided.held_in_component {enclosure : Enclosure} {step : Step} {component item : Woven}
    {frame? : Option Frame} {scan : BodyScan} (decided : Decided enclosure step component)
    (held : component.Holds frame? (some scan) item) :
    ∃ statement next, Decided (.component scan statement false) next item := by
  cases held with
  | inner member => exact ⟨_, _, decided.inner member⟩
  | replaced member => exact ⟨_, _, decided.replaced member⟩

/-- The instances of an instrumented element share its handle if one of the layers around it is a
nested function to the pass. -/
theorem Covers.shared {component : Woven} {treatment : Treatment} {layers : List Layer}
    (covers : component.Covers treatment layers) {enclosure : Enclosure} {step : Step}
    (decided : Decided enclosure step component) {allocation : Allocation} {position : Nat}
    {shared : Bool} (outcome : treatment.outcome = .instrumented allocation position shared) :
    shared = layers.any Layer.isNested := by
  obtain ⟨held, covered⟩ := covers
  obtain ⟨statement, _, within⟩ := decided.held_in_component held
  obtain ⟨inner, _, reached, deeper⟩ := covered.decided within
  cases reached with
  | follows treated =>
    have decision := treated.2.1.outcome
    rw [outcome] at decision
    obtain ⟨-, placed, same⟩ := decision
    obtain ⟨_, _, home, -⟩ := Enclosure.place_position placed
    rcases deeper with nowhere | ⟨-, layered⟩
    · exact absurd (nowhere.symm.trans home) (Option.some_ne_none _).symm
    · exact same.trans layered

end Woven

/-- The elements of a module are told apart by their handles. -/
theorem treatment_of_handle {source? : Option String} {items : List Tree}
    {first second : Treatment}
    (visited : first ∈ Woven.treatmentsInItems (weaveModule source? items))
    (also : second ∈ Woven.treatmentsInItems (weaveModule source? items)) {handle : ElementHandle}
    (given : first.handle? = some handle) (same : second.handle? = some handle) :
    first = second := by
  have distinct := List.pairwise_filterMap.mp (weaveModule_handles source? items).1
  have : Std.Symm fun one other : Treatment =>
      ∀ handle, one.handle? = some handle → ∀ handle', other.handle? = some handle' →
        handle ≠ handle' :=
    ⟨fun _ _ apart handle given handle' same equal => apart handle' same handle given equal.symm⟩
  by_contra different
  exact distinct.forall visited also different handle given handle same rfl

/-- An element with a handle is instrumented. -/
theorem Treatment.exists_instrumented (treatment : Treatment) {handle : ElementHandle}
    (given : treatment.handle? = some handle) :
    ∃ allocation position shared, treatment.outcome = .instrumented allocation position shared ∧
      allocation.handle = handle := by
  cases outcome : treatment.outcome with
  | plain | refused reason => simp [handle?, allocation?, outcome] at given
  | instrumented allocation position shared =>
    simp only [handle?, allocation?, outcome, Option.map_some, Option.some.injEq] at given
    exact ⟨allocation, position, shared, rfl, given⟩

/-- The note on an instrumented element is reported if its instances share the handle. -/
theorem note_mem_iff (options : Options) (registry : Registry) (file : String)
    {source? : Option String} {items : List Tree} {treatment : Treatment}
    (visited : treatment ∈ Woven.treatmentsInItems (weaveModule source? items))
    {allocation : Allocation} {position : Nat} {shared : Bool}
    (outcome : treatment.outcome = .instrumented allocation position shared) :
    (Problem.shared treatment.elementName allocation.handle).diagnostic file treatment.line? ∈
      (transformModule options registry file source? items).1.diagnostics ↔ shared = true := by
  have notes := sharedNotes_eq options registry file source? items
  constructor
  · intro reported
    have among := notes ▸ List.mem_filter.mpr ⟨reported, rfl⟩
    obtain ⟨other, found, noted⟩ := List.mem_filterMap.mp among
    unfold Treatment.sharedNote? at noted
    split at noted
    case h_1 taken place otherOutcome =>
      -- A note speaks of one handle, and no other element has it.
      have handles : taken.handle = allocation.handle :=
        Problem.shared_injective (congrArg Diagnostic.message (Option.some.inj noted))
      have given : treatment.handle? = some allocation.handle := by
        simp [Treatment.handle?, Treatment.allocation?, outcome]
      have same : other.handle? = some allocation.handle := by
        simp [Treatment.handle?, Treatment.allocation?, otherOutcome, handles]
      rw [treatment_of_handle found visited same given, outcome] at otherOutcome
      cases otherOutcome
      rfl
    case h_2 => cases noted
  · rintro rfl
    have noted : treatment.sharedNote? file = some
        ((Problem.shared treatment.elementName allocation.handle).diagnostic file
          treatment.line?) := by
      rw [Treatment.sharedNote?, outcome]
    have among := List.mem_filterMap.mpr ⟨treatment, visited, noted⟩
    exact List.mem_of_mem_filter (notes ▸ among)

/-- `return rows.map((row) => <li data-track-click="row" />);` -/
def renderedRows : List Tree :=
  [Code.returnValue (Code.methodCall (Code.reference "rows") "map"
    [Code.arrowTo [Code.binding "row"]
      (markedElement "li" "data-track-click" (Code.string "row"))])]

/-- `const box = { get item() { return <div data-track-click="buy" />; } }; return box.item;` -/
def renderingAccessor : List Tree :=
  [Code.constant "box" (.node .objectExpression [(.properties, .list [.node .getterProperty
      [(.key, Code.propertyName "item"),
        (.body, Code.block [Code.returnValue
          (markedElement "div" "data-track-click" (Code.string "buy"))])]])]),
    Code.returnValue (Code.member (Code.reference "box") "item")]

end JsxTracking
