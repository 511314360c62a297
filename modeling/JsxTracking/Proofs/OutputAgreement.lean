import JsxTracking.Proofs.RecordedNames
import JsxTracking.Proofs.Rewriting
import JsxTracking.Proofs.Settlement

/-! # The outputs for a module agree

For each module, instrumentation returns the rewritten module, tracking points, diagnostics and the
number of handles. All of them tell the same of the elements that were visited. Every element with a
usable marker is refused with one diagnostic, or gets a handle, a generated reference and hooks, as
long as no function without a body has elements in its parameters (`tracked_changes_perm`).
The hooks call the runtime once for each point (`Tracked.calls_hooks`), and the report keeps the
order of the elements (`Registry.settle_spec`). -/

namespace JsxTracking

namespace Change

/-- The handle that an element gets. -/
def handle? : Change → Option ElementHandle
  | element handle => some handle
  | _ => none

/-- The handle that is attached by a generated `ref`. -/
def attached? : Change → Option ElementHandle
  | reference attachment _ => some attachment.handle
  | _ => none

/-- The element whose hooks are put into a function. -/
def tracked? : Change → Option Tracked
  | hooks tracked => some tracked
  | _ => none

theorem filterMap_hooks_handle? (elements : List Tracked) :
    (elements.map hooks).filterMap handle? = [] := by
  simp [List.filterMap_map, Function.comp_def, handle?]

theorem filterMap_hooks_attached? (elements : List Tracked) :
    (elements.map hooks).filterMap attached? = [] := by
  simp [List.filterMap_map, Function.comp_def, attached?]

theorem filterMap_hooks_tracked? (elements : List Tracked) :
    (elements.map hooks).filterMap tracked? = elements := by
  simp [List.filterMap_map, Function.comp_def, tracked?]

theorem attached_perm_flatMap {α : Type} {items : List α} {changes : α → List Change}
    (each : ∀ item ∈ items, ((changes item).filterMap attached?).Perm
      ((changes item).filterMap handle?)) :
    ((items.flatMap changes).filterMap attached?).Perm
      ((items.flatMap changes).filterMap handle?) := by
  induction items with
  | nil => simp
  | cons item rest ih =>
    simp only [List.flatMap_cons, List.filterMap_append]
    apply List.Perm.append
    · exact each item List.mem_cons_self
    · exact ih fun item member => each item (List.mem_cons_of_mem _ member)

end Change

/-- The attributes of an element hold its own generated reference, if it has a handle, and those of
the elements within them. -/
theorem AttributesRewritten.attached_perm {runtimeGlobal : String}
    {attachment? : Option Attachment} {attributes images : List Tree} {within : List Rewriting}
    {changes : List Change}
    (rewritten : AttributesRewritten runtimeGlobal attachment? attributes within images changes)
    (each : ∀ item ∈ within, (item.changes.filterMap Change.attached?).Perm
      (item.changes.filterMap Change.handle?)) :
    (changes.filterMap Change.attached?).Perm
      ((attachment?.map Attachment.handle).toList ++ changes.filterMap Change.handle?) := by
  cases rewritten with
  | plain => exact Change.attached_perm_flatMap each
  | @added attachment _ _ gives =>
    have inner := Change.attached_perm_flatMap each
    have own : [Change.reference attachment none].filterMap Change.handle? = [] := rfl
    simp only [List.filterMap_append, own, List.append_nil]
    exact (inner.append_right [attachment.handle]).trans (List.perm_append_singleton _ _)
  | @replaced attachment attr generated front back explicit elements hooks isRef expression arranged
      gives =>
    have inner := Change.attached_perm_flatMap each
    have own : [Change.reference attachment (some explicit.source)].filterMap Change.handle? = [] :=
      rfl
    simp only [List.flatMap_append, List.flatMap_singleton, List.filterMap_append] at inner
    simp only [List.filterMap_append, Change.filterMap_hooks_handle?,
      Change.filterMap_hooks_attached?, own, List.append_nil]
    exact (inner.append_right [attachment.handle]).trans (List.perm_append_singleton _ _)

namespace Rewriting

/-- As many references are generated as elements get handles, and for the same handles. -/
theorem Allowed.attached_perm {runtimeGlobal : String} {rewriting : Rewriting}
    (allowed : rewriting.Allowed runtimeGlobal) :
    (rewriting.changes.filterMap Change.attached?).Perm
      (rewriting.changes.filterMap Change.handle?) := by
  induction allowed with
  | unvisited | scalar => exact .nil
  | list each ih => exact Change.attached_perm_flatMap ih
  | node unattributed each ih => exact Change.attached_perm_flatMap ih
  | component isFunction each arranged gains ih =>
    simp only [List.filterMap_append, Change.filterMap_hooks_handle?,
      Change.filterMap_hooks_attached?, List.append_nil]
    exact Change.attached_perm_flatMap ih
  | @opening early late attributes images attachment? within inAttributes others spread each
      eachWithin rewritten ih ihWithin =>
    have front := Change.attached_perm_flatMap fun part member => ih part (List.mem_append_left _ member)
    have back := Change.attached_perm_flatMap fun part member => ih part (List.mem_append_right _ member)
    have middle := rewritten.attached_perm ihWithin
    simp only [List.filterMap_append]
    cases attachment? with
    | none => exact (front.append middle).append back
    | some attachment =>
      apply List.Perm.append _ back
      refine (front.append middle).trans ?_
      exact List.perm_middle

end Rewriting

namespace Woven

mutual

/-- Handles are listed with the elements that get them, in visiting order. -/
theorem handles_changes : ∀ woven : Woven,
    woven.changes.filterMap Change.handle? = handles woven.treatments
  | kept tree => by
    rw [changes]
    split <;> rfl
  | removed _ => rfl
  | list items | statements items => handles_changesInItems items
  | node _ parts => handles_changesInParts parts
  | function kind outer scan? inner => by
    simp only [changes, treatments, handles, List.filterMap_append, Change.filterMap_hooks_handle?,
      List.append_nil]
    rw [handles_changesInParts outer, handles_changesInParts inner, handles, handles]
  | opening treatment parts => by
    rw [changes, treatments, handles, List.filterMap_append, handles_changesInParts parts]
    cases given : treatment.handle? <;> simp [given, Change.handle?, handles]
  | reference attachment replaced scan? => by
    simp only [changes, treatments, List.filterMap_append, Change.filterMap_hooks_handle?,
      List.append_nil]
    rw [handles_changesInItems replaced]
    exact List.append_nil _

/-- `Woven.handles_changes` for a list of trees. -/
theorem handles_changesInItems : ∀ items : List Woven,
    (changesInItems items).filterMap Change.handle? = handles (treatmentsInItems items)
  | [] => rfl
  | item :: rest => by
    rw [changesInItems, treatmentsInItems, List.filterMap_append, handles_changes item,
      handles_changesInItems rest, handles, handles, handles, List.filterMap_append]

/-- `Woven.handles_changes` for the parts of a node. -/
theorem handles_changesInParts : ∀ parts : List (Field × Woven),
    (changesInParts parts).filterMap Change.handle? = handles (treatmentsInParts parts)
  | [] => rfl
  | (_, part) :: rest => by
    rw [changesInParts, treatmentsInParts, List.filterMap_append, handles_changes part,
      handles_changesInParts rest, handles, handles, handles, List.filterMap_append]

end

end Woven

namespace Tree

/-- Whether a node is a function without a body that has elements in its parameters. -/
def isBodilessWithElements (kind : Kind) (fields : Fields) : Bool :=
  kind.isFunction && Fields.get fields .body = .null && (Fields.get fields .params).holdsElements

/-- A well-formed tree in which no function without a body has elements in its parameters. -/
def HooksFit (tree : Tree) : Prop :=
  tree.isWellFormed = true ∧ tree.countNodes isBodilessWithElements = 0

theorem hereditary_hooksFit : Hereditary HooksFit :=
  hereditary_isWellFormed.without isBodilessWithElements

/-- A function of such a tree has no elements in its parameters if it has no body. -/
theorem HooksFit.params {kind : Kind} {fields : Fields} (fits : (node kind fields).HooksFit)
    (isFunction : kind.isFunction = true) (noBody : Fields.get fields .body = .null) :
    (Fields.get fields .params).holdsElements = false := by
  obtain ⟨-, none⟩ := fits
  rw [countNodes, Nat.add_eq_zero_iff] at none
  simpa [isBodilessWithElements, isFunction, noBody] using none.1

end Tree

namespace Woven

theorem elementsInParts_eq_nil {parts : List (Field × Woven)}
    (empty : ∀ part ∈ parts, part.2.elements = []) : elementsInParts parts = [] := by
  induction parts with
  | nil => rfl
  | cons part rest ih =>
    rw [elementsInParts, empty part List.mem_cons_self]
    exact ih fun part member => empty part (List.mem_cons_of_mem _ member)

/-- A component without a body has no elements. -/
theorem Follows.elements_of_bodiless {kind : Kind} {outer inner : List (Field × Woven)}
    {scan : BodyScan} {enclosure : Enclosure} {step : Step}
    (follows : (function kind outer (some scan) inner).Follows enclosure step)
    (fits : (function kind outer (some scan) inner).source.HooksFit)
    (bodiless : hasBody inner = false) : elementsInParts inner = [] := by
  obtain ⟨-, isFunction, keys, -, -, within⟩ := follows
  obtain ⟨distinct, -, parts, -⟩ := Tree.isWellFormed_node fits.1
  have source {field : Field} {item : Woven} (member : (field, item) ∈ inner) :
      (field, item.source) ∈ sourcesInParts outer ++ sourcesInParts inner :=
    List.mem_append_right _ (mem_sourcesInParts member)
  have missing {item : Woven} (member : (.body, item) ∈ inner) : item.source = .null := by
    by_contra there
    have takes := Tree.takesHooks_of_ne_null (parts _ (source member)) there
    exact List.any_eq_false.mp bodiless _ member (by simpa using takes)
  have noBody : Fields.get (sourcesInParts outer ++ sourcesInParts inner) .body = .null := by
    rw [← sourcesInParts_append]
    rcases get_treesInParts_cases "" (outer ++ inner) .body with ⟨-, none⟩ | ⟨item, member, -, held⟩
    · exact none
    · rw [held]
      rcases List.mem_append.mp member with outside | inside
      · exact absurd (keys _ outside) Field.noConfusion
      · exact missing inside
  have empty : ∀ part ∈ inner, part.2.elements = [] := by
    intro ⟨field, item⟩ member
    have visited := within.member member
    by_cases isParams : field = .params
    · subst isParams
      have plain := fits.params isFunction noBody
      rw [Fields.get_of_mem distinct (source member)] at plain
      exact (tree_eq_source "" (Step.ofFunction_ne_attributes _ _) item visited plain).2
    · by_cases isBody : field = .body
      · subst isBody
        have plain : item.source.holdsElements = false := by rw [missing member]; rfl
        exact (tree_eq_source "" (Step.ofFunction_ne_attributes _ _) item visited plain).2
      · have kept : Step.ofFunction (some scan) field = .keep := by
          cases field <;> first | rfl | exact absurd rfl isParams | exact absurd rfl isBody
        rw [kept] at visited
        cases item with
        | kept tree => rfl
        | list items => exact visited.elim
        | statements items => cases visited.1
        | node | function | opening => exact absurd rfl visited.1
        | removed | reference => exact visited.elim
  exact elementsInParts_eq_nil empty

/-- What a decided tree holds fits hooks if the tree does. -/
def Fits (woven : Woven) : Prop :=
  ∃ enclosure step, Decided enclosure step woven ∧
    Carries Tree.HooksFit (fun _ => True) step woven

theorem Fits.held {whole item : Woven} {frame? : Option Frame} {scan? : Option BodyScan}
    (fits : whole.Fits) (held : whole.Holds frame? scan? item) : item.Fits := by
  obtain ⟨enclosure, step, decided, carries⟩ := fits
  exact decided.held_carries Tree.hereditary_hooksFit carries (fun _ _ _ _ _ => trivial) held

theorem Fits.tracked_function {kind : Kind} {outer inner : List (Field × Woven)}
    {scan? : Option BodyScan} (fits : (function kind outer scan? inner).Fits) :
    (if hasBody inner then tracked scan? (elementsInParts inner) else []) =
      tracked scan? (elementsInParts inner) := by
  obtain ⟨enclosure, step, decided, carries⟩ := fits
  cases decided with
  | follows follows =>
    split
    case isTrue => rfl
    case isFalse bodiless =>
      cases scan? with
      | none => rfl
      | some scan =>
        rw [follows.elements_of_bodiless (carries.node rfl rfl) (Bool.eq_false_iff.mpr bodiless)]
        rfl

mutual

/-- The hooks of all elements that are hosted in a woven tree are put into it. -/
theorem Fits.tracked_perm : ∀ woven : Woven, woven.Fits →
    (woven.changes.filterMap Change.tracked?).Perm (woven.hosted.filterMap Treatment.tracked?)
  | kept tree, _ => by
    rw [changes]
    split <;> exact .nil
  | removed _, _ => .nil
  | list items, fits => tracked_perm_items items fun _ member => fits.held (.item member)
  | statements items, fits => tracked_perm_items items fun _ member => fits.held (.statement member)
  | node _ parts, fits => tracked_perm_parts parts fun _ member => fits.held (.part member)
  | opening treatment parts, fits => by
    have within := tracked_perm_parts parts fun _ member => fits.held (.opening member)
    rw [changes, List.filterMap_append]
    cases treatment.handle? <;> exact within
  | function kind outer scan? inner, fits => by
    have outside := tracked_perm_parts outer fun _ member => fits.held (.outer member)
    have inside := tracked_perm_parts inner fun _ member => fits.held (.inner member)
    rw [changes, fits.tracked_function, List.filterMap_append, List.filterMap_append,
      Change.filterMap_hooks_tracked?]
    cases scan? with
    | none =>
      rw [hosted, List.filterMap_append, tracked, List.append_nil]
      exact outside.append inside
    | some scan =>
      rw [hosted, List.filterMap_append, List.filterMap_append, List.append_assoc]
      exact outside.append ((inside.append_right _).trans List.perm_append_comm)
  | reference attachment replaced scan?, fits => by
    have inside := tracked_perm_items replaced fun _ member => fits.held (.replaced member)
    have own : [Change.reference attachment (sources replaced).head?].filterMap Change.tracked? = [] :=
      rfl
    rw [changes, List.filterMap_append, List.filterMap_append, Change.filterMap_hooks_tracked?, own,
      List.append_nil]
    cases scan? with
    | none =>
      rw [hosted, tracked, List.append_nil]
      exact inside
    | some scan =>
      rw [hosted, List.filterMap_append]
      exact (inside.append_right _).trans List.perm_append_comm

/-- `Woven.Fits.tracked_perm` for a list of trees. -/
theorem Fits.tracked_perm_items : ∀ items : List Woven, (∀ item ∈ items, item.Fits) →
    ((changesInItems items).filterMap Change.tracked?).Perm
      ((hostedInItems items).filterMap Treatment.tracked?)
  | [], _ => .nil
  | item :: rest, fits => by
    rw [changesInItems, hostedInItems, List.filterMap_append, List.filterMap_append]
    exact (tracked_perm item (fits item List.mem_cons_self)).append
      (tracked_perm_items rest fun item member => fits item (List.mem_cons_of_mem _ member))

/-- `Woven.Fits.tracked_perm` for the parts of a node. -/
theorem Fits.tracked_perm_parts : ∀ parts : List (Field × Woven),
    (∀ part ∈ parts, part.2.Fits) →
    ((changesInParts parts).filterMap Change.tracked?).Perm
      ((hostedInParts parts).filterMap Treatment.tracked?)
  | [], _ => .nil
  | (field, part) :: rest, fits => by
    rw [changesInParts, hostedInParts, List.filterMap_append, List.filterMap_append]
    exact (tracked_perm part (fits (field, part) List.mem_cons_self)).append
      (tracked_perm_parts rest fun part member => fits part (List.mem_cons_of_mem _ member))

end

end Woven

/-- Outside of all components nothing is instrumented. -/
theorem outside_not_instrumented (source? : Option String) (items : List Tree) :
    (Woven.elementsInItems (weaveModule source? items)).filterMap Treatment.tracked? = [] := by
  have follows := weaveModule_follows source? items
  apply List.filterMap_eq_nil_iff.mpr
  intro treatment member
  obtain ⟨parts, path, owned⟩ := Woven.exists_owned_of_mem_elements
    (.list (weaveModule source? items)) member
  cases outcome : treatment.outcome with
  | plain | refused reason =>
    simp [Treatment.tracked?, Treatment.handle?, Treatment.allocation?, outcome]
  | instrumented allocation position shared =>
    obtain ⟨scan, _, home, -⟩ := owned.position follows
      (fun (narrow : false = true) => absurd narrow Bool.false_ne_true) outcome
    cases home

/-- Every instrumented element has its hooks put into the module, once. -/
theorem tracked_changes_perm (source? : Option String) {items : List Tree}
    (fits : (Tree.list items).HooksFit) :
    ((Woven.changesInItems (weaveModule source? items)).filterMap Change.tracked?).Perm
      ((Woven.treatmentsInItems (weaveModule source? items)).filterMap Treatment.tracked?) := by
  have whole : (Woven.list (weaveModule source? items)).Fits := by
    refine ⟨.outside, .visit, .follows (weaveModule_follows source? items), ?_⟩
    change Tree.HooksFit (Woven.list (weaveModule source? items)).source
    rw [weaveModule_source]
    exact fits
  have hosted := whole.tracked_perm
  have split := (Woven.treatments_perm (.list (weaveModule source? items))).filterMap
    Treatment.tracked?
  change (List.filterMap _ (Woven.treatmentsInItems _)).Perm
    (List.filterMap _ (Woven.elementsInItems _ ++ _)) at split
  rw [List.filterMap_append, outside_not_instrumented, List.nil_append] at split
  exact hosted.trans split.symm

namespace Finding

/-- The refusal that was found, as a diagnostic about a file. -/
def refusal? (file : String) : Finding → Option Diagnostic
  | problem found line? =>
    if found.code = .unsupportedPlacement then some (found.diagnostic file line?) else none
  | _ => none

theorem refusals_eq (file : String) (findings : List Finding) :
    (findings.filterMap (diagnostic? file)).filter
        (fun diagnostic => diagnostic.code = .unsupportedPlacement) =
      findings.filterMap (refusal? file) := by
  rw [List.filter_filterMap]
  congr 1
  funext finding
  cases finding with
  | point => rfl
  | problem found line? =>
    have coded : (found.diagnostic file line?).code = found.code := rfl
    by_cases refused : found.code = .unsupportedPlacement <;>
      simp [refusal?, Option.filter, coded, refused]

end Finding

namespace Treatment

/-- The points of the element: one for each marker with a value, show before click. -/
def points (file : String) (treatment : Treatment) : List TrackingPoint :=
  treatment.tracked?.toList.flatMap fun element => element.markers.values.map fun (kind, value) =>
    .ofMarker kind value treatment.elementName file

/-- The diagnostic about an element that is refused. -/
def refusal? (file : String) (treatment : Treatment) : Option Diagnostic :=
  match treatment.outcome with
  | .refused reason =>
    some ((Problem.unsupported treatment.elementName reason).diagnostic file treatment.line?)
  | _ => none

theorem findings_spec (file : String) (treatment : Treatment) :
    (treatment.findings file).filterMap Finding.point? = treatment.points file ∧
      (treatment.findings file).filterMap (Finding.refusal? file) =
        (treatment.refusal? file).toList := by
  obtain ⟨elementName, line?, markers, outcome⟩ := treatment
  cases outcome with
  | plain | refused reason =>
    simp [findings, points, refusal?, tracked?, handle?, allocation?, List.filterMap_map,
      Function.comp_def, Finding.point?, Finding.refusal?, Problem.code]
  | instrumented allocation position shared =>
    obtain ⟨handle, collisions⟩ := allocation
    cases collisions <;> cases shared <;>
      simp [findings, points, refusal?, tracked?, handle?, allocation?, List.filterMap_map,
        Function.comp_def, Finding.point?, Finding.refusal?, Problem.code,
        List.filterMap_cons]

end Treatment

namespace Tree

/-- The method that a guarded call of the runtime names, and its argument, if the node is one. -/
def guardedCall? (runtimeGlobal : String) (kind : Kind) (fields : Fields) : Option (String × Tree) :=
  let statement := ((Fields.get fields .consequent).get .stmts).items.headD .null
  let call := statement.get .expression
  let method := (((call.get .callee).get .property).value?).getD ""
  let argument := ((call.get .arguments).items.headD .null).get .expression
  if node kind fields = Code.guardedRuntimeCall runtimeGlobal method argument then
    some (method, argument)
  else none

mutual

/-- The first guarded call of the runtime in a tree, in visiting order. -/
def firstCall? (runtimeGlobal : String) : Tree → Option (String × Tree)
  | node kind fields =>
    (guardedCall? runtimeGlobal kind fields).or (firstCallInFields? runtimeGlobal fields)
  | list items => firstCallInItems? runtimeGlobal items
  | _ => none

/-- The first guarded call of the runtime in a list of trees. -/
def firstCallInItems? (runtimeGlobal : String) : List Tree → Option (String × Tree)
  | [] => none
  | item :: rest => (firstCall? runtimeGlobal item).or (firstCallInItems? runtimeGlobal rest)

/-- The first guarded call of the runtime in the parts of a node. -/
def firstCallInFields? (runtimeGlobal : String) : List (Field × Tree) → Option (String × Tree)
  | [] => none
  | (_, part) :: rest => (firstCall? runtimeGlobal part).or (firstCallInFields? runtimeGlobal rest)

end

/-- Only an `if` statement is a guarded call. -/
theorem guardedCall?_of_kind {runtimeGlobal : String} {kind : Kind} (other : kind ≠ .ifStatement)
    (fields : Fields) : guardedCall? runtimeGlobal kind fields = none := by
  apply if_neg
  intro same
  injection same with sameKind
  exact other sameKind

/-- The test of a guarded call reads the runtime. -/
theorem guardedCall?_of_test {runtimeGlobal : String} {kind : Kind}
    (other : kind ≠ .memberExpression) (parts fields : Fields) :
    guardedCall? runtimeGlobal .ifStatement ((.test, node kind parts) :: fields) = none := by
  apply if_neg
  intro same
  simp only [Code.guardedRuntimeCall, Code.ifThen, Code.member, node.injEq, List.cons.injEq,
    Prod.mk.injEq] at same
  exact other same.2.1.2.1

theorem firstCall?_guarded (runtimeGlobal method : String) (argument : Tree) :
    firstCall? runtimeGlobal (Code.guardedRuntimeCall runtimeGlobal method argument) =
      some (method, argument) := by
  have here : guardedCall? runtimeGlobal .ifStatement
      [(.test, Code.member (Code.reference "window") runtimeGlobal),
        (.consequent, Code.block [Code.perform (Code.methodCall
          (Code.member (Code.reference "window") runtimeGlobal) method [argument])])] =
      some (method, argument) := if_pos rfl
  rw [Code.guardedRuntimeCall, Code.ifThen, firstCall?, here, Option.some_or]

end Tree

/-- The hooks of a marker call the runtime once, with the value of the marker. -/
theorem Hooks.calls_ofMarker (handle : ElementHandle) (runtimeGlobal : String) (kind : MarkerKind)
    (value : MarkerValue) :
    (ofMarker handle runtimeGlobal (kind, value)).filterMap (Tree.firstCall? runtimeGlobal) =
      [(kind.label, value.expression)] := by
  cases kind <;> cases value <;>
    simp (disch := decide) [ofMarker, visibility, click, Visibility.state, Visibility.watching,
      Visibility.unmounting, Visibility.readCurrent, Visibility.disconnectPrevious,
      Visibility.resetState, Visibility.observerCallback, Click.listener, Click.binding,
      Click.listenerCall, Click.dependencies, Code.constant, Code.call, Code.perform, Code.arrow,
      Code.arrowTo, Code.block, Code.ifThen, Code.unary, Code.binary, Code.member, Code.methodCall,
      Code.construct, Code.object, Code.number, Code.string, Code.reference, Code.binding,
      Code.propertyName, Code.arguments, Code.array, Code.assignMember, Code.nullLiteral,
      Code.returnNothing, Code.returnValue, Code.typeofIs, Tree.firstCall?, Tree.firstCallInItems?,
      Tree.firstCallInFields?, Tree.firstCall?_guarded, Tree.guardedCall?_of_kind,
      Tree.guardedCall?_of_test, MarkerValue.expression, MarkerKind.label, List.filterMap_cons]

/-- The hooks of an element call the runtime once for each marker with a value. -/
theorem Tracked.calls_hooks (element : Tracked) (runtimeGlobal : String) :
    (element.hooks runtimeGlobal).filterMap (Tree.firstCall? runtimeGlobal) =
      element.markers.values.map fun (kind, value) => (kind.label, value.expression) := by
  have declares : Tree.firstCall? runtimeGlobal (Hooks.declaration element.handle) = none := by
    simp (disch := decide) [Hooks.declaration, Code.constant, Code.call, Code.reference,
      Code.binding, Code.arguments, Code.nullLiteral, Tree.firstCall?, Tree.firstCallInItems?,
      Tree.firstCallInFields?, Tree.guardedCall?_of_kind]
  rw [hooks, Hooks.ofElement, List.filterMap_cons_none declares]
  induction element.markers.values with
  | nil => rfl
  | cons value rest ih =>
    rw [List.flatMap_cons, List.filterMap_append, ih, Hooks.calls_ofMarker]
    rfl

section

open JsxTracking.Tree

variable {runtimeGlobal : String} {handle : ElementHandle}

/-- The values of the markers of an element do not declare the variable of a handle. -/
def Tracked.Spares (handle : ElementHandle) (element : Tracked) : Prop :=
  ∀ expression ∈ element.markers.dynamicExpressions,
    expression.countNodes (spells Kind.isBinding handle.name) = 0

/-- How often the hooks among some changes declare the variable of a handle. -/
def Change.declarations (handle : ElementHandle) (changes : List Change) : Nat :=
  (changes.filterMap Change.tracked?).countP fun element => element.handle = handle

@[simp] theorem Change.declarations_append (first second : List Change) :
    declarations handle (first ++ second) = declarations handle first + declarations handle second := by
  rw [declarations, List.filterMap_append, List.countP_append]
  rfl

theorem Tracked.Arranged.declarations {elements : List Tracked} {hooks : List Tree}
    (arranged : Tracked.Arranged runtimeGlobal elements hooks)
    (clean : ∀ element ∈ elements, element.Spares handle) :
    countNodesInItems (spells Kind.isBinding handle.name) hooks =
      Change.declarations handle (elements.map Change.hooks) := by
  obtain ⟨groups, perm, rfl⟩ := arranged
  rw [countNodesInItems_perm _ perm.flatten, Change.declarations, Change.filterMap_hooks_tracked?]
  clear perm
  induction elements with
  | nil => rfl
  | cons element rest ih =>
    have elsewhere : Kind.isBinding .identifier = true → element.handle ≠ handle :=
      fun impossible => absurd impossible Bool.false_ne_true
    have own := Hooks.countNodesInItems_ofElement (fun _ => Kind.isVariable_of_isBinding) elsewhere
      runtimeGlobal (clean element List.mem_cons_self)
    have later := ih fun element member => clean element (List.mem_cons_of_mem _ member)
    rw [List.map_cons, List.flatten_cons, countNodesInItems_append, later, List.countP_cons, hooks,
      own, Nat.add_comm]
    by_cases same : element.handle = handle <;> simp [same, Kind.isBinding]

theorem Attachment.Gives.declarations {attachment : Attachment} {explicit? : Option Tree}
    {hooks : List Tree} {generated : Tree} (gives : attachment.Gives explicit? hooks generated)
    (clean : countNodesInItems (spells Kind.isBinding handle.name) attachment.spreads = 0) :
    generated.countNodes (spells Kind.isBinding handle.name) =
      countNodesInItems (spells Kind.isBinding handle.name) explicit?.toList +
        countNodesInItems (spells Kind.isBinding handle.name) hooks := by
  have names (kind : Kind) : kind.isBinding = true → kind.isVariable = true :=
    Kind.isVariable_of_isBinding
  rw [← ElementRef.countNodes_forwarded names explicit? clean]
  cases gives with
  | handle unforwarded bare =>
    rw [unforwarded, bare]
    simp [Code.jsxAttribute, Code.propertyName, Code.reference, countNodes, countNodesInFields,
      countNodesInItems, spells, Kind.isBinding]
  | function forwarded merge =>
    rw [forwarded]
    simp [Code.jsxAttribute, Code.propertyName, ElementRef.forwardingFunction, Code.arrow,
      Code.arrowTo, Code.block, Code.binding, countNodes, countNodesInFields, countNodesInItems,
      spells, Kind.isBinding, countNodesInItems_perm _ merge.perm,
      ElementRef.forwardingBody, Code.perform, Code.assignMember, Code.reference, Code.member,
      Code.constant, Code.ifThenElse, Code.typeofIs, Code.binary, Code.unary, Code.string,
      Code.call, Code.arguments, Code.ifThen]
    simp (disch := decide) [Fields.get, text?, ElementHandle.ne_name, ElementRef.nodeName,
      ElementRef.forwardName]

theorem Tree.Gains.declarations {body gained : Tree} {hooks : List Tree}
    (gains : body.Gains hooks gained) :
    gained.countNodes (spells Kind.isBinding handle.name) =
      body.countNodes (spells Kind.isBinding handle.name) +
        countNodesInItems (spells Kind.isBinding handle.name) hooks := by
  cases gains with
  | block merge =>
    simp only [countNodes, countNodesInFields_append, countNodesInFields,
      countNodesInItems_perm _ merge.perm, countNodesInItems_append, spells, Kind.isBinding,
      Bool.false_and, Bool.toNat_false]
    omega
  | expression =>
    simp [Code.block, Code.returnValue, countNodes, countNodesInItems_append, countNodesInFields,
      countNodesInItems, spells, Kind.isBinding, Nat.add_comm]

namespace Rewriting

/-- A name is in a node after instrumentation if it was before. -/
theorem spells_images {counted : Kind → Bool} {name : String} {kind : Kind}
    {parts : List (Field × Rewriting)} (each : ∀ part ∈ parts, part.2.Allowed runtimeGlobal) :
    spells counted name kind (imagesInParts parts) =
      spells counted name kind (sourcesInParts parts) := by
  obtain ⟨part, allowed, image, source⟩ := get_inParts each .value
  rw [spells, spells, image, source, allowed.text?_image]

/-- The variable of a handle that the tree does not declare is declared after instrumentation by the
hooks that were put into the tree, and by nothing else. -/
def Accounted (handle : ElementHandle) (rewriting : Rewriting) : Prop :=
  rewriting.source.Lacks Kind.isBinding handle.name →
    (∀ element ∈ rewriting.changes.filterMap Change.tracked?, element.Spares handle) →
    rewriting.image.countNodes (spells Kind.isBinding handle.name) =
      Change.declarations handle rewriting.changes

theorem countNodesInItems_images {items : List Rewriting}
    (whole : ∀ item ∈ items, item.source.Lacks Kind.isBinding handle.name)
    (clean : ∀ element ∈ (items.flatMap changes).filterMap Change.tracked?, element.Spares handle)
    (each : ∀ item ∈ items, item.Accounted handle) :
    countNodesInItems (spells Kind.isBinding handle.name) (items.map image) =
      Change.declarations handle (items.flatMap changes) := by
  induction items with
  | nil => rfl
  | cons item rest ih =>
    simp only [List.flatMap_cons, List.filterMap_append, List.mem_append] at clean
    have first := each item List.mem_cons_self (whole item List.mem_cons_self)
      fun element member => clean element (Or.inl member)
    have later := ih (fun item member => whole item (List.mem_cons_of_mem _ member))
      (fun element member => clean element (Or.inr member))
      fun item member => each item (List.mem_cons_of_mem _ member)
    rw [List.map_cons, countNodesInItems, List.flatMap_cons, Change.declarations_append, later, first]

theorem countNodesInFields_images {parts : List (Field × Rewriting)}
    (whole : ∀ part ∈ parts, part.2.source.Lacks Kind.isBinding handle.name)
    (clean : ∀ element ∈ (changesInParts parts).filterMap Change.tracked?, element.Spares handle)
    (each : ∀ part ∈ parts, part.2.Accounted handle) :
    countNodesInFields (spells Kind.isBinding handle.name) (imagesInParts parts) =
      Change.declarations handle (changesInParts parts) := by
  induction parts with
  | nil => rfl
  | cons part rest ih =>
    simp only [changesInParts, List.flatMap_cons, List.filterMap_append, List.mem_append] at clean
    have first := each part List.mem_cons_self (whole part List.mem_cons_self)
      fun element member => clean element (Or.inl member)
    have later := ih (fun part member => whole part (List.mem_cons_of_mem _ member))
      (fun element member => clean element (Or.inr member))
      fun part member => each part (List.mem_cons_of_mem _ member)
    rw [imagesInParts, List.map_cons, countNodesInFields, changesInParts, List.flatMap_cons,
      Change.declarations_append, ← first]
    exact congrArg _ later

end Rewriting

theorem AttributesRewritten.declarations {attachment? : Option Attachment}
    {attributes images : List Tree} {within : List Rewriting} {changes : List Change}
    (rewritten : AttributesRewritten runtimeGlobal attachment? attributes within images changes)
    (whole : ∀ attr ∈ attributes, attr.Lacks Kind.isBinding handle.name)
    (spread : ∀ attachment ∈ attachment?,
      countNodesInItems (spells Kind.isBinding handle.name) attachment.spreads = 0)
    (clean : ∀ element ∈ changes.filterMap Change.tracked?, element.Spares handle)
    (each : ∀ item ∈ within, item.Accounted handle) :
    countNodesInItems (spells Kind.isBinding handle.name) images =
      Change.declarations handle changes := by
  cases rewritten with
  | plain =>
    apply Rewriting.countNodesInItems_images _ clean each
    intro item member
    exact whole _ (List.mem_map_of_mem member)
  | added _ gives =>
    rw [countNodesInItems_append, Change.declarations_append, countNodesInItems,
      gives.declarations (spread _ rfl)]
    simp only [List.filterMap_append, List.mem_append] at clean
    refine congrArg (· + _) (Rewriting.countNodesInItems_images ?_ ?_ each)
    · intro item member
      exact whole _ (List.mem_map_of_mem member)
    · intro element member
      exact clean element (Or.inl member)
  | @replaced attachment attr generated front back explicit elements hooks isRef expression arranged
      gives =>
    simp only [List.filterMap_append, List.mem_append, Change.filterMap_hooks_tracked?] at clean
    simp only [List.mem_append, List.mem_cons, List.mem_map] at whole
    have attrLacks := whole attr (Or.inr (Or.inl rfl))
    have explicitLacks := (hereditary_lacks Kind.isBinding handle.name).refExpression attrLacks
      expression
    have frontCount := Rewriting.countNodesInItems_images
      (fun item member => whole _ (Or.inl ⟨item, member, rfl⟩))
      (fun element member => clean element (Or.inl (Or.inl (Or.inl (Or.inl member)))))
      (fun item member => each item (by simp [member]))
    have backCount := Rewriting.countNodesInItems_images
      (fun item member => whole _ (Or.inr (Or.inr ⟨item, member, rfl⟩)))
      (fun element member => clean element (Or.inl (Or.inl (Or.inl (Or.inr member)))))
      (fun item member => each item (by simp [member]))
    have explicitCount := each explicit (by simp) explicitLacks
      (fun element member => clean element (Or.inl (Or.inl (Or.inr member))))
    have hooksCount := arranged.declarations fun element member =>
      clean element (Or.inl (Or.inr member))
    have generatedCount := gives.declarations (spread _ rfl)
    simp only [Option.toList_some, countNodesInItems, Nat.add_zero] at generatedCount
    simp only [countNodesInItems_append, countNodesInItems, Change.declarations_append, frontCount,
      backCount, generatedCount, explicitCount, hooksCount]
    simp [Change.declarations, Change.tracked?, Nat.add_assoc]

namespace Rewriting

theorem Allowed.declarations {rewriting : Rewriting} (allowed : rewriting.Allowed runtimeGlobal) :
    rewriting.Accounted handle := by
  have hereditary := hereditary_lacks Kind.isBinding handle.name
  have part {kind : Kind} {parts : List (Field × Rewriting)}
      (whole : (Tree.node kind (sourcesInParts parts)).Lacks Kind.isBinding handle.name) :
      ∀ part ∈ parts, part.2.source.Lacks Kind.isBinding handle.name := fun part member =>
    hereditary.part whole (List.mem_map.mpr ⟨part, member, rfl⟩)
  induction allowed with
  | unvisited | scalar => exact fun whole _ => whole.2
  | list each ih =>
    intro whole clean
    refine countNodesInItems_images (fun item member => ?_) clean ih
    exact hereditary.item whole (List.mem_map_of_mem member)
  | node unattributed each ih =>
    intro whole clean
    have absent := whole.2
    rw [countNodes, Nat.add_eq_zero_iff, ← spells_images each] at absent
    rw [countNodes, absent.1, Nat.zero_add]
    exact countNodesInFields_images (part whole) clean ih
  | @component kind early late body elements hooks gained isFunction each arranged gains ih =>
    intro whole clean
    simp only [List.filterMap_append, List.mem_append, Change.filterMap_hooks_tracked?] at clean
    have kept := countNodesInFields_images (part whole)
      (fun element member => clean element (Or.inl member)) ih
    have hooked := arranged.declarations fun element member => clean element (Or.inr member)
    have other : spells Kind.isBinding handle.name kind
        (imagesInParts early ++ (.body, gained) :: imagesInParts late) = false := by
      cases kind <;> first | rfl | exact absurd isFunction Bool.false_ne_true
    have split : imagesInParts (early ++ (.body, body) :: late) =
        imagesInParts early ++ (.body, body.image) :: imagesInParts late := List.map_append
    rw [split, countNodesInFields_append, countNodesInFields] at kept
    rw [countNodes, other, Bool.toNat_false, Nat.zero_add, Change.declarations_append, ← kept,
      ← hooked, countNodesInFields_append, countNodesInFields, gains.declarations]
    omega
  | @opening early late attributes images attachment? within inAttributes others spread each
      eachWithin rewritten ih ihWithin =>
    intro whole clean
    simp only [List.filterMap_append, List.mem_append] at clean
    have held {field : Field} {tree : Tree} (member : (field, tree) ∈ sourcesInParts early ++
        (.attributes, .list attributes) :: sourcesInParts late) :
        tree.Lacks Kind.isBinding handle.name := hereditary.part whole member
    have listed := held (List.mem_append_right _ List.mem_cons_self)
    have inList : ∀ attr ∈ attributes, attr.Lacks Kind.isBinding handle.name := fun attr member =>
      hereditary.item listed member
    have early' := countNodesInFields_images
      (fun part member => held (List.mem_append_left _ (List.mem_map.mpr ⟨part, member, rfl⟩)))
      (fun element member => clean element (Or.inl (Or.inl (Or.inr member))))
      (fun part member => ih part (List.mem_append_left _ member))
    have late' := countNodesInFields_images
      (fun part member => held (List.mem_append_right _ (List.mem_cons_of_mem _
        (List.mem_map.mpr ⟨part, member, rfl⟩))))
      (fun element member => clean element (Or.inr member))
      (fun part member => ih part (List.mem_append_right _ member))
    have middle := rewritten.declarations
      (fun attr member => inList attr (List.mem_of_mem_filter member))
      (fun attachment due => countNodesInItems_eq_zero _ fun expression member => by
        rw [(spread attachment due).1] at member
        exact (hereditary.trailingSpreads inList expression member).2)
      (fun element member => clean element (Or.inl (Or.inr member))) ihWithin
    have given : Change.declarations handle
        (attachment?.map fun attachment => Change.element attachment.handle).toList = 0 := by
      cases attachment? <;> rfl
    rw [countNodes, countNodesInFields_append, countNodesInFields, early', late', countNodes, middle]
    simp only [Change.declarations_append, given, spells, Kind.isBinding, Bool.false_and,
      Bool.toNat_false]
    omega

end Rewriting

theorem Tree.Gains.occurs {body gained : Tree} {hooks : List Tree} (gains : body.Gains hooks gained)
    {part : Tree} (unlisted : part.isList = false) (notBlock : part.isKind .blockStatement = false) :
    (part ∈ hooks → part.Occurs gained) ∧ (part.Occurs body → part.Occurs gained) := by
  cases gains with
  | @block early late statements merged merge =>
    have listed {statement : Tree} (member : statement ∈ merged) (occurs : part.Occurs statement) :
        part.Occurs (.node .blockStatement (early ++ (.stmts, .list merged) :: late)) :=
      .part (List.mem_append_right _ List.mem_cons_self) (.item member occurs)
    refine ⟨fun hook => listed (merge.perm.mem_iff.mpr (List.mem_append_right _ hook)) .self, ?_⟩
    intro occurs
    cases occurs with
    | self => cases notBlock
    | @part _ _ field item member within =>
      rcases List.mem_append.mp member with before | after
      · exact .part (List.mem_append_left _ before) within
      · rcases List.mem_cons.mp after with same | behind
        · obtain ⟨-, rfl⟩ := Prod.mk.inj same
          cases within with
          | self => cases unlisted
          | item found inside =>
            exact listed (merge.perm.mem_iff.mpr (List.mem_append_left _ found)) inside
        · exact .part (List.mem_append_right _ (List.mem_cons_of_mem _ behind)) within
  | expression =>
    constructor
    · intro hook
      exact .part List.mem_cons_self (.item (List.mem_append_left _ hook) .self)
    · intro occurs
      exact .part List.mem_cons_self
        (.item (List.mem_append_right _ List.mem_cons_self) (.part List.mem_cons_self occurs))

theorem Tracked.Arranged.mem {elements : List Tracked} {hooks : List Tree}
    (arranged : Tracked.Arranged runtimeGlobal elements hooks) {element : Tracked}
    (member : element ∈ elements) {hook : Tree} (own : hook ∈ element.hooks runtimeGlobal) :
    hook ∈ hooks := by
  obtain ⟨groups, perm, rfl⟩ := arranged
  apply List.mem_flatten.mpr
  exact ⟨element.hooks runtimeGlobal, perm.mem_iff.mpr (List.mem_map_of_mem member), own⟩

/-- Hooks are statements, but no blocks. -/
theorem Tracked.isStatement_of_mem {element : Tracked} {hook : Tree}
    (own : hook ∈ element.hooks runtimeGlobal) :
    hook.isList = false ∧ hook.isKind .blockStatement = false := by
  rcases List.mem_cons.mp own with rfl | later
  · exact ⟨rfl, rfl⟩
  · obtain ⟨⟨kind, value⟩, -, inside⟩ := List.mem_flatMap.mp later
    cases kind <;>
      simp only [Hooks.ofMarker, Hooks.click, Hooks.visibility, List.mem_cons, List.not_mem_nil,
        or_false] at inside
    · rcases inside with rfl | rfl | rfl <;> exact ⟨rfl, rfl⟩
    · rcases inside with rfl | rfl <;> exact ⟨rfl, rfl⟩

theorem Attachment.Gives.occurs {attachment : Attachment} {expression : Tree} {hooks : List Tree}
    {generated : Tree} (gives : attachment.Gives (some expression) hooks generated) (part : Tree) :
    (part ∈ hooks → part.Occurs generated) ∧ (part.Occurs expression → part.Occurs generated) := by
  cases gives with
  | handle unforwarded =>
    obtain ⟨reference, found⟩ := ElementRef.exists_forwarded expression attachment.spreads
    cases found.symm.trans unforwarded
  | @function reference body forwarded merge =>
    have inBody {statement : Tree} (member : statement ∈ body) (occurs : part.Occurs statement) :
        part.Occurs (Code.jsxAttribute "ref" (ElementRef.forwardingFunction body)) :=
      .part (List.mem_cons_of_mem _ List.mem_cons_self) (.part List.mem_cons_self
        (.part (List.mem_cons_of_mem _ List.mem_cons_self) (.part List.mem_cons_self
          (.item member occurs))))
    constructor
    · intro hook
      exact inBody (merge.perm.mem_iff.mpr (List.mem_append_right _ hook)) .self
    · intro occurs
      have stored : part.Occurs (Code.constant ElementRef.forwardName reference) :=
        .part List.mem_cons_self (.item List.mem_cons_self
          (.part (List.mem_cons_of_mem _ List.mem_cons_self)
            (ElementRef.occurs_forwarded forwarded occurs)))
      exact inBody (merge.perm.mem_iff.mpr (List.mem_append_left _
        (List.mem_cons_of_mem _ List.mem_cons_self))) stored

namespace Rewriting

theorem mem_changesInParts {parts : List (Field × Rewriting)} {change : Change} :
    change ∈ changesInParts parts ↔ ∃ part ∈ parts, change ∈ part.2.changes :=
  List.mem_flatMap

theorem mem_imagesInParts {parts : List (Field × Rewriting)} {part : Field × Rewriting}
    (member : part ∈ parts) : (part.1, part.2.image) ∈ imagesInParts parts :=
  List.mem_map.mpr ⟨part, member, rfl⟩

end Rewriting

theorem AttributesRewritten.occurs_hook {attachment? : Option Attachment}
    {attributes images : List Tree} {within : List Rewriting} {changes : List Change}
    (rewritten : AttributesRewritten runtimeGlobal attachment? attributes within images changes)
    {element : Tracked} (member : Change.hooks element ∈ changes) {hook : Tree}
    (own : hook ∈ element.hooks runtimeGlobal)
    (each : ∀ item ∈ within, Change.hooks element ∈ item.changes → hook.Occurs item.image) :
    ∃ image ∈ images, hook.Occurs image := by
  cases rewritten with
  | plain =>
    obtain ⟨item, among, inside⟩ := List.mem_flatMap.mp member
    exact ⟨item.image, List.mem_map_of_mem among, each item among inside⟩
  | added _ gives =>
    rcases List.mem_append.mp member with here | other
    · obtain ⟨item, among, inside⟩ := List.mem_flatMap.mp here
      exact ⟨item.image, List.mem_append_left _ (List.mem_map_of_mem among), each item among inside⟩
    · cases List.mem_singleton.mp other
  | @replaced attachment attr generated front back explicit elements hooks isRef expression arranged
      gives =>
    have generatedOccurs := gives.occurs hook
    simp only [List.mem_append, List.mem_flatMap, List.mem_map, List.mem_singleton] at member
    rcases member with (((⟨item, among, inside⟩ | ⟨item, among, inside⟩) | inside) |
      ⟨other, among, same⟩) | impossible
    · refine ⟨item.image, ?_, each item (by simp [among]) inside⟩
      exact List.mem_append_left _ (List.mem_append_left _ (List.mem_map_of_mem among))
    · refine ⟨item.image, ?_, each item (by simp [among]) inside⟩
      exact List.mem_append_left _ (List.mem_append_right _ (List.mem_map_of_mem among))
    · exact ⟨generated, by simp, generatedOccurs.2 (each explicit (by simp) inside)⟩
    · obtain rfl := Change.hooks.inj same
      exact ⟨generated, by simp, generatedOccurs.1 (arranged.mem among own)⟩
    · cases impossible

/-- The hooks of an element that a function gets stand in the rewritten tree. -/
theorem Rewriting.Allowed.occurs_hook {rewriting : Rewriting}
    (allowed : rewriting.Allowed runtimeGlobal) {element : Tracked}
    (member : Change.hooks element ∈ rewriting.changes) {hook : Tree}
    (own : hook ∈ element.hooks runtimeGlobal) : hook.Occurs rewriting.image := by
  induction allowed with
  | unvisited => cases List.mem_singleton.mp member
  | scalar => exact absurd member List.not_mem_nil
  | list each ih =>
    obtain ⟨item, among, inside⟩ := List.mem_flatMap.mp member
    exact .item (List.mem_map_of_mem among) (ih item among inside)
  | node unattributed each ih =>
    obtain ⟨part, among, inside⟩ := mem_changesInParts.mp member
    exact .part (mem_imagesInParts among) (ih part among inside)
  | @component kind early late body elements hooks gained isFunction each arranged gains ih =>
    obtain ⟨unlisted, noBlock⟩ := Tracked.isStatement_of_mem own
    have gainedOccurs : (hook ∈ hooks → hook.Occurs gained) ∧ _ := gains.occurs unlisted noBlock
    have inBody (occurs : hook.Occurs gained) :
        hook.Occurs (.node kind (imagesInParts early ++ (.body, gained) :: imagesInParts late)) :=
      .part (List.mem_append_right _ List.mem_cons_self) occurs
    rcases List.mem_append.mp member with kept | hooked
    · obtain ⟨part, among, inside⟩ := mem_changesInParts.mp kept
      have occurs := ih part among inside
      rcases List.mem_append.mp among with before | after
      · exact .part (List.mem_append_left _ (mem_imagesInParts before)) occurs
      · rcases List.mem_cons.mp after with rfl | behind
        · exact inBody (gainedOccurs.2 occurs)
        · exact .part (List.mem_append_right _ (List.mem_cons_of_mem _ (mem_imagesInParts behind)))
            occurs
    · obtain ⟨other, among, same⟩ := List.mem_map.mp hooked
      obtain rfl := Change.hooks.inj same
      exact inBody (gainedOccurs.1 (arranged.mem among own))
  | @opening early late attributes images attachment? within inAttributes others spread each
      eachWithin rewritten ih ihWithin =>
    simp only [List.mem_append, mem_changesInParts] at member
    rcases member with ((given | ⟨part, among, inside⟩) | inside) | ⟨part, among, inside⟩
    · cases attachment? with
      | none => cases given
      | some attachment => cases List.mem_singleton.mp given
    · exact .part (List.mem_append_left _ (mem_imagesInParts among))
        (ih part (List.mem_append_left _ among) inside)
    · obtain ⟨image, found, occurs⟩ := rewritten.occurs_hook inside own ihWithin
      exact .part (List.mem_append_right _ List.mem_cons_self) (.item found occurs)
    · exact .part (List.mem_append_right _ (List.mem_cons_of_mem _ (mem_imagesInParts among)))
        (ih part (List.mem_append_right _ among) inside)

end

theorem Change.mem_tracked {changes : List Change} {element : Tracked} :
    element ∈ changes.filterMap tracked? ↔ hooks element ∈ changes := by
  rw [List.mem_filterMap]
  constructor
  · rintro ⟨change, member, found⟩
    cases change with
    | hooks other =>
      obtain rfl := Option.some.inj found
      exact member
    | unvisited | element | reference => cases found
  · intro member
    exact ⟨hooks element, member, rfl⟩

/-- The instrumented elements are those with a handle. -/
theorem map_handle_tracked (treatments : List Treatment) :
    (treatments.filterMap Treatment.tracked?).map Tracked.handle = Woven.handles treatments := by
  rw [List.map_filterMap, Woven.handles]
  congr 1
  funext treatment
  rw [Treatment.tracked?, Option.map_map]
  exact Option.map_id'

section

variable {source? : Option String} {items : List Tree} (fits : (Tree.list items).HooksFit)
include fits

/-- What is woven from a well-formed module declares the variable of each handle once. -/
theorem declarations_once {visited : List Tree} {runtimeGlobal : String}
    (allowed : Rewriting.Allowed runtimeGlobal
      ⟨.list items, .list visited, Woven.changesInItems (weaveModule source? items)⟩)
    {handle : ElementHandle}
    (given : handle ∈ Woven.handles (Woven.treatmentsInItems (weaveModule source? items))) :
    Tree.countNodesInItems (Tree.isCopy (Hooks.declaration handle)) visited = 1 ∧
      Tree.countNodesInItems (Tree.spells Kind.isBinding handle.name) visited = 1 := by
  obtain ⟨distinct, fresh⟩ := weaveModule_handles source? items
  have names (kind : Kind) : kind.isBinding = true → kind.isVariable = true :=
    Kind.isVariable_of_isBinding
  have hosted := tracked_changes_perm source? fits
  have lacks : (Tree.list items).Lacks Kind.isBinding handle.name :=
    ⟨fits.1, Tree.countNodesInItems_spells_eq_zero names items fits.1
      (fresh handle given handle.name List.mem_cons_self)⟩
  have clean : ∀ element ∈ (Woven.changesInItems (weaveModule source? items)).filterMap
      Change.tracked?, element.Spares handle := by
    intro element member
    obtain ⟨treatment, found, same⟩ := List.mem_filterMap.mp (hosted.mem_iff.mp member)
    obtain ⟨own, -, rfl⟩ := Option.map_eq_some_iff.mp same
    exact fun expression among =>
      (values_of_visited found (Tree.hereditary_lacks Kind.isBinding handle.name) lacks expression
        among).2
  have binds : Tree.countNodesInItems (Tree.spells Kind.isBinding handle.name) visited = 1 := by
    refine (allowed.declarations lacks clean).trans ?_
    rw [Change.declarations, hosted.countP_eq, ← List.count_eq_one_of_mem distinct given,
      ← map_handle_tracked, List.count, List.countP_map]
    congr 1
  obtain ⟨treatment, found, own⟩ := List.mem_filterMap.mp given
  have tracked : Change.hooks ⟨handle, treatment.markers⟩ ∈
      Woven.changesInItems (weaveModule source? items) := by
    apply Change.mem_tracked.mp
    apply hosted.mem_iff.mpr
    exact List.mem_filterMap.mpr ⟨treatment, found, by rw [Treatment.tracked?, own]; rfl⟩
  refine ⟨Nat.le_antisymm ?_ ?_, binds⟩
  · rw [← binds]
    exact Tree.countNodesInItems_isCopy_le (Hooks.declaration_copies handle)
      (Hooks.declaration_binds handle) visited
  · rw [← Hooks.declaration_copies handle]
    exact (allowed.occurs_hook tracked List.mem_cons_self).countNodes_le _

end

/-- A point and a call of the runtime tell of the same marker: the call passes the name of the point,
if that is known, and the expression of the marker otherwise. -/
inductive TrackingPoint.Reports (point : TrackingPoint) :
    MarkerKind × MarkerValue → String × Tree → Prop
  | literal (known : point.dynamic = false) :
      Reports point (point.kind, .literal point.name) (point.kind.label, Code.string point.name)
  | dynamic {expression : Tree} (unknown : point.dynamic = true) (recorded : point.name = "dynamic") :
      Reports point (point.kind, .dynamic expression) (point.kind.label, expression)

/-- The outputs for a module tell the same of the elements that were visited, which were treated in
the given ways, and of the changes made to the module. -/
structure ModuleOutput.Agrees (output : ModuleOutput) (runtimeGlobal file : String)
    (treatments : List Treatment) (changes : List Change) : Prop where
  /-- An element with a usable marker is refused and gets no handle and no points, or it is not
  refused and gets a handle. -/
  decided : ∀ treatment ∈ treatments, treatment.markers.hasValues = true →
    (treatment.refusal? file).isSome = true ∧ treatment.tracked? = none ∨
      treatment.refusal? file = none ∧ treatment.tracked?.isSome = true
  /-- There is one diagnostic for each element that is refused. -/
  refusals : output.diagnostics.filter (fun diagnostic => diagnostic.code = .unsupportedPlacement) =
    treatments.filterMap (Treatment.refusal? file)
  /-- The instrumented elements get the handles, in visiting order. -/
  elements : changes.filterMap Change.handle? = treatments.filterMap Treatment.handle?
  /-- The handles are given out in increasing order. -/
  increasing : (changes.filterMap Change.handle?).Pairwise (·.index < ·.index)
  /-- Each of these elements gets one generated reference, behind those of the elements in its
  attributes. -/
  references : (changes.filterMap Change.attached?).Perm (changes.filterMap Change.handle?)
  /-- The variable of each handle is declared once. -/
  declared : ∀ handle ∈ changes.filterMap Change.handle?,
    Tree.countNodesInItems (Tree.isCopy (Hooks.declaration handle)) output.items = 1
  /-- As many handles are counted. -/
  handles : output.handles = (changes.filterMap Change.handle?).length
  /-- Every instrumented element has its hooks put into the module, once. -/
  hooks : (changes.filterMap Change.tracked?).Perm (treatments.filterMap Treatment.tracked?)
  /-- An element has at most one value for each kind of marker, show before click. -/
  kinds : ∀ treatment ∈ treatments,
    (treatment.markers.values.map Prod.fst).Sublist [.visible, .click]
  /-- Points and calls of the runtime in the hooks go together, one of each for each value of an
  instrumented element, in visiting order. -/
  reported : ∃ reports : List (TrackingPoint × (MarkerKind × MarkerValue) × (String × Tree)),
    (∀ report ∈ reports, report.1.Reports report.2.1 report.2.2) ∧
    reports.map Prod.fst = output.points ∧
    reports.map (fun report => report.2.1) =
      (treatments.filterMap Treatment.tracked?).flatMap (fun element => element.markers.values) ∧
    reports.map (fun report => report.2.2) =
      (treatments.filterMap Treatment.tracked?).flatMap (fun element =>
        (element.hooks runtimeGlobal).filterMap (Tree.firstCall? runtimeGlobal))

/-- An element is refused or instrumented if it has a marker with a value. -/
theorem Treatment.Suits.decided {treatment : Treatment} {enclosure : Enclosure} {parts : Fields}
    (suits : treatment.Suits enclosure parts) (valued : treatment.markers.hasValues = true)
    (file : String) :
    (treatment.refusal? file).isSome = true ∧ treatment.tracked? = none ∨
      treatment.refusal? file = none ∧ treatment.tracked?.isSome = true := by
  have outcome := suits.outcome
  cases decision : treatment.outcome with
  | plain =>
    rw [decision] at outcome
    exact absurd (outcome.symm.trans valued) Bool.false_ne_true
  | refused reason =>
    left
    simp [Treatment.refusal?, Treatment.tracked?, Treatment.handle?, Treatment.allocation?, decision]
  | instrumented allocation position shared =>
    right
    simp [Treatment.refusal?, Treatment.tracked?, Treatment.handle?, Treatment.allocation?, decision]

theorem ElementMarkers.kinds_values (markers : ElementMarkers) :
    (markers.values.map Prod.fst).Sublist [.visible, .click] := by
  obtain ⟨visible?, click?, missing⟩ := markers
  cases visible? <;> cases click? <;> simp [values]

namespace Treatment

/-- What is told of the values of an element: a point and a call of the runtime for each. -/
def reports (file : String) (treatment : Treatment) :
    List (TrackingPoint × (MarkerKind × MarkerValue) × (String × Tree)) :=
  treatment.tracked?.toList.flatMap fun element => element.markers.values.map fun (kind, value) =>
    (.ofMarker kind value treatment.elementName file, (kind, value), (kind.label, value.expression))

theorem reports_agree {file : String} {treatment : Treatment}
    {report : TrackingPoint × (MarkerKind × MarkerValue) × (String × Tree)}
    (member : report ∈ treatment.reports file) : report.1.Reports report.2.1 report.2.2 := by
  obtain ⟨element, -, among⟩ := List.mem_flatMap.mp member
  obtain ⟨⟨kind, value⟩, -, rfl⟩ := List.mem_map.mp among
  cases value with
  | literal name => exact .literal rfl
  | dynamic expression => exact .dynamic rfl rfl

theorem points_reports (file : String) (treatment : Treatment) :
    (treatment.reports file).map Prod.fst = treatment.points file := by
  simp only [reports, points, List.map_flatMap, List.map_map]
  rfl

theorem values_reports (file : String) (treatment : Treatment) :
    (treatment.reports file).map (fun report => report.2.1) =
      treatment.tracked?.toList.flatMap fun element => element.markers.values := by
  simp only [reports, List.map_flatMap, List.map_map]
  exact List.flatMap_congr fun element _ => List.map_id _

theorem calls_reports (runtimeGlobal file : String) (treatment : Treatment) :
    (treatment.reports file).map (fun report => report.2.2) =
      treatment.tracked?.toList.flatMap fun element =>
        (element.hooks runtimeGlobal).filterMap (Tree.firstCall? runtimeGlobal) := by
  simp only [reports, List.map_flatMap, List.map_map, Tracked.calls_hooks]
  rfl

/-- What is told of the instrumented elements is told of them one by one. -/
theorem flatMap_tracked {α : Type} (treatments : List Treatment) (told : Tracked → List α) :
    treatments.flatMap (fun treatment => treatment.tracked?.toList.flatMap told) =
      (treatments.filterMap tracked?).flatMap told := by
  rw [List.filterMap_eq_flatMap_toList, List.flatMap_assoc]

theorem findings_points (file : String) (treatments : List Treatment) :
    (treatments.flatMap (findings file)).filterMap Finding.point? =
        treatments.flatMap (points file) ∧
      (treatments.flatMap (findings file)).filterMap (Finding.refusal? file) =
        treatments.filterMap (refusal? file) := by
  rw [List.filterMap_flatMap, List.filterMap_flatMap, List.filterMap_eq_flatMap_toList]
  constructor <;> apply List.flatMap_congr <;> intro treatment _
  · exact (findings_spec file treatment).1
  · exact (findings_spec file treatment).2

end Treatment

/-- An instrumented module declares the variable of each handle once. -/
theorem instrumentModule_declares (options : Options) (file : String) {source? : Option String}
    {items : List Tree} (fits : (Tree.list items).HooksFit) {handle : ElementHandle}
    (given : handle ∈ Woven.handles (Woven.treatmentsInItems (weaveModule source? items))) :
    Tree.countNodesInItems (Tree.isCopy (Hooks.declaration handle))
      (instrumentModule options file source? items).items = 1 := by
  obtain ⟨added, -, -, interleaved⟩ := instrumentModule_interleaved options file source? items
  obtain ⟨copies, binds⟩ :=
    declarations_once fits (weaveModule_rewritten options.runtimeGlobal source? fits.1) given
  have bound : Tree.countNodesInItems (Tree.spells Kind.isBinding handle.name)
      (instrumentModule options file source? items).items = 1 := by
    rw [← binds]
    unfold instrumentModule
    simp only
    split
    · rfl
    · exact Imports.countNodesInItems_inject (fun _ => Kind.isVariable_of_isBinding) handle _ _
  apply Nat.le_antisymm
  · rw [← bound]
    exact Tree.countNodesInItems_isCopy_le (Hooks.declaration_copies handle)
      (Hooks.declaration_binds handle) _
  · rw [Tree.countNodesInItems_perm _ interleaved.perm, Tree.countNodesInItems_append, copies]
    exact Nat.le_add_right 1 _

section

variable (options : Options) (file : String) (source? : Option String) {items : List Tree}

/-- Nothing is told of a module without markers. -/
theorem agrees_of_unmarked (unmarked : Tree.hasMarkersInItems items = false) :
    ModuleOutput.Agrees
      { items, points := [], diagnostics := [], instrumented := false, handles := 0 }
      options.runtimeGlobal file (Woven.treatmentsInItems (weaveModule source? items))
      [.unvisited (.list items)] := by
  have bare {treatment : Treatment}
      (visited : treatment ∈ Woven.treatmentsInItems (weaveModule source? items)) :=
    markers_of_unmarked visited unmarked
  have unhandled : (Woven.treatmentsInItems (weaveModule source? items)).filterMap
      Treatment.handle? = [] := by
    apply List.filterMap_eq_nil_iff.mpr
    intro treatment visited
    simp [Treatment.handle?, Treatment.allocation?, (bare visited).2]
  have untracked : (Woven.treatmentsInItems (weaveModule source? items)).filterMap
      Treatment.tracked? = [] := by
    apply List.filterMap_eq_nil_iff.mpr
    intro treatment visited
    simp [Treatment.tracked?, Treatment.handle?, Treatment.allocation?, (bare visited).2]
  refine
    { decided := fun treatment visited valued => ?_
      refusals := ?_
      elements := unhandled.symm
      increasing := .nil
      references := .nil
      declared := fun handle impossible => absurd impossible List.not_mem_nil
      handles := rfl
      hooks := untracked ▸ .nil
      kinds := fun treatment _ => treatment.markers.kinds_values
      reported := ⟨[], ?_⟩ }
  · rw [(bare visited).1] at valued
    cases valued
  · symm
    apply List.filterMap_eq_nil_iff.mpr
    intro treatment visited
    simp [Treatment.refusal?, (bare visited).2]
  · rw [untracked]
    exact ⟨fun report impossible => absurd impossible List.not_mem_nil, rfl, rfl, rfl⟩

/-- What is told of a module with markers agrees with the changes made to it. -/
theorem agrees_of_marked (registry : Registry) (fits : (Tree.list items).HooksFit)
    (marked : Tree.hasMarkersInItems items = true) :
    (transformModule options registry file source? items).1.Agrees options.runtimeGlobal file
      (Woven.treatmentsInItems (weaveModule source? items))
      (Woven.changesInItems (weaveModule source? items)) := by
  obtain ⟨points, diagnostics⟩ := registry.settle_spec file
    (instrumentModule options file source? items).findings
    (fun diagnostic => diagnostic.code = .unsupportedPlacement)
    fun diagnostic duplicate => by simp [duplicate]
  rw [Finding.refusals_eq] at diagnostics
  obtain ⟨pointed, refused⟩ :=
    Treatment.findings_points file (Woven.treatmentsInItems (weaveModule source? items))
  obtain ⟨after, weaves⟩ := weaveModule_weaves source? items
  have handles := Woven.handles_changesInItems (weaveModule source? items)
  rw [transformModule, if_pos marked]
  refine
    { decided := fun treatment visited valued => ?_
      refusals := diagnostics.trans refused
      elements := handles
      increasing := ?_
      references := (weaveModule_rewritten options.runtimeGlobal source? fits.1).attached_perm
      declared := fun handle given => instrumentModule_declares options file fits (handles ▸ given)
      handles := congrArg List.length handles.symm
      hooks := tracked_changes_perm source? fits
      kinds := fun treatment _ => treatment.markers.kinds_values
      reported := ⟨(Woven.treatmentsInItems (weaveModule source? items)).flatMap
        (Treatment.reports file), fun report member => ?_, ?_, ?_, ?_⟩ }
  · obtain ⟨enclosure, parts, suits, -⟩ := exists_suits visited Tree.hereditary_isWellFormed fits.1
    exact suits.decided valued file
  · rw [handles, Woven.handles_eq]
    exact weaves.gives.free.1
  · obtain ⟨treatment, -, among⟩ := List.mem_flatMap.mp member
    exact Treatment.reports_agree among
  · rw [List.map_flatMap]
    refine Eq.trans ?_ (points.trans pointed).symm
    exact List.flatMap_congr fun treatment _ => treatment.points_reports file
  · rw [List.map_flatMap, ← Treatment.flatMap_tracked]
    exact List.flatMap_congr fun treatment _ => treatment.values_reports file
  · rw [List.map_flatMap, ← Treatment.flatMap_tracked]
    exact List.flatMap_congr fun treatment _ => treatment.calls_reports options.runtimeGlobal file

end

/-- `return <span data-track-click={"open"} icon={<b data-track-click={"pick"} />} />;` -/
def labelledStatement : Tree :=
  Code.returnValue (.node .jsxElement
    [(.opening, .node .jsxOpeningElement
      [(.name, Code.reference "span"),
        (.attributes, .list
          [Code.jsxAttribute "data-track-click" (Code.string "open"),
            Code.jsxAttribute "icon"
              (markedElement "b" "data-track-click" (Code.string "pick"))])])])

end JsxTracking
