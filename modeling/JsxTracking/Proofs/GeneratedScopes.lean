import JsxTracking.Proofs.InsertedScopes

/-! # The scopes of generated code

Generated code has places to fill: the value of a marker in its hooks, and the reference that a
function forwards to. `Code.hole` stands in such a place. A spot is a hole or a mention of a variable,
and `Tree.boundAround` tells what generated code binds around its spots: around the values of markers
(`Hooks.boundAroundValue_visible`, `Hooks.boundAroundValue_click`), around a forwarded reference
(`ElementRef.boundAroundReference_eq`), and around the variables that hooks use from outside
(`Hooks.reachOut_iff`). -/

namespace JsxTracking

open JsxTracking.Tree

namespace Code

/-- A place in generated code that is to be filled. -/
def hole : Tree :=
  .node (.other "Hole") []

/-- What is looked for in generated code. -/
inductive Spot where
  | hole
  | mention (name : String)
  deriving DecidableEq, Repr, Inhabited

/-- Whether a node is such a spot. -/
def Spot.isAt : Spot → Kind → Fields → Bool
  | hole, .other tag, _ => tag = "Hole"
  | mention name, .identifier, fields => (fields.get .value).text? = some name
  | _, _, _ => false

mutual

/-- Generated code with an expression in place of its holes. -/
def fill (expression : Tree) : Tree → Tree
  | node kind fields =>
    if Spot.hole.isAt kind fields then expression else node kind (fillInFields expression fields)
  | list items => list (fillInItems expression items)
  | tree => tree

/-- A list of trees with an expression in place of their holes. -/
def fillInItems (expression : Tree) : List Tree → List Tree
  | [] => []
  | item :: rest => fill expression item :: fillInItems expression rest

/-- The parts of a node with an expression in place of their holes. -/
def fillInFields (expression : Tree) : List (Field × Tree) → List (Field × Tree)
  | [] => []
  | (field, part) :: rest => (field, fill expression part) :: fillInFields expression rest

end

/-- What generated code binds around its spots. -/
def bound (spot : Spot) (tree : Tree) : List (List String) :=
  tree.boundAround spot.isAt

section

variable (spot : Spot)

theorem bound_list (items : List Tree) : bound spot (.list items) = items.flatMap (bound spot) := by
  rw [bound, boundAround]
  induction items with
  | nil => rfl
  | cons item rest ih => rw [boundAroundInItems, ih, List.flatMap_cons, bound]

/-- A node that is no spot binds nothing by itself if it puts no scopes around its parts. -/
theorem bound_plain {kind : Kind} {fields : Fields}
    (unscoped : ∀ field, scopesIn kind fields field = []) (other : spot.isAt kind fields = false) :
    bound spot (.node kind fields) = fields.flatMap fun part => bound spot part.2 := by
  have within (parts : Fields) : boundAroundInFields spot.isAt kind fields parts =
      parts.flatMap fun part => bound spot part.2 := by
    induction parts with
    | nil => rfl
    | cons part rest ih =>
      rw [boundAroundInFields, ih, unscoped, List.flatMap_cons, bound]
      simp [Scope.allNames]
  rw [bound, boundAround, other, within]
  rfl

@[simp]
theorem bound_hole : bound .hole hole = [[]] :=
  rfl

@[simp]
theorem bound_mention_hole (name : String) : bound (.mention name) hole = [] :=
  rfl

@[simp]
theorem bound_hole_reference (name : String) : bound .hole (reference name) = [] :=
  rfl

@[simp]
theorem bound_mention_reference (name other : String) :
    bound (.mention name) (reference other) = if other = name then [[]] else [] := by
  by_cases same : other = name <;>
    simp [bound, reference, boundAround, boundAroundInFields, Spot.isAt, Fields.get, text?, same]

@[simp]
theorem bound_binding (name : String) : bound spot (binding name) = [] := by
  cases spot <;> rfl

@[simp]
theorem bound_propertyName (name : String) : bound spot (propertyName name) = [] := by
  cases spot <;> rfl

@[simp]
theorem bound_str (text : String) : bound spot (.str text) = [] :=
  rfl

@[simp]
theorem bound_string (value : String) : bound spot (string value) = [] := by
  cases spot <;> rfl

@[simp]
theorem bound_number (numeral : String) : bound spot (number numeral) = [] := by
  cases spot <;> rfl

@[simp]
theorem bound_nullLiteral : bound spot nullLiteral = [] := by
  cases spot <;> rfl

@[simp]
theorem bound_returnNothing : bound spot returnNothing = [] := by
  cases spot <;> rfl

@[simp]
theorem bound_member (object : Tree) (property : String) :
    bound spot (member object property) = bound spot object :=
  (bound_plain spot (fun _ => rfl) (by cases spot <;> rfl)).trans (by simp)

@[simp]
theorem bound_arguments (values : List Tree) :
    bound spot (arguments values) = values.flatMap (bound spot) := by
  rw [arguments, bound_list, List.flatMap_map]
  exact List.flatMap_congr fun value _ =>
    (bound_plain spot (fun _ => rfl) (by cases spot <;> rfl)).trans (by simp)

@[simp]
theorem bound_call (callee : Tree) (values : List Tree) :
    bound spot (call callee values) = bound spot callee ++ values.flatMap (bound spot) :=
  (bound_plain spot (fun _ => rfl) (by cases spot <;> rfl)).trans (by simp)

@[simp]
theorem bound_construct (callee : String) (values : List Tree) :
    bound spot (construct callee values) =
      bound spot (reference callee) ++ values.flatMap (bound spot) :=
  (bound_plain spot (fun _ => rfl) (by cases spot <;> rfl)).trans (by simp)

@[simp]
theorem bound_array (values : List Tree) :
    bound spot (array values) = values.flatMap (bound spot) :=
  (bound_plain spot (fun _ => rfl) (by cases spot <;> rfl)).trans (by simp)

@[simp]
theorem bound_object (members : List (String × Tree)) :
    bound spot (object members) = members.flatMap fun member => bound spot member.2 := by
  refine (bound_plain spot (fun _ => rfl) (by cases spot <;> rfl)).trans ?_
  simp only [List.flatMap_cons, List.flatMap_nil, List.append_nil, bound_list, List.flatMap_map]
  exact List.flatMap_congr fun member _ =>
    (bound_plain spot (fun _ => rfl) (by cases spot <;> rfl)).trans (by simp)

@[simp]
theorem bound_unary (operator : String) (argument : Tree) :
    bound spot (unary operator argument) = bound spot argument :=
  (bound_plain spot (fun _ => rfl) (by cases spot <;> rfl)).trans (by simp)

@[simp]
theorem bound_binary (operator : String) (left right : Tree) :
    bound spot (binary operator left right) = bound spot left ++ bound spot right :=
  (bound_plain spot (fun _ => rfl) (by cases spot <;> rfl)).trans (by simp)

@[simp]
theorem bound_assignMember (object : Tree) (property : String) (value : Tree) :
    bound spot (assignMember object property value) = bound spot object ++ bound spot value :=
  (bound_plain spot (fun _ => rfl) (by cases spot <;> rfl)).trans (by simp)

@[simp]
theorem bound_perform (expression : Tree) :
    bound spot (perform expression) = bound spot expression :=
  (bound_plain spot (fun _ => rfl) (by cases spot <;> rfl)).trans (by simp)

@[simp]
theorem bound_returnValue (value : Tree) : bound spot (returnValue value) = bound spot value :=
  (bound_plain spot (fun _ => rfl) (by cases spot <;> rfl)).trans (by simp)

@[simp]
theorem bound_constant (name : String) (value : Tree) :
    bound spot (constant name value) = bound spot value := by
  have declarator : bound spot (.node .variableDeclarator
      [(.id, binding name), (.initializer, value)]) = bound spot value :=
    (bound_plain spot (fun _ => rfl) (by cases spot <;> rfl)).trans (by simp)
  exact (bound_plain spot (fun _ => rfl) (by cases spot <;> rfl)).trans
    (by simp [bound_list, declarator])

/-- A block binds what its statements declare. -/
@[simp]
theorem bound_block (statements : List Tree) : bound spot (block statements) =
    (statements.flatMap (bound spot)).map (· ++ (Scope.ofStatements statements).names) := by
  have other : spot.isAt .blockStatement [(.stmts, .list statements)] = false := by
    cases spot <;> rfl
  have scopes : Scope.allNames (scopesIn .blockStatement [(.stmts, .list statements)] .stmts) =
      (Scope.ofStatements statements).names := List.append_nil _
  rw [block, bound, boundAround, other, boundAroundInFields, boundAroundInFields, scopes, ← bound,
    bound_list]
  simp

@[simp]
theorem bound_ifThen (test : Tree) (statements : List Tree) :
    bound spot (ifThen test statements) = bound spot test ++ bound spot (block statements) :=
  (bound_plain spot (fun _ => rfl) (by cases spot <;> rfl)).trans (by simp)

@[simp]
theorem bound_ifThenElse (test : Tree) (statements : List Tree) (otherwise : Tree) :
    bound spot (ifThenElse test statements otherwise) =
      bound spot test ++ bound spot (block statements) ++ bound spot otherwise :=
  (bound_plain spot (fun _ => rfl) (by cases spot <;> rfl)).trans (by simp)

/-- An arrow function binds its parameters, and around its body what it declares by `var`. -/
@[simp]
theorem bound_arrowTo (parameters : List Tree) (body : Tree) : bound spot (arrowTo parameters body) =
    (parameters.flatMap (bound spot)).map (· ++ gatherInItems .pattern parameters) ++
      (bound spot body).map (· ++ (body.gather .vars ++ gatherInItems .pattern parameters)) := by
  have other : spot.isAt .arrowFunctionExpression
      [(.params, .list parameters), (.body, body)] = false := by
    cases spot <;> rfl
  have ofParameters : Scope.allNames (scopesIn .arrowFunctionExpression
      [(.params, .list parameters), (.body, body)] .params) = gatherInItems .pattern parameters := by
    change ((gatherInItems .pattern parameters ++ []) ++ []) ++ [] = _
    simp only [List.append_nil]
  have ofBody : Scope.allNames (scopesIn .arrowFunctionExpression
      [(.params, .list parameters), (.body, body)] .body) =
      body.gather .vars ++ gatherInItems .pattern parameters := by
    change (body.gather .vars ++ []) ++ (((gatherInItems .pattern parameters ++ []) ++ []) ++ []) = _
    simp only [List.append_nil]
  rw [arrowTo, bound, boundAround, other, boundAroundInFields, boundAroundInFields,
    boundAroundInFields, ofParameters, ofBody, ← bound, ← bound, bound_list]
  simp

end

/-! Of the statements, only declarations declare something. -/

section

variable (name : String) (value test : Tree) (statements rest : List Tree)

@[simp]
theorem names_nil : (Scope.ofStatements []).names = [] :=
  rfl

@[simp]
theorem names_constant : (Scope.ofStatements (constant name value :: rest)).names =
    name :: (Scope.ofStatements rest).names :=
  rfl

@[simp]
theorem names_perform : (Scope.ofStatements (perform value :: rest)).names =
    (Scope.ofStatements rest).names :=
  rfl

@[simp]
theorem names_returnValue : (Scope.ofStatements (returnValue value :: rest)).names =
    (Scope.ofStatements rest).names :=
  rfl

@[simp]
theorem names_returnNothing : (Scope.ofStatements (returnNothing :: rest)).names =
    (Scope.ofStatements rest).names :=
  rfl

@[simp]
theorem names_ifThen : (Scope.ofStatements (ifThen test statements :: rest)).names =
    (Scope.ofStatements rest).names :=
  rfl

@[simp]
theorem names_ifThenElse (otherwise : Tree) :
    (Scope.ofStatements (ifThenElse test statements otherwise :: rest)).names =
      (Scope.ofStatements rest).names :=
  rfl

@[simp]
theorem vars_constant : (constant name value).gather .vars = [] :=
  rfl

@[simp]
theorem vars_perform : (perform value).gather .vars = [] :=
  rfl

@[simp]
theorem vars_returnValue : (returnValue value).gather .vars = [] :=
  rfl

@[simp]
theorem vars_returnNothing : returnNothing.gather .vars = [] :=
  rfl

@[simp]
theorem vars_member (property : String) : (member value property).gather .vars = [] :=
  rfl

@[simp]
theorem vars_arrowTo (parameters : List Tree) : (arrowTo parameters value).gather .vars = [] :=
  rfl

@[simp]
theorem vars_block : (block statements).gather .vars = statements.flatMap (gather .vars) := by
  rw [← gatherInItems_eq_flatMap]
  exact List.append_nil _

@[simp]
theorem vars_ifThen : (ifThen test statements).gather .vars = statements.flatMap (gather .vars) := by
  rw [← vars_block]
  exact List.append_nil _

@[simp]
theorem vars_ifThenElse (otherwise : Tree) : (ifThenElse test statements otherwise).gather .vars =
    statements.flatMap (gather .vars) ++ otherwise.gather .vars := by
  rw [← vars_block]
  change (block statements).gather .vars ++ (otherwise.gather .vars ++ []) = _
  rw [List.append_nil]

@[simp]
theorem pattern_nil : gatherInItems .pattern [] = [] :=
  rfl

@[simp]
theorem pattern_binding : gatherInItems .pattern [binding name] = [name] :=
  rfl

end

end Code

open Code

/-- A value with a hole in place of the expression, if it is one. -/
def MarkerValue.hollow : MarkerValue → MarkerValue
  | literal name => literal name
  | dynamic _ => dynamic Code.hole

/-- What the hooks of a marker bind around its value. -/
def Hooks.boundAroundValue (handle : ElementHandle) (runtimeGlobal : String) (kind : MarkerKind) :
    List (List String) :=
  (ofMarker handle runtimeGlobal (kind, .dynamic Code.hole)).flatMap (Code.bound .hole)

/-- The hooks of a marker have its value in the holes. -/
theorem Hooks.ofMarker_fill (handle : ElementHandle) (runtimeGlobal : String) (kind : MarkerKind)
    (value : Tree) : (ofMarker handle runtimeGlobal (kind, .dynamic Code.hole)).map (Code.fill value) =
      ofMarker handle runtimeGlobal (kind, .dynamic value) := by
  cases kind <;> rfl

/-- What a forwarding function binds around the reference that it forwards to. -/
def ElementRef.boundAroundReference (handle : ElementHandle) : List (List String) :=
  Code.bound .hole (forwardingFunction (forwardingBody handle Code.hole))

/-- A forwarding function has the reference that it forwards to in the hole. -/
theorem ElementRef.forwardingFunction_fill (handle : ElementHandle) (reference : Tree) :
    Code.fill reference (forwardingFunction (forwardingBody handle Code.hole)) =
      forwardingFunction (forwardingBody handle reference) :=
  rfl

theorem Hooks.boundAroundValue_click (handle : ElementHandle) (runtimeGlobal : String) :
    boundAroundValue handle runtimeGlobal .click = [[], []] := by
  simp [boundAroundValue, ofMarker, click, Click.listener, Click.binding, Click.listenerCall,
    Click.dependencies, arrow, guardedRuntimeCall, methodCall, MarkerValue.expression]

theorem Hooks.boundAroundValue_visible (handle : ElementHandle) (runtimeGlobal : String) :
    boundAroundValue handle runtimeGlobal .visible =
      [["__trackingEntries", "__trackingElement", "__trackingState", "__trackingObserver"]] := by
  simp [boundAroundValue, ofMarker, visibility, Visibility.state, Visibility.watching,
    Visibility.unmounting, Visibility.observerCallback, Visibility.readCurrent,
    Visibility.resetState, Visibility.disconnectPrevious, arrow, guardedRuntimeCall, methodCall,
    typeofIs, MarkerValue.expression, Visibility.entriesName, Visibility.elementName,
    Visibility.stateName, Visibility.observerName]

theorem ElementRef.boundAroundReference_eq (handle : ElementHandle) :
    boundAroundReference handle = [["__forwardRef", "__trackingNode"]] := by
  simp [boundAroundReference, forwardingFunction, forwardingBody, arrow, typeofIs, forwardName,
    nodeName]

/-- The variables that the hooks of a marker bind around its value. -/
def Hooks.innerNamesOf : MarkerKind → List String
  | .visible => ["__trackingEntries", "__trackingElement", "__trackingState", "__trackingObserver"]
  | .click => []

/-- The hooks of a marker bind just these variables around its value. -/
theorem Hooks.not_bound_iff {handle : ElementHandle} {runtimeGlobal : String} {kind : MarkerKind}
    {name : String} : (∀ bound ∈ boundAroundValue handle runtimeGlobal kind, name ∉ bound) ↔
      name ∉ innerNamesOf kind := by
  cases kind with
  | visible => rw [boundAroundValue_visible, innerNamesOf, List.forall_mem_singleton]
  | click => simp [boundAroundValue_click, innerNamesOf]

/-- The variables that a forwarding function binds around the reference that it forwards to. -/
def ElementRef.innerNames : List String :=
  [forwardName, nodeName]

/-- A forwarding function binds just these variables around the reference that it forwards to. -/
theorem ElementRef.not_bound_iff {handle : ElementHandle} {name : String} :
    (∀ bound ∈ boundAroundReference handle, name ∉ bound) ↔ name ∉ innerNames := by
  rw [boundAroundReference_eq, innerNames, List.forall_mem_singleton, forwardName, nodeName]

namespace Hooks

/-- The hooks of an element with holes in place of the values of its markers that are expressions. -/
def withHoles (handle : ElementHandle) (runtimeGlobal : String) (markers : ElementMarkers) :
    List Tree :=
  declaration handle :: markers.values.flatMap fun (kind, value) =>
    ofMarker handle runtimeGlobal (kind, value.hollow)

/-- The hooks of an element mention a variable where they do not bind it and do not declare it. -/
def ReachOut (handle : ElementHandle) (runtimeGlobal : String) (markers : ElementMarkers)
    (name : String) : Prop :=
  name ∉ handle.ownNames ∧
    ∃ bound ∈ (withHoles handle runtimeGlobal markers).flatMap (Code.bound (.mention name)),
      name ∉ bound

/-- The variables that the hooks of a marker use from outside. -/
def outerNamesOf : MarkerKind → List String
  | .visible => [HookNames.useRef, HookNames.useEffect, "IntersectionObserver", "window"]
  | .click => [HookNames.useCallback, HookNames.useEffect, "window"]

/-- The variables that the hooks of an element use from outside. -/
def outerNames (markers : ElementMarkers) : List String :=
  HookNames.useRef :: markers.values.flatMap fun (kind, _) => outerNamesOf kind

/-- The hooks of a marker use just these variables from outside. Those that they bind themselves, they
bind wherever they mention them. -/
theorem reachOut_marker {handle : ElementHandle} {name : String} (other : name ∉ handle.ownNames)
    (runtimeGlobal : String) (kind : MarkerKind) (value : MarkerValue) :
    (∃ bound ∈ (ofMarker handle runtimeGlobal (kind, value.hollow)).flatMap
        (Code.bound (.mention name)), name ∉ bound) ↔ name ∈ outerNamesOf kind := by
  simp only [ElementHandle.ownNames, List.mem_cons, List.not_mem_nil, or_false, not_or,
    eq_comm (a := name)] at other
  cases kind with
  | click =>
    cases value <;>
      · simp only [outerNamesOf, ofMarker, click, Click.listener, Click.binding,
          Click.listenerCall, Click.dependencies, arrow, guardedRuntimeCall, methodCall,
          MarkerValue.hollow, MarkerValue.expression]
        simp [other, eq_comm (a := name), or_and_right, exists_or, and_assoc]
        grind
  | visible =>
    have silent : Code.bound (.mention name) value.hollow.expression = [] := by
      cases value <;> rfl
    simp only [outerNamesOf, ofMarker, visibility, Visibility.state, Visibility.watching,
      Visibility.unmounting, Visibility.observerCallback, Visibility.readCurrent,
      Visibility.resetState, Visibility.disconnectPrevious, arrow, guardedRuntimeCall, methodCall,
      typeofIs, Visibility.entriesName, Visibility.elementName, Visibility.stateName,
      Visibility.observerName, Visibility.entryName]
    simp [other, silent, eq_comm (a := name), or_and_right, exists_or, and_assoc]
    grind

/-- The declaration of a reference uses the hook for references. -/
theorem reachOut_declaration (handle : ElementHandle) {name : String} :
    (∃ bound ∈ Code.bound (.mention name) (declaration handle), name ∉ bound) ↔
      name = HookNames.useRef := by
  simp [declaration, eq_comm]

/-- No variable that hooks use from outside is a generated one. -/
theorem outerNames_ordinary {markers : ElementMarkers} {name : String}
    (outer : name ∈ outerNames markers) : ¬IsGenerated name := by
  have spelled : ∀ name ∈ [HookNames.useRef, HookNames.useEffect, HookNames.useCallback, "window",
      "IntersectionObserver"], name ∉ Scope.ofForwarding.names ∧ name.toList.head? ≠ some 't' := by
    decide
  have among : name ∈ [HookNames.useRef, HookNames.useEffect, HookNames.useCallback, "window",
      "IntersectionObserver"] := by
    rcases List.mem_cons.mp outer with rfl | used
    · exact List.mem_cons_self
    obtain ⟨⟨kind, value⟩, -, member⟩ := List.mem_flatMap.mp used
    cases kind <;>
      · simp only [outerNamesOf, List.mem_cons, List.not_mem_nil, or_false] at member ⊢
        tauto
  obtain ⟨notForwarding, letter⟩ := spelled name among
  rintro (forwarding | ⟨handle, own⟩)
  · exact notForwarding forwarding
  obtain ⟨stem, whole, which⟩ := handle.ownNames_spelled own
  apply letter
  rcases which with ⟨rfl, -⟩ | ⟨rfl, -⟩ | ⟨rfl, -⟩ <;> rw [whole] <;> rfl

/-- The variables that the hooks of an element use from outside are those of its markers and the hook
for references. -/
theorem reachOut_iff {handle : ElementHandle} {runtimeGlobal : String} {markers : ElementMarkers}
    {name : String} : ReachOut handle runtimeGlobal markers name ↔ name ∈ outerNames markers := by
  by_cases own : name ∈ handle.ownNames
  · exact iff_of_false (fun reach => reach.1 own)
      fun outer => outerNames_ordinary outer (Or.inr ⟨handle, own⟩)
  have onMarkers : (∃ bound ∈ (markers.values.flatMap fun (kind, value) =>
      ofMarker handle runtimeGlobal (kind, value.hollow)).flatMap (Code.bound (.mention name)),
      name ∉ bound) ↔ name ∈ markers.values.flatMap fun (kind, _) => outerNamesOf kind := by
    rw [List.flatMap_assoc, List.mem_flatMap]
    constructor
    · rintro ⟨bound, mentioned, unbound⟩
      obtain ⟨⟨kind, value⟩, member, among⟩ := List.mem_flatMap.mp mentioned
      exact ⟨_, member, (reachOut_marker own runtimeGlobal kind value).mp ⟨bound, among, unbound⟩⟩
    · rintro ⟨⟨kind, value⟩, member, outer⟩
      obtain ⟨bound, among, unbound⟩ := (reachOut_marker own runtimeGlobal kind value).mpr outer
      exact ⟨bound, List.mem_flatMap.mpr ⟨_, member, among⟩, unbound⟩
  rw [ReachOut, and_iff_right own, withHoles, outerNames, List.mem_cons, ← onMarkers,
    ← reachOut_declaration handle, List.flatMap_cons]
  simp only [List.mem_append, or_and_right, exists_or]

end Hooks

end JsxTracking
