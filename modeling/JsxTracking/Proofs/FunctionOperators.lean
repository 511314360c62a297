import JsxTracking.Proofs.Carried
import JsxTracking.Proofs.Scopes

/-! # Operators that belong to a function

`await`, `yield` and `arguments` belong to a function around them. Hooks evaluate the value of a
marker within arrow functions of their own, so an `await` or `yield` of the component in it is
stranded in a function that it may not suspend, and `arguments` become those of the function that the
hooks stand in (`Hooks.operators_ofElement`). -/

namespace JsxTracking

/-- What belongs to a function around it. -/
inductive FunctionOperator where
  | await
  | yield
  | arguments
  deriving DecidableEq, Repr, Inhabited

namespace FunctionOperator

/-- Whether a node is a use of the operator. -/
def isMadeBy (operator : FunctionOperator) (kind : Kind) (fields : Fields) : Bool :=
  match operator, kind with
  | await, .awaitExpression | yield, .yieldExpression => true
  | await, .forOfStatement | await, .other "UsingDeclaration" =>
    (fields.get (.other "isAwait")).isTrue
  | arguments, .identifier => (fields.get .value).text? = some "arguments"
  | _, _ => false

/-- Whether a part of a node belongs to another function than the node, as far as the operator is
concerned: arrow functions have no `arguments` of their own. -/
def isOwned (operator : FunctionOperator) (kind : Kind) (fields : Fields) (field : Field) : Bool :=
  kind.defers fields field && !(operator = arguments && kind = .arrowFunctionExpression)

/-- Whether the operator may be used in a function with the given parts. -/
def isAllowed (operator : FunctionOperator) (kind : Kind) (fields : Fields) : Bool :=
  match operator with
  | await => (fields.get .async).isTrue
  | yield => (fields.get .generator).isTrue
  | arguments => kind.isCallable

end FunctionOperator

namespace Tree

variable (operator : FunctionOperator)

mutual

/-- Whether an operator in a tree belongs to the function around the tree. -/
def uses : Tree → Bool
  | node kind fields => operator.isMadeBy kind fields || usesInFields kind fields fields
  | list items => usesInItems items
  | _ => false

/-- Whether an operator in a list of trees belongs to the function around them. -/
def usesInItems : List Tree → Bool
  | [] => false
  | item :: rest => uses item || usesInItems rest

/-- Whether an operator in some parts of a node belongs to the function around the node. -/
def usesInFields (kind : Kind) (whole : Fields) : List (Field × Tree) → Bool
  | [] => false
  | (field, part) :: rest =>
    (!operator.isOwned kind whole field && uses part) || usesInFields kind whole rest

end

mutual

/-- Whether an operator in a tree is stranded: it belongs to a function in the tree that it may not
be used in. -/
def strands : Tree → Bool
  | node kind fields => strandsInFields kind fields fields
  | list items => strandsInItems items
  | _ => false

/-- Whether an operator in a list of trees is stranded. -/
def strandsInItems : List Tree → Bool
  | [] => false
  | item :: rest => strands item || strandsInItems rest

/-- Whether an operator in some parts of a node is stranded. -/
def strandsInFields (kind : Kind) (whole : Fields) : List (Field × Tree) → Bool
  | [] => false
  | (field, part) :: rest =>
    strands part || (operator.isOwned kind whole field && !operator.isAllowed kind whole &&
      uses operator part) || strandsInFields kind whole rest

end

theorem uses_list (items : List Tree) :
    (list items).uses operator = items.any (uses operator) := by
  rw [uses]
  induction items with
  | nil => rfl
  | cons item rest ih => rw [usesInItems, ih, List.any_cons]

theorem strandsInItems_eq_any (items : List Tree) :
    strandsInItems operator items = items.any (strands operator) := by
  induction items with
  | nil => rfl
  | cons item rest ih => rw [strandsInItems, ih, List.any_cons]

theorem strands_list (items : List Tree) :
    (list items).strands operator = items.any (strands operator) := by
  rw [strands, strandsInItems_eq_any]

theorem uses_node (kind : Kind) (fields : Fields) :
    (node kind fields).uses operator = (operator.isMadeBy kind fields ||
      fields.any fun part => !operator.isOwned kind fields part.1 && part.2.uses operator) := by
  have inFields (parts : Fields) : usesInFields operator kind fields parts =
      parts.any fun part => !operator.isOwned kind fields part.1 && part.2.uses operator := by
    induction parts with
    | nil => rfl
    | cons part rest ih => rw [usesInFields, ih, List.any_cons]
  rw [uses, inFields]

theorem strands_node (kind : Kind) (fields : Fields) :
    (node kind fields).strands operator = fields.any fun part => part.2.strands operator ||
      (operator.isOwned kind fields part.1 && !operator.isAllowed kind fields &&
        part.2.uses operator) := by
  have inFields (parts : Fields) : strandsInFields operator kind fields parts =
      parts.any fun part => part.2.strands operator || (operator.isOwned kind fields part.1 &&
        !operator.isAllowed kind fields && part.2.uses operator) := by
    induction parts with
    | nil => rfl
    | cons part rest ih => rw [strandsInFields, ih, List.any_cons]
  rw [strands, inFields]

@[simp] theorem operators_str (text : String) :
    (str text).uses operator = false ∧ (str text).strands operator = false :=
  ⟨rfl, rfl⟩

/-- Where nothing is stranded, nothing is in any part. -/
theorem hereditary_settled : Hereditary fun tree => tree.strands operator = false where
  null := rfl
  item whole member := by
    rw [strands_list] at whole
    exact Bool.eq_false_iff.mpr (List.any_eq_false.mp whole _ member)
  part whole member := by
    rw [strands_node] at whole
    exact (Bool.or_eq_false_iff.mp
      (Bool.eq_false_iff.mpr (List.any_eq_false.mp whole _ member))).1

end Tree

/-- Whether no node of the kind is an operator or has a part that belongs to another function. -/
def Kind.isPlain : Kind → Bool
  | identifier | awaitExpression | yieldExpression | forOfStatement | classProperty
  | privateProperty | other _ | functionDeclaration | functionExpression | function
  | arrowFunctionExpression | methodProperty | constructor | getterProperty | setterProperty => false
  | _ => true

/-- A plain node has the operators of its parts. -/
theorem Tree.operators_plain (operator : FunctionOperator) (kind : Kind)
    (plain : kind.isPlain = true) (fields : Fields) :
    (node kind fields).uses operator = (fields.any fun part => part.2.uses operator) ∧
      (node kind fields).strands operator = fields.any fun part => part.2.strands operator := by
  have noOperator : operator.isMadeBy kind fields = false := by
    unfold FunctionOperator.isMadeBy
    split <;> first | rfl | cases plain
  have noFunction (field : Field) : operator.isOwned kind fields field = false := by
    have undeferred : kind.defers fields field = false := by
      unfold Kind.isPlain at plain
      unfold Kind.defers Kind.isCallable
      split at plain <;> split <;> simp_all
    rw [FunctionOperator.isOwned, undeferred, Bool.false_and]
  simp [uses_node, strands_node, noOperator, noFunction]

/-! ## Generated code -/

namespace Code

variable (operator : FunctionOperator)

@[simp] theorem operators_reference (name : String) :
    (reference name).uses operator = (operator = .arguments && name = "arguments") ∧
      (reference name).strands operator = false := by
  refine ⟨?_, by cases operator <;> rfl⟩
  cases operator with
  | await | yield => rfl
  | arguments => simp [reference, Tree.uses_node, FunctionOperator.isMadeBy, Fields.get, Tree.text?,
      Tree.uses]

@[simp] theorem operators_binding (name : String) :
    (binding name).uses operator = false ∧ (binding name).strands operator = false := by
  cases operator <;> exact ⟨rfl, rfl⟩

@[simp] theorem operators_propertyName (name : String) :
    (propertyName name).uses operator = false ∧ (propertyName name).strands operator = false := by
  cases operator <;> exact ⟨rfl, rfl⟩

@[simp] theorem operators_string (value : String) :
    (string value).uses operator = false ∧ (string value).strands operator = false := by
  cases operator <;> exact ⟨rfl, rfl⟩

@[simp] theorem operators_number (numeral : String) :
    (number numeral).uses operator = false ∧ (number numeral).strands operator = false := by
  cases operator <;> exact ⟨rfl, rfl⟩

@[simp] theorem operators_nullLiteral :
    nullLiteral.uses operator = false ∧ nullLiteral.strands operator = false := by
  cases operator <;> exact ⟨rfl, rfl⟩

@[simp] theorem operators_returnNothing :
    returnNothing.uses operator = false ∧ returnNothing.strands operator = false := by
  cases operator <;> exact ⟨rfl, rfl⟩

@[simp] theorem operators_member (object : Tree) (property : String) :
    (member object property).uses operator = object.uses operator ∧
      (member object property).strands operator = object.strands operator := by
  simp [member, Tree.operators_plain operator .memberExpression rfl]

theorem operators_arguments (values : List Tree) :
    (arguments values).uses operator = values.any (Tree.uses operator) ∧
      (arguments values).strands operator = values.any (Tree.strands operator) := by
  simp [arguments, Tree.uses_list, Tree.strands_list, Tree.operators_plain operator .argument rfl,
    List.any_map, Function.comp_def]

@[simp] theorem operators_call (callee : Tree) (values : List Tree) :
    (call callee values).uses operator =
        (callee.uses operator || values.any (Tree.uses operator)) ∧
      (call callee values).strands operator =
        (callee.strands operator || values.any (Tree.strands operator)) := by
  simp [call, Tree.operators_plain operator .callExpression rfl, operators_arguments]

@[simp] theorem operators_construct (callee : String) (values : List Tree) :
    (construct callee values).uses operator =
        ((reference callee).uses operator || values.any (Tree.uses operator)) ∧
      (construct callee values).strands operator = values.any (Tree.strands operator) := by
  simp [construct, Tree.operators_plain operator .newExpression rfl, operators_arguments]

@[simp] theorem operators_array (values : List Tree) :
    (array values).uses operator = values.any (Tree.uses operator) ∧
      (array values).strands operator = values.any (Tree.strands operator) := by
  simp [array, Tree.operators_plain operator .arrayExpression rfl, operators_arguments]

@[simp] theorem operators_object (members : List (String × Tree)) :
    (object members).uses operator = (members.any fun part => part.2.uses operator) ∧
      (object members).strands operator = members.any fun part => part.2.strands operator := by
  simp [object, Tree.uses_list, Tree.strands_list, Tree.operators_plain operator .objectExpression rfl,
    Tree.operators_plain operator .keyValueProperty rfl, List.any_map, Function.comp_def]

@[simp] theorem operators_unary (symbol : String) (argument : Tree) :
    (unary symbol argument).uses operator = argument.uses operator ∧
      (unary symbol argument).strands operator = argument.strands operator := by
  simp [unary, Tree.operators_plain operator .unaryExpression rfl]

@[simp] theorem operators_binary (symbol : String) (left right : Tree) :
    (binary symbol left right).uses operator = (left.uses operator || right.uses operator) ∧
      (binary symbol left right).strands operator =
        (left.strands operator || right.strands operator) := by
  simp [binary, Tree.operators_plain operator .binaryExpression rfl]

@[simp] theorem operators_assignMember (object : Tree) (property : String) (value : Tree) :
    (assignMember object property value).uses operator =
        (object.uses operator || value.uses operator) ∧
      (assignMember object property value).strands operator =
        (object.strands operator || value.strands operator) := by
  simp [assignMember, Tree.operators_plain operator .assignmentExpression rfl]

@[simp] theorem operators_block (statements : List Tree) :
    (block statements).uses operator = statements.any (Tree.uses operator) ∧
      (block statements).strands operator = statements.any (Tree.strands operator) := by
  simp [block, Tree.operators_plain operator .blockStatement rfl, Tree.uses_list, Tree.strands_list]

@[simp] theorem operators_perform (expression : Tree) :
    (perform expression).uses operator = expression.uses operator ∧
      (perform expression).strands operator = expression.strands operator := by
  simp [perform, Tree.operators_plain operator .expressionStatement rfl]

@[simp] theorem operators_returnValue (value : Tree) :
    (returnValue value).uses operator = value.uses operator ∧
      (returnValue value).strands operator = value.strands operator := by
  simp [returnValue, Tree.operators_plain operator .returnStatement rfl]

@[simp] theorem operators_ifThen (test : Tree) (statements : List Tree) :
    (ifThen test statements).uses operator =
        (test.uses operator || statements.any (Tree.uses operator)) ∧
      (ifThen test statements).strands operator =
        (test.strands operator || statements.any (Tree.strands operator)) := by
  simp [ifThen, Tree.operators_plain operator .ifStatement rfl]

@[simp] theorem operators_ifThenElse (test : Tree) (statements : List Tree) (otherwise : Tree) :
    (ifThenElse test statements otherwise).uses operator =
        (test.uses operator || (statements.any (Tree.uses operator) || otherwise.uses operator)) ∧
      (ifThenElse test statements otherwise).strands operator =
        (test.strands operator ||
          (statements.any (Tree.strands operator) || otherwise.strands operator)) := by
  simp [ifThenElse, Tree.operators_plain operator .ifStatement rfl]

@[simp] theorem operators_constant (name : String) (value : Tree) :
    (constant name value).uses operator = value.uses operator ∧
      (constant name value).strands operator = value.strands operator := by
  simp [constant, Tree.operators_plain operator .variableDeclaration rfl,
    Tree.operators_plain operator .variableDeclarator rfl, Tree.uses_list, Tree.strands_list]

@[simp] theorem operators_jsxAttribute (name : String) (value : Tree) :
    (jsxAttribute name value).uses operator = value.uses operator ∧
      (jsxAttribute name value).strands operator = value.strands operator := by
  simp [jsxAttribute, Tree.operators_plain operator .jsxAttribute rfl,
    Tree.operators_plain operator .jsxExpressionContainer rfl]

/-- A generated function has `arguments` of the function around it, and no other operator may be used
in it. -/
@[simp] theorem operators_arrowTo (parameters : List Tree) (body : Tree) :
    (arrowTo parameters body).uses operator = (operator = .arguments &&
        (parameters.any (Tree.uses operator) || body.uses operator)) ∧
      (arrowTo parameters body).strands operator =
        ((parameters.any (Tree.strands operator) || body.strands operator) ||
          (operator ≠ .arguments && (parameters.any (Tree.uses operator) || body.uses operator))) := by
  let fields : Fields := [(.params, .list parameters), (.body, body)]
  have inParameters : operator.isOwned .arrowFunctionExpression fields .params =
      !decide (operator = .arguments) := by cases operator <;> rfl
  have inBody : operator.isOwned .arrowFunctionExpression fields .body =
      !decide (operator = .arguments) := by cases operator <;> rfl
  have allowed : operator.isAllowed .arrowFunctionExpression fields =
      decide (operator = .arguments) := by cases operator <;> rfl
  have noOperator : operator.isMadeBy .arrowFunctionExpression fields = false := by
    cases operator <;> rfl
  rw [arrowTo, Tree.uses_node, Tree.strands_node, noOperator, allowed, decide_not]
  simp only [fields, List.any_cons, List.any_nil, inParameters, inBody, Tree.uses_list,
    Tree.strands_list]
  cases decide (operator = .arguments) <;> simp [Bool.or_assoc, Bool.or_left_comm]

/-- `() => await ready` strands its operator, and `async () => await ready` does not. -/
example :
    let ready : Tree := .node .awaitExpression [(.argument, reference "ready")]
    (arrowTo [] ready).strands .await = true ∧
      (Tree.node .arrowFunctionExpression
        [(.params, .list []), (.body, ready), (.async, .bool true)]).strands .await = false := by
  decide

@[simp] theorem operators_runtimeCall (global method : String) (name : Tree) :
    (guardedRuntimeCall global method name).uses operator = name.uses operator ∧
      (guardedRuntimeCall global method name).strands operator = name.strands operator := by
  simp [guardedRuntimeCall, methodCall]

end Code

/-- No variable of a handle is called `arguments`. -/
theorem ElementHandle.ne_arguments {handle : ElementHandle} {name : String}
    (own : name ∈ handle.ownNames) : name ≠ "arguments" := by
  rintro rfl
  obtain ⟨_, -, ⟨-, letter⟩ | ⟨-, letter⟩ | ⟨-, letter⟩⟩ := ownNames_spelled own
  all_goals exact absurd letter (by decide)

namespace Hooks

/-- An operator of the value of a marker is stranded in its hooks. `arguments` are not, but belong to
the function that the hooks stand in. -/
theorem operators_ofMarker (operator : FunctionOperator) (handle : ElementHandle)
    (runtimeGlobal : String) (marker : MarkerKind × MarkerValue) :
    (ofMarker handle runtimeGlobal marker).any (Tree.uses operator) =
        (marker.2.expression.uses operator && (operator = .arguments || marker.1 = .click)) ∧
      (ofMarker handle runtimeGlobal marker).any (Tree.strands operator) =
        (marker.2.expression.strands operator ||
          (operator ≠ .arguments && marker.2.expression.uses operator)) := by
  obtain ⟨kind, value⟩ := marker
  have named := ElementHandle.ne_arguments handle.name_mem_ownNames
  have called := ElementHandle.ne_arguments handle.clickCallback_mem_ownNames
  have shown := ElementHandle.ne_arguments handle.visibilityState_mem_ownNames
  cases kind with
  | click =>
    have depended : (Click.dependencies value).any (Tree.uses operator) =
          value.expression.uses operator ∧
        (Click.dependencies value).any (Tree.strands operator) = value.expression.strands operator := by
      cases value <;> simp [Click.dependencies, MarkerValue.expression]
    simp [ofMarker, click, Click.listener, Click.binding, Click.listenerCall, Click.elementName,
      HookNames.useCallback, HookNames.useEffect, Code.arrow, Code.methodCall, depended, named,
      called]
    exact Or.inl
  | visible =>
    simp [ofMarker, visibility, Visibility.state, Visibility.watching, Visibility.unmounting,
      Visibility.readCurrent, Visibility.resetState, Visibility.disconnectPrevious,
      Visibility.observerCallback, Visibility.elementName, Visibility.stateName,
      Visibility.observerName, Visibility.entriesName, Visibility.entryName, HookNames.useRef,
      HookNames.useEffect, Code.arrow, Code.methodCall, Code.typeofIs, named, shown]
    exact ⟨Bool.and_comm _ _, fun other same => absurd same other⟩

end Hooks

/-- Literal values apart, the values of markers are evaluated. -/
theorem ElementMarkers.any_expression (test : Tree → Bool)
    (literal : ∀ name, test (Code.string name) = false) (markers : ElementMarkers) :
    (markers.values.any fun marker => test marker.2.expression) =
      markers.dynamicExpressions.any test := by
  rw [dynamicExpressions, List.any_filterMap]
  congr 1
  funext ⟨kind, value⟩
  cases value with
  | literal name => exact literal name
  | dynamic expression => rfl

/-- The operators in the hooks of an element are those of the values of its markers. -/
theorem Hooks.operators_ofElement (operator : FunctionOperator) (handle : ElementHandle)
    (runtimeGlobal : String) (markers : ElementMarkers) :
    let hooks := ofElement handle runtimeGlobal markers
    (hooks.any (Tree.uses operator) = true →
      markers.dynamicExpressions.any (Tree.uses operator) = true) ∧
    (operator = .arguments → hooks.any (Tree.uses operator) =
      markers.dynamicExpressions.any (Tree.uses operator)) ∧
    hooks.any (Tree.strands operator) = (markers.dynamicExpressions.any (Tree.strands operator) ||
      (operator ≠ .arguments && markers.dynamicExpressions.any (Tree.uses operator))) := by
  intro hooks
  have declared : (declaration handle).uses operator = false ∧
      (declaration handle).strands operator = false := by
    simp [declaration, HookNames.useRef]
  have byMarker (test : Tree → Bool) (undeclared : test (declaration handle) = false) :
      hooks.any test =
        markers.values.any fun marker => (ofMarker handle runtimeGlobal marker).any test := by
    change (declaration handle :: markers.values.flatMap _).any test = _
    rw [List.any_cons, undeclared, Bool.false_or, List.any_flatMap]
  rw [byMarker _ declared.1, byMarker _ declared.2,
    ← markers.any_expression _ fun name => (Code.operators_string operator name).1,
    ← markers.any_expression _ fun name => (Code.operators_string operator name).2]
  simp only [operators_ofMarker]
  refine ⟨fun used => ?_, ?_, ?_⟩
  · obtain ⟨marker, among, uses⟩ := List.any_eq_true.mp used
    exact List.any_eq_true.mpr ⟨marker, among, (Bool.and_eq_true_iff.mp uses).1⟩
  · rintro rfl
    simp
  · cases decide (operator ≠ .arguments) with
    | false => simp
    | true =>
      rw [Bool.eq_iff_iff]
      simp [and_or_left, exists_or]

end JsxTracking
