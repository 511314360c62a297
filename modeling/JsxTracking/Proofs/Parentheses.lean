import JsxTracking.Proofs.Restoration

/-! # Parentheses

Modules are printed with the parentheses that are in their trees and no others, so a printed module
is read back as the same tree if every operand binds at least as tightly as its place demands
(`Tree.isParenthesized`). Instrumentation puts expressions of the module into new places: values of
markers become arguments and elements of arrays, references become initial values and operands of
`??`. The places are right if the expressions fit there (`Change.fits`), and only then
(`Rewriting.Allowed.isParenthesized_image`). -/

namespace JsxTracking

namespace Tree

/-- The operator of an expression; empty if it has none. -/
def operator (tree : Tree) : String :=
  ((tree.get .operator).text?).getD ""

/-- The binary operators, each with how tightly it binds. -/
def operatorLevels : List (String × Nat) :=
  [("??", 3), ("||", 4), ("&&", 5), ("|", 6), ("^", 7), ("&", 8), ("==", 9), ("!=", 9), ("===", 9),
    ("!==", 9), ("<", 10), (">", 10), ("<=", 10), (">=", 10), ("in", 10), ("instanceof", 10),
    ("<<", 11), (">>", 11), (">>>", 11), ("+", 12), ("-", 12), ("*", 13), ("/", 13), ("%", 13),
    ("**", 14)]

/-- How tightly a binary operator binds. -/
def operatorLevel (operator : String) : Nat :=
  (operatorLevels.lookup operator).getD 0

/-- How tightly the outermost form of an expression binds: from sequences, which bind least, to
what may stand wherever an expression may. -/
def tightness (tree : Tree) : Nat :=
  match tree.kind? with
  | some .sequenceExpression => 0
  | some .arrowFunctionExpression | some .assignmentExpression | some .yieldExpression => 1
  | some .conditionalExpression => 2
  | some .binaryExpression => operatorLevel tree.operator
  | some .tsAsExpression | some .tsSatisfiesExpression | some .tsConstAssertion => 10
  | some .unaryExpression | some .awaitExpression | some .tsTypeAssertion => 15
  | some .updateExpression => 16
  | _ => 17

/-- How tightly an operand of a binary operator has to bind. Operators of one level are grouped from
the left, powers from the right; an operand of `??` is no logical connective, and one of `**` has no
prefix operator at its left. -/
def operandDemand (operator : String) : Field → Nat
  | .left => if operator = "??" then 6 else if operator = "**" then 16 else operatorLevel operator
  | .right => if operator = "??" then 6 else if operator = "**" then 14 else operatorLevel operator + 1
  | _ => 0

/-- How tightly an expression has to bind in a place of a node with the given operator. Everything
fits into places between brackets, keywords or semicolons. -/
@[simp] def demand (kind : Kind) (operator : String) (field : Field) : Nat :=
  match kind with
  | .binaryExpression => operandDemand operator field
  | .conditionalExpression => if field = .test then 3 else 1
  | .assignmentExpression => if field = .left then 17 else if field = .right then 1 else 0
  | .argument | .exportDefaultExpression => if field = .expression then 1 else 0
  | .variableDeclarator | .tsEnumMember => if field = .initializer then 1 else 0
  | .assignmentPattern | .forOfStatement => if field = .right then 1 else 0
  | .assignmentPatternProperty | .assignmentProperty | .keyValueProperty | .classProperty
  | .privateProperty => if field = .value then 1 else 0
  | .spreadElement => if field = .arguments then 1 else 0
  | .sequenceExpression => if field = .expressions then 1 else 0
  | .arrowFunctionExpression => if field = .body then 1 else 0
  | .yieldExpression => if field = .argument then 1 else 0
  | .tsAsExpression | .tsSatisfiesExpression | .tsConstAssertion =>
    if field = .expression then 10 else 0
  | .unaryExpression | .awaitExpression => if field = .argument then 15 else 0
  | .tsTypeAssertion => if field = .expression then 15 else 0
  | .updateExpression => if field = .argument then 17 else 0
  | .memberExpression => if field = .object then 17 else 0
  | .callExpression | .optionalCall | .newExpression => if field = .callee then 17 else 0
  | .taggedTemplateExpression => if field = .tag then 17 else 0
  | .tsNonNullExpression => if field = .expression then 17 else 0
  | .classDeclaration | .classExpression => if field = .superClass then 17 else 0
  | _ => 0

/-- Whether an expression binds tightly enough for a place of a node with the given operator. A
default may stand at the left of another one. -/
def accepts (kind : Kind) (operator : String) (field : Field) (part : Tree) : Bool :=
  (demand kind operator field).ble part.tightness ||
    (kind = .binaryExpression && operator = "??" && field = .left &&
      part.isKind .binaryExpression && part.operator = "??")

/-- Whether a part of a node binds tightly enough for its place. Of the expressions of a sequence or
a template, each has to. -/
def acceptsPart (kind : Kind) (operator : String) (field : Field) (part : Tree) : Bool :=
  if field = .expressions then part.items.all (accepts kind operator field)
  else accepts kind operator field part

mutual

/-- Whether every operand in a tree binds as tightly as its place demands, so that the tree needs no
parentheses besides its own. -/
def isParenthesized : Tree → Bool
  | node kind fields =>
    fields.all (fun part => acceptsPart kind (node kind fields).operator part.1 part.2) &&
      isParenthesizedInFields fields
  | list items => isParenthesizedInItems items
  | _ => true

/-- Whether every operand in a list of trees binds as tightly as its place demands. -/
def isParenthesizedInItems : List Tree → Bool
  | [] => true
  | item :: rest => isParenthesized item && isParenthesizedInItems rest

/-- Whether every operand in the parts of a node binds as tightly as its place demands. -/
def isParenthesizedInFields : List (Field × Tree) → Bool
  | [] => true
  | (_, part) :: rest => isParenthesized part && isParenthesizedInFields rest

end

/-- A default with a connective at its right needs parentheses. -/
example :
    (Code.binary "??" (Code.reference "a") (Code.binary "||" (Code.reference "b")
      (Code.reference "c"))).isParenthesized = false ∧
    (Code.binary "??" (Code.reference "a") (.node .parenthesisExpression
      [(.expression, Code.binary "||" (Code.reference "b") (Code.reference "c"))])).isParenthesized =
        true := by
  decide

theorem isParenthesizedInItems_eq_all (items : List Tree) :
    isParenthesizedInItems items = items.all isParenthesized := by
  induction items with
  | nil => rfl
  | cons item rest ih => rw [isParenthesizedInItems, ih, List.all_cons]

theorem isParenthesizedInFields_eq_all (fields : Fields) :
    isParenthesizedInFields fields = fields.all fun part => part.2.isParenthesized := by
  induction fields with
  | nil => rfl
  | cons part rest ih => rw [isParenthesizedInFields, ih, List.all_cons]

theorem isParenthesized_list (items : List Tree) :
    (list items).isParenthesized = items.all isParenthesized := by
  rw [isParenthesized, isParenthesizedInItems_eq_all]

theorem acceptsPart_of_undemanding {kind : Kind} {operator : String} {field : Field}
    (nothing : demand kind operator field = 0) (part : Tree) :
    acceptsPart kind operator field part = true := by
  have accepted (part : Tree) : accepts kind operator field part = true := by
    rw [accepts, nothing, Nat.ble_eq_true_of_le (Nat.zero_le _), Bool.true_or]
  rw [acceptsPart]
  split
  · exact List.all_eq_true.mpr fun item _ => accepted item
  · exact accepted part

/-- A node whose places demand nothing is parenthesized if its parts are. -/
theorem isParenthesized_undemanding (kind : Kind)
    (nothing : ∀ operator field, demand kind operator field = 0) (fields : Fields) :
    (node kind fields).isParenthesized = fields.all fun part => part.2.isParenthesized := by
  rw [isParenthesized, isParenthesizedInFields_eq_all, List.all_eq_true.mpr fun part _ =>
    acceptsPart_of_undemanding (nothing _ part.1) part.2, Bool.true_and]

theorem hereditary_isParenthesized : Hereditary fun tree => tree.isParenthesized = true where
  null := rfl
  item := fun whole member => by
    rw [isParenthesized, isParenthesizedInItems_eq_all] at whole
    exact List.all_eq_true.mp whole _ member
  part := fun whole member => by
    rw [isParenthesized, isParenthesizedInFields_eq_all, Bool.and_eq_true] at whole
    exact List.all_eq_true.mp whole.2 _ member

/-- A plain path fits everywhere. -/
theorem tightness_of_isPlainPath {tree : Tree} (plain : tree.isPlainPath = true) :
    tree.tightness = 17 := by
  unfold isPlainPath at plain
  split at plain
  case h_1 | h_2 | h_3 | h_4 => rfl
  case h_5 => cases plain

/-- Whether an expression is parenthesized as an initial value, an argument or an element of an
array: it is no bare sequence. -/
def isParenthesizedValue (tree : Tree) : Bool :=
  1 ≤ tree.tightness && tree.isParenthesized

end Tree

/-! ## Generated code -/

namespace Code

@[simp] theorem isParenthesized_reference (name : String) :
    (reference name).isParenthesized = true := rfl

@[simp] theorem isParenthesized_binding (name : String) :
    (binding name).isParenthesized = true := rfl

@[simp] theorem isParenthesized_string (value : String) :
    (string value).isParenthesized = true := rfl

@[simp] theorem isParenthesized_nullLiteral : nullLiteral.isParenthesized = true := rfl

@[simp] theorem isParenthesized_returnNothing : returnNothing.isParenthesized = true := rfl

@[simp] theorem tightness_reference (name : String) : (reference name).tightness = 17 := rfl

@[simp] theorem tightness_string (value : String) : (string value).tightness = 17 := rfl

@[simp] theorem tightness_nullLiteral : nullLiteral.tightness = 17 := rfl

@[simp] theorem tightness_member (object : Tree) (property : String) :
    (member object property).tightness = 17 := rfl

@[simp] theorem tightness_call (callee : Tree) (values : List Tree) :
    (call callee values).tightness = 17 := rfl

@[simp] theorem tightness_construct (callee : String) (values : List Tree) :
    (construct callee values).tightness = 17 := rfl

@[simp] theorem tightness_array (values : List Tree) : (array values).tightness = 17 := rfl

@[simp] theorem tightness_object (members : List (String × Tree)) :
    (object members).tightness = 17 := rfl

@[simp] theorem tightness_unary (operator : String) (argument : Tree) :
    (unary operator argument).tightness = 15 := rfl

@[simp] theorem tightness_arrowTo (parameters : List Tree) (body : Tree) :
    (arrowTo parameters body).tightness = 1 := rfl

@[simp] theorem tightness_block (statements : List Tree) : (block statements).tightness = 17 := rfl

theorem tightness_binary (operator : String) (left right : Tree) :
    (binary operator left right).tightness = Tree.operatorLevel operator := rfl

@[simp] theorem isParenthesized_member (object : Tree) (property : String) :
    (member object property).isParenthesized =
      (17 ≤ object.tightness && object.isParenthesized) := by
  rw [Bool.eq_iff_iff]
  simp [member, propertyName, Tree.isParenthesized, Tree.isParenthesizedInFields,
    Tree.acceptsPart, Tree.accepts]

theorem isParenthesized_arguments (values : List Tree) :
    (arguments values).isParenthesized = values.all Tree.isParenthesizedValue := by
  rw [Bool.eq_iff_iff]
  simp [arguments, Tree.isParenthesized, Tree.isParenthesizedInItems_eq_all,
    Tree.isParenthesizedInFields, Tree.acceptsPart, Tree.accepts,
    Tree.isParenthesizedValue]

@[simp] theorem isParenthesized_call (callee : Tree) (values : List Tree) :
    (call callee values).isParenthesized = ((17 ≤ callee.tightness && callee.isParenthesized) &&
      values.all Tree.isParenthesizedValue) := by
  rw [Bool.eq_iff_iff]
  simp [call, Tree.isParenthesized, Tree.isParenthesizedInFields, Tree.acceptsPart, Tree.accepts,
    isParenthesized_arguments, Bool.and_assoc]

@[simp] theorem isParenthesized_construct (callee : String) (values : List Tree) :
    (construct callee values).isParenthesized = values.all Tree.isParenthesizedValue := by
  rw [Bool.eq_iff_iff]
  simp [construct, Tree.isParenthesized, Tree.isParenthesizedInFields, Tree.acceptsPart,
    Tree.accepts, isParenthesized_arguments]

@[simp] theorem isParenthesized_array (values : List Tree) :
    (array values).isParenthesized = values.all Tree.isParenthesizedValue := by
  rw [Bool.eq_iff_iff]
  simp [array, Tree.isParenthesized, Tree.isParenthesizedInFields, Tree.acceptsPart, Tree.accepts,
    isParenthesized_arguments]

@[simp] theorem isParenthesized_object (members : List (String × Tree)) :
    (object members).isParenthesized = members.all fun part => part.2.isParenthesizedValue := by
  rw [Bool.eq_iff_iff]
  simp [object, propertyName, Tree.isParenthesized, Tree.isParenthesizedInItems_eq_all,
    Tree.isParenthesizedInFields, Tree.acceptsPart, Tree.accepts,
    Tree.isParenthesizedValue]

@[simp] theorem isParenthesized_unary (operator : String) (argument : Tree) :
    (unary operator argument).isParenthesized =
      (15 ≤ argument.tightness && argument.isParenthesized) := by
  rw [Bool.eq_iff_iff]
  simp [unary, Tree.isParenthesized, Tree.isParenthesizedInFields, Tree.acceptsPart, Tree.accepts,]

@[simp] theorem isParenthesized_binary (operator : String) (left right : Tree) :
    (binary operator left right).isParenthesized =
      ((Tree.accepts .binaryExpression operator .left left &&
        Tree.accepts .binaryExpression operator .right right) &&
        (left.isParenthesized && right.isParenthesized)) := by
  have inside : (Tree.node .binaryExpression
      [(.left, left), (.right, right), (.operator, .str operator)]).operator = operator := rfl
  rw [Bool.eq_iff_iff]
  simp [binary, Tree.isParenthesized, Tree.isParenthesizedInFields, Tree.acceptsPart, inside,
    Tree.accepts, Tree.operandDemand]

@[simp] theorem isParenthesized_assignMember (object : Tree) (property : String) (value : Tree) :
    (assignMember object property value).isParenthesized =
      ((17 ≤ object.tightness && object.isParenthesized) && value.isParenthesizedValue) := by
  rw [Bool.eq_iff_iff]
  simp [assignMember, Tree.isParenthesized, Tree.isParenthesizedInFields, Tree.acceptsPart,
    Tree.accepts, Tree.isParenthesizedValue,
    and_left_comm (a := 1 ≤ value.tightness)]

@[simp] theorem isParenthesized_block (statements : List Tree) :
    (block statements).isParenthesized = statements.all Tree.isParenthesized := by
  rw [Bool.eq_iff_iff]
  simp [block, Tree.isParenthesized, Tree.isParenthesizedInFields, Tree.acceptsPart, Tree.accepts,
    Tree.isParenthesizedInItems_eq_all]

@[simp] theorem isParenthesized_arrowTo (parameters : List Tree) (body : Tree) :
    (arrowTo parameters body).isParenthesized =
      (parameters.all Tree.isParenthesized && body.isParenthesizedValue) := by
  rw [Bool.eq_iff_iff]
  simp [arrowTo, Tree.isParenthesized, Tree.isParenthesizedInFields, Tree.acceptsPart,
    Tree.accepts, Tree.isParenthesizedInItems_eq_all, Tree.isParenthesizedValue,
    Bool.and_left_comm]

@[simp] theorem isParenthesized_perform (expression : Tree) :
    (perform expression).isParenthesized = expression.isParenthesized := by
  rw [Bool.eq_iff_iff]
  simp [perform, Tree.isParenthesized, Tree.isParenthesizedInFields, Tree.acceptsPart,
    Tree.accepts]

@[simp] theorem isParenthesized_returnValue (value : Tree) :
    (returnValue value).isParenthesized = value.isParenthesized := by
  rw [Bool.eq_iff_iff]
  simp [returnValue, Tree.isParenthesized, Tree.isParenthesizedInFields, Tree.acceptsPart,
    Tree.accepts]

@[simp] theorem isParenthesized_ifThen (test : Tree) (statements : List Tree) :
    (ifThen test statements).isParenthesized =
      (test.isParenthesized && statements.all Tree.isParenthesized) := by
  rw [Bool.eq_iff_iff]
  simp [ifThen, Tree.isParenthesized, Tree.isParenthesizedInFields, Tree.acceptsPart,
    Tree.accepts]

@[simp] theorem isParenthesized_ifThenElse (test : Tree) (statements : List Tree)
    (otherwise : Tree) : (ifThenElse test statements otherwise).isParenthesized =
      ((test.isParenthesized && statements.all Tree.isParenthesized) &&
        otherwise.isParenthesized) := by
  rw [Bool.eq_iff_iff]
  simp [ifThenElse, Tree.isParenthesized, Tree.isParenthesizedInFields, Tree.acceptsPart,
    Tree.accepts, Bool.and_assoc]

@[simp] theorem isParenthesized_constant (name : String) (value : Tree) :
    (constant name value).isParenthesized = value.isParenthesizedValue := by
  rw [Bool.eq_iff_iff]
  simp [constant, Tree.isParenthesized, Tree.isParenthesizedInFields, Tree.isParenthesizedInItems,
    Tree.acceptsPart, Tree.accepts, Tree.isParenthesizedValue]

end Code

namespace ElementRef

open JsxTracking.Tree

/-- Whether a reference and the objects spread after it fit into the places where a forwarding
function puts them: the reference is an initial value, or the right operand of `??` if an object is
spread after it, and only one default may be needed. -/
def fits (explicit? : Option Tree) (spreads : List Tree) : Bool :=
  match explicit?, spreads with
  | none, spreads => spreads.length ≤ 2
  | some explicit, [] => 1 ≤ explicit.tightness
  | some explicit, [_] => 6 ≤ explicit.tightness
  | some _, _ => false

/-- The reference that an object carries is parenthesized. -/
theorem isParenthesized_carried {spread : Tree} (plain : spread.isPlainPath = true)
    (spelled : spread.isParenthesized = true) :
    (Code.member spread "ref").isParenthesized = true := by
  simp [tightness_of_isPlainPath plain, spelled]

/-- A default is parenthesized if what it falls back to is, and is no connective. -/
theorem isParenthesized_default {spread : Tree} (plain : spread.isPlainPath = true)
    (spelled : spread.isParenthesized = true) (earlier : Tree) :
    (Code.binary "??" (Code.member spread "ref") earlier).isParenthesized =
      (6 ≤ earlier.tightness && earlier.isParenthesized) := by
  rw [Bool.eq_iff_iff]
  simp [accepts, operandDemand, tightness_of_isPlainPath plain, spelled]

/-- A default that needs parentheses inside still needs them when other defaults go around it. -/
theorem not_isParenthesized_overridden {spreads : List Tree}
    (plain : spreads.all isPlainPath = true)
    (spelled : ∀ spread ∈ spreads, spread.isParenthesized = true) {earlier : Tree}
    (needed : earlier.isParenthesized = false) :
    (forwarded? (some earlier) spreads).all isParenthesizedValue = false := by
  induction spreads generalizing earlier with
  | nil => simp [forwarded?, isParenthesizedValue, needed]
  | cons first rest ih =>
    rw [List.all_cons, Bool.and_eq_true] at plain
    apply ih plain.2 fun spread member => spelled spread (List.mem_cons_of_mem _ member)
    rw [isParenthesized_default plain.1 (spelled first List.mem_cons_self), needed, Bool.and_false]

/-- What a reference is overridden by is parenthesized, as an initial value, if the reference is and
it fits with the objects. -/
theorem isParenthesized_overridden {spreads : List Tree} (plain : spreads.all isPlainPath = true)
    (spelled : ∀ spread ∈ spreads, spread.isParenthesized = true) (earlier : Tree) :
    (forwarded? (some earlier) spreads).all isParenthesizedValue =
      (fits (some earlier) spreads && earlier.isParenthesized) := by
  match spreads with
  | [] => rfl
  | [only] =>
    rw [List.all_cons, Bool.and_eq_true] at plain
    have whole := isParenthesized_default plain.1 (spelled only List.mem_cons_self) earlier
    change isParenthesizedValue (Code.binary "??" (Code.member only "ref") earlier) = _
    rw [isParenthesizedValue, whole]
    rfl
  | first :: second :: rest =>
    simp only [List.all_cons, Bool.and_eq_true] at plain
    simp only [List.mem_cons, forall_eq_or_imp] at spelled
    -- A default is no operand of another one unless it has parentheses.
    apply not_isParenthesized_overridden plain.2.2 spelled.2.2
    rw [isParenthesized_default plain.2.1 spelled.2.1]
    rfl

/-- What an element forwards to is parenthesized, as an initial value, if the reference is and it fits
with the objects. -/
theorem isParenthesized_forwarded {spreads : List Tree} (plain : spreads.all isPlainPath = true)
    (spelled : ∀ spread ∈ spreads, spread.isParenthesized = true) (explicit? : Option Tree) :
    (forwarded? explicit? spreads).all isParenthesizedValue =
      (fits explicit? spreads && explicit?.all isParenthesized) := by
  cases explicit? with
  | some explicit => exact isParenthesized_overridden plain spelled explicit
  | none =>
    cases spreads with
    | nil => rfl
    | cons first rest =>
      rw [List.all_cons, Bool.and_eq_true] at plain
      have carried := isParenthesized_carried plain.1 (spelled first List.mem_cons_self)
      have later := isParenthesized_overridden plain.2
        (fun spread member => spelled spread (List.mem_cons_of_mem _ member))
        (Code.member first "ref")
      change (forwarded? (some (Code.member first "ref")) rest).all isParenthesizedValue = _
      rw [later, carried]
      match rest with
      | [] | [_] => rfl
      | _ :: _ :: _ => simp [fits]

/-- The body of a forwarding function is parenthesized if its reference is, as an initial value. -/
theorem isParenthesized_forwardingBody (handle : ElementHandle) (reference : Tree) :
    (forwardingBody handle reference).all isParenthesized = reference.isParenthesizedValue := by
  have equality : operatorLevel "===" = 9 := rfl
  simp [forwardingBody, Code.typeofIs, isParenthesizedValue, accepts, operandDemand, equality]

end ElementRef

/-! ## Changes -/

namespace Hooks

@[simp] theorem isParenthesized_runtimeCall (global method : String) (name : Tree) :
    (Code.guardedRuntimeCall global method name).isParenthesized = name.isParenthesizedValue := by
  simp [Code.guardedRuntimeCall, Code.methodCall, Tree.isParenthesizedValue]

theorem isParenthesized_ofMarker (handle : ElementHandle) (runtimeGlobal : String)
    (marker : MarkerKind × MarkerValue) :
    (ofMarker handle runtimeGlobal marker).all Tree.isParenthesized =
      marker.2.expression.isParenthesizedValue := by
  obtain ⟨kind, value⟩ := marker
  rw [Bool.eq_iff_iff]
  cases kind with
  | click =>
    have depended : (Click.dependencies value).all Tree.isParenthesizedValue = true ↔
        (value.expression.isParenthesizedValue = true ∨ value.isDynamic = false) := by
      cases value <;> simp [Click.dependencies, MarkerValue.expression, MarkerValue.isDynamic]
    simp only [ofMarker, click, Click.listener, Click.binding, Click.listenerCall, Code.arrow,
      Code.methodCall]
    simp [Tree.isParenthesizedValue] at depended ⊢
    tauto
  | visible =>
    have number : (Code.number Visibility.threshold).tightness = 17 ∧
        (Code.number Visibility.threshold).isParenthesized = true := ⟨rfl, rfl⟩
    have conjunction : Tree.operatorLevel "&&" = 5 := rfl
    have disjunction : Tree.operatorLevel "||" = 4 := rfl
    have equality : Tree.operatorLevel "===" = 9 := rfl
    simp [ofMarker, visibility, Visibility.state, Visibility.watching, Visibility.unmounting,
      Visibility.readCurrent, Visibility.resetState, Visibility.disconnectPrevious,
      Visibility.observerCallback, Code.arrow, Code.methodCall, Code.typeofIs,
      Tree.isParenthesizedValue, Tree.accepts, Tree.operandDemand, number, conjunction, disjunction,
      equality, Code.tightness_binary]

end Hooks

/-- Whether the expressions that a change puts into places of its own fit there. -/
def Change.fits : Change → Bool
  | unvisited _ | element _ => true
  | reference attachment explicit? => ElementRef.fits explicit? attachment.spreads
  | hooks tracked => tracked.markers.values.all fun marker => 1 ≤ marker.2.expression.tightness

/-- Whether the values of markers that a change repeats are parenthesized. -/
def Change.Repeats : Change → Prop
  | hooks tracked =>
    ∀ marker ∈ tracked.markers.values, marker.2.expression.isParenthesized = true
  | _ => True

theorem Tracked.isParenthesized_hooks {element : Tracked}
    (spelled : (Change.hooks element).Repeats) (runtimeGlobal : String) :
    (element.hooks runtimeGlobal).all Tree.isParenthesized = (Change.hooks element).fits := by
  have declared : (Hooks.declaration element.handle).isParenthesized = true := by
    simp [Hooks.declaration, Tree.isParenthesizedValue]
  rw [Tracked.hooks, Hooks.ofElement, List.all_cons, declared, Bool.true_and, List.all_flatMap,
    Bool.eq_iff_iff, Change.fits, List.all_eq_true, List.all_eq_true]
  refine forall₂_congr fun marker member => ?_
  rw [Hooks.isParenthesized_ofMarker, Tree.isParenthesizedValue, spelled marker member,
    Bool.and_true]

theorem Interleaved.all_isParenthesized {statements hooks body : List Tree}
    (interleaved : Interleaved statements hooks body) : body.all Tree.isParenthesized =
      (statements.all Tree.isParenthesized && hooks.all Tree.isParenthesized) := by
  rw [interleaved.perm.all_eq, List.all_append]

/-- Hooks of elements are parenthesized if the values of their markers fit into them. -/
theorem Tracked.Arranged.all_isParenthesized {runtimeGlobal : String} {elements : List Tracked}
    {hooks : List Tree} (arranged : Tracked.Arranged runtimeGlobal elements hooks)
    (spelled : ∀ element ∈ elements, (Change.hooks element).Repeats) :
    hooks.all Tree.isParenthesized = (elements.map Change.hooks).all Change.fits := by
  obtain ⟨groups, ordered, rfl⟩ := arranged
  rw [List.all_flatten, ordered.all_eq, List.all_map, List.all_map, Bool.eq_iff_iff,
    List.all_eq_true, List.all_eq_true]
  refine forall₂_congr fun element member => ?_
  rw [Function.comp_apply, Tracked.isParenthesized_hooks (spelled element member)]
  rfl

/-- A body that gains hooks is parenthesized if it was and they are. -/
theorem Tree.Gains.isParenthesized {hooks : List Tree} {body gained : Tree}
    (gains : body.Gains hooks gained) :
    gained.isParenthesized = (body.isParenthesized && hooks.all Tree.isParenthesized) := by
  cases gains with
  | @block early late statements merged merge =>
    have undemanding := Tree.isParenthesized_undemanding .blockStatement fun _ _ => rfl
    rw [undemanding, undemanding, List.all_append, List.all_append, List.all_cons, List.all_cons,
      isParenthesized_list, isParenthesized_list, merge.all_isParenthesized, Bool.eq_iff_iff]
    simp only [Bool.and_eq_true]
    tauto
  | expression =>
    rw [Code.isParenthesized_block, List.all_append, List.all_cons, List.all_nil, Bool.and_true,
      Code.isParenthesized_returnValue, Bool.and_comm]

/-- A body with hooks is accepted by its function. -/
theorem Tree.Gains.accepted {hooks : List Tree} {body gained : Tree}
    (gains : body.Gains hooks gained) {kind : Kind} (isFunction : kind.isFunction = true)
    (operator : String) : acceptsPart kind operator .body gained = true := by
  have tightness : gained.tightness = 17 := by cases gains <;> rfl
  have few : demand kind operator .body ≤ 17 := by
    rcases Kind.isFunction_cases isFunction with rfl | rfl | rfl | rfl | rfl <;> simp
  rw [acceptsPart, if_neg (by decide), accepts, tightness, Nat.ble_eq_true_of_le few, Bool.true_or]

namespace Attachment

variable {attachment : Attachment} {explicit? : Option Tree} {hooks : List Tree} {generated : Tree}

/-- A generated reference is parenthesized if what it forwards to fits and is, and its hooks are. -/
theorem Gives.isParenthesized (gives : attachment.Gives explicit? hooks generated)
    (plain : attachment.spreads.all Tree.isPlainPath = true)
    (spelled : ∀ spread ∈ attachment.spreads, spread.isParenthesized = true) :
    generated.isParenthesized =
      ((ElementRef.fits explicit? attachment.spreads && explicit?.all Tree.isParenthesized) &&
        hooks.all Tree.isParenthesized) := by
  have wrapped (value : Tree) :
      (Code.jsxAttribute "ref" value).isParenthesized = value.isParenthesized := by
    rw [Bool.eq_iff_iff]
    simp [Code.jsxAttribute, Code.propertyName, Tree.isParenthesized, Tree.isParenthesizedInFields,
      Tree.acceptsPart, Tree.accepts]
  have forwarded := ElementRef.isParenthesized_forwarded plain spelled explicit?
  cases gives with
  | handle unforwarded bare =>
    rw [unforwarded] at forwarded
    rw [wrapped, ← forwarded, bare]
    rfl
  | @function reference body forwards merge =>
    rw [forwards] at forwarded
    rw [wrapped, ← forwarded, ElementRef.forwardingFunction, Code.arrow,
      Code.isParenthesized_arrowTo, Tree.isParenthesizedValue, Code.isParenthesized_block,
      merge.all_isParenthesized, ElementRef.isParenthesized_forwardingBody]
    simp

end Attachment

namespace Rewriting

variable {runtimeGlobal : String} {rewriting : Rewriting}

/-- Expressions keep their operators. -/
theorem Allowed.operator_image (allowed : rewriting.Allowed runtimeGlobal) :
    rewriting.image.operator = rewriting.source.operator := by
  obtain ⟨operator, allowedOperator, isOperator, wasOperator⟩ :=
    allowed.get .operator Field.noConfusion Field.noConfusion
  rw [Tree.operator, Tree.operator, isOperator, wasOperator, allowedOperator.text?_image]

/-- Expressions go on to bind as tightly as they did. -/
theorem Allowed.tightness_image (allowed : rewriting.Allowed runtimeGlobal) :
    rewriting.image.tightness = rewriting.source.tightness := by
  rw [Tree.tightness, Tree.tightness, allowed.kind?_image, allowed.operator_image]

theorem Allowed.accepts_image (allowed : rewriting.Allowed runtimeGlobal) (kind : Kind)
    (operator : String) (field : Field) :
    Tree.accepts kind operator field rewriting.image =
      Tree.accepts kind operator field rewriting.source := by
  rw [Tree.accepts, Tree.accepts, allowed.tightness_image, allowed.operator_image, Tree.isKind,
    Tree.isKind, allowed.kind?_image]

/-- What was accepted in a place is accepted there after instrumentation. -/
theorem Allowed.acceptsPart_image (allowed : rewriting.Allowed runtimeGlobal) (kind : Kind)
    (operator : String) (field : Field) :
    Tree.acceptsPart kind operator field rewriting.image =
      Tree.acceptsPart kind operator field rewriting.source := by
  have items : rewriting.image.items.all (Tree.accepts kind operator field) =
      rewriting.source.items.all (Tree.accepts kind operator field) := by
    cases allowed with
    | unvisited | scalar | node | component | opening => rfl
    | @list items each =>
      change (items.map image).all _ = (items.map source).all _
      rw [List.all_map, List.all_map, Bool.eq_iff_iff, List.all_eq_true, List.all_eq_true]
      refine forall₂_congr fun item member => ?_
      rw [Function.comp_apply, Function.comp_apply, (each item member).accepts_image]
  rw [Tree.acceptsPart, Tree.acceptsPart, items, allowed.accepts_image]

/-- What is rewritten is parenthesized if the changes made to it fit. -/
theorem all_isParenthesized {items : List Rewriting}
    (each : ∀ item ∈ items, item.image.isParenthesized = item.changes.all Change.fits) :
    (items.map image).all Tree.isParenthesized = (items.flatMap changes).all Change.fits := by
  rw [List.all_map, List.all_flatMap, Bool.eq_iff_iff, List.all_eq_true, List.all_eq_true]
  exact forall₂_congr fun item member => by rw [Function.comp_apply, each item member]

theorem allParts_isParenthesized {parts : List (Field × Rewriting)}
    (each : ∀ part ∈ parts, part.2.image.isParenthesized = part.2.changes.all Change.fits) :
    ((imagesInParts parts).all fun part => part.2.isParenthesized) =
      (changesInParts parts).all Change.fits := by
  rw [imagesInParts, changesInParts, List.all_map, List.all_flatMap, Bool.eq_iff_iff,
    List.all_eq_true, List.all_eq_true]
  exact forall₂_congr fun part member => by rw [Function.comp_apply, each part member]

/-- Parts that were accepted are accepted after instrumentation. -/
theorem allParts_accepted {parts : List (Field × Rewriting)}
    (each : ∀ part ∈ parts, part.2.Allowed runtimeGlobal) (kind : Kind) (operator : String) :
    ((imagesInParts parts).all fun part => Tree.acceptsPart kind operator part.1 part.2) =
      (sourcesInParts parts).all fun part => Tree.acceptsPart kind operator part.1 part.2 := by
  rw [imagesInParts, sourcesInParts, List.all_map, List.all_map, Bool.eq_iff_iff,
    List.all_eq_true, List.all_eq_true]
  refine forall₂_congr fun part member => ?_
  rw [Function.comp_apply, Function.comp_apply, (each part member).acceptsPart_image]

/-- The places of a parenthesized node accept its parts. -/
theorem accepted_of_isParenthesized {kind : Kind} {fields : Fields}
    (spelled : (Tree.node kind fields).isParenthesized = true) :
    (fields.all fun part =>
      Tree.acceptsPart kind (Tree.node kind fields).operator part.1 part.2) = true := by
  rw [Tree.isParenthesized, Bool.and_eq_true] at spelled
  exact spelled.1

end Rewriting

/-- The attributes of an element are parenthesized if the changes made to them fit. -/
theorem AttributesRewritten.isParenthesized {runtimeGlobal : String}
    {attachment? : Option Attachment} {attributes images : List Tree} {within : List Rewriting}
    {changes : List Change}
    (rewritten : AttributesRewritten runtimeGlobal attachment? attributes within images changes)
    (spread : ∀ attachment ∈ attachment?, attachment.spreads.all Tree.isPlainPath = true ∧
      ∀ spread ∈ attachment.spreads, spread.isParenthesized = true)
    (allowed : ∀ item ∈ within, item.Allowed runtimeGlobal)
    (each : ∀ item ∈ within, item.image.isParenthesized = item.changes.all Change.fits)
    (repeated : ∀ change ∈ changes, change.Repeats) :
    images.all Tree.isParenthesized = changes.all Change.fits := by
  cases rewritten with
  | plain => exact Rewriting.all_isParenthesized each
  | @added attachment generated _ gives =>
    obtain ⟨plain, spelled⟩ := spread attachment rfl
    rw [List.all_append, List.all_append, Rewriting.all_isParenthesized each]
    congr 1
    simp only [List.all_cons, List.all_nil, Bool.and_true, gives.isParenthesized plain spelled,
      Change.fits, Option.all_none]
  | @replaced attachment attr generated front back explicit elements hooks isRef expression arranged
      gives =>
    obtain ⟨plain, spelled⟩ := spread attachment rfl
    have hooked := arranged.all_isParenthesized fun element member =>
      repeated (.hooks element) (by simp [member])
    have fits : ElementRef.fits (some explicit.image) attachment.spreads =
        ElementRef.fits (some explicit.source) attachment.spreads := by
      have tightness := (allowed explicit (by simp)).tightness_image
      match attachment.spreads with
      | [] | [_] => simp only [ElementRef.fits, tightness]
      | _ :: _ :: _ => rfl
    have own : generated.isParenthesized = ((ElementRef.fits (some explicit.source)
        attachment.spreads && explicit.changes.all Change.fits) &&
          (elements.map Change.hooks).all Change.fits) := by
      rw [gives.isParenthesized plain spelled, fits, hooked, Option.all_some,
        each explicit (by simp)]
    have inFront := Rewriting.all_isParenthesized fun item (member : item ∈ front) =>
      each item (by simp [member])
    have behind := Rewriting.all_isParenthesized fun item (member : item ∈ back) =>
      each item (by simp [member])
    simp only [List.all_append, inFront, behind, List.all_cons, List.all_nil, Bool.and_true, own,
      Change.fits]
    rw [Bool.eq_iff_iff]
    simp only [Bool.and_eq_true]
    tauto

namespace Rewriting

variable {runtimeGlobal : String} {rewriting : Rewriting}

/-- **A rewritten tree is parenthesized if, and only if, the changes made to it fit.** -/
theorem Allowed.isParenthesized_image (allowed : rewriting.Allowed runtimeGlobal)
    (spelled : rewriting.source.isParenthesized = true)
    (repeated : ∀ change ∈ rewriting.changes, change.Repeats) :
    rewriting.image.isParenthesized = rewriting.changes.all Change.fits := by
  have inParts {kind : Kind} {fields : Fields} {parts : List (Field × Rewriting)}
      (spelled : (Tree.node kind fields).isParenthesized = true)
      (among : ∀ part ∈ sourcesInParts parts, part ∈ fields)
      (repeated : ∀ change ∈ changesInParts parts, change.Repeats)
      (each : ∀ part ∈ parts, part.2.source.isParenthesized = true →
        (∀ change ∈ part.2.changes, change.Repeats) →
          part.2.image.isParenthesized = part.2.changes.all Change.fits) :
      ((imagesInParts parts).all fun part => part.2.isParenthesized) =
        (changesInParts parts).all Change.fits := by
    apply allParts_isParenthesized
    intro part member
    apply each part member
    · apply Tree.hereditary_isParenthesized.part spelled
      exact among (part.1, part.2.source) (List.mem_map.mpr ⟨part, member, rfl⟩)
    · exact fun change inside => repeated change (List.mem_flatMap.mpr ⟨part, member, inside⟩)
  induction allowed with
  | unvisited tree => exact spelled
  | scalar => exact spelled
  | @list items each ih =>
    change (Tree.list (items.map image)).isParenthesized = _
    rw [Tree.isParenthesized_list]
    apply all_isParenthesized
    intro item member
    apply ih item member
    · exact Tree.hereditary_isParenthesized.item spelled (List.mem_map_of_mem member)
    · exact fun change inside => repeated change (List.mem_flatMap.mpr ⟨item, member, inside⟩)
  | @node kind parts unattributed each ih =>
    have operator := (Allowed.node unattributed each).operator_image
    have accepted := accepted_of_isParenthesized spelled
    change (Tree.node kind (imagesInParts parts)).operator =
      (Tree.node kind (sourcesInParts parts)).operator at operator
    change (Tree.node kind (imagesInParts parts)).isParenthesized = _
    rw [Tree.isParenthesized, operator, allParts_accepted each, accepted, Bool.true_and,
      Tree.isParenthesizedInFields_eq_all]
    exact inParts spelled (fun _ => id) repeated ih
  | @component kind early late body elements hooks gained isFunction each arranged gains ih =>
    have operator := (Allowed.component isFunction each arranged gains).operator_image
    have accepted := accepted_of_isParenthesized spelled
    change (Tree.node kind (imagesInParts early ++ (.body, gained) :: imagesInParts late)).operator =
      (Tree.node kind (sourcesInParts (early ++ (.body, body) :: late))).operator at operator
    change (Tree.node kind
      (imagesInParts early ++ (.body, gained) :: imagesInParts late)).isParenthesized = _
    have inBody := ih (.body, body) (by simp)
      (Tree.hereditary_isParenthesized.part spelled (List.mem_map.mpr ⟨(.body, body), by simp, rfl⟩))
      (fun change inside => repeated change (by simp [changesInParts, inside]))
    have sideParts (parts : List (Field × Rewriting))
        (among : ∀ part ∈ parts, part ∈ early ++ (.body, body) :: late) :
        ((imagesInParts parts).all fun part => part.2.isParenthesized) =
            (changesInParts parts).all Change.fits ∧
          ((imagesInParts parts).all fun part => Tree.acceptsPart kind
            (Tree.node kind (sourcesInParts (early ++ (.body, body) :: late))).operator
              part.1 part.2) = true := by
      constructor
      · refine inParts spelled (fun part member => ?_) (fun change member => ?_)
          (fun part member => ih part (among part member))
        · obtain ⟨origin, inside, rfl⟩ := List.mem_map.mp member
          exact List.mem_map.mpr ⟨origin, among origin inside, rfl⟩
        · obtain ⟨origin, inside, here⟩ := List.mem_flatMap.mp member
          exact repeated change (List.mem_append_left _
            (List.mem_flatMap.mpr ⟨origin, among origin inside, here⟩))
      · rw [allParts_accepted fun part member => each part (among part member)]
        refine List.all_eq_true.mpr fun part member => List.all_eq_true.mp accepted part ?_
        obtain ⟨origin, inside, rfl⟩ := List.mem_map.mp member
        exact List.mem_map.mpr ⟨origin, among origin inside, rfl⟩
    obtain ⟨earlySpelled, earlyAccepted⟩ := sideParts early fun part => List.mem_append_left _
    obtain ⟨lateSpelled, lateAccepted⟩ := sideParts late fun part member =>
      List.mem_append_right _ (List.mem_cons_of_mem _ member)
    have hooked := arranged.all_isParenthesized fun element member =>
      repeated (.hooks element) (by simp [member])
    have wholeChanges : changesInParts (early ++ (.body, body) :: late) =
        changesInParts early ++ (body.changes ++ changesInParts late) := by
      simp [changesInParts]
    rw [Tree.isParenthesized, operator, Tree.isParenthesizedInFields_eq_all, wholeChanges]
    simp only [List.all_append, List.all_cons, earlyAccepted, lateAccepted, earlySpelled,
      lateSpelled, gains.accepted isFunction, gains.isParenthesized, inBody, hooked, Bool.true_and]
    rw [Bool.eq_iff_iff]
    simp only [Bool.and_eq_true]
    tauto
  | @opening early late attributes images attachment? within inAttributes others spread each
      eachWithin rewritten ih ihWithin =>
    have undemanding := Tree.isParenthesized_undemanding .jsxOpeningElement fun _ _ => rfl
    have held {field : Field} {tree : Tree} (member : (field, tree) ∈ sourcesInParts early ++
        (.attributes, .list attributes) :: sourcesInParts late) : tree.isParenthesized = true :=
      Tree.hereditary_isParenthesized.part spelled member
    have inList : ∀ attr ∈ attributes, attr.isParenthesized = true := fun attr member =>
      Tree.hereditary_isParenthesized.item (held (List.mem_append_right _ List.mem_cons_self)) member
    have sideParts (parts : List (Field × Rewriting)) (among : ∀ part ∈ parts, part ∈ early ++ late)
        (inSource : ∀ part ∈ sourcesInParts parts, part ∈ sourcesInParts early ++
          (.attributes, .list attributes) :: sourcesInParts late)
        (repeated : ∀ change ∈ changesInParts parts, change.Repeats) :
        ((imagesInParts parts).all fun part => part.2.isParenthesized) =
          (changesInParts parts).all Change.fits :=
      inParts spelled inSource repeated fun part member => ih part (among part member)
    simp only [List.mem_append] at repeated
    have inTag := rewritten.isParenthesized
      (fun attachment due => ⟨(spread attachment due).2, fun expression member =>
        Tree.hereditary_isParenthesized.trailingSpreads inList expression
          ((spread attachment due).1 ▸ member)⟩) eachWithin
      (fun item member => by
        obtain ⟨whole, inside⟩ := rewritten.within Tree.hereditary_isParenthesized
          (fun attr member => inList attr (List.mem_of_mem_filter member)) item member
        exact ihWithin item member whole fun change here =>
          repeated change (.inl (.inr (inside change here))))
      (fun change member => repeated change (.inl (.inr member)))
    have before := sideParts early (fun part => List.mem_append_left _)
      (fun part => List.mem_append_left _) (fun change member => repeated change (.inl (.inl (.inr member))))
    have behind := sideParts late (fun part => List.mem_append_right _)
      (fun part member => List.mem_append_right _ (List.mem_cons_of_mem _ member))
      (fun change member => repeated change (.inr member))
    have handled : (attachment?.map fun attachment =>
        Change.element attachment.handle).toList.all Change.fits = true := by
      cases attachment? <;> rfl
    change (Tree.node .jsxOpeningElement (imagesInParts early ++
      (.attributes, .list images) :: imagesInParts late)).isParenthesized = _
    rw [undemanding, List.all_append, List.all_cons, Tree.isParenthesized_list, before, behind, inTag,
      List.all_append, List.all_append, List.all_append, handled, Bool.true_and, Bool.and_assoc]

end Rewriting

namespace Woven

/-- The elements whose hooks go into a function are elements in it. -/
theorem mem_tracked {scan? : Option BodyScan} {elements treatments : List Treatment}
    (within : ∀ treatment ∈ elements, treatment ∈ treatments) {element : Tracked}
    (member : element ∈ tracked scan? elements) :
    element ∈ treatments.filterMap Treatment.tracked? := by
  cases scan? with
  | none => cases member
  | some scan =>
    obtain ⟨treatment, among, own⟩ := List.mem_filterMap.mp member
    exact List.mem_filterMap.mpr ⟨treatment, within treatment among, own⟩

mutual

/-- Hooks are those of an element that was visited. -/
theorem mem_treatments_of_hooks {element : Tracked} : ∀ woven : Woven,
    Change.hooks element ∈ woven.changes →
      element ∈ woven.treatments.filterMap Treatment.tracked?
  | kept tree, member => by
    rw [changes] at member
    split at member <;> simp at member
  | removed _, member => by cases member
  | list items, member | statements items, member => mem_treatments_of_hooks_items items member
  | node _ parts, member => mem_treatments_of_hooks_parts parts member
  | function kind outer scan? inner, member => by
    rw [changes, List.mem_append, List.mem_append] at member
    rw [treatments, List.filterMap_append, List.mem_append]
    rcases member with (outside | inside) | own
    · exact .inl (mem_treatments_of_hooks_parts outer outside)
    · exact .inr (mem_treatments_of_hooks_parts inner inside)
    · obtain ⟨_, due, same⟩ := List.mem_map.mp own
      obtain rfl := Change.hooks.inj same
      split at due
      case isTrue =>
        refine .inr (mem_tracked (fun treatment among => ?_) due)
        exact (treatmentsInParts_perm inner).mem_iff.mpr (List.mem_append_left _ among)
      case isFalse => cases due
  | opening treatment parts, member => by
    rw [changes, List.mem_append] at member
    rw [treatments]
    rcases member with given | inside
    · simp at given
    · obtain ⟨other, among, own⟩ :=
        List.mem_filterMap.mp (mem_treatments_of_hooks_parts parts inside)
      exact List.mem_filterMap.mpr ⟨other, List.mem_cons_of_mem _ among, own⟩
  | reference attachment replaced scan?, member => by
    rw [changes, List.mem_append, List.mem_append] at member
    rcases member with (inside | own) | given
    · exact mem_treatments_of_hooks_items replaced inside
    · obtain ⟨_, due, same⟩ := List.mem_map.mp own
      obtain rfl := Change.hooks.inj same
      refine mem_tracked (fun treatment among => ?_) due
      exact (treatmentsInItems_perm replaced).mem_iff.mpr (List.mem_append_left _ among)
    · simp at given

/-- `Woven.mem_treatments_of_hooks` for a list of woven trees. -/
theorem mem_treatments_of_hooks_items {element : Tracked} : ∀ items : List Woven,
    Change.hooks element ∈ changesInItems items →
      element ∈ (treatmentsInItems items).filterMap Treatment.tracked?
  | [], member => by cases member
  | item :: rest, member => by
    rw [treatmentsInItems, List.filterMap_append, List.mem_append]
    exact (List.mem_append.mp member).imp (mem_treatments_of_hooks item)
      (mem_treatments_of_hooks_items rest)

/-- `Woven.mem_treatments_of_hooks` for the parts of a node. -/
theorem mem_treatments_of_hooks_parts {element : Tracked} : ∀ parts : List (Field × Woven),
    Change.hooks element ∈ changesInParts parts →
      element ∈ (treatmentsInParts parts).filterMap Treatment.tracked?
  | [], member => by cases member
  | (_, part) :: rest, member => by
    rw [treatmentsInParts, List.filterMap_append, List.mem_append]
    exact (List.mem_append.mp member).imp (mem_treatments_of_hooks part)
      (mem_treatments_of_hooks_parts rest)

end

end Woven

/-- Hooks in a module are those of a visited element that has a handle. -/
theorem exists_visited_of_hooks {source? : Option String} {items : List Tree} {element : Tracked}
    (member : Change.hooks element ∈ moduleChanges source? items) :
    ∃ treatment ∈ Woven.treatmentsInItems (weaveModule source? items),
      treatment.handle? = some element.handle ∧ treatment.markers = element.markers := by
  unfold moduleChanges at member
  split at member
  case isFalse => cases List.mem_singleton.mp member
  case isTrue =>
    obtain ⟨treatment, visited, same⟩ := List.mem_filterMap.mp
      (Woven.mem_treatments_of_hooks_items _ member)
    obtain ⟨handle, given, rfl⟩ := Option.map_eq_some_iff.mp same
    exact ⟨treatment, visited, given, rfl⟩

/-- The values of markers that a module repeats in its hooks are parenthesized if the module is. -/
theorem moduleChanges_repeat {source? : Option String} {items : List Tree}
    (spelled : Tree.isParenthesizedInItems items = true) :
    ∀ change ∈ moduleChanges source? items, change.Repeats := by
  intro change member
  cases change with
  | unvisited | element | reference => trivial
  | hooks element =>
    rintro ⟨kind, value⟩ among
    cases value with
    | literal name => rfl
    | dynamic expression =>
      obtain ⟨treatment, visited, -, same⟩ := exists_visited_of_hooks member
      refine values_of_visited visited Tree.hereditary_isParenthesized spelled expression ?_
      rw [same]
      exact List.mem_filterMap.mpr ⟨(kind, .dynamic expression), among, rfl⟩

/-- `return <div data-track-click={"c"} ref={explicit} {...rest} />;` -/
def spreadStatements (explicit : Tree) : List Tree :=
  [Code.returnValue (.node .jsxElement
    [(.opening, .node .jsxOpeningElement
      [(.name, Code.reference "div"),
        (.attributes, .list
          [Code.jsxAttribute "data-track-click" (Code.string "c"), Code.jsxAttribute "ref" explicit,
            .node .spreadElement [(.arguments, Code.reference "rest")]])])])]

/-- `a || b` -/
def eitherReference : Tree :=
  Code.binary "||" (Code.reference "a") (Code.reference "b")

end JsxTracking
