import JsxTracking.Syntax.Tree

/-! # Generated code

Constructors for the statements and expressions that instrumentation adds to a module. Each builds
the least node of its form: no flags, no position in a source text. -/

namespace JsxTracking.Code

/-- A use of a variable. -/
def reference (name : String) : Tree :=
  .node .identifier [(.value, .str name)]

/-- The declaration of a variable in a pattern. -/
def binding (name : String) : Tree :=
  .node .binding [(.value, .str name)]

/-- A property, key or attribute name. -/
def propertyName (name : String) : Tree :=
  .node .name [(.value, .str name)]

/-- A string literal without a spelling of its own. -/
def string (value : String) : Tree :=
  .node .stringLiteral [(.value, .str value)]

/-- A number literal. -/
def number (numeral : String) : Tree :=
  .node .numericLiteral [(.value, .num numeral)]

/-- The literal `null`. -/
def nullLiteral : Tree :=
  .node .nullLiteral []

/-- `object.property`. -/
def member (object : Tree) (property : String) : Tree :=
  .node .memberExpression [(.object, object), (.property, propertyName property)]

/-- Expressions as arguments of a call or elements of an array. -/
def arguments (values : List Tree) : Tree :=
  .list (values.map fun value => .node .argument [(.expression, value)])

/-- `callee(values…)`. -/
def call (callee : Tree) (values : List Tree) : Tree :=
  .node .callExpression [(.callee, callee), (.arguments, arguments values)]

/-- `object.method(values…)`. -/
def methodCall (object : Tree) (method : String) (values : List Tree) : Tree :=
  call (member object method) values

/-- `new callee(values…)`. -/
def construct (callee : String) (values : List Tree) : Tree :=
  .node .newExpression [(.callee, reference callee), (.arguments, arguments values)]

/-- `[values…]`. -/
def array (values : List Tree) : Tree :=
  .node .arrayExpression [(.elements, arguments values)]

/-- `{ key: value, … }`. -/
def object (members : List (String × Tree)) : Tree :=
  .node .objectExpression [(.properties, .list (members.map fun (key, value) =>
    .node .keyValueProperty [(.key, propertyName key), (.value, value)]))]

/-- A prefix operator applied to an operand. -/
def unary (operator : String) (argument : Tree) : Tree :=
  .node .unaryExpression [(.argument, argument), (.operator, .str operator)]

/-- A binary operator between its operands. -/
def binary (operator : String) (left right : Tree) : Tree :=
  .node .binaryExpression [(.left, left), (.right, right), (.operator, .str operator)]

/-- `typeof value === "type"`. -/
def typeofIs (value : Tree) (type : String) : Tree :=
  binary "===" (unary "typeof" value) (string type)

/-- `object.property = value`. -/
def assignMember (object : Tree) (property : String) (value : Tree) : Tree :=
  .node .assignmentExpression
    [(.left, member object property), (.right, value), (.operator, .str "=")]

/-- `{ statements… }`. -/
def block (statements : List Tree) : Tree :=
  .node .blockStatement [(.stmts, .list statements)]

/-- `(parameters…) => body`, where the body is a block or an expression. -/
def arrowTo (parameters : List Tree) (body : Tree) : Tree :=
  .node .arrowFunctionExpression [(.params, .list parameters), (.body, body)]

/-- `(parameters…) => { statements… }`. -/
def arrow (parameters : List Tree) (statements : List Tree) : Tree :=
  arrowTo parameters (block statements)

/-- An expression as a statement. -/
def perform (expression : Tree) : Tree :=
  .node .expressionStatement [(.expression, expression)]

/-- `return;` -/
def returnNothing : Tree :=
  .node .returnStatement []

/-- `return value;` -/
def returnValue (value : Tree) : Tree :=
  .node .returnStatement [(.argument, value)]

/-- `if (test) { statements… }`. -/
def ifThen (test : Tree) (statements : List Tree) : Tree :=
  .node .ifStatement [(.test, test), (.consequent, block statements)]

/-- `if (test) { statements… } else otherwise`. -/
def ifThenElse (test : Tree) (statements : List Tree) (otherwise : Tree) : Tree :=
  .node .ifStatement [(.test, test), (.consequent, block statements), (.alternate, otherwise)]

/-- `const name = value;` -/
def constant (name : String) (value : Tree) : Tree :=
  .node .variableDeclaration
    [(.declarations, .list [.node .variableDeclarator
        [(.id, binding name), (.initializer, value)]]),
      (.kind, .str "const")]

/-- `if (window.global) { window.global.method(name); }`. The runtime may be absent, and its absence
must not make the page throw. -/
def guardedRuntimeCall (global method : String) (name : Tree) : Tree :=
  let runtime := member (reference "window") global
  ifThen runtime [perform (methodCall runtime method [name])]

/-- The JSX attribute `name={value}`. -/
def jsxAttribute (name : String) (value : Tree) : Tree :=
  .node .jsxAttribute
    [(.name, propertyName name), (.value, .node .jsxExpressionContainer [(.expression, value)])]

end JsxTracking.Code
