import JsxTracking.Source.Operator
import JsxTracking.Source.Pattern

/-! # Expressions in source text

An expression with commas is a sequence; a *value* is an expression without. Values are functions,
assignments, conditionals and groups of operands with binary operators; an operand may have prefix
operators in front and accesses, calls and assertions behind. -/

namespace JsxTracking.Source.Parser

/-- Values with commas between them: a sequence, unless there is only one. -/
def expression (inner : Grammar) (setting : Setting) : Parser Tree := do
  let first ← inner.value setting
  let more ← many do
    if ← symbol? "," then some <$> inner.value setting else return none
  if more.isEmpty then return first
  else return .node .sequenceExpression [(.expressions, .list (first :: more))]

/-- An argument of a call or an element of an array. -/
def argument (inner : Grammar) (setting : Setting) : Parser Tree := do
  let spread ← symbol? "..."
  let value ← inner.value setting
  return .node .argument ((.expression, value) :: if spread then [(.spread, spreadMark)] else [])

/-- Something spread into an object or an element. -/
def spread (inner : Grammar) (setting : Setting) : Parser Tree := do
  symbol "..."
  return .node .spreadElement [(.arguments, ← inner.value setting), (.spread, spreadMark)]

/-- The statements of a block, in braces. -/
def block (inner : Grammar) (setting : Setting) : Parser Tree := do
  symbol "\x7b"
  let (statements, _) ← commented (← gap).below do
    if ← begins? "\x7d" then return none else some <$> inner.statement setting
  return .node .blockStatement [(.stmts, .list statements)]

/-- The parts of a function from its parameters on. -/
def functionParts (inner : Grammar) (setting : Setting) (async : Bool) : Parser Fields := do
  let setting := setting.enterFunction async
  let params := (← parameters inner setting).map fun pattern => .node .parameter [(.pat, pattern)]
  let returnType? ← ascription? inner setting
  let body ← block inner setting
  return [(.params, .list params), (.body, body)] ++ optionalPart .returnType returnType? ++
    raisedFlag .async async

/-- The word `async` before a function on the same line, and the word `function`. -/
def functionWord? : Parser (Option Bool) := do
  if ← word? "function" then return some false
  else if (← attempt? do
      word "async"
      require !(← breaksAhead)
      word "function").isSome then return some true
  else return none

/-- A function as an expression, after the word `function`. -/
def functionExpression (inner : Grammar) (setting : Setting) (async : Bool) : Parser Tree := do
  let name? ← if (← nextChar?) = some '(' then pure none else some <$> bindableName
  let parts ← functionParts inner setting async
  return .node .functionExpression (optionalPart .identifier (name?.map Code.reference) ++ parts)

/-- The head of an arrow function: its parameters and its type. -/
def arrowHead (inner : Grammar) (setting : Setting) (async : Bool) : Parser Fields := do
  if async then
    word "async"
    require !(← breaksAhead)
  let setting := setting.enterArrow async
  let head ← if (← nextChar?) = some '(' then do
      let params ← parameters inner setting
      let returnType? ← ascription? inner setting
      pure [(.params, .list params), (.returnType, returnType?.getD .null)]
    else pure [(.params, .list [Code.binding (← bindableName)])]
  require !(← breaksAhead)
  symbol "=>"
  return head

/-- An arrow function, unless the text ahead is none. -/
def arrow? (inner : Grammar) (setting : Setting) : Parser (Option Tree) := do
  let async? ← do
    if let some head ← attempt? (arrowHead inner setting true) then pure (some (true, head))
    else if let some head ← attempt? (arrowHead inner setting false) then pure (some (false, head))
    else pure none
  match async? with
  | none => return none
  | some (async, head) =>
    let setting := setting.enterArrow async
    let body ← if (← nextChar?) = some '{' then block inner setting else inner.value setting
    return some (.node .arrowFunctionExpression
      ([(.params, head.get .params), (.body, body)] ++
        (if (head.get .returnType).isNull then [] else [(.returnType, head.get .returnType)]) ++
        raisedFlag .async async))

/-- A property of an object. -/
def property (inner : Grammar) (setting : Setting) : Parser Tree := do
  if (← nextSymbol?) = some "..." then spread inner setting
  else
    match ← attempt? (do
      let key ← propertyKey
      symbol ":"
      return key) with
    | some key => return .node .keyValueProperty [(.key, key), (.value, ← inner.value setting)]
    | none => return Code.reference (← variableName)

/-- What follows the word `new`. -/
def construction (inner : Grammar) (setting : Setting) (callee : Parser Tree) : Parser Tree := do
  if ← symbol? "." then
    word "target"
    require setting.constructible
    return .node .metaProperty [(.kind, .str "new.target")]
  else
    let callee ← extend (← callee) fun callee => do
      if ← symbol? "." then return some (Code.member callee (← name))
      else if ← symbol? "[" then
        let index ← expression inner setting
        symbol "]"
        return some (.node .memberExpression
          [(.object, callee), (.property, .node .computed [(.expression, index)])])
      else return none
    if ← symbol? "(" then
      let values ← separated ")" (argument inner setting)
      return .node .newExpression [(.callee, callee), (.arguments, .list values)]
    else return .node .newExpression [(.callee, callee)]

/-- What a word at the start of an operand stands for; none for a word that has no such
meaning. -/
def wordOperand (inner : Grammar) (setting : Setting) : Parser Tree := do
  match ← functionWord? with
  | some async => functionExpression inner setting async
  | none =>
    if ← word? "this" then return .node .thisExpression []
    else if ← word? "null" then return Code.nullLiteral
    else if ← word? "true" then return .node .booleanLiteral [(.value, .bool true)]
    else if ← word? "false" then return .node .booleanLiteral [(.value, .bool false)]
    else return Code.reference (← variableName)

/-- An operand without operators, accesses and calls. -/
def plainOperand (inner : Grammar) (setting : Setting) : Parser Tree := do
  let _ ← gap
  match ← rest with
  | '(' :: _ =>
    drop 1
    let value ← expression inner setting
    symbol ")"
    return .node .parenthesisExpression [(.expression, value)]
  | '[' :: _ =>
    drop 1
    return .node .arrayExpression [(.elements, .list (← separated "]" (argument inner setting)))]
  | '{' :: _ =>
    drop 1
    return .node .objectExpression
      [(.properties, .list (← separated "\x7d" (property inner setting)))]
  | '`' :: _ => template (expression inner setting)
  | '<' :: _ =>
    require setting.jsx
    inner.element setting
  | '.' :: _ => number
  | c :: _ =>
    if c = '"' || c = '\'' then string
    else if c.isDigit then number
    else wordOperand inner setting
  | [] => fail

/-- An operand without operators, accesses and calls, or a construction. -/
def startOperand (inner : Grammar) (setting : Setting) : Parser Tree := do
  if ← word? "new" then construction inner setting (plainOperand inner setting)
  else plainOperand inner setting

/-- An operand to which accesses and calls are added, and whether it continues an optional
chain. -/
structure Chain where
  operand : Tree
  optional : Bool := false

/-- A chain with one more access or call. -/
def Chain.link (chain : Chain) (optional : Bool) (kind : Kind) (parts : Fields) : Chain :=
  if optional || chain.optional then
    let kind := if kind = .callExpression then .optionalCall else kind
    { operand := .node .optionalChainingExpression
        ((.base, .node kind parts) :: raisedFlag .optional optional)
      optional := true }
  else { chain with operand := .node kind parts }

/-- The next access, call or assertion of a chain, if there is one. -/
def nextLink? (inner : Grammar) (setting : Setting) (chain : Chain) : Parser (Option Chain) := do
  let optional ← symbol? "?."
  let dotted ← if optional then pure false else symbol? "."
  if ← symbol? "[" then
    require !dotted
    let index ← expression inner setting
    symbol "]"
    return some (chain.link optional .memberExpression
      [(.object, chain.operand), (.property, .node .computed [(.expression, index)])])
  else if ← symbol? "(" then
    require !dotted
    let values ← separated ")" (argument inner setting)
    return some (chain.link optional .callExpression
      [(.callee, chain.operand), (.arguments, .list values)])
  else if optional || dotted then
    return some (chain.link optional .memberExpression
      [(.object, chain.operand), (.property, Code.propertyName (← name))])
  else if ← ifAllowed setting.types (onSameLine (symbol? "!")) then
    return some { chain with operand := .node .tsNonNullExpression [(.expression, chain.operand)] }
  else return none

/-- An operand with its accesses, calls and assertions. -/
def chain (inner : Grammar) (setting : Setting) : Parser Tree := do
  let start ← startOperand inner setting
  return (← extend { operand := start : Chain } (nextLink? inner setting)).operand

/-- The next prefix operator, if there is one, by what it makes of its operand. -/
def prefixOperator? (inner : Grammar) (setting : Setting) : Parser (Option (Tree → Tree)) := do
  for operator in ["!", "-", "+"] do
    if ← symbol? operator then return some (Code.unary operator)
  for operator in ["typeof", "void"] do
    if ← word? operator then return some (Code.unary operator)
  if ← ifAllowed setting.awaits (word? "await") then
    return some fun operand => .node .awaitExpression [(.argument, operand)]
  if ← ifAllowed (setting.types && !setting.jsx) (symbol? "<") then
    let type ← inner.type
    begins ">"
    return some fun operand =>
      .node .tsTypeAssertion [(.expression, operand), (.ascription, type)]
  return none

/-- An operand with its prefix operators. -/
def operand (inner : Grammar) (setting : Setting) : Parser Tree := do
  let operators ← many (prefixOperator? inner setting)
  return operators.foldr (· <| ·) (← chain inner setting)

/-- The next binary operator with its right operand, if there is one. -/
def nextOperand? (inner : Grammar) (setting : Setting) : Parser (Option (Operator × Tree)) := do
  match ← nextSymbol? with
  | some symbol =>
    if (Operator.precedences.lookup symbol).isSome then
      begins symbol
      return some (.binary symbol, ← operand inner setting)
    else return none
  | none =>
    if ← ifAllowed setting.types (onSameLine (word? "as")) then
      if ← word? "const" then return some (.constant, .null)
      else return some (.assertion, ← inner.type)
    else return none

/-- Operands with binary operators between them. -/
def operation (inner : Grammar) (setting : Setting) : Parser Tree := do
  let first ← operand inner setting
  let more ← many (nextOperand? inner setting)
  match Operator.group? first more with
  | some grouped => return grouped
  | none => fail

/-- The operators that assign a value. -/
def assignmentOperators : List String :=
  ["=", "+=", "-=", "*=", "/=", "%="]

/-- An expression as the target of an assignment, if it can be one. -/
def assignable? : Tree → Option Tree
  | .node .identifier parts =>
    match (Fields.get parts .value).text? with
    | some name => if name = "eval" || name = "arguments" then none else some (Code.binding name)
    | none => none
  | .node .memberExpression parts => some (.node .memberExpression parts)
  | _ => none

/-- A value. -/
def value (inner : Grammar) (setting : Setting) : Parser Tree := do
  if let some arrow ← arrow? inner setting then return arrow
  let left ← operation inner setting
  if ← symbol? "?" then
    let consequent ← inner.value setting
    symbol ":"
    let alternate ← inner.value setting
    return .node .conditionalExpression
      [(.test, left), (.consequent, consequent), (.alternate, alternate)]
  match ← nextSymbol? with
  | some operator =>
    if assignmentOperators.contains operator then
      begins operator
      match assignable? left with
      | some target =>
        return .node .assignmentExpression
          [(.left, target), (.right, ← inner.value setting), (.operator, .str operator)]
      | none => fail
    else return left
  | none => return left

end JsxTracking.Source.Parser
