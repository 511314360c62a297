import JsxTracking.Source.Expression

/-! # Statements in source text

Functions and variables are declared, and where types are read also names of types. A statement
that is held by another, without braces, may not declare anything. -/

namespace JsxTracking.Source.Parser

/-- One of the variables that a statement declares. Constants and patterns need a value. -/
def declarator (inner : Grammar) (setting : Setting) (kind : String) : Parser Tree := do
  let id ← declared inner setting
  if ← symbol? "=" then
    return .node .variableDeclarator [(.id, id), (.initializer, ← inner.value setting)]
  else
    require (kind ≠ "const" && id.isKind .binding)
    return .node .variableDeclarator [(.id, id)]

/-- A declaration of variables, after its first word. -/
def variableDeclaration (inner : Grammar) (setting : Setting) (kind : String) : Parser Tree := do
  let first ← declarator inner setting kind
  let more ← many do
    if ← symbol? "," then some <$> declarator inner setting kind else return none
  semicolon
  return .node .variableDeclaration [(.declarations, .list (first :: more)), (.kind, .str kind)]

/-- A declaration of a function, after the word `function`. -/
def functionDeclaration (inner : Grammar) (setting : Setting) (async : Bool) : Parser Tree := do
  let name ← bindableName
  let parts ← functionParts inner setting async
  return .node .functionDeclaration ((.identifier, Code.reference name) :: parts)

/-- The word `type` and the name of a type that is declared. -/
def typeAliasHead : Parser String := do
  word "type"
  require !(← breaksAhead)
  let name ← bindableName
  symbol "="
  return name

/-- A declaration of a type, if there is one. -/
def typeDeclaration? (inner : Grammar) : Parser (Option Tree) := do
  match ← attempt? typeAliasHead with
  | some name =>
    let type ← inner.type
    semicolon
    return some (.node .tsTypeAliasDeclaration
      [(.id, Code.reference name), (.ascription, type)])
  | none =>
    if ← word? "interface" then
      let name ← bindableName
      let members ← typeMembers inner
      return some (.node .tsInterfaceDeclaration [(.id, Code.reference name),
        (.body, .node .tsInterfaceBody [(.body, .list members)])])
    else return none

/-- A declaration, if there is one. -/
def declaration? (inner : Grammar) (setting : Setting) : Parser (Option Tree) := do
  if let some async ← functionWord? then
    return some (← functionDeclaration inner setting async)
  for kind in ["const", "let", "var"] do
    if ← word? kind then return some (← variableDeclaration inner setting kind)
  if setting.types then typeDeclaration? inner else return none

/-- A statement that is held by another. -/
def embedded (inner : Grammar) (setting : Setting) : Parser Tree := do
  let statement ← inner.statement setting
  match statement with
  | .node .functionDeclaration _ | .node .tsTypeAliasDeclaration _
  | .node .tsInterfaceDeclaration _ => fail
  | .node .variableDeclaration parts =>
    require ((Fields.get parts .kind).text? = some "var")
    return statement
  | _ => return statement

/-- What follows the word `if`. -/
def conditional (inner : Grammar) (setting : Setting) : Parser Tree := do
  symbol "("
  let test ← expression inner setting
  symbol ")"
  let consequent ← embedded inner setting
  let alternate? ← if ← word? "else" then some <$> embedded inner setting else pure none
  return .node .ifStatement
    ([(.test, test), (.consequent, consequent)] ++ optionalPart .alternate alternate?)

/-- What follows the word `return`: a value on the same line, or nothing. -/
def returned (inner : Grammar) (setting : Setting) : Parser Tree := do
  require setting.inFunction
  let isBare ← do
    match ← nextChar? with
    | none | some ';' | some '}' => pure true
    | some _ => breaksAhead
  let value? ← if isBare then pure none else some <$> expression inner setting
  semicolon
  return .node .returnStatement (optionalPart .argument value?)

/-- What follows the word `throw`: a value on the same line. -/
def thrown (inner : Grammar) (setting : Setting) : Parser Tree := do
  require !(← breaksAhead)
  let value ← expression inner setting
  semicolon
  return .node .throwStatement [(.argument, value)]

/-- A statement. -/
def statement (inner : Grammar) (setting : Setting) : Parser Tree := do
  if (← nextChar?) = some '{' then block inner setting
  else if ← symbol? ";" then return .node .emptyStatement []
  else if let some declaration ← declaration? inner setting then return declaration
  else if ← word? "if" then conditional inner setting
  else if ← word? "return" then returned inner setting
  else if ← word? "throw" then thrown inner setting
  else
    let value ← expression inner setting
    semicolon
    return Code.perform value

end JsxTracking.Source.Parser
