import JsxTracking.Source.Grammar

/-! # Types in source text

A type is a name, an object type, or an array of a type. -/

namespace JsxTracking.Source.Parser

/-- The names of types that belong to the language. -/
def keywordTypes : List String :=
  ["any", "bigint", "boolean", "never", "null", "number", "object", "string", "symbol",
    "undefined", "unknown", "void"]

/-- A type by its name. -/
def namedType : Parser Tree := do
  let name ← name
  if keywordTypes.contains name then return .node .tsKeywordType [(.kind, .str name)]
  require !(reservedWords.contains name)
  return .node .tsTypeReference [(.typeName, Code.reference name)]

/-- `: type`. -/
def ascription (inner : Grammar) : Parser Tree := do
  symbol ":"
  return .node .tsAscription [(.ascription, ← inner.type)]

/-- `: type`, if types are read and one follows. -/
def ascription? (inner : Grammar) (setting : Setting) : Parser (Option Tree) := do
  if setting.types && (← nextSymbol?) = some ":" then return some (← ascription inner)
  else return none

/-- A member of an object type: `key: type` or `key?: type`. -/
def typeMember (inner : Grammar) : Parser Tree := do
  let key ← name
  let optional ← symbol? "?"
  let type ← ascription inner
  return .node .tsPropertySignature
    ([(.key, Code.reference key), (.ascription, type)] ++ raisedFlag .optional optional)

/-- The members of an object type, in braces, with a semicolon, a comma or a line end between. -/
def typeMembers (inner : Grammar) : Parser (List Tree) := do
  symbol "\x7b"
  let members ← many do
    if ← ahead (symbol? "\x7d") then return none
    let member ← typeMember inner
    if !(← symbol? ",") then semicolon
    return some member
  symbol "\x7d"
  return members

/-- A type. -/
def type (inner : Grammar) : Parser Tree := do
  let element ←
    if (← nextChar?) = some '{' then
      pure (.node .tsTypeLiteral [(.members, .list (← typeMembers inner))])
    else namedType
  extend element fun element => do
    if ← onSameLine (symbol? "[") then
      symbol "]"
      return some (.node .tsArrayType [(.elemType, element)])
    else return none

end JsxTracking.Source.Parser
