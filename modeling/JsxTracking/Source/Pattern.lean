import JsxTracking.Source.TypeSyntax

/-! # Patterns in source text

A value is bound to a name, or taken apart by an object or array pattern. Elements of a pattern and
parameters may have defaults, and where types are read the parameters and declared variables have
types. -/

namespace JsxTracking.Source.Parser

/-- A pattern with its default, if it has one. -/
def withDefault (inner : Grammar) (setting : Setting) (pattern : Tree) : Parser Tree := do
  if ← symbol? "=" then
    return .node .assignmentPattern [(.left, pattern), (.right, ← inner.value setting)]
  else return pattern

/-- A pattern that takes all that is left. -/
def restPattern (inner : Grammar) (setting : Setting) : Parser Tree := do
  symbol "..."
  return .node .restElement [(.argument, ← inner.target setting)]

/-- An element of an array pattern. -/
def elementPattern (inner : Grammar) (setting : Setting) : Parser Tree := do
  if (← nextSymbol?) = some "..." then restPattern inner setting
  else withDefault inner setting (← inner.target setting)

/-- A property of an object pattern. -/
def propertyPattern (inner : Grammar) (setting : Setting) : Parser Tree := do
  if (← nextSymbol?) = some "..." then restPattern inner setting
  else
    match ← attempt? (do
      let key ← propertyKey
      symbol ":"
      return key) with
    | some key =>
      let value ← withDefault inner setting (← inner.target setting)
      return .node .keyValuePatternProperty [(.key, key), (.value, value)]
    | none =>
      let name ← bindableName
      let default? ← if ← symbol? "=" then some <$> inner.value setting else pure none
      return .node .assignmentPatternProperty
        ((.key, Code.binding name) :: optionalPart .value default?)

/-- What a value is bound to. -/
def target (inner : Grammar) (setting : Setting) : Parser Tree := do
  if ← symbol? "\x7b" then
    let properties ← separated "\x7d" (propertyPattern inner setting)
    return .node .objectPattern [(.properties, .list properties)]
  else if ← symbol? "[" then
    let elements ← separated "]" (elementPattern inner setting)
    return .node .arrayPattern [(.elements, .list elements)]
  else return Code.binding (← bindableName)

/-- A declared variable or pattern, with its type if it has one. -/
def declared (inner : Grammar) (setting : Setting) : Parser Tree := do
  let pattern ← inner.target setting
  return withParts (optionalPart .ascription (← ascription? inner setting)) pattern

/-- A parameter of a function. -/
def parameter (inner : Grammar) (setting : Setting) : Parser Tree := do
  if (← nextSymbol?) = some "..." then
    let pattern ← restPattern inner setting
    return withParts (optionalPart .ascription (← ascription? inner setting)) pattern
  else
    let pattern ← inner.target setting
    let optional ← if setting.types then symbol? "?" else pure false
    let type? ← ascription? inner setting
    withDefault inner setting
      (withParts (optionalPart .ascription type? ++ raisedFlag .optional optional) pattern)

/-- The parameters of a function, in parentheses. -/
def parameters (inner : Grammar) (setting : Setting) : Parser (List Tree) := do
  symbol "("
  separated ")" (parameter inner setting)

end JsxTracking.Source.Parser
