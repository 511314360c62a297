import JsxTracking.Source.Expression
import JsxTracking.Syntax.Names

/-! # JSX in source text

An element has a name, attributes and, unless it closes itself, children up to a closing tag of the
same name; a fragment has children only. Text between tags is kept as it is written. -/

namespace JsxTracking.Source.Parser

/-- A plain name of an element or attribute; hyphens may stand in it. -/
def tagName : Parser String := do
  let _ ← gap
  match ← rest with
  | c :: _ =>
    require (startsName c)
    return String.ofList (← takeWhile fun c => continuesName c || c = '-')
  | [] => fail

/-- The name of an element: `div`, `Menu.Item`, `svg:rect`. -/
def elementName : Parser Tree := do
  let first ← tagName
  if ← begins? ":" then
    return .node .jsxNamespacedName
      [(.namespacePart, Code.propertyName first), (.name, Code.propertyName (← tagName))]
  else extend (Code.reference first) fun object => do
    if ← begins? "." then
      return some (.node .jsxMemberExpression
        [(.object, object), (.property, Code.propertyName (← tagName))])
    else return none

/-- The name of an attribute. -/
def attributeName : Parser Tree := do
  let first ← tagName
  if ← begins? ":" then
    return .node .jsxNamespacedName
      [(.namespacePart, Code.propertyName first), (.name, Code.propertyName (← tagName))]
  else return Code.propertyName first

/-- An expression in braces. -/
def container (inner : Grammar) (setting : Setting) : Parser Tree := do
  begins "\x7b"
  let held ← expression inner setting
  begins "\x7d"
  return .node .jsxExpressionContainer [(.expression, held)]

/-- The value of an attribute. -/
def attributeValue (inner : Grammar) (setting : Setting) : Parser Tree := do
  let _ ← gap
  match ← rest with
  | '"' :: _ | '\'' :: _ => attributeString
  | '{' :: _ => container inner setting
  | '<' :: _ => inner.element setting
  | _ => fail

/-- The next attribute of an element, if there is one. -/
def nextAttribute? (inner : Grammar) (setting : Setting) : Parser (Option Tree) := do
  let _ ← gap
  match ← rest with
  | '/' :: _ | '>' :: _ => return none
  | '{' :: _ =>
    drop 1
    let attr ← spread inner setting
    begins "\x7d"
    return some attr
  | _ =>
    let name ← attributeName
    if ← begins? "=" then
      return some (.node .jsxAttribute
        [(.name, name), (.value, ← attributeValue inner setting)])
    else return some (.node .jsxAttribute [(.name, name)])

/-- The next child, if there is one before the closing tag. Braces may be empty between tags. -/
def nextChild? (inner : Grammar) (setting : Setting) : Parser (Option Tree) := do
  match ← rest with
  | '<' :: following =>
    if (← ahead (do drop 1; begins? "/")) then return none
    else if following.isEmpty then fail
    else return some (← inner.element setting)
  | '{' :: _ =>
    if ← ahead (do drop 1; begins? "\x7d") then
      drop 1
      let gap ← gap
      begins "\x7d"
      return some (.node .jsxExpressionContainer [(.expression,
        withComments (gap.onLine ++ gap.below) [] (.node .jsxEmptyExpression []))])
    else return some (← container inner setting)
  | _ => return some (← text)

/-- The children of an element or fragment, and the start of its closing tag. -/
def children (inner : Grammar) (setting : Setting) : Parser (List Tree) := do
  let children ← many (nextChild? inner setting)
  begins "<"
  begins "/"
  return children

/-- An element or a fragment. -/
def element (inner : Grammar) (setting : Setting) : Parser Tree := do
  let start := setting.size - (String.ofList (← rest)).utf8ByteSize + 1
  begins "<"
  if ← begins? ">" then
    let children ← children inner setting
    begins ">"
    return .node .jsxFragment
      [(.opening, .node .jsxOpeningFragment []), (.children, .list children),
        (.closing, .node .jsxClosingFragment [])]
  else
    let name ← elementName
    let attributes ← many (nextAttribute? inner setting)
    let selfClosing ← begins? "/"
    begins ">"
    let opening : Tree := .node .jsxOpeningElement
      ([(.name, name), (.attributes, .list attributes),
          (.span, .node .position [(.start, .num (toString start))])] ++
        raisedFlag .selfClosing selfClosing)
    if selfClosing then
      return .node .jsxElement [(.opening, opening), (.children, .list [])]
    else
      let children ← children inner setting
      let closing ← elementName
      begins ">"
      require (closing.elementName = name.elementName)
      return .node .jsxElement
        [(.opening, opening), (.children, .list children),
          (.closing, .node .jsxClosingElement [(.name, closing)])]

end JsxTracking.Source.Parser
