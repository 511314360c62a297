import JsxTracking.Source.Element
import JsxTracking.Source.Statement

/-! # Modules in source text

A module is a list of imports, exports and statements. A first line of its own may name the program
that runs it. The comments before the first item belong to the module, unless there is such a
line. -/

namespace JsxTracking.Source

/-- The grammar of constructs that are nested at most so deep. -/
def Grammar.ofDepth : Nat → Grammar
  | 0 => .empty
  | depth + 1 =>
    let inner := ofDepth depth
    { type := Parser.type inner
      target := Parser.target inner
      value := Parser.value inner
      element := Parser.element inner
      statement := Parser.statement inner }

namespace Parser

/-- Names in braces, each perhaps under another name. -/
def nameList (item : Parser Tree) : Parser (List Tree) := do
  symbol "\x7b"
  separated "\x7d" item

/-- A name that is imported, perhaps under another name. -/
def importSpecifier : Parser Tree := do
  let imported ← name
  if ← word? "as" then
    return .node .importSpecifier
      [(.localName, Code.reference (← bindableName)), (.imported, Code.reference imported)]
  else
    require !(reservedWords.contains imported)
    return .node .importSpecifier [(.localName, Code.reference imported)]

/-- All that is imported, under one name, or some names of it. -/
def importedNames : Parser (List Tree) := do
  if ← symbol? "*" then
    word "as"
    return [.node .importNamespaceSpecifier [(.localName, Code.reference (← bindableName))]]
  else nameList importSpecifier

/-- What follows the word `import`. -/
def importDeclaration : Parser Tree := do
  let specifiers ← do
    match ← nextChar? with
    | some '"' | some '\'' => pure []
    | some '{' | some '*' =>
      let names ← importedNames
      word "from"
      pure names
    | _ =>
      let first : Tree :=
        .node .importDefaultSpecifier [(.localName, Code.reference (← bindableName))]
      let names ← if ← symbol? "," then importedNames else pure []
      word "from"
      pure (first :: names)
  let source ← stringToken
  semicolon
  return .node .importDeclaration
    [(.specifiers, .list specifiers), (.source, source), (.phase, .str "evaluation")]

/-- A name that is exported, perhaps under another name. -/
def exportSpecifier : Parser Tree := do
  let orig ← name
  let exported? ← if ← word? "as" then some <$> name else pure none
  return .node .exportSpecifier
    ((.orig, Code.reference orig) :: optionalPart .exported (exported?.map Code.reference))

/-- What follows the words `export default`. -/
def exportDefault (inner : Grammar) (setting : Setting) : Parser Tree := do
  match ← functionWord? with
  | some async =>
    return .node .exportDefaultDeclaration
      [(.decl, ← functionExpression inner setting async)]
  | none =>
    let value ← inner.value setting
    semicolon
    return .node .exportDefaultExpression [(.expression, value)]

/-- What follows the word `export`. -/
def exportItem (inner : Grammar) (setting : Setting) : Parser Tree := do
  if ← word? "default" then exportDefault inner setting
  else if ← symbol? "*" then
    word "from"
    let source ← stringToken
    semicolon
    return .node .exportAllDeclaration [(.source, source)]
  else if (← nextChar?) = some '{' then
    let specifiers ← nameList exportSpecifier
    let source? ← if ← word? "from" then some <$> stringToken else pure none
    require (source?.isSome || specifiers.all fun specifier =>
      !((specifier.get .orig).value?.any reservedWords.contains))
    semicolon
    return .node .exportNamedDeclaration
      ((.specifiers, .list specifiers) :: optionalPart .source source?)
  else
    match ← declaration? inner setting with
    | some declaration => return .node .exportDeclaration [(.declaration, declaration)]
    | none => fail

/-- The next item of a module, if there is one. -/
def nextItem? (inner : Grammar) (setting : Setting) : Parser (Option Tree) := do
  let _ ← gap
  if (← rest).isEmpty then return none
  else if ← word? "import" then return some (← importDeclaration)
  else if ← word? "export" then return some (← exportItem inner setting)
  else return some (← inner.statement setting)

/-- The first line, if it names the program that runs the module. -/
def interpreter? : Parser (Option String) := do
  if (← rest).head? = some '\uFEFF' then drop 1
  match ← rest with
  | '#' :: '!' :: _ => return some (String.ofList (← takeWhile fun c => !isLineEnd c))
  | _ => return none

end Parser

/-- A module with what does not belong to its items. -/
structure SourceModule where
  /-- The first line, if it names the program that runs the module. -/
  interpreter? : Option String
  /-- The comments at the top. -/
  comments : List String
  items : List Tree
  deriving DecidableEq, Repr, Inhabited

/-- The items of a module with comments at the end of the last. -/
def closeWith (comments : List String) (items : List Tree) : List Tree :=
  match items.getLast? with
  | some last =>
    let trailing := (last.get .trailing).items.filterMap Tree.text? ++ comments
    let last := match last with
      | .node kind parts => .node kind (parts.filter (·.1 ≠ .trailing))
      | last => last
    items.dropLast ++ [withComments [] trailing last]
  | none => items

namespace Parser

/-- A module. -/
def sourceModule (inner : Grammar) (setting : Setting) : Parser SourceModule := do
  let interpreter? ← interpreter?
  let gap ← gap
  let comments := gap.onLine ++ gap.below
  let (top, leading) := if interpreter?.isSome then ([], comments) else (comments, [])
  let (items, left) ← commented leading (nextItem? inner setting)
  return { interpreter?, comments := top, items := closeWith left items }

end Parser

/-- The module that a text stands for. Constructs are nested no deeper than the text is long. -/
def SourceModule.ofText (setting : Setting) (source : String) :
    Except SyntaxFault SourceModule :=
  (Parser.sourceModule (Grammar.ofDepth (source.length + 1)) setting source.toList).map Prod.fst

end JsxTracking.Source
