import JsxTracking.Path
import JsxTracking.Source.Entity
import JsxTracking.Syntax.Code

/-! # The grammar of sources

Sources are modules in strict mode: with or without JSX, with or without types. The parsers of the
constructs that may hold one another are collected in a `Grammar`. Each of them is defined from a
grammar for what it holds, and `JsxTracking.Source.Module` ties them together for texts of any
depth. -/

namespace JsxTracking.Source

/-- What is read in a source, and what is allowed at a place in it. -/
structure Setting where
  /-- Whether the source has types. -/
  types : Bool
  /-- Whether the source has JSX; if not, a type in angle brackets is an assertion. -/
  jsx : Bool
  /-- The length of the source in bytes. -/
  size : Nat
  /-- Whether `return` is allowed. -/
  inFunction : Bool := false
  /-- Whether `new.target` is allowed. -/
  constructible : Bool := false
  /-- Whether `await` is allowed. -/
  awaits : Bool := true
  deriving DecidableEq, Repr, Inhabited

namespace Setting

/-- The setting of a source. The extension of its path tells what is read in it. -/
def ofFile (file source : String) : Setting :=
  let size := source.utf8ByteSize
  match Path.extension? file with
  | some "tsx" => { types := true, jsx := true, size }
  | some "ts" | some "mts" | some "cts" => { types := true, jsx := false, size }
  | _ => { types := false, jsx := true, size }

/-- The setting in the parameters and the body of a function. -/
def enterFunction (setting : Setting) (async : Bool) : Setting :=
  { setting with inFunction := true, constructible := true, awaits := async }

/-- The setting in the parameters and the body of an arrow function. -/
def enterArrow (setting : Setting) (async : Bool) : Setting :=
  { setting with inFunction := true, awaits := async }

end Setting

/-- The parsers of the constructs that may hold one another. -/
structure Grammar where
  type : Parser Tree
  /-- What a value is bound to. -/
  target : Setting → Parser Tree
  /-- An expression without commas. -/
  value : Setting → Parser Tree
  /-- An element or a fragment. -/
  element : Setting → Parser Tree
  statement : Setting → Parser Tree

/-- The grammar of nothing. -/
def Grammar.empty : Grammar where
  type := .fail
  target _ := .fail
  value _ := .fail
  element _ := .fail
  statement _ := .fail

/-- The words that are no names in a module. -/
def reservedWords : List String :=
  ["await", "break", "case", "catch", "class", "const", "continue", "debugger", "default", "delete",
    "do", "else", "enum", "export", "extends", "false", "finally", "for", "function", "if",
    "implements", "import", "in", "instanceof", "interface", "let", "new", "null", "package",
    "private", "protected", "public", "return", "static", "super", "switch", "this", "throw",
    "true", "try", "typeof", "var", "void", "while", "with", "yield"]

namespace Parser

variable {α : Type}

/-- A name that may refer to a variable. -/
def variableName : Parser String := do
  let name ← name
  require !(reservedWords.contains name)
  return name

/-- A name that may be declared or assigned to. -/
def bindableName : Parser String := do
  let name ← variableName
  require (name ≠ "eval" && name ≠ "arguments")
  return name

/-- The string that comes next. -/
def stringToken : Parser Tree := do
  let _ ← gap
  match (← rest).head? with
  | some '"' | some '\'' => string
  | _ => fail

/-- The key of a property: a name, a string or a number. -/
def propertyKey : Parser Tree := do
  match ← nextChar? with
  | some c =>
    if c = '"' || c = '\'' then stringToken
    else if c.isDigit then
      let _ ← gap
      number
    else return Code.propertyName (← name)
  | none => fail

end Parser

/-- The mark of what is spread. -/
def spreadMark : Tree :=
  .node .position []

/-- A part that is only there if it has something to hold. -/
def optionalPart (field : Field) : Option Tree → Fields
  | some part => [(field, part)]
  | none => []

/-- A flag that is only there if it is raised. -/
def raisedFlag (field : Field) (raised : Bool) : Fields :=
  if raised then [(field, .bool true)] else []

/-- A node with more parts. -/
def withParts (more : Fields) : Tree → Tree
  | .node kind parts => .node kind (parts ++ more)
  | tree => tree

/-- A statement or module item with the comments on the lines before it and at its end. -/
def withComments (leading trailing : List String) : Tree → Tree :=
  let part (field : Field) (comments : List String) : Fields :=
    if comments.isEmpty then [] else [(field, .list (comments.map .str))]
  withParts (part .leading leading ++ part .trailing trailing)

namespace Parser

/-- Statements or module items, the first of which comes after some comments, as long as there is a
next one. Each is given the comments around it; those after the last line are left. -/
def commented (leading : List String) (next : Parser (Option Tree)) :
    Parser (List Tree × List String) := do
  rounds ((← rest).length + 1) leading
where
  /-- At most so many statements. -/
  rounds : Nat → List String → Parser (List Tree × List String)
    | 0, leading => return ([], leading)
    | fuel + 1, leading => do
      match ← next with
      | none => return ([], leading)
      | some item =>
        let gap ← gap
        let (items, left) ← rounds fuel gap.below
        return (withComments leading gap.onLine item :: items, left)

end Parser

end JsxTracking.Source
