import JsxTracking.Source.Layout
import JsxTracking.Source.Module
import JsxTracking.Source.Quoted

/-! # Printing modules

A module is printed item by item, each on lines of its own. What was read keeps its spelling:
numbers, strings, templates and the text between tags. Everything else is laid out anew, without any
parentheses but those in the tree. Forms that no source text has are printed as nothing. -/

namespace JsxTracking.Source

namespace Comment

/-- Whether a comment goes to the end of its line. -/
def takesLine (comment : String) : Bool :=
  comment.startsWith "//"

/-- A comment before something. -/
def before (comment : String) : Layout :=
  .text comment ++ (if takesLine comment then Layout.newline else Layout.text " ")

/-- Comments at the end of something. -/
def after : List String → Layout
  | [] => ""
  | [comment] => " " ++ .text comment
  | comment :: rest =>
    let lineEnd := if takesLine comment then Layout.newline else Layout.text ""
    " " ++ .text comment ++ lineEnd ++ after rest

end Comment

/-- The printed form of a part of a node: of a tree, or of the trees in a list. -/
inductive PrintedPart where
  | one (layout : Layout)
  | many (layouts : List Layout)
  deriving Inhabited

/-- A node with the printed forms of its parts. -/
structure PrintedNode where
  parts : Fields
  printed : List (Field × PrintedPart)

namespace PrintedNode

/-- Whether a part is there. -/
def has (node : PrintedNode) (field : Field) : Bool :=
  !(node.parts.get field).isNull

/-- Whether a flag is raised. -/
def flag (node : PrintedNode) (field : Field) : Bool :=
  (node.parts.get field).isTrue

/-- The text of a part. -/
def text (node : PrintedNode) (field : Field) : Layout :=
  .text ((node.parts.get field).text?.getD "")

/-- The layout of a part; nothing for a part that is missing. -/
def one (node : PrintedNode) (field : Field) : Layout :=
  match node.printed.lookup field with
  | some (.one layout) => layout
  | _ => .text ""

/-- The layouts of the trees in a part. -/
def many (node : PrintedNode) (field : Field) : List Layout :=
  match node.printed.lookup field with
  | some (.many layouts) => layouts
  | _ => []

/-- A text that is only there if a part is. -/
def before (node : PrintedNode) (text : String) (field : Field) : Layout :=
  if node.has field then .text text ++ node.one field else .text ""

/-- A word that is only there if a flag is raised. -/
def word (node : PrintedNode) (field : Field) (word : String) : Layout :=
  .text (if node.flag field then word else "")

/-- The type of what is declared, and the mark of what is optional. -/
def ascribed (node : PrintedNode) : Layout :=
  node.word .optional "?" ++ node.one .ascription

/-- Elements in brackets, each on its own line; nothing between the brackets of an empty list. -/
def listed (node : PrintedNode) (opening closing : String) (field : Field) : Layout :=
  if (node.many field).isEmpty then .text (opening ++ closing)
  else .lines opening closing "," (node.many field)

/-- The properties or elements of a pattern, on one line. -/
def pattern (node : PrintedNode) (opening closing : String) (field : Field) : Layout :=
  if (node.many field).isEmpty then .text (opening.trimAscii.toString ++ closing.trimAscii.toString)
  else .text opening ++ .commas (node.many field) ++ .text closing

/-- Arguments in parentheses. -/
def arguments (node : PrintedNode) : Layout :=
  "(" ++ .commas (node.many .arguments) ++ ")"

/-- A function from its parameters on. -/
def signature (node : PrintedNode) : Layout :=
  "(" ++ .commas (node.many .params) ++ ")" ++ node.one .returnType

/-- A function with the word for it. -/
def function (node : PrintedNode) : Layout :=
  node.word .async "async " ++ .text "function" ++ node.before " " .identifier ++ node.signature ++
    .text " " ++ node.one .body

/-- An arrow function. An expression as body is a level deeper, a block is not. -/
def arrow (node : PrintedNode) : Layout :=
  let arrow : String := if node.has .returnType then " =>" else "=>"
  let body := if (node.parts.get .body).isKind .blockStatement then node.one .body
    else (node.one .body).deeper
  node.word .async "async " ++ node.signature ++ .text arrow ++ body

/-- An access to a member of an object, perhaps within an optional chain. -/
def access (node : PrintedNode) (optional : Bool) : Layout :=
  let link : String :=
    if optional then "?."
    else if (node.parts.get .property).isKind .computed then "" else "."
  node.one .object ++ .text link ++ node.one .property

/-- A call, perhaps within an optional chain. -/
def call (node : PrintedNode) (optional : Bool) : Layout :=
  node.one .callee ++ .text (if optional then "?." else "") ++ node.arguments

/-- A prefix operator with its operand. Words and repeated signs are followed by a space. -/
def unary (node : PrintedNode) : Layout :=
  let operator := ((node.parts.get .operator).text?.getD "")
  let argument := node.parts.get .argument
  let isWord := operator.toList.any Char.isAlpha
  let repeatsSign := (operator = "-" || operator = "+") && argument.isKind .unaryExpression &&
    (argument.get .operator).text? = some operator
  .text operator ++ .text (if isWord || repeatsSign then " " else "") ++ node.one .argument

/-- Operands with a binary operator between them. -/
def binary (node : PrintedNode) : Layout :=
  node.one .left ++ .text " " ++ node.text .operator ++ .text " " ++ node.one .right

/-- A template: its texts with the substitutions between them. -/
def template (node : PrintedNode) : Layout :=
  .text "`" ++ interleave (node.many .quasis) (node.many .expressions) ++ .text "`"
where
  /-- Texts with substitutions between them. -/
  interleave : List Layout → List Layout → Layout
    | text :: texts, value :: values =>
      text ++ .text "$\x7b" ++ value ++ .text "\x7d" ++ interleave texts values
    | texts, _ => .concat texts

/-- A text with line ends of one character. -/
def unixLines : List Char → List Char
  | '\r' :: '\n' :: rest => '\n' :: unixLines rest
  | c :: rest => (if c = '\r' then '\n' else c) :: unixLines rest
  | [] => []

/-- A string as it was spelled, or in quotes if it was generated. -/
def string (node : PrintedNode) : Layout :=
  match (node.parts.get .raw).text? with
  | some raw => .text raw
  | none => .chars (Quoted.write ((node.parts.get .value).text?.getD ""))

/-- The statements of a block, each on its own line. -/
def block (node : PrintedNode) : Layout :=
  if (node.many .stmts).isEmpty then "\x7b\x7d" else .lines "\x7b" "\x7d" "" (node.many .stmts)

/-- A conditional statement. The word `else` follows a brace on the same line. -/
def conditional (node : PrintedNode) : Layout :=
  let gap : Layout :=
    if (node.parts.get .consequent).isKind .blockStatement then " " else .newline
  "if (" ++ node.one .test ++ ") " ++ node.one .consequent ++
    (if node.has .alternate then gap ++ "else " ++ node.one .alternate else "")

/-- The names of an import or export. -/
def names : List Layout → Layout
  | [] => "\x7b \x7d"
  | names => "\x7b " ++ .commas names ++ " \x7d"

/-- The names of an import, with the word between them and the source. -/
def importClause (node : PrintedNode) : Layout :=
  let specifiers := (node.parts.get .specifiers).items.zip (node.many .specifiers)
  let (named, whole) := specifiers.partition fun item => item.1.isKind .importSpecifier
  let clauses := whole.map Prod.snd ++
    if named.isEmpty then [] else [names (named.map Prod.snd)]
  if clauses.isEmpty then "" else .commas clauses ++ " from "

/-- The attributes of an element. -/
def attributes (node : PrintedNode) : Layout :=
  .concat (((node.parts.get .attributes).items.zip (node.many .attributes)).map
    fun (attr, layout) =>
      if attr.isKind .spreadElement then " \x7b" ++ layout ++ "\x7d" else " " ++ layout)

/-- Members of a type in braces, each on its own line with a semicolon. -/
def members (node : PrintedNode) (field : Field) : Layout :=
  if (node.many field).isEmpty then "\x7b" ++ .newline ++ "\x7d"
  else .lines "\x7b" "\x7d" "" ((node.many field).map (· ++ ";"))

/-- A node, without the comments around it. -/
def bare (node : PrintedNode) : Kind → Layout
  | .identifier | .name => node.text .value
  | .binding => node.text .value ++ node.ascribed
  | .objectPattern => node.pattern "\x7b " " \x7d" .properties ++ node.ascribed
  | .arrayPattern => node.pattern "[" "]" .elements ++ node.ascribed
  | .assignmentPattern => node.one .left ++ " = " ++ node.one .right
  | .assignmentPatternProperty => node.one .key ++ node.before " = " .value
  | .keyValuePatternProperty | .keyValueProperty => node.one .key ++ ": " ++ node.one .value
  | .restElement => "..." ++ node.one .argument ++ node.ascribed
  | .parameter => node.one .pat
  | .argument => .text (if node.has .spread then "..." else "") ++ node.one .expression
  | .spreadElement => "..." ++ node.one .arguments
  | .stringLiteral => node.string
  | .numericLiteral => node.one .value
  | .booleanLiteral => .text (if node.flag .value then "true" else "false")
  | .nullLiteral => "null"
  | .thisExpression => "this"
  | .metaProperty => node.text .kind
  | .templateLiteral => node.template
  | .templateElement => .chars (unixLines ((node.parts.get .raw).text?.getD "").toList)
  | .arrayExpression => node.listed "[" "]" .elements
  | .objectExpression => node.listed "\x7b" "\x7d" .properties
  | .parenthesisExpression => "(" ++ node.one .expression ++ ")"
  | .memberExpression => node.access false
  | .computed => "[" ++ node.one .expression ++ "]"
  | .callExpression | .optionalCall => node.call false
  | .newExpression =>
    "new " ++ node.one .callee ++ if node.has .arguments then node.arguments else ""
  | .unaryExpression => node.unary
  | .awaitExpression => "await " ++ node.one .argument
  | .binaryExpression | .assignmentExpression => node.binary
  | .conditionalExpression =>
    node.one .test ++ " ? " ++ node.one .consequent ++ " : " ++ node.one .alternate
  | .sequenceExpression => .commas (node.many .expressions)
  | .functionDeclaration | .functionExpression => node.function
  | .arrowFunctionExpression => node.arrow
  | .tsAsExpression => node.one .expression ++ " as " ++ node.one .ascription
  | .tsConstAssertion => node.one .expression ++ " as const"
  | .tsNonNullExpression => node.one .expression ++ "!"
  | .tsTypeAssertion => "<" ++ node.one .ascription ++ ">" ++ node.one .expression
  | .tsAscription => ": " ++ node.one .ascription
  | .tsKeywordType => node.text .kind
  | .tsTypeReference => node.one .typeName
  | .tsArrayType => node.one .elemType ++ "[]"
  | .tsTypeLiteral => node.members .members
  | .tsInterfaceBody => node.members .body
  | .tsPropertySignature => node.one .key ++ node.ascribed
  | .tsTypeAliasDeclaration => "type " ++ node.one .id ++ " = " ++ node.one .ascription ++ ";"
  | .tsInterfaceDeclaration => "interface " ++ node.one .id ++ " " ++ node.one .body
  | .jsxElement | .jsxFragment =>
    node.one .opening ++ .concat (node.many .children) ++ node.one .closing
  | .jsxOpeningElement =>
    "<" ++ node.one .name ++ node.attributes ++ .text (if node.flag .selfClosing then "/>" else ">")
  | .jsxClosingElement => "</" ++ node.one .name ++ ">"
  | .jsxOpeningFragment => "<>"
  | .jsxClosingFragment => "</>"
  | .jsxMemberExpression => node.one .object ++ "." ++ node.one .property
  | .jsxNamespacedName => node.one .namespacePart ++ ":" ++ node.one .name
  | .jsxAttribute => node.one .name ++ node.before "=" .value
  | .jsxExpressionContainer => "\x7b" ++ node.one .expression ++ "\x7d"
  | .jsxText => node.text .raw
  | .blockStatement => node.block
  | .emptyStatement => ";"
  | .expressionStatement => node.one .expression ++ ";"
  | .returnStatement => "return" ++ node.before " " .argument ++ ";"
  | .throwStatement => "throw " ++ node.one .argument ++ ";"
  | .ifStatement => node.conditional
  | .variableDeclaration =>
    node.text .kind ++ " " ++ .commas (node.many .declarations) ++ ";"
  | .variableDeclarator => node.one .id ++ node.before " = " .initializer
  | .importDeclaration => "import " ++ node.importClause ++ node.one .source ++ ";"
  | .importDefaultSpecifier => node.one .localName
  | .importNamespaceSpecifier => "* as " ++ node.one .localName
  | .importSpecifier =>
    (if node.has .imported then node.one .imported ++ " as " else "") ++ node.one .localName
  | .exportDeclaration => "export " ++ node.one .declaration
  | .exportDefaultDeclaration => "export default " ++ node.one .decl
  | .exportDefaultExpression => "export default " ++ node.one .expression ++ ";"
  | .exportAllDeclaration => "export * from " ++ node.one .source ++ ";"
  | .exportNamedDeclaration =>
    "export " ++ names (node.many .specifiers) ++ node.before " from " .source ++ ";"
  | .exportSpecifier => node.one .orig ++ node.before " as " .exported
  | _ => ""

/-- The comments in a part of a node. -/
def comments (node : PrintedNode) (field : Field) : List String :=
  (node.parts.get field).items.filterMap Tree.text?

/-- A node with the comments before it and at its end. -/
def layout (node : PrintedNode) (kind : Kind) : Layout :=
  .concat ((node.comments .leading).map Comment.before) ++ node.bare kind ++
    Comment.after (node.comments .trailing)

end PrintedNode

mutual

/-- The layout of a tree. -/
def layout : Tree → Layout
  | .node .optionalChainingExpression ((.base, .node .memberExpression parts) :: more) =>
    PrintedNode.access ⟨parts, layoutParts parts⟩ (Fields.get more .optional).isTrue
  | .node .optionalChainingExpression ((.base, .node .optionalCall parts) :: more) =>
    PrintedNode.call ⟨parts, layoutParts parts⟩ (Fields.get more .optional).isTrue
  | .node kind parts => PrintedNode.layout ⟨parts, layoutParts parts⟩ kind
  | .num numeral => .text numeral
  | _ => ""

/-- The layouts of the trees in a list. -/
def layoutItems : List Tree → List Layout
  | [] => []
  | item :: rest => layout item :: layoutItems rest

/-- The layouts of the parts of a node. -/
def layoutParts : List (Field × Tree) → List (Field × PrintedPart)
  | [] => []
  | (field, .list items) :: rest => (field, .many (layoutItems items)) :: layoutParts rest
  | (field, part) :: rest => (field, .one (layout part)) :: layoutParts rest

end

/-- The text of a module item. A block is not followed by a line end. -/
def itemText (item : Tree) : List Char :=
  layout item 0 ++ if item.isKind .blockStatement then [] else ['\n']

/-- The text of a module. -/
def SourceModule.text (sourceModule : SourceModule) : String :=
  let interpreter := sourceModule.interpreter?.toList.flatMap fun line => line.toList ++ ['\n']
  String.ofList (Layout.concat (sourceModule.comments.map Comment.before) 0 ++ interpreter ++
    sourceModule.items.flatMap itemText)

end JsxTracking.Source
