import JsxTracking.Syntax.Names

/-! # The layout of a component body

Hooks must run unconditionally and in the same order on every render. A body is scanned before it
is instrumented for what decides where they go: how long its directive prologue is, which top-level
statement is the first that may leave the function, and where each name is declared. Hooks without
an expression of the page's own go right after the prologue. Hooks that evaluate an expression go
before the first statement that may leave and never after the statement that holds the element, and
every name they use that is declared in the body must be declared before that place. -/

namespace JsxTracking

namespace Tree

mutual

/-- Whether a statement may leave the function it stands in by `return` or `throw`. Nested functions
and classes do not count, except for the bodies of getters and setters of object literals. -/
def canExit : Tree → Bool
  | node .returnStatement _ | node .throwStatement _ => true
  | node .arrowFunctionExpression _ | node .functionDeclaration _ | node .functionExpression _
  | node .function _ | node .classDeclaration _ | node .classExpression _ => false
  | node .methodProperty fields => keyCanExit fields
  | node _ fields => fieldsCanExit fields
  | list items => itemsCanExit items
  | _ => false

/-- Whether the key of an object member may leave the function. -/
def keyCanExit : List (Field × Tree) → Bool
  | [] => false
  | (.key, key) :: _ => canExit key
  | _ :: rest => keyCanExit rest

/-- Whether some tree of a list may leave the function. -/
def itemsCanExit : List Tree → Bool
  | [] => false
  | item :: rest => canExit item || itemsCanExit rest

/-- Whether some part of a node may leave the function. -/
def fieldsCanExit : List (Field × Tree) → Bool
  | [] => false
  | (_, part) :: rest => canExit part || fieldsCanExit rest

end

/-- Whether a statement or module item is a directive such as `'use strict'`. -/
def isDirective : Tree → Bool
  | node .expressionStatement fields => (Fields.get fields .expression).isKind .stringLiteral
  | _ => false

mutual

/-- The names declared in a tree, in visiting order. Targets of assignments are not declared by
them. -/
def declaredNames : Tree → List String
  | node .binding fields => (Fields.get fields .value).text?.toList
  | node .functionDeclaration fields | node .functionExpression fields
  | node .classDeclaration fields | node .classExpression fields =>
    (Fields.get fields .identifier).value?.toList ++ declaredInFields fields
  | node .assignmentExpression fields => declaredInRight fields
  | node _ fields => declaredInFields fields
  | list items => declaredInItems items
  | _ => []

/-- The names declared in the right-hand side of an assignment. -/
def declaredInRight : List (Field × Tree) → List String
  | [] => []
  | (.right, value) :: _ => declaredNames value
  | _ :: rest => declaredInRight rest

/-- The names declared in a list of trees. -/
def declaredInItems : List Tree → List String
  | [] => []
  | item :: rest => declaredNames item ++ declaredInItems rest

/-- The names declared in the parts of a node. -/
def declaredInFields : List (Field × Tree) → List String
  | [] => []
  | (_, part) :: rest => declaredNames part ++ declaredInFields rest

end

end Tree

/-- A declaration of a name in a component body. -/
structure DeclarationSite where
  name : String
  /-- The top-level statement that declares the name; none for declarations in nested scopes. -/
  statement? : Option Nat
  deriving DecidableEq, Repr, Inhabited

namespace DeclarationSite

/-- Names declared in nested scopes. -/
def nested (names : List String) : List DeclarationSite :=
  names.map (⟨·, none⟩)

/-- Names declared by the statement at an index. -/
def direct (index : Nat) (names : List String) : List DeclarationSite :=
  names.map (⟨·, some index⟩)

/-- The declarations of a top-level statement. Functions declared at the top level are callable
anywhere in the body and have no site. -/
def ofStatement (index : Nat) : Tree → List DeclarationSite
  | .node .variableDeclaration fields =>
    (Fields.get fields .declarations).items.flatMap fun declarator =>
      direct index (declarator.get .id).declaredNames ++
        nested (declarator.get .initializer).declaredNames
  | .node .functionDeclaration fields => nested (Tree.declaredInFields fields)
  | .node .classDeclaration fields =>
    direct index (Fields.get fields .identifier).value?.toList ++
      nested (Tree.declaredInFields fields)
  | statement => nested statement.declaredNames

/-- The declarations of the top-level statements from an index on. -/
def ofStatements : Nat → List Tree → List DeclarationSite
  | _, [] => []
  | index, statement :: rest => ofStatement index statement ++ ofStatements (index + 1) rest

/-- Whether the declaration has run when the hooks at a position run. -/
def precedes (site : DeclarationSite) (position : Nat) : Bool :=
  site.statement?.any (· < position)

end DeclarationSite

/-- Put a name into an increasing list without repetitions. -/
def insertName (name : String) : List String → List String
  | [] => [name]
  | first :: rest =>
    if name = first then first :: rest
    else if name < first then name :: first :: rest
    else first :: insertName name rest

/-- The names in increasing order, each once. -/
def sortedNames (names : List String) : List String :=
  names.foldr insertName []

/-- What is known of a component body before it is instrumented. -/
structure BodyScan where
  /-- The number of directives at the start. -/
  prologue : Nat := 0
  /-- The index of the first top-level statement that may leave the function. -/
  firstExit : Nat := 0
  sites : List DeclarationSite := []
  deriving DecidableEq, Repr, Inhabited

namespace BodyScan

/-- The scan of a body of statements. -/
def ofStatements (statements : List Tree) : BodyScan where
  prologue := (statements.takeWhile Tree.isDirective).length
  firstExit := statements.findIdx Tree.canExit
  sites := DeclarationSite.ofStatements 0 statements

/-- The scan of an arrow function's expression, in which every declaration is nested. -/
def ofExpression (expression : Tree) : BodyScan where
  sites := DeclarationSite.nested expression.declaredNames

/-- The scan of the body of a function, if it has one. -/
def ofBody : Tree → BodyScan
  | .node .blockStatement fields => ofStatements (Fields.get fields .stmts).items
  | body => ofExpression body

/-- Where hooks go that use nothing but their own variables. -/
def literalPosition (scan : BodyScan) : Nat :=
  scan.prologue

/-- Where hooks go that evaluate an expression for an element within the statement at an index. -/
def dynamicPosition (scan : BodyScan) (statement : Nat) : Nat :=
  max (min scan.firstExit statement) scan.prologue

/-- The names an expression uses that are declared in the body but not by statements before a
position, in increasing order. Names that the expression itself declares are its own. -/
def unboundAt (scan : BodyScan) (expression : Tree) (position : Nat) : List String :=
  let own := expression.declaredNames
  sortedNames <| expression.identifiers.filter fun name =>
    !own.contains name &&
      scan.sites.any fun site => site.name = name && !site.precedes position

end BodyScan

end JsxTracking
