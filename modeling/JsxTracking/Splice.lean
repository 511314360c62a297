import JsxTracking.Syntax.Tree

/-! # Splicing hooks into a body

Hooks wait in groups until the body they belong to has been instrumented. Each group goes before the
statement whose index it names, groups with equal indices in the order in which they were queued,
and groups with an index past the end go last. -/

namespace JsxTracking

/-- Statements to be inserted before the statement at a position. -/
structure HookGroup where
  position : Nat
  hooks : List Tree
  deriving DecidableEq, Repr, Inhabited

namespace HookGroup

/-- Put a group in front of the first one whose position is not less. -/
def insert (group : HookGroup) : List HookGroup → List HookGroup
  | [] => [group]
  | first :: rest =>
    if first.position < group.position then first :: insert group rest else group :: first :: rest

/-- The groups by position, in their order among equals. -/
def sorted (groups : List HookGroup) : List HookGroup :=
  groups.foldr insert []

/-- Merge sorted groups into statements of which the first has the given index. -/
def merge (index : Nat) : (groups : List HookGroup) → (statements : List Tree) → List Tree
  | groups, [] => groups.flatMap hooks
  | groups, statement :: rest =>
    let due := groups.takeWhile fun group => group.position ≤ index
    due.flatMap hooks ++ statement :: merge (index + 1) (groups.drop due.length) rest

/-- Insert every group before the statement at its position. -/
def splice (statements : List Tree) (groups : List HookGroup) : List Tree :=
  merge 0 (sorted groups) statements

/-- Insert groups into a function body. The body of an arrow function that is an expression becomes
a block that returns it. -/
def spliceBody (groups : List HookGroup) (body : Tree) : Tree :=
  if groups.isEmpty then body
  else
    match body with
    | .null => .null
    | .node .blockStatement fields =>
      .node .blockStatement (fields.map fun part =>
        match part with
        | (.stmts, .list statements) => (.stmts, .list (splice statements groups))
        | part => part)
    | expression =>
      .node .blockStatement [(.stmts, .list (splice [] groups ++
        [.node .returnStatement [(.argument, expression)]]))]

end HookGroup

end JsxTracking
