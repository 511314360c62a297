import JsxTracking.Source.Grammar

/-! # Binary operators

Operands with operators between them are grouped by precedence; operators of the same precedence
are grouped from the left. A nullish default may not be an operand of a logical connective without
parentheses, nor the other way round. -/

namespace JsxTracking.Source

/-- What stands between two operands. -/
inductive Operator where
  | binary (symbol : String)
  /-- The assertion of a type, which is the operand at the right. -/
  | assertion
  /-- The assertion that a value is constant; the operand at the right does not count. -/
  | constant
  deriving DecidableEq, Repr, Inhabited

namespace Operator

/-- The operators between two expressions, with their precedence. -/
def precedences : List (String × Nat) :=
  [("??", 1), ("||", 1), ("&&", 2), ("==", 6), ("!=", 6), ("===", 6), ("!==", 6), ("<", 7),
    (">", 7), ("<=", 7), (">=", 7), ("+", 9), ("-", 9), ("*", 10), ("/", 10), ("%", 10)]

/-- How tightly an operator binds. -/
def precedence : Operator → Nat
  | binary symbol => (precedences.lookup symbol).getD 0
  | assertion | constant => 7

/-- Whether an expression is a logical connective. -/
def isConnective (expression : Tree) : Bool :=
  expression.isKind .binaryExpression &&
    ((expression.get .operator).text? = some "&&" || (expression.get .operator).text? = some "||")

/-- An operator applied to its operands, unless these need parentheses. -/
def combine? (operator : Operator) (left right : Tree) : Option Tree :=
  match operator with
  | binary symbol =>
    if symbol = "??" && (isConnective left || isConnective right) then none
    else some (Code.binary symbol left right)
  | assertion => some (.node .tsAsExpression [(.expression, left), (.ascription, right)])
  | constant => some (.node .tsConstAssertion [(.expression, left)])

/-- Group the operands of the operators of one precedence. -/
def groupLevel? (level : Nat) : Tree → List (Operator × Tree) →
    Option (Tree × List (Operator × Tree))
  | left, [] => some (left, [])
  | left, (operator, right) :: rest => do
    if operator.precedence = level then groupLevel? level (← operator.combine? left right) rest
    else
      let (right, rest) ← groupLevel? level right rest
      return (left, (operator, right) :: rest)

/-- Group the operands of operators by precedence. -/
def group? (first : Tree) (rest : List (Operator × Tree)) : Option Tree := do
  let (grouped, _) ← [10, 9, 7, 6, 2, 1].foldlM
    (fun (first, rest) level => groupLevel? level first rest) (first, rest)
  return grouped

end Operator

end JsxTracking.Source
