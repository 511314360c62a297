import JsxTracking.Syntax.Tree

/-! # Components

Hooks may only run in function components and in other hooks. A function counts as one when it has
or is bound to a component name, is a default export, or is the first argument of `memo` or
`forwardRef`. -/

namespace JsxTracking

/-- Whether a name is that of a component (`Page`) or of a hook (`useAd`). -/
def isComponentName (name : String) : Bool :=
  match name.toList with
  | 'u' :: 's' :: 'e' :: first :: _ => first.isUpper
  | first :: _ => first.isUpper
  | [] => false

namespace Tree

/-- Whether a callee is `memo` or `forwardRef`, by itself or as a property. -/
def isComponentWrapper : Tree → Bool
  | node .identifier fields => wraps (Fields.get fields .value)
  | node .memberExpression fields =>
    match Fields.get fields .property with
    | node .name parts => wraps (Fields.get parts .value)
    | _ => false
  | _ => false
where
  /-- Whether a name is that of a wrapper. -/
  wraps (name : Tree) : Bool :=
    name = str "forwardRef" || name = str "memo"

mutual

/-- Whether an expression is a function, possibly in parentheses, in a type assertion, or wrapped
by `memo` or `forwardRef`. The first function that is visited in it is the one that renders. -/
def isFunctionLike : Tree → Bool
  | node .arrowFunctionExpression _ | node .functionExpression _ => true
  | node .parenthesisExpression fields | node .tsAsExpression fields
  | node .tsSatisfiesExpression fields => holdsFunction fields
  | node .callExpression fields =>
    isComponentWrapper (Fields.get fields .callee) && firstArgumentIsFunction fields
  | _ => false

/-- Whether the expression among the parts of a node is a function. -/
def holdsFunction : List (Field × Tree) → Bool
  | [] => false
  | (.expression, inner) :: _ => isFunctionLike inner
  | _ :: rest => holdsFunction rest

/-- Whether the first argument among the parts of a call is a function and is not spread. -/
def firstArgumentIsFunction : List (Field × Tree) → Bool
  | [] => false
  | (.arguments, .list (node .argument fields :: _)) :: _ =>
    (Fields.get fields .spread).isNull && holdsFunction fields
  | (.arguments, _) :: _ => false
  | _ :: rest => firstArgumentIsFunction rest

end

/-- Whether a call wraps a component: `memo(function)`, `React.forwardRef(function)`. -/
def wrapsComponent (callParts : List (Field × Tree)) : Bool :=
  isComponentWrapper (Fields.get callParts .callee) && firstArgumentIsFunction callParts

end Tree

end JsxTracking
