import JsxTracking.Handle
import JsxTracking.Marker

/-! # The reference of an instrumented element

The handle of an element becomes its `ref`. The element may have had a reference of its own: an
explicit `ref`, or one in an object that is spread after it, where the last spread that carries one
wins. If so, the generated `ref` is a function that stores the element in the handle and forwards
it to the reference that the element had. -/

namespace JsxTracking

namespace Tree

/-- Whether an attribute is a `ref`. -/
def isRef (attr : Tree) : Bool :=
  attr.attributeName? = some "ref"

/-- The expression of a `ref` attribute, if its value is one. -/
def refExpression? (attr : Tree) : Option Tree :=
  match attr.get .value with
  | .node .jsxExpressionContainer fields =>
    match Fields.get fields .expression with
    | .node .jsxEmptyExpression _ => none
    | expression => some expression
  | _ => none

/-- The expression that an attribute spreads. -/
def spreadExpression? : Tree → Option Tree
  | node .spreadElement fields => some (Fields.get fields .arguments)
  | _ => none

mutual

/-- Whether an expression is a path such as `props` or `this.props.rest`, which may be evaluated
twice. -/
def isPlainPath : Tree → Bool
  | node .identifier _ | node .thisExpression _ => true
  | node .memberExpression fields =>
    (Fields.get fields .property).isKind .name && partIsPlainPath .object fields
  | node .parenthesisExpression fields => partIsPlainPath .expression fields
  | _ => false

/-- Whether a part of a node is a plain path. -/
def partIsPlainPath (field : Field) : List (Field × Tree) → Bool
  | [] => false
  | (other, part) :: rest =>
    if other = field then isPlainPath part else partIsPlainPath field rest

end

end Tree

namespace ElementRef

/-- The last `ref` among the attributes; it overrides the earlier ones. -/
def explicit? (attributes : List Tree) : Option Tree :=
  (attributes.filter Tree.isRef).getLast?

/-- Whether the last `ref` among the attributes has a value that is no expression. -/
def isUnsupported (attributes : List Tree) : Bool :=
  (explicit? attributes).any fun attr => attr.refExpression?.isNone

/-- The expressions that are spread after the last explicit `ref`; each may override it. -/
def trailingSpreads (attributes : List Tree) : List Tree :=
  (attributes.reverse.takeWhile fun attr => !attr.isRef).reverse.filterMap Tree.spreadExpression?

/-- The variable that holds the element in a forwarding function. -/
def nodeName : String := "__trackingNode"

/-- The variable that holds the reference the element had. -/
def forwardName : String := "__forwardRef"

/-- The reference that an element had: its explicit one, unless a later spread carries another. -/
def forwarded? (explicit? : Option Tree) (spreads : List Tree) : Option Tree :=
  spreads.foldl (fun earlier? spread =>
    let carried := Code.member spread "ref"
    match earlier? with
    | some earlier => some (Code.binary "??" carried earlier)
    | none => some carried) explicit?

/-- The body of the function that stores the element in the handle and forwards it. -/
def forwardingBody (handle : ElementHandle) (reference : Tree) : List Tree :=
  let forward := Code.reference forwardName
  let element := Code.reference nodeName
  [Code.perform (Code.assignMember (Code.reference handle.name) "current" element),
    Code.constant forwardName reference,
    Code.ifThenElse (Code.typeofIs forward "function")
      [Code.perform (Code.call forward [element])]
      (Code.ifThen forward [Code.perform (Code.assignMember forward "current" element)])]

/-- The function that stores the element and forwards it, with the given body. -/
def forwardingFunction (body : List Tree) : Tree :=
  Code.arrow [Code.binding nodeName] body

end ElementRef

/-- The reference to be given to an element. -/
structure Attachment where
  handle : ElementHandle
  /-- The expressions spread after the element's explicit `ref`. -/
  spreads : List Tree
  deriving DecidableEq, Repr, Inhabited

end JsxTracking
