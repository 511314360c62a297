import JsxTracking.Diagnostic
import JsxTracking.ElementRef
import JsxTracking.Hooks.Click
import JsxTracking.Hooks.Visibility
import JsxTracking.Splice

/-! # Woven trees

Instrumentation does not build its result at once. It weaves a tree: what the tree held stays apart
from what is added, every element carries what was decided about it, and every component the scan of
its body. The instrumented tree is read off a woven one by `Woven.tree`, which puts the hooks of
each element into the body of the component around it. -/

namespace JsxTracking

/-- What instrumentation finds, in visiting order. -/
inductive Finding where
  | point (point : TrackingPoint) (line? : Option Nat)
  | problem (problem : Problem) (line? : Option Nat)
  deriving DecidableEq, Repr, Inhabited

/-- The hooks of one marker. -/
def Hooks.ofMarker (handle : ElementHandle) (runtimeGlobal : String) :
    MarkerKind × MarkerValue → List Tree
  | (.visible, value) => Hooks.visibility handle value runtimeGlobal
  | (.click, value) => Hooks.click handle value runtimeGlobal

/-- The declaration of the variable that refers to an element. -/
def Hooks.declaration (handle : ElementHandle) : Tree :=
  Code.constant handle.name (Code.call (Code.reference HookNames.useRef) [Code.nullLiteral])

/-- All hooks of an element: the declaration of its handle and the hooks of its markers. -/
def Hooks.ofElement (handle : ElementHandle) (runtimeGlobal : String) (markers : ElementMarkers) :
    List Tree :=
  Hooks.declaration handle :: markers.values.flatMap (Hooks.ofMarker handle runtimeGlobal)

/-- What is decided about an element. -/
inductive Outcome where
  /-- It has no marker to instrument. -/
  | plain
  /-- Its markers cannot be instrumented where it stands. -/
  | refused (reason : PlacementProblem)
  /-- It gets a handle, which its instances may share, and its hooks go before the statement at a
  position. -/
  | instrumented (allocation : Allocation) (position : Nat) (shared : Bool)
  deriving DecidableEq, Repr, Inhabited

/-- A visited element. -/
structure Treatment where
  /-- The written name of the element. -/
  elementName : String
  line? : Option Nat
  markers : ElementMarkers
  outcome : Outcome
  deriving DecidableEq, Repr, Inhabited

namespace Treatment

/-- The handle given to the element, with the names found taken on the way to it. -/
def allocation? (treatment : Treatment) : Option Allocation :=
  match treatment.outcome with
  | .instrumented allocation _ _ => some allocation
  | _ => none

/-- The handle given to the element. -/
def handle? (treatment : Treatment) : Option ElementHandle :=
  treatment.allocation?.map Allocation.handle

/-- What there is to say of the element. -/
def findings (file : String) (treatment : Treatment) : List Finding :=
  let ⟨elementName, line?, markers, outcome⟩ := treatment
  markers.missing.map (fun kind => .problem (.missingValue kind elementName) line?) ++
    match outcome with
    | .plain => []
    | .refused reason => [.problem (.unsupported elementName reason) line?]
    | .instrumented ⟨handle, collisions⟩ _ shared =>
      (if collisions.isEmpty then []
        else [.problem (.collision collisions elementName handle) line?]) ++
      (if shared then [.problem (.shared elementName handle) line?] else []) ++
      markers.values.map fun (kind, value) =>
        .point (.ofMarker kind value elementName file) line?

/-- The hooks of the element, with the place they go to. -/
def group? (runtimeGlobal : String) (treatment : Treatment) : Option HookGroup :=
  match treatment.outcome with
  | .instrumented allocation position _ =>
    some ⟨position, Hooks.ofElement allocation.handle runtimeGlobal treatment.markers⟩
  | _ => none

end Treatment

/-- A tree on its way through instrumentation. -/
inductive Woven where
  /-- A tree that is left as it is. -/
  | kept (tree : Tree)
  | list (items : List Woven)
  /-- The top-level statements of a component. -/
  | statements (items : List Woven)
  | node (kind : Kind) (parts : List (Field × Woven))
  /-- A function, which is a component if it has a scan. The outer parts are not within it. -/
  | function (kind : Kind) (outer : List (Field × Woven)) (scan? : Option BodyScan)
    (inner : List (Field × Woven))
  /-- An opening tag. -/
  | opening (treatment : Treatment) (parts : List (Field × Woven))
  /-- An attribute that is taken away. -/
  | removed (attr : Tree)
  /-- The generated `ref` of an element, with the expression of the explicit one it replaces, if any.
  When it forwards, it is a function, and that is a component if it has a scan. -/
  | reference (attachment : Attachment) (replaced : List Woven) (scan? : Option BodyScan)
  deriving Repr, Inhabited

/-- Put hooks into the body of a function. -/
def Fields.spliceBody (parts : Fields) (groups : List HookGroup) : Fields :=
  parts.map fun part =>
    match part with
    | (.body, body) => (.body, HookGroup.spliceBody groups body)
    | part => part

/-- The generated `ref` attribute of an element whose explicit reference is the given one. The hooks
go into the function that forwards. -/
def Attachment.attribute (attachment : Attachment) (explicit? : Option Tree)
    (groups : List HookGroup) : Tree :=
  Code.jsxAttribute "ref" <|
    match ElementRef.forwarded? explicit? attachment.spreads with
    | none => Code.reference attachment.handle.name
    | some reference => ElementRef.forwardingFunction
        (HookGroup.splice (ElementRef.forwardingBody attachment.handle reference) groups)

namespace Woven

/-- Whether the tree is an attribute that is taken away. -/
def isRemoved : Woven → Bool
  | removed _ => true
  | _ => false

mutual

/-- All elements in a woven tree, in visiting order. -/
def treatments : Woven → List Treatment
  | kept _ | removed _ => []
  | list items | statements items => treatmentsInItems items
  | node _ parts => treatmentsInParts parts
  | function _ outer _ inner => treatmentsInParts outer ++ treatmentsInParts inner
  | opening treatment parts => treatment :: treatmentsInParts parts
  | reference _ replaced _ => treatmentsInItems replaced

/-- All elements in a list of woven trees. -/
def treatmentsInItems : List Woven → List Treatment
  | [] => []
  | item :: rest => treatments item ++ treatmentsInItems rest

/-- All elements in the parts of a woven node. -/
def treatmentsInParts : List (Field × Woven) → List Treatment
  | [] => []
  | (_, part) :: rest => treatments part ++ treatmentsInParts rest

end

mutual

/-- The elements in a woven tree whose hooks go into a component around it, in visiting order. -/
def elements : Woven → List Treatment
  | kept _ | removed _ => []
  | list items | statements items => elementsInItems items
  | node _ parts => elementsInParts parts
  | function _ outer none inner => elementsInParts outer ++ elementsInParts inner
  | function _ outer (some _) _ => elementsInParts outer
  | opening treatment parts => treatment :: elementsInParts parts
  | reference _ replaced none => elementsInItems replaced
  | reference _ _ (some _) => []

/-- The elements in a list of woven trees whose hooks go into a component around them. -/
def elementsInItems : List Woven → List Treatment
  | [] => []
  | item :: rest => elements item ++ elementsInItems rest

/-- The elements in the parts of a woven node whose hooks go into a component around it. -/
def elementsInParts : List (Field × Woven) → List Treatment
  | [] => []
  | (_, part) :: rest => elements part ++ elementsInParts rest

end

/-- The hooks that go into a function which holds the given elements: none, unless it is a
component. -/
def groups (runtimeGlobal : String) (scan? : Option BodyScan) (elements : List Treatment) :
    List HookGroup :=
  match scan? with
  | none => []
  | some _ => elements.filterMap (Treatment.group? runtimeGlobal)

mutual

/-- The instrumented tree. -/
def tree (runtimeGlobal : String) : Woven → Tree
  | kept tree | removed tree => tree
  | list items | statements items => .list (trees runtimeGlobal items)
  | node kind parts => .node kind (treesInParts runtimeGlobal parts)
  | function kind outer scan? inner =>
    .node kind (treesInParts runtimeGlobal outer ++
      (treesInParts runtimeGlobal inner).spliceBody
        (groups runtimeGlobal scan? (elementsInParts inner)))
  | opening _ parts => .node .jsxOpeningElement (treesInParts runtimeGlobal parts)
  | reference attachment replaced scan? =>
    attachment.attribute (trees runtimeGlobal replaced).head?
      (groups runtimeGlobal scan? (elementsInItems replaced))

/-- The instrumented trees of a list, without the attributes that are taken away. -/
def trees (runtimeGlobal : String) : List Woven → List Tree
  | [] => []
  | item :: rest =>
    if item.isRemoved then trees runtimeGlobal rest
    else tree runtimeGlobal item :: trees runtimeGlobal rest

/-- The instrumented parts of a node. -/
def treesInParts (runtimeGlobal : String) : List (Field × Woven) → Fields
  | [] => []
  | (field, part) :: rest => (field, tree runtimeGlobal part) :: treesInParts runtimeGlobal rest

end

end Woven

end JsxTracking
