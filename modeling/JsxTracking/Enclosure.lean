import JsxTracking.BodyScan
import JsxTracking.Component
import JsxTracking.Diagnostic
import JsxTracking.ElementRef

/-! # Enclosures

What surrounds an element decides whether its markers can be instrumented and where the hooks go:
into the nearest component around it, unless a class stands in between. -/

namespace JsxTracking

/-- What surrounds an element, as far as the placement of its hooks is concerned. -/
inductive Enclosure where
  /-- No component is near. -/
  | outside
  /-- A class stands between the element and any component. -/
  | classBody
  /-- The nearest component, the index of its top-level statement that holds the element, and
  whether another function stands between them. -/
  | component (scan : BodyScan) (statement : Nat) (nested : Bool)
  deriving DecidableEq, Repr, Inhabited

namespace Enclosure

/-- The enclosure within a function that is no component. -/
def enterPlain : Enclosure → Enclosure
  | component scan statement _ => component scan statement true
  | enclosure => enclosure

/-- The enclosure within a function, which is a component if it has a scan. -/
def enterFunction (enclosure : Enclosure) : Option BodyScan → Enclosure
  | some scan => component scan 0 false
  | none => enclosure.enterPlain

/-- The enclosure within a node that is no function. -/
def enterNode (enclosure : Enclosure) : Kind → Enclosure
  | .classDeclaration | .classExpression => classBody
  | _ => enclosure

/-- The enclosure within another top-level statement of the component. -/
def atStatement (index : Nat) : Enclosure → Enclosure
  | component scan _ nested => component scan index nested
  | enclosure => enclosure

/-- The enclosure of the reference that a forwarding function declares in its second statement. -/
def enterForwarding (enclosure : Enclosure) : Option BodyScan → Enclosure
  | some scan => component scan 1 false
  | none => enclosure.enterPlain

/-- Whether all instances of an element share a handle. -/
def isShared : Enclosure → Bool
  | component _ _ nested => nested
  | _ => false

/-- Where the hooks of an element go in the body of its component, or why they cannot go there. -/
def place (enclosure : Enclosure) (markers : ElementMarkers) (attributes : List Tree) :
    Except PlacementProblem Nat :=
  match enclosure with
  | classBody => .error .inClassBody
  | outside => .error .outsideComponent
  | component scan statement _ =>
    if ElementRef.isUnsupported attributes then .error .refNotExpression
    else if !(ElementRef.trailingSpreads attributes).all Tree.isPlainPath then
      .error .computedSpread
    else
      match markers.dynamicExpressions with
      | [] => .ok scan.literalPosition
      | expressions =>
        let position := scan.dynamicPosition statement
        match sortedNames (expressions.flatMap (scan.unboundAt · position)) with
        | [] => .ok position
        | names => .error (.outOfScope names)

end Enclosure

end JsxTracking
