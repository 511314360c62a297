import JsxTracking.Syntax.Code

/-! # Tracking markers

An element asks to be tracked by the attributes `data-track-show` and `data-track-click`. The value
of a marker is a *literal* name, known at build time, or an expression that the running page
evaluates. When one element repeats a marker, its last attribute counts, as for every JSX
attribute; a last attribute without a usable value leaves the marker *missing*. -/

namespace JsxTracking

/-- What a marker tracks: the element becoming visible, or clicks on it. -/
inductive MarkerKind where
  | visible
  | click
  deriving DecidableEq, Repr, Inhabited

namespace MarkerKind

/-- The attribute that carries the marker. -/
def attributeName : MarkerKind → String
  | visible => "data-track-show"
  | click => "data-track-click"

/-- The marker that an attribute carries. -/
def ofAttribute? (name : String) : Option MarkerKind :=
  if name = "data-track-show" then some visible
  else if name = "data-track-click" then some click
  else none

/-- The name of the kind in manifests, keys and calls of the runtime. -/
def label : MarkerKind → String
  | visible => "show"
  | click => "click"

/-- The kind with a given name. -/
def ofLabel? (label : String) : Option MarkerKind :=
  if label = "show" then some visible
  else if label = "click" then some click
  else none

end MarkerKind

/-- The value of a marker. -/
inductive MarkerValue where
  /-- A name known at build time. -/
  | literal (name : String)
  /-- An expression evaluated by the running page. -/
  | dynamic (expression : Tree)
  deriving DecidableEq, Repr, Inhabited

namespace MarkerValue

/-- The name recorded for the value; every dynamic value shares one. -/
def recordedName : MarkerValue → String
  | literal name => name
  | dynamic _ => "dynamic"

/-- Whether the value is only known to the running page. -/
def isDynamic : MarkerValue → Bool
  | literal _ => false
  | dynamic _ => true

/-- The expression that evaluates to the value. -/
def expression : MarkerValue → Tree
  | literal name => Code.string name
  | dynamic expression => expression

end MarkerValue

namespace Tree

/-- The name of a JSX attribute; none for spreads and for names with a namespace. -/
def attributeName? : Tree → Option String
  | node .jsxAttribute fields =>
    match Fields.get fields .name with
    | node .name parts => (Fields.get parts .value).text?
    | _ => none
  | _ => none

/-- The marker that an attribute carries. -/
def markerKind? (attr : Tree) : Option MarkerKind :=
  attr.attributeName?.bind MarkerKind.ofAttribute?

/-- Whether an attribute is a marker. -/
def isMarker (attr : Tree) : Bool :=
  attr.markerKind?.isSome

mutual

/-- The tree within any number of parentheses. -/
def unparenthesized : Tree → Tree
  | node .parenthesisExpression fields => parenthesizedIn fields
  | tree => tree

/-- The tree within the parentheses that have the given parts. -/
def parenthesizedIn : List (Field × Tree) → Tree
  | [] => null
  | (.expression, inner) :: _ => unparenthesized inner
  | _ :: rest => parenthesizedIn rest

end

/-- The text of one piece of a template, its escapes decoded where they can be. -/
def templateText (piece : Tree) : String :=
  ((piece.get .cooked).text?.orElse fun _ => (piece.get .raw).text?).getD ""

end Tree

/-- The marker value of an expression: string literals and templates without substitutions are
literal, also in parentheses. -/
def MarkerValue.ofExpression (expression : Tree) : MarkerValue :=
  match expression.unparenthesized with
  | .node .stringLiteral fields => literal ((Fields.get fields .value).text?.getD "")
  | .node .templateLiteral fields =>
    if (Fields.get fields .expressions).items.isEmpty then
      literal (String.join ((Fields.get fields .quasis).items.map Tree.templateText))
    else dynamic (.node .templateLiteral fields)
  | inner => dynamic inner

/-- The marker value of an attribute's value; none when there is nothing to evaluate. -/
def MarkerValue.ofAttributeValue? : Tree → Option MarkerValue
  | .null => none
  | .node .stringLiteral fields => some (literal ((Fields.get fields .value).text?.getD ""))
  | .node .jsxExpressionContainer fields =>
    match Fields.get fields .expression with
    | .node .jsxEmptyExpression _ => none
    | expression => some (ofExpression expression)
  | value => some (dynamic value)

/-- The markers of one element. -/
structure ElementMarkers where
  visible? : Option MarkerValue := none
  click? : Option MarkerValue := none
  /-- The markers whose last attribute has no usable value. -/
  missing : List MarkerKind := []
  deriving DecidableEq, Repr, Inhabited

namespace ElementMarkers

/-- The value of a marker. -/
def value? (markers : ElementMarkers) : MarkerKind → Option MarkerValue
  | .visible => markers.visible?
  | .click => markers.click?

/-- The markers with another value for one of them. -/
def setValue (markers : ElementMarkers) (kind : MarkerKind) (value : Option MarkerValue) :
    ElementMarkers :=
  match kind with
  | .visible => { markers with visible? := value }
  | .click => { markers with click? := value }

/-- Take a further attribute into account; what it says of its kind replaces what was said
before. -/
def add (markers : ElementMarkers) (attr : Tree) : ElementMarkers :=
  match attr.markerKind? with
  | none => markers
  | some kind =>
    match MarkerValue.ofAttributeValue? (attr.get .value) with
    | some value =>
      { markers.setValue kind (some value) with
        missing := markers.missing.filter fun other => other ≠ kind }
    | none =>
      { markers.setValue kind none with
        missing := if kind ∈ markers.missing then markers.missing
          else markers.missing ++ [kind] }

/-- The markers among the attributes of an element. -/
def scan (attributes : List Tree) : ElementMarkers :=
  attributes.foldl add {}

/-- Whether the element carries a marker at all. -/
def any (markers : ElementMarkers) : Bool :=
  markers.visible?.isSome || markers.click?.isSome || !markers.missing.isEmpty

/-- Whether there is a marker to instrument. -/
def hasValues (markers : ElementMarkers) : Bool :=
  markers.visible?.isSome || markers.click?.isSome

/-- The markers to instrument, show before click. -/
def values (markers : ElementMarkers) : List (MarkerKind × MarkerValue) :=
  (markers.visible?.map (MarkerKind.visible, ·)).toList ++
    (markers.click?.map (MarkerKind.click, ·)).toList

/-- The expressions that the running page evaluates, show before click. -/
def dynamicExpressions (markers : ElementMarkers) : List Tree :=
  markers.values.filterMap fun (_, value) =>
    match value with
    | .dynamic expression => some expression
    | .literal _ => none

/-- Whether some value is only known to the running page. -/
def hasDynamic (markers : ElementMarkers) : Bool :=
  markers.values.any fun (_, value) => value.isDynamic

end ElementMarkers

/-- The attributes that are no markers. -/
def stripMarkers (attributes : List Tree) : List Tree :=
  attributes.filter fun attr => !attr.isMarker

theorem stripMarkers_idempotent (attributes : List Tree) :
    stripMarkers (stripMarkers attributes) = stripMarkers attributes := by
  simp only [stripMarkers, List.filter_filter, Bool.and_self]

namespace Tree

mutual

/-- Whether some element in the tree carries a marker. -/
def hasMarkers : Tree → Bool
  | node .jsxOpeningElement fields =>
    (Fields.get fields .attributes).items.any isMarker || hasMarkersInFields fields
  | node _ fields => hasMarkersInFields fields
  | list items => hasMarkersInItems items
  | _ => false

/-- Whether some element in a list of trees carries a marker. -/
def hasMarkersInItems : List Tree → Bool
  | [] => false
  | item :: rest => hasMarkers item || hasMarkersInItems rest

/-- Whether some element in the parts of a node carries a marker. -/
def hasMarkersInFields : List (Field × Tree) → Bool
  | [] => false
  | (_, part) :: rest => hasMarkers part || hasMarkersInFields rest

end

end Tree

end JsxTracking
