import JsxTracking.Marker

/-! # Tracking points

A tracking point is one marker of one instrumented element in one file. Its key, the kind together
with the recorded name, tells whether two points report the same thing. -/

namespace JsxTracking

/-- One instrumented marker. -/
structure TrackingPoint where
  kind : MarkerKind
  /-- The name recorded for the marker's value. -/
  name : String
  /-- The written name of the element. -/
  elementName : String
  file : String
  /-- Whether the value is only known to the running page. -/
  dynamic : Bool
  deriving DecidableEq, Repr, Inhabited

namespace TrackingPoint

/-- The point of a marker with a given value on an element of a file. -/
def ofMarker (kind : MarkerKind) (value : MarkerValue) (elementName file : String) :
    TrackingPoint :=
  { kind, name := value.recordedName, elementName, file, dynamic := value.isDynamic }

/-- The key of the point, `kind:name`. -/
def key (point : TrackingPoint) : String :=
  point.kind.label ++ ":" ++ point.name

/-- Where the point stands, `file <element>`. -/
def location (point : TrackingPoint) : String :=
  point.file ++ " <" ++ point.elementName ++ ">"

end TrackingPoint

end JsxTracking
