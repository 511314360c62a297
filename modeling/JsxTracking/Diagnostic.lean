import JsxTracking.Handle
import JsxTracking.Point

/-! # Diagnostics

A diagnostic is an advisory message of the build; it never changes what the build does. `Problem`
lists what instrumentation may have to say of an element, with its severity, code and wording. -/

namespace JsxTracking

/-- How serious a diagnostic is, in increasing order. -/
inductive Severity where
  | note
  | warning
  | error
  deriving DecidableEq, Repr, Inhabited, Ord

namespace Severity

instance : LT Severity := ltOfOrd

/-- The name of a severity. -/
def label : Severity → String
  | note => "note"
  | warning => "warning"
  | error => "error"

end Severity

/-- What a diagnostic is about. -/
inductive DiagnosticCode where
  /-- The source could not be read as a module and stays as it is. -/
  | transformFailed
  /-- An earlier point has the same key. -/
  | duplicateKey
  /-- A manifest, the summary or a transformed source could not be written. -/
  | manifestIo
  /-- A generated name is already used in the module. -/
  | handleCollision
  /-- The element stands where no hooks can be generated. -/
  | unsupportedPlacement
  /-- A marker has no usable value. -/
  | missingMarkerValue
  /-- All instances that a nested function renders share one handle. -/
  | sharedHandle
  deriving DecidableEq, Repr, Inhabited

/-- The name of a code. -/
def DiagnosticCode.label : DiagnosticCode → String
  | transformFailed => "transform-failed"
  | duplicateKey => "duplicate-key"
  | manifestIo => "manifest-io"
  | handleCollision => "handle-collision"
  | unsupportedPlacement => "unsupported-placement"
  | missingMarkerValue => "missing-marker-value"
  | sharedHandle => "shared-handle"

/-- An advisory message about a file. -/
structure Diagnostic where
  severity : Severity
  code : DiagnosticCode
  message : String
  file : String
  line? : Option Nat := none
  deriving DecidableEq, Repr, Inhabited

/-- The diagnostic as a line of the build log. -/
def Diagnostic.display (diagnostic : Diagnostic) : String :=
  match diagnostic.line? with
  | some line =>
    "[tracking] " ++ diagnostic.file ++ ":" ++ toString line ++ ": " ++ diagnostic.message
  | none => "[tracking] " ++ diagnostic.file ++ ": " ++ diagnostic.message

/-- Why an element cannot be instrumented where it stands. -/
inductive PlacementProblem where
  | inClassBody
  | outsideComponent
  /-- The element has a `ref` that is no expression. -/
  | refNotExpression
  /-- The element spreads an expression that must not be evaluated twice. -/
  | computedSpread
  /-- The marker uses names that are not declared where the hooks run. -/
  | outOfScope (names : List String)
  deriving DecidableEq, Repr, Inhabited

/-- The wording of a placement problem. -/
def PlacementProblem.message : PlacementProblem → String
  | inClassBody => "inside a class body, where hooks cannot run"
  | outsideComponent => "not inside a function component or custom hook"
  | refNotExpression => "the element has a non-expression `ref`"
  | computedSpread => "the element spreads a computed expression that may carry a `ref`"
  | outOfScope names =>
    "the marker value uses " ++ ", ".intercalate (names.map fun name => "`" ++ name ++ "`") ++
      ", which is not in scope where the component's hooks run"

/-- What there is to say of a marked element. -/
inductive Problem where
  | missingValue (kind : MarkerKind) (elementName : String)
  | unsupported (elementName : String) (reason : PlacementProblem)
  | collision (names : List String) (elementName : String) (handle : ElementHandle)
  | shared (elementName : String) (handle : ElementHandle)
  | duplicate (point first : TrackingPoint)
  deriving DecidableEq, Repr, Inhabited

namespace Problem

/-- How serious a problem is. -/
def severity : Problem → Severity
  | shared .. => .note
  | _ => .warning

/-- The code of a problem. -/
def code : Problem → DiagnosticCode
  | missingValue .. => .missingMarkerValue
  | unsupported .. => .unsupportedPlacement
  | collision .. => .handleCollision
  | shared .. => .sharedHandle
  | duplicate .. => .duplicateKey

/-- The wording of a problem. -/
def message : Problem → String
  | missingValue kind elementName =>
    "`" ++ kind.attributeName ++ "` on <" ++ elementName ++ "> has no value and was removed"
  | unsupported elementName reason =>
    "tracking markers on <" ++ elementName ++ "> were removed without instrumentation: " ++
      reason.message
  | collision names elementName handle =>
    "generated name(s) " ++ ", ".intercalate names ++ " already used in the module; <" ++
      elementName ++ "> uses " ++ handle.name
  | shared elementName handle =>
    "<" ++ elementName ++ "> is rendered by a nested function; all of its instances share " ++
      handle.name
  | duplicate point first =>
    "duplicate tracking key `" ++ point.key ++ "`: first declared at " ++ first.location ++
      ", declared again at " ++ point.location

/-- The problem as a diagnostic about a file. -/
def diagnostic (problem : Problem) (file : String) (line? : Option Nat) : Diagnostic :=
  { severity := problem.severity, code := problem.code, message := problem.message, file, line? }

end Problem

end JsxTracking
