import JsxTracking.Source.Printer
import JsxTracking.TrackingDirectory
import JsxTracking.Transform

/-! # Sessions

A session is one build: its options and the tracking points registered so far. A source that cannot
be parsed is passed on as it is. What goes wrong with the records of the build is reported and
changes nothing else. -/

namespace JsxTracking

/-- A build. -/
structure Session where
  options : Options
  registry : Registry := .empty
  deriving Repr, Inhabited

/-- The outcome of transforming a source. -/
structure SourceOutput where
  /-- The transformed source, or the source itself when it marks nothing. -/
  code : String
  diagnostics : List Diagnostic
  points : List TrackingPoint
  /-- Whether the source was transformed. -/
  instrumented : Bool
  deriving DecidableEq, Repr, Inhabited

/-- The wording of a syntax fault. -/
def Source.SyntaxFault.message (fault : SyntaxFault) (source : String) : String :=
  let line := (source.toList.take (source.length - fault.remaining)).count '\n' + 1
  "unexpected text in line " ++ toString line

/-- The module that a source stands for. -/
def Source.parse (file source : String) : Except Failure SourceModule :=
  (SourceModule.ofText (.ofFile file source) source).mapError fun fault =>
    .parse file (fault.message source)

/-- Put a diagnostic into the build log. Notes are not logged. -/
def Diagnostic.report (diagnostic : Diagnostic) : Action Unit :=
  if diagnostic.severity = .note then return
  else .perform (.log diagnostic.severity diagnostic.display)

/-- Put diagnostics into the build log. -/
def Diagnostic.reportAll (diagnostics : List Diagnostic) : Action Unit :=
  diagnostics.forM Diagnostic.report

/-- The diagnostic for records that could not be kept. -/
def Failure.recordDiagnostic (failure : Failure) (file : String) : Diagnostic :=
  { severity := .warning, code := .manifestIo, message := failure.message, file }

/-- The diagnostic for a source that could not be transformed. -/
def Failure.transformDiagnostic (failure : Failure) (file : String) : Diagnostic :=
  { severity := .error, code := .transformFailed
    message := failure.message ++ "; file left untransformed", file }

/-- What a failed action on records has to say; nothing if it succeeded. -/
def FallibleAction.diagnostics {α : Type} (action : FallibleAction Failure α) (file : String) :
    Action (List Diagnostic) := do
  match ← action.run with
  | .ok _ => return []
  | .error failure => return [failure.recordDiagnostic file]

namespace TrackingDirectory

/-- Bring the records of a file up to date with its points: write them, or remove them if there are
no points. -/
def update (directory : TrackingDirectory) (file : String) (points : List TrackingPoint) :
    Action (List Diagnostic) :=
  if points.isEmpty then (directory.retract file).diagnostics file
  else (directory.record file points).diagnostics file

end TrackingDirectory

namespace Session

/-- The records of a build. -/
def directory (session : Session) : TrackingDirectory where
  path := session.options.trackingDir
  keepsTransformed := session.options.outputTransformedFiles

/-- Forget the points registered so far. -/
def reset (session : Session) : Session :=
  { session with registry := .empty }

/-- Transform a module against the points registered so far. -/
def transformModule (session : Session) (file : String) (source? : Option String)
    (items : List Tree) : ModuleOutput × Session :=
  let (output, registry) :=
    JsxTracking.transformModule session.options session.registry file source? items
  (output, { session with registry })

/-- Transform a source without keeping records. -/
def transformText (session : Session) (file source : String) :
    Except Failure SourceOutput × Session :=
  match Source.parse file source with
  | .error failure => (.error failure, session)
  | .ok parsed =>
    let (output, session) := session.transformModule file (some source) parsed.items
    let code := if output.instrumented then { parsed with items := output.items }.text else source
    (.ok { code, diagnostics := output.diagnostics, points := output.points,
           instrumented := output.instrumented }, session)

/-- Keep the records of a transformed source and tell what went wrong with them. -/
def keepRecords (session : Session) (file : String) (output : SourceOutput) :
    Action (List Diagnostic) := do
  if session.options.emitManifests then
    let recorded ← session.directory.update file output.points
    let kept ← if output.instrumented then
        (session.directory.keepTransformed file output.code).diagnostics file
      else pure []
    return recorded ++ kept
  else return []

/-- Transform a source. -/
def transformSource (session : Session) (path source : String) :
    Action (SourceOutput × Session) := do
  let file := Path.normalize path
  match session.transformText file source with
  | (.error failure, session) =>
    let diagnostics := [failure.transformDiagnostic file]
    Diagnostic.reportAll diagnostics
    return ({ code := source, diagnostics, points := [], instrumented := false }, session)
  | (.ok output, session) =>
    let records ← session.keepRecords file output
    let diagnostics := output.diagnostics ++ records
    Diagnostic.reportAll diagnostics
    return ({ output with diagnostics }, session)

end Session

end JsxTracking
