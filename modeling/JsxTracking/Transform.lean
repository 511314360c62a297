import JsxTracking.Instrument
import JsxTracking.Options
import JsxTracking.Registry

/-! # Transforming a module

A module without markers is returned as it is. Any other is instrumented, gets the imports that the
generated code needs, and has its tracking points registered. The registry of the build only decides
which points are reported as duplicates; the instrumented module does not depend on it. -/

namespace JsxTracking

/-- A module that has been instrumented, and what was found on the way. -/
structure InstrumentedModule where
  items : List Tree
  findings : List Finding
  handles : Nat
  deriving Repr, Inhabited

/-- The module woven, item by item. -/
def weaveModule (source? : Option String) (items : List Tree) : List Woven :=
  ((weaveItems { source? } items).run { allocator := .ofModule items }).1

/-- Instrument a module and add the imports it needs. -/
def instrumentModule (options : Options) (file : String) (source? : Option String)
    (items : List Tree) : InstrumentedModule :=
  let woven := weaveModule source? items
  let treatments := Woven.treatmentsInItems woven
  let visited := Woven.trees options.runtimeGlobal woven
  let handles := treatments.filterMap Treatment.handle?
  { items := if handles.isEmpty then visited else (Imports.inject options.runtimeUrl visited).1
    findings := treatments.flatMap (Treatment.findings file)
    handles := handles.length }

/-- The points and diagnostics of a module. -/
structure Report where
  points : List TrackingPoint := []
  diagnostics : List Diagnostic := []
  deriving DecidableEq, Repr, Inhabited

namespace Registry

/-- Take one finding into a report, registering a point on the way. -/
def settleOne (file : String) : Report × Registry → Finding → Report × Registry
  | (report, registry), .problem problem line? =>
    ({ report with diagnostics := report.diagnostics ++ [problem.diagnostic file line?] }, registry)
  | (report, registry), .point point line? =>
    let report := { report with points := report.points ++ [point] }
    match registry.register point with
    | (.duplicate first, registry) =>
      ({ report with
          diagnostics := report.diagnostics ++
            [(Problem.duplicate point first).diagnostic file line?] }, registry)
    | (_, registry) => (report, registry)

/-- The report on findings in a file, given what is registered so far. -/
def settle (registry : Registry) (file : String) (findings : List Finding) : Report × Registry :=
  findings.foldl (settleOne file) ({}, registry)

end Registry

/-- The outcome of transforming a module. -/
structure ModuleOutput where
  items : List Tree
  points : List TrackingPoint
  diagnostics : List Diagnostic
  /-- Whether the module had markers; otherwise it is returned as it was. -/
  instrumented : Bool
  /-- The number of instrumented elements. -/
  handles : Nat
  deriving Repr, Inhabited

/-- Transform a module. -/
def transformModule (options : Options) (registry : Registry) (file : String)
    (source? : Option String) (items : List Tree) : ModuleOutput × Registry :=
  if Tree.hasMarkersInItems items then
    let done := instrumentModule options file source? items
    let (report, registry) := registry.settle file done.findings
    ({ items := done.items, points := report.points, diagnostics := report.diagnostics,
       instrumented := true, handles := done.handles }, registry)
  else
    ({ items, points := [], diagnostics := [], instrumented := false, handles := 0 }, registry)

end JsxTracking
