import JsxTracking.Failure
import JsxTracking.Host.Action
import JsxTracking.Manifest
import JsxTracking.Path

/-! # The tracking directory

The records of a build are files of one directory: a manifest for each file that has tracking
points, the summary of all manifests and, if asked for, the transformed sources. Files that share a
stem share the place of their manifest, so a manifest is only removed for the file it names. A
summary that cannot be read is replaced, a manifest that cannot be read is left alone. -/

namespace JsxTracking

/-- A directory that holds the records of a build. -/
structure TrackingDirectory where
  path : String
  /-- Whether transformed sources are kept too. -/
  keepsTransformed : Bool
  deriving DecidableEq, Repr, Inhabited

namespace TrackingDirectory

/-- The name that stands for files without a name of their own. -/
def unnamed : String := "unknown"

/-- Where the manifest of a file is written. -/
def manifestPath (directory : TrackingDirectory) (file : String) : String :=
  let stem := (Path.fileStem? (Path.normalize file)).getD unnamed
  Path.join directory.path (Path.safeName stem ++ "-tracking.json")

/-- Where the summary is written. -/
def summaryPath (directory : TrackingDirectory) : String :=
  Path.join directory.path "tracking-summary.json"

/-- Where transformed sources are kept. -/
def transformedPath (directory : TrackingDirectory) : String :=
  Path.join directory.path "transformed"

/-- Where the transformed source of a file is kept. -/
def transformedFile (directory : TrackingDirectory) (file : String) : String :=
  let name := (Path.fileName? (Path.normalize file)).getD unnamed
  Path.join directory.transformedPath (Path.safeName name)

/-- The failure of a request about a path. -/
def failedOn (path : String) (error : HostError) : Failure :=
  .io path (.text error.message)

/-- Make a directory. -/
def create (path : String) : FallibleAction Failure Unit :=
  .attempt (.perform (.createDirectories path)) (failedOn path)

/-- Write a file. -/
def write (path contents : String) : FallibleAction Failure Unit :=
  .attempt (.perform (.writeText path contents)) (failedOn path)

/-- The text of a file, if it is there. -/
def read? (path : String) : FallibleAction Failure (Option String) :=
  ExceptT.mk do
    match ← Action.perform (.readText path) with
    | .ok text => return .ok (some text)
    | .error error => return if error.notFound then .ok none else .error (failedOn path error)

/-- The present time. -/
def now : FallibleAction Failure String :=
  ExceptT.lift (.perform .now)

/-- Put a warning into the build log. -/
def warn (message : String) : FallibleAction Failure Unit :=
  ExceptT.lift (.perform (.log .warning message))

/-- The summary as it is recorded; the empty one if there is none or it cannot be read. -/
def readSummary (directory : TrackingDirectory) : FallibleAction Failure Summary := do
  let path := directory.summaryPath
  match ← read? path with
  | none => return {}
  | some text =>
    match Summary.ofText text with
    | .ok summary => return summary
    | .error fault =>
      warn ("[tracking] discarding unreadable summary " ++ path ++ ": " ++ fault.message)
      return {}

/-- Change the summary while no one else does. -/
def changingSummary {α : Type} (change : FallibleAction Failure α) : FallibleAction Failure α :=
  ExceptT.mk do
    Action.perform .holdSummary
    let result ← change.run
    Action.perform .releaseSummary
    return result

/-- Write the summary. -/
def writeSummary (directory : TrackingDirectory) (summary : Summary) :
    FallibleAction Failure Unit :=
  write directory.summaryPath summary.toJson.pretty

/-- Record the tracking points of a file in its manifest and in the summary. -/
def record (directory : TrackingDirectory) (file : String) (points : List TrackingPoint) :
    FallibleAction Failure Manifest := do
  create directory.path
  let manifest : Manifest :=
    { file := Path.normalize file, timestamp := ← now, tracking := points }
  write (directory.manifestPath file) manifest.toJson.pretty
  changingSummary do
    directory.writeSummary ((← directory.readSummary).upsert manifest)
  return manifest

/-- Whether a file holds the manifest of a source. -/
def holdsManifestOf (path source : String) : FallibleAction Failure Bool := do
  match ← read? path with
  | none => return false
  | some text =>
    match Manifest.ofText text with
    | .ok manifest => return manifest.file = source
    | .error fault =>
      warn ("[tracking] leaving unreadable manifest " ++ path ++ " in place: " ++ fault.message)
      return false

/-- Remove the manifest of a file, if it has one, and tell whether it had. -/
def removeManifest (directory : TrackingDirectory) (file : String) :
    FallibleAction Failure Bool := do
  let path := directory.manifestPath file
  if ← holdsManifestOf path (Path.normalize file) then
    FallibleAction.attempt (.perform (.removeFile path)) (failedOn path)
    return true
  else return false

/-- Drop a file from the summary, if it is listed, and tell whether it was. -/
def removeFromSummary (directory : TrackingDirectory) (file : String) :
    FallibleAction Failure Bool := do
  if ← ExceptT.lift (.perform (.pathExists directory.summaryPath)) then
    changingSummary do
      let summary ← directory.readSummary
      let file := Path.normalize file
      if summary.lists file then
        directory.writeSummary (summary.remove file (← now))
        return true
      else return false
  else return false

/-- Remove what is recorded of a file, and tell whether anything was. -/
def retract (directory : TrackingDirectory) (file : String) : FallibleAction Failure Bool := do
  let hadManifest ← directory.removeManifest file
  let wasListed ← directory.removeFromSummary file
  return hadManifest || wasListed

/-- Keep the transformed source of a file, if such sources are kept, and tell where. -/
def keepTransformed (directory : TrackingDirectory) (file code : String) :
    FallibleAction Failure (Option String) := do
  if directory.keepsTransformed then
    create directory.transformedPath
    let path := directory.transformedFile file
    write path code
    return some path
  else return none

end TrackingDirectory

end JsxTracking
