import JsxTracking.Json.Record
import JsxTracking.Json.Value
import JsxTracking.Point

/-! # Manifests and the summary

The manifest of a file lists its tracking points; the summary of a build lists the manifests of all
files that have points, with their number. In both a point is recorded by its kind, its name and
its element. -/

namespace JsxTracking

/-- The tracking points of a file. -/
structure Manifest where
  file : String
  timestamp : String
  tracking : List TrackingPoint
  deriving DecidableEq, Repr, Inhabited

/-- The manifests of a build. -/
structure Summary where
  files : List Manifest := []
  totalTracking : Nat := 0
  lastUpdated : String := ""
  deriving DecidableEq, Repr, Inhabited

namespace Summary

/-- The summary with its total counted anew. -/
def refresh (summary : Summary) (updated : String) : Summary :=
  { summary with
    totalTracking := (summary.files.flatMap Manifest.tracking).length
    lastUpdated := updated }

/-- The manifests with one put in place of the first for its file, or last. -/
def replace (manifest : Manifest) : List Manifest → List Manifest
  | [] => [manifest]
  | first :: rest =>
    if first.file = manifest.file then manifest :: rest else first :: replace manifest rest

/-- Put the manifest of a file into the summary. -/
def upsert (summary : Summary) (manifest : Manifest) : Summary :=
  { summary with files := replace manifest summary.files }.refresh manifest.timestamp

/-- Whether the summary lists a file. -/
def lists (summary : Summary) (file : String) : Bool :=
  summary.files.any fun manifest => manifest.file = file

/-- Drop a file from the summary; one that is not listed leaves it unchanged. -/
def remove (summary : Summary) (file : String) (now : String) : Summary :=
  if summary.lists file then
    { summary with files := summary.files.filter fun manifest => manifest.file ≠ file }.refresh now
  else summary

end Summary

/-- The recorded form of a point. -/
def TrackingPoint.toJson (point : TrackingPoint) : Json :=
  .obj [("type", .str point.kind.label), ("name", .str point.name),
    ("elementName", .str point.elementName)]

/-- The recorded form of a manifest. -/
def Manifest.toJson (manifest : Manifest) : Json :=
  .obj [("file", .str manifest.file), ("timestamp", .str manifest.timestamp),
    ("tracking", .arr (manifest.tracking.map TrackingPoint.toJson))]

/-- The recorded form of a summary. -/
def Summary.toJson (summary : Summary) : Json :=
  .obj [("files", .arr (summary.files.map Manifest.toJson)),
    ("totalTracking", .nat summary.totalTracking), ("lastUpdated", .str summary.lastUpdated)]

namespace MarkerKind

/-- Read the name of a kind. -/
def named : Json.Reader MarkerKind := do
  match ofLabel? (← Json.Reader.string) with
  | some kind => return kind
  | none => Json.Reader.fail .unexpected

/-- Read a kind: its name, or an object with its name as only key and the value null. -/
def reader : Json.Reader MarkerKind := do
  match ← Json.Reader.peek with
  | none => Json.Reader.fail .truncated
  | some '"' => named
  | some '{' =>
    Json.Reader.advance
    let kind ← named
    Json.Reader.colon
    Json.Reader.null
    match ← Json.Reader.peek with
    | some '}' => Json.Reader.advance; return kind
    | some _ => Json.Reader.fail .malformed
    | none => Json.Reader.fail .truncated
  | some _ => Json.Reader.fail .malformed

end MarkerKind

/-- What has been read of a point. -/
structure GivenPoint where
  kind? : Option MarkerKind := none
  name? : Option String := none
  elementName? : Option String := none
  deriving DecidableEq, Repr, Inhabited

namespace GivenPoint

/-- The members of a point, in order. -/
def members : List (Json.Member GivenPoint) :=
  [.stored "type" kind? MarkerKind.reader fun given value => { given with kind? := some value },
    .stored "name" name? .string fun given value => { given with name? := some value },
    .stored "elementName" elementName? .string
      fun given value => { given with elementName? := some value }]

/-- The point, unless a member is missing. Its file is not recorded, nor whether its name stands for
a dynamic value. -/
def complete? (given : GivenPoint) : Option TrackingPoint := do
  return { kind := ← given.kind?, name := ← given.name?, elementName := ← given.elementName?,
           file := "", dynamic := false }

end GivenPoint

/-- Read a point. -/
def TrackingPoint.reader : Json.Reader TrackingPoint := do
  Json.Reader.complete (← Json.Reader.record GivenPoint.members {}).complete?

/-- What has been read of a manifest. -/
structure GivenManifest where
  file? : Option String := none
  timestamp? : Option String := none
  tracking? : Option (List TrackingPoint) := none
  deriving DecidableEq, Repr, Inhabited

namespace GivenManifest

/-- The members of a manifest, in order. -/
def members : List (Json.Member GivenManifest) :=
  [.stored "file" file? .string fun given value => { given with file? := some value },
    .stored "timestamp" timestamp? .string
      fun given value => { given with timestamp? := some value },
    .stored "tracking" tracking? (.list TrackingPoint.reader)
      fun given value => { given with tracking? := some value }]

/-- The manifest, unless a member is missing. -/
def complete? (given : GivenManifest) : Option Manifest := do
  return { file := ← given.file?, timestamp := ← given.timestamp?, tracking := ← given.tracking? }

end GivenManifest

/-- Read a manifest. -/
def Manifest.reader : Json.Reader Manifest := do
  Json.Reader.complete (← Json.Reader.record GivenManifest.members {}).complete?

/-- What has been read of a summary. -/
structure GivenSummary where
  files? : Option (List Manifest) := none
  totalTracking? : Option Nat := none
  lastUpdated? : Option String := none
  deriving DecidableEq, Repr, Inhabited

namespace GivenSummary

/-- The members of a summary, in order. -/
def members : List (Json.Member GivenSummary) :=
  [.stored "files" files? (.list Manifest.reader)
      fun given value => { given with files? := some value },
    .stored "totalTracking" totalTracking? .natural
      fun given value => { given with totalTracking? := some value },
    .stored "lastUpdated" lastUpdated? .string
      fun given value => { given with lastUpdated? := some value }]

/-- The summary, unless a member is missing. -/
def complete? (given : GivenSummary) : Option Summary := do
  return { files := ← given.files?, totalTracking := ← given.totalTracking?,
           lastUpdated := ← given.lastUpdated? }

end GivenSummary

/-- Read a summary. -/
def Summary.reader : Json.Reader Summary := do
  Json.Reader.complete (← Json.Reader.record GivenSummary.members {}).complete?

/-- The manifest written in a text. -/
def Manifest.ofText (text : String) : Except Json.Fault Manifest :=
  Json.Reader.readText Manifest.reader text

/-- The summary written in a text. -/
def Summary.ofText (text : String) : Except Json.Fault Summary :=
  Json.Reader.readText Summary.reader text

end JsxTracking
