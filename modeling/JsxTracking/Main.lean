import JsxTracking.CommandLine.Run

/-! # The program

Requests are answered by the machine that the program runs on. -/

namespace JsxTracking.Machine

/-- The result of an attempt, with the reason if it was refused. -/
def attempted {α : Type} (attempt : IO α) : IO (Except HostError α) := do
  try
    return .ok (← attempt)
  catch error =>
    let notFound := match error with
      | .noFileOrDirectory .. | .noSuchThing .. => true
      | _ => false
    return .error ⟨notFound, toString error⟩

/-- The text of a file. -/
def textOf (path : String) : IO String := do
  match String.fromUTF8? (← IO.FS.readBinFile ⟨path⟩) with
  | some text => return text
  | none => throw (IO.userError "stream did not contain valid UTF-8")

/-- A number with leading zeros. -/
def padded (width value : Nat) : String :=
  let digits := toString value
  String.ofList (List.replicate (width - digits.length) '0') ++ digits

/-- Year, month and day of a day, by its number from the first of January 1970 on. Years are counted
from March in eras of 400 years. -/
def civilDate (day : Nat) : Nat × Nat × Nat :=
  let shifted := day + 719468
  let era := shifted / 146097
  let dayOfEra := shifted % 146097
  let yearOfEra := (dayOfEra - dayOfEra / 1460 + dayOfEra / 36524 - dayOfEra / 146096) / 365
  let dayOfYear := dayOfEra - (365 * yearOfEra + yearOfEra / 4 - yearOfEra / 100)
  let shiftedMonth := (5 * dayOfYear + 2) / 153
  let month := if shiftedMonth < 10 then shiftedMonth + 3 else shiftedMonth - 9
  let year := era * 400 + yearOfEra + if month ≤ 2 then 1 else 0
  (year, month, dayOfYear - (153 * shiftedMonth + 2) / 5 + 1)

/-- A time in milliseconds from 1970 on, in the format `2024-01-31T12:00:00.000Z`. -/
def timestamp (milliseconds : Nat) : String :=
  let seconds := milliseconds / 1000
  let (year, month, day) := civilDate (seconds / 86400)
  padded 4 year ++ "-" ++ padded 2 month ++ "-" ++ padded 2 day ++ "T" ++
    padded 2 (seconds / 3600 % 24) ++ ":" ++ padded 2 (seconds / 60 % 60) ++ ":" ++
    padded 2 (seconds % 60) ++ "." ++ padded 3 (milliseconds % 1000) ++ "Z"

/-- The place in the file system that a path names. -/
def place (path : String) :=
  (IO.FS.DirEntry.mk ⟨path⟩ "").root

/-- The present time in milliseconds from 1970 on: the time at which a new file is written. -/
def presentTime : IO Nat := do
  let (handle, path) ← IO.FS.createTempFile
  handle.write ⟨#[0]⟩
  handle.flush
  let written := (← path.metadata).modified
  IO.FS.removeFile path
  return written.sec.toNat * 1000 + written.nsec.toNat / 1000000

/-- Whether a path names a file. -/
def namesFile (path : String) : IO Bool := do
  match ← attempted (place path).metadata with
  | .ok metadata => return metadata.type == .file
  | .error _ => return false

/-- The entries of a directory; none if the path names no directory. -/
def entriesOf (path : String) : IO (List DirectoryEntry) := do
  match ← attempted (place path).readDir with
  | .ok entries => entries.toList.mapM fun entry => return ⟨entry.fileName, ← entry.path.isDir⟩
  | .error _ => return []

/-- The name of a severity in the log. -/
def logLabel : Severity → String
  | .note => "INFO"
  | .warning => "WARN"
  | .error => "ERROR"

/-- Answer a request. -/
def answer : (request : Request) → IO request.Answer
  | .createDirectories path => attempted (if path = "" then return else IO.FS.createDirAll ⟨path⟩)
  | .readText path => attempted (textOf path)
  | .writeText path contents => attempted (IO.FS.writeBinFile ⟨path⟩ contents.toUTF8)
  | .removeFile path => attempted (IO.FS.removeFile ⟨path⟩)
  | .pathExists path => (place path).pathExists
  | .isFile path => namesFile path
  | .listDirectory path => entriesOf path
  | .now => return timestamp (← presentTime)
  | .holdSummary | .releaseSummary => return
  | .log severity message => IO.eprintln (logLabel severity ++ " " ++ message)

/-- Perform an action. -/
def execute {α : Type} : Action α → IO α
  | .done value => return value
  | .ask request next => do execute (next (← answer request))

end JsxTracking.Machine

/-- Run the program. -/
def main (arguments : List String) : IO UInt32 := do
  let outcome ← JsxTracking.Machine.execute (JsxTracking.CommandLine.run arguments)
  IO.print outcome.output
  for line in outcome.errors do
    IO.eprintln line
  return outcome.exitCode.toUInt32
