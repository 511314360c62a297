import JsxTracking.Host.Action
import JsxTracking.Path

/-! # Stores

A store is a file system in memory, together with a clock and a build log: enough to answer every
request of an action. Its root is the working directory. A path is followed component by component,
and every component but the last must name a directory that is there. Names and paths have a limited
length. `Action.run` runs an action on a store. -/

namespace JsxTracking

/-- What a path may name. -/
inductive Entry where
  | file (bytes : ByteArray)
  | directory
  deriving Inhabited

/-- Whether an entry is a directory. -/
def Entry.isDirectory : Entry → Bool
  | file _ => false
  | directory => true

/-- A line of the build log. -/
structure LogLine where
  severity : Severity
  message : String
  deriving DecidableEq, Repr, Inhabited

/-- A file system with a clock and a build log. -/
structure Store where
  /-- The files and directories by the names that lead to them from the root. -/
  entries : List (List String × Entry) := []
  /-- The time at each reading of the clock. -/
  clock : Nat → String
  /-- The number of times the clock has been read. -/
  readings : Nat := 0
  /-- The message of every error. -/
  refusal : String
  log : List LogLine := []
  deriving Inhabited

namespace Store

/-- What names lead to. -/
def entry? (store : Store) (names : List String) : Option Entry :=
  if names = [] then some .directory else store.entries.lookup names

/-- Let names lead to an entry. -/
def put (store : Store) (names : List String) (entry : Entry) : Store :=
  { store with
    entries := (names, entry) :: store.entries.filter fun item => item.1 ≠ names }

/-- Drop what names lead to, and everything below it. -/
def drop (store : Store) (names : List String) : Store :=
  { store with entries := store.entries.filter fun item => !names.isPrefixOf item.1 }

/-- The error for a path that names nothing. -/
def missing (store : Store) : HostError :=
  ⟨true, store.refusal⟩

/-- The error for a path that names something else than it should. -/
def refused (store : Store) : HostError :=
  ⟨false, store.refusal⟩

/-- The most bytes that a path may have. -/
def longestPath : Nat := 4095

/-- The most bytes that one of its names may have. -/
def longestName : Nat := 255

/-- Whether a path can be followed at all: it is not too long and no character of it is null. -/
def isUsable (path : String) : Bool :=
  path.utf8ByteSize ≤ longestPath && path.toList.all (· ≠ '\x00')

/-- Whether a component can be looked up in a directory. -/
def isUsableName : Path.Component → Bool
  | .name name => name.utf8ByteSize ≤ longestName
  | .root | .current | .parent => true

/-- The names that a component leads to from a directory. -/
def step (names : List String) : Path.Component → List String
  | .root => []
  | .current => names
  | .parent => names.dropLast
  | .name name => names ++ [name]

/-- Follow components from a place; each step leaves a directory. -/
def follow (store : Store) (names : List String) :
    List Path.Component → Except HostError (List String)
  | [] => .ok names
  | component :: rest =>
    match store.entry? names with
    | none => .error store.missing
    | some (.file _) => .error store.refused
    | some .directory =>
      if isUsableName component then store.follow (step names component) rest
      else .error store.refused

/-- The names that a path stands for. They need not lead to anything, unless the path ends in a
slash or a dot and so stands for a directory. -/
def resolve (store : Store) (path : String) : Except HostError (List String) := do
  if path = "" then throw store.missing
  if !isUsable path then throw store.refused
  let names ← store.follow [] (Path.components path)
  if Path.endsInDirectory path then
    match store.entry? names with
    | none => throw store.missing
    | some (.file _) => throw store.refused
    | some .directory => return names
  else return names

/-- What a path names, if it can be followed. -/
def find? (store : Store) (path : String) : Option Entry :=
  match store.resolve path with
  | .ok names => store.entry? names
  | .error _ => none

/-- Make the directories on the way along components. Those made before an error stay. -/
def makeDirectoriesFrom (store : Store) (names : List String) :
    List Path.Component → Except HostError Unit × Store
  | [] => (.ok (), store)
  | component :: rest =>
    let next := step names component
    if isUsableName component then
      match store.entry? next with
      | none => (store.put next .directory).makeDirectoriesFrom next rest
      | some .directory => store.makeDirectoriesFrom next rest
      | some (.file _) => (.error store.refused, store)
    else (.error store.refused, store)

/-- Make the directory that a path names, and those it is in. -/
def makeDirectories (store : Store) (path : String) : Except HostError Unit × Store :=
  if isUsable path then store.makeDirectoriesFrom [] (Path.components path)
  else (.error store.refused, store)

/-- The bytes of a file. -/
def readBytes (store : Store) (path : String) : Except HostError ByteArray := do
  match store.entry? (← store.resolve path) with
  | some (.file bytes) => return bytes
  | some .directory => throw store.refused
  | none => throw store.missing

/-- The text of a file; a file that is not valid UTF-8 has none. -/
def readText (store : Store) (path : String) : Except HostError String := do
  match String.fromUTF8? (← store.readBytes path) with
  | some text => return text
  | none => throw store.refused

/-- Replace the bytes of a file, or make it. -/
def writeBytes (store : Store) (path : String) (bytes : ByteArray) :
    Except HostError Unit × Store :=
  match store.resolve path with
  | .error error => (.error error, store)
  | .ok names =>
    match store.entry? names with
    | some .directory => (.error store.refused, store)
    | some (.file _) | none => (.ok (), store.put names (.file bytes))

/-- Remove a file. -/
def removeFile (store : Store) (path : String) : Except HostError Unit × Store :=
  match store.resolve path with
  | .error error => (.error error, store)
  | .ok names =>
    match store.entry? names with
    | some (.file _) => (.ok (), store.drop names)
    | some .directory => (.error store.refused, store)
    | none => (.error store.missing, store)

/-- The entries of the directory that a path names. -/
def listDirectory (store : Store) (path : String) : List DirectoryEntry :=
  match store.resolve path with
  | .error _ => []
  | .ok names =>
    match store.entry? names with
    | some .directory =>
      store.entries.filterMap fun (place, entry) =>
        match place.getLast? with
        | some name =>
          if place.dropLast = names then some ⟨name, entry.isDirectory⟩ else none
        | none => none
    | _ => []

/-- Answer a request. -/
def answer (store : Store) : (request : Request) → request.Answer × Store
  | .createDirectories path => store.makeDirectories path
  | .readText path => (store.readText path, store)
  | .writeText path contents => store.writeBytes path contents.toUTF8
  | .removeFile path => store.removeFile path
  | .pathExists path => ((store.find? path).isSome, store)
  | .isFile path =>
    (match store.find? path with
      | some (.file _) => true
      | _ => false, store)
  | .listDirectory path => (store.listDirectory path, store)
  | .now => (store.clock store.readings, { store with readings := store.readings + 1 })
  | .holdSummary | .releaseSummary => ((), store)
  | .log severity message => ((), { store with log := store.log ++ [⟨severity, message⟩] })

end Store

/-- Run an action on a store. -/
def Action.run {α : Type} : Action α → Store → α × Store
  | done value, store => (value, store)
  | ask request next, store =>
    let (answer, store) := store.answer request
    (next answer).run store

end JsxTracking
