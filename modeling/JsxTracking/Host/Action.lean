import JsxTracking.Diagnostic

/-! # Actions

What a build asks of the machine it runs on is written down as a list of *requests*, each of which
waits for its answer. An action decides nothing about the machine: running it needs a host that
answers the requests, be it the real file system or the store of `JsxTracking.Host.Store`. -/

namespace JsxTracking

/-- Why a request was refused. -/
structure HostError where
  /-- Whether the path names nothing. -/
  notFound : Bool
  message : String
  deriving DecidableEq, Repr, Inhabited

/-- An entry of a directory. -/
structure DirectoryEntry where
  name : String
  isDirectory : Bool
  deriving DecidableEq, Repr, Inhabited

/-- A request to the host. -/
inductive Request where
  /-- Make a directory and those above it, unless they are there. -/
  | createDirectories (path : String)
  /-- Read a file as text. -/
  | readText (path : String)
  /-- Replace the contents of a file, or make it. -/
  | writeText (path contents : String)
  | removeFile (path : String)
  /-- Whether a path names a file or a directory. -/
  | pathExists (path : String)
  /-- Whether a path names a file. -/
  | isFile (path : String)
  /-- The entries of a directory, in any order; none if the path names no directory. -/
  | listDirectory (path : String)
  /-- The present time. -/
  | now
  /-- Wait until no other action holds the summary, and hold it. -/
  | holdSummary
  /-- Let others have the summary again. -/
  | releaseSummary
  /-- Add a line to the build log. -/
  | log (severity : Severity) (message : String)
  deriving DecidableEq, Repr, Inhabited

/-- The type of the answer to a request. -/
@[reducible] def Request.Answer : Request → Type
  | createDirectories _ | writeText _ _ | removeFile _ => Except HostError Unit
  | readText _ => Except HostError String
  | pathExists _ | isFile _ => Bool
  | listDirectory _ => List DirectoryEntry
  | now => String
  | holdSummary | releaseSummary | log _ _ => Unit

/-- A computation that may ask the host for something before it goes on. -/
inductive Action (α : Type) where
  | done (value : α)
  | ask (request : Request) (next : request.Answer → Action α)

namespace Action

variable {α β : Type}

/-- Go on with the value of an action. -/
def bind : Action α → (α → Action β) → Action β
  | done value, next => next value
  | ask request answered, next => ask request fun answer => (answered answer).bind next

instance : Monad Action where
  pure := done
  bind := bind

@[simp] theorem pure_eq (value : α) : (pure value : Action α) = done value := rfl

@[simp] theorem done_bind (value : α) (next : α → Action β) : done value >>= next = next value :=
  rfl

@[simp] theorem ask_bind (request : Request) (answered : request.Answer → Action α)
    (next : α → Action β) :
    ask request answered >>= next = ask request fun answer => answered answer >>= next :=
  rfl

/-- A single request. -/
def perform (request : Request) : Action request.Answer :=
  ask request done

end Action

/-- An action that may fail. -/
abbrev FallibleAction (ε : Type) := ExceptT ε Action

namespace FallibleAction

variable {α ε : Type}

/-- A request whose refusal is a failure of the action. -/
def attempt (asked : Action (Except HostError α)) (failure : HostError → ε) :
    FallibleAction ε α :=
  ExceptT.mk do return (← asked).mapError failure

/-- A result that needs no host. -/
def ofExcept (result : Except ε α) : FallibleAction ε α :=
  ExceptT.mk (pure result)

end FallibleAction

end JsxTracking
