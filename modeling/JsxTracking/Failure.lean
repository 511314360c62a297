import JsxTracking.Json.Reader

/-! # Failures

What can go wrong for a file as a whole. None of these ends a build: the file is passed on as it is,
or its records are not written. -/

namespace JsxTracking

/-- Why something failed. -/
inductive Cause where
  /-- A message from outside the library. -/
  | text (message : String)
  /-- A JSON text that could not be read. -/
  | json (fault : Json.Fault)
  deriving DecidableEq, Repr, Inhabited

/-- The wording of a cause. -/
def Cause.message : Cause → String
  | text message => message
  | json fault => fault.message

/-- A failure of a transform or of its bookkeeping. -/
inductive Failure where
  /-- The source is no module. -/
  | parse (file : String) (message : String)
  /-- The module cannot be written as text. -/
  | emit (file : String) (cause : Cause)
  /-- A file cannot be read or written. -/
  | io (path : String) (cause : Cause)
  /-- A file does not hold the JSON it should. -/
  | json (path : String) (cause : Cause)
  /-- The options given to the transform cannot be read. -/
  | config (cause : Cause)
  /-- The transform gave up. -/
  | panicked (file : String) (message : String)
  deriving DecidableEq, Repr, Inhabited

namespace Failure

/-- The wording of a failure. -/
def message : Failure → String
  | parse file message => "failed to parse " ++ file ++ ": " ++ message
  | emit file cause => "failed to emit " ++ file ++ ": " ++ cause.message
  | io path cause => "I/O error on " ++ path ++ ": " ++ cause.message
  | json path cause => "invalid JSON in " ++ path ++ ": " ++ cause.message
  | config cause => "invalid tracking config: " ++ cause.message
  | panicked file message => "transform panicked on " ++ file ++ ": " ++ message

/-- The failure underneath, if there is one. -/
def cause? : Failure → Option Cause
  | parse .. | panicked .. => none
  | emit _ cause | io _ cause | json _ cause | config cause => some cause

end Failure

end JsxTracking
