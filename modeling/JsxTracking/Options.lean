import JsxTracking.Failure
import JsxTracking.Host.Action
import JsxTracking.Json.Record
import JsxTracking.WhiteSpace

/-! # Options

The options of a build are given as JSON; each that is left out has its default. A blank text gives
the defaults. -/

namespace JsxTracking

/-- The options of a build. -/
structure Options where
  /-- Whether manifests and the summary are written. -/
  emitManifests : Bool := true
  /-- The directory of manifests and summary. -/
  trackingDir : String := ".tracking"
  /-- The source of the import that loads the tracking runtime. -/
  runtimeUrl : String := "http://localhost:3000/tracking.js"
  /-- The property of `window` that holds the runtime. -/
  runtimeGlobal : String := "tracking"
  /-- Whether transformed sources are also kept in the tracking directory. -/
  outputTransformedFiles : Bool := false
  deriving DecidableEq, Repr, Inhabited

/-- The options that a text gives. -/
structure GivenOptions where
  emitManifests? : Option Bool := none
  trackingDir? : Option String := none
  runtimeUrl? : Option String := none
  runtimeGlobal? : Option String := none
  outputTransformedFiles? : Option Bool := none
  deriving DecidableEq, Repr, Inhabited

namespace GivenOptions

/-- The members of the options, in order. -/
def members : List (Json.Member GivenOptions) :=
  [.stored "emitManifests" emitManifests? .bool
      fun given value => { given with emitManifests? := some value },
    .stored "trackingDir" trackingDir? .string
      fun given value => { given with trackingDir? := some value },
    .stored "runtimeUrl" runtimeUrl? .string
      fun given value => { given with runtimeUrl? := some value },
    .stored "runtimeGlobal" runtimeGlobal? .string
      fun given value => { given with runtimeGlobal? := some value },
    .stored "outputTransformedFiles" outputTransformedFiles? .bool
      fun given value => { given with outputTransformedFiles? := some value }]

/-- The options with defaults for those that are not given. -/
def complete (given : GivenOptions) : Options :=
  let defaults : Options := {}
  { emitManifests := given.emitManifests?.getD defaults.emitManifests
    trackingDir := given.trackingDir?.getD defaults.trackingDir
    runtimeUrl := given.runtimeUrl?.getD defaults.runtimeUrl
    runtimeGlobal := given.runtimeGlobal?.getD defaults.runtimeGlobal
    outputTransformedFiles :=
      given.outputTransformedFiles?.getD defaults.outputTransformedFiles }

end GivenOptions

namespace Options

/-- Read options. -/
def reader : Json.Reader Options := do
  return (← Json.Reader.record GivenOptions.members {}).complete

/-- The options given by a text. -/
def ofText (text : String) : Except Json.Fault Options :=
  if text.toList.all isWhiteSpace then .ok {} else Json.Reader.readText reader text

/-- The options given to the transform directly. -/
def ofJson (text : String) : Except Failure Options :=
  (ofText text).mapError fun fault => .config (.json fault)

/-- The options given by a file. -/
def ofFile (path : String) : FallibleAction Failure Options := do
  let text ← FallibleAction.attempt (.perform (.readText path))
    fun error => .io path (.text error.message)
  FallibleAction.ofExcept ((ofText text).mapError fun fault => .json path (.json fault))

end Options

end JsxTracking
