import JsxTracking.Options

/-! # Command line arguments

Arguments are inputs or options. A value follows its option as the next argument, after an equals
sign, or directly after a short option; an argument that begins with a hyphen is no value unless it
is a hyphen alone. After two hyphens every argument is an input. Nothing may be given twice but
inputs, of which there is at least one, and no path is empty. The first argument that breaks a rule,
or that asks for help or the version, decides. -/

namespace JsxTracking.CommandLine

/-- What is asked of the command line. -/
structure Arguments where
  /-- The files and directories to transform. -/
  inputs : List String := []
  /-- The directory that transformed sources go to, instead of the standard output. -/
  outDir? : Option String := none
  /-- The file that gives options. -/
  config? : Option String := none
  trackingDir? : Option String := none
  runtimeUrl? : Option String := none
  noManifests : Bool := false
  outputTransformed : Bool := false
  deriving DecidableEq, Repr, Inhabited

/-- Why arguments cannot be used. -/
inductive Misuse where
  | unknownOption (option : String)
  | missingValue (option : String)
  | unwantedValue (option : String)
  | repeated (option : String)
  | emptyPath
  | noInputs
  deriving DecidableEq, Repr, Inhabited

/-- The wording of a misuse. -/
def Misuse.message : Misuse → String
  | unknownOption option => "unexpected argument " ++ option
  | missingValue option => "a value is required for " ++ option
  | unwantedValue option => "unexpected value for " ++ option
  | repeated option => option ++ " cannot be used multiple times"
  | emptyPath => "a path is empty"
  | noInputs => "no inputs are given"

/-- What the arguments say. -/
inductive Invocation where
  | transform (arguments : Arguments)
  | help
  | version
  | misuse (misuse : Misuse)
  deriving DecidableEq, Repr, Inhabited

/-- The options that have a value. -/
inductive ValueOption where
  | outDir
  | config
  | trackingDir
  | runtimeUrl
  deriving DecidableEq, Repr, Inhabited

namespace ValueOption

/-- The name of an option. -/
def label : ValueOption → String
  | outDir => "--out-dir"
  | config => "--config"
  | trackingDir => "--tracking-dir"
  | runtimeUrl => "--runtime-url"

/-- All options that have a value. -/
def all : List ValueOption :=
  [outDir, config, trackingDir, runtimeUrl]

/-- The value that is given for an option. -/
def given? (arguments : Arguments) : ValueOption → Option String
  | outDir => arguments.outDir?
  | config => arguments.config?
  | trackingDir => arguments.trackingDir?
  | runtimeUrl => arguments.runtimeUrl?

/-- Set the value of an option. All values but addresses are paths. -/
def give (option : ValueOption) (arguments : Arguments) (value : String) :
    Except Misuse Arguments :=
  if (option.given? arguments).isSome then .error (.repeated option.label)
  else
    match option with
    | runtimeUrl => .ok { arguments with runtimeUrl? := some value }
    | outDir =>
      if value = "" then .error .emptyPath else .ok { arguments with outDir? := some value }
    | config =>
      if value = "" then .error .emptyPath else .ok { arguments with config? := some value }
    | trackingDir =>
      if value = "" then .error .emptyPath else .ok { arguments with trackingDir? := some value }

end ValueOption

/-- The options without a value. -/
inductive Switch where
  | noManifests
  | outputTransformed
  | help
  | version
  deriving DecidableEq, Repr, Inhabited

namespace Switch

/-- The name of a switch. -/
def label : Switch → String
  | noManifests => "--no-manifests"
  | outputTransformed => "--output-transformed-files"
  | help => "--help"
  | version => "--version"

/-- All switches. -/
def all : List Switch :=
  [noManifests, outputTransformed, help, version]

end Switch

/-- One argument that is not a value of another. -/
inductive Token where
  | input (path : String)
  /-- Two hyphens: all that follows are inputs. -/
  | inputsOnly
  /-- An option with its value, if that is part of the same argument. -/
  | valued (option : ValueOption) (value? : Option String)
  | switch (switch : Switch)
  | misused (misuse : Misuse)
  deriving DecidableEq, Repr, Inhabited

/-- The value in an argument after its name, if there is an equals sign. -/
def attachedValue? (argument : List Char) : Option String :=
  match argument.dropWhile (· ≠ '=') with
  | _ :: value => some (String.ofList value)
  | [] => none

/-- What an argument means. -/
def Token.ofArgument (argument : String) : Token :=
  match argument.toList with
  | ['-'] => .input argument
  | ['-', '-'] => .inputsOnly
  | '-' :: '-' :: rest =>
    let name := "--" ++ String.ofList (rest.takeWhile (· ≠ '='))
    match ValueOption.all.find? (·.label = name), Switch.all.find? (·.label = name) with
    | some option, _ => Token.valued option (attachedValue? rest)
    | none, some toggle =>
      if (attachedValue? rest).isSome then .misused (.unwantedValue name) else .switch toggle
    | none, none => .misused (.unknownOption name)
  | ['-', 'o'] => .valued .outDir none
  | '-' :: 'o' :: '=' :: value | '-' :: 'o' :: value => .valued .outDir (some (String.ofList value))
  | '-' :: 'h' :: _ => .switch .help
  | '-' :: 'V' :: _ => .switch .version
  | '-' :: _ => .misused (.unknownOption argument)
  | _ => .input argument

namespace Arguments

/-- Add an input. -/
def addInput (arguments : Arguments) (path : String) : Except Misuse Arguments :=
  if path = "" then .error .emptyPath
  else .ok { arguments with inputs := arguments.inputs ++ [path] }

/-- The invocation with arguments that are complete. -/
def finish (arguments : Arguments) : Invocation :=
  if arguments.inputs.isEmpty then .misuse .noInputs else .transform arguments

/-- Read the remaining arguments as inputs. -/
def readInputs (arguments : Arguments) (paths : List String) : Invocation :=
  match paths.foldlM addInput arguments with
  | .ok arguments => arguments.finish
  | .error misuse => .misuse misuse

/-- Read the remaining arguments. An option that waits for its value is given with them. -/
def read (arguments : Arguments) (waiting? : Option ValueOption) : List String → Invocation
  | [] =>
    match waiting? with
    | some option => .misuse (.missingValue option.label)
    | none => arguments.finish
  | argument :: rest =>
    match waiting?, Token.ofArgument argument with
    | some option, .input value =>
      match option.give arguments value with
      | .ok arguments => arguments.read none rest
      | .error misuse => .misuse misuse
    | some option, _ => .misuse (.missingValue option.label)
    | none, .input path =>
      match arguments.addInput path with
      | .ok arguments => arguments.read none rest
      | .error misuse => .misuse misuse
    | none, .inputsOnly => arguments.readInputs rest
    | none, .valued option none => arguments.read (some option) rest
    | none, .valued option (some value) =>
      match option.give arguments value with
      | .ok arguments => arguments.read none rest
      | .error misuse => .misuse misuse
    | none, .switch .help => .help
    | none, .switch .version => .version
    | none, .switch .noManifests =>
      if arguments.noManifests then .misuse (.repeated Switch.noManifests.label)
      else { arguments with noManifests := true }.read none rest
    | none, .switch .outputTransformed =>
      if arguments.outputTransformed then .misuse (.repeated Switch.outputTransformed.label)
      else { arguments with outputTransformed := true }.read none rest
    | none, .misused misuse => .misuse misuse

/-- The options of the build: those of the file, if one is given, changed as the arguments say. -/
def options (arguments : Arguments) : FallibleAction Failure Options := do
  let options ← match arguments.config? with
    | some path => Options.ofFile path
    | none => pure {}
  return { options with
    trackingDir := arguments.trackingDir?.getD options.trackingDir
    runtimeUrl := arguments.runtimeUrl?.getD options.runtimeUrl
    emitManifests := options.emitManifests && !arguments.noManifests
    outputTransformedFiles := options.outputTransformedFiles || arguments.outputTransformed }

end Arguments

/-- What a list of arguments says. -/
def Invocation.ofList (arguments : List String) : Invocation :=
  Arguments.read {} none arguments

end JsxTracking.CommandLine
