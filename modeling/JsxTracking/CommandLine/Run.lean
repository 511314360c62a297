import JsxTracking.CommandLine.Arguments
import JsxTracking.Session

/-! # Running the command line

The sources are the inputs that are files, and all files below the other inputs whose extension says
that they hold JSX, except in directories of packages. They are transformed in the order of their
paths, each once, and either written to a directory, with the layout they have below their input, or
printed. The first file that cannot be read or written ends the run. -/

namespace JsxTracking.CommandLine

/-- A source with its path below the input it was found in. -/
structure SourceFile where
  path : String
  relative : String
  deriving DecidableEq, Repr, Inhabited

namespace SourceFile

/-- What the order of sources is decided by. -/
def key (source : SourceFile) : List (List Path.Component) :=
  [Path.components source.path, Path.components source.relative]

/-- Whether a source comes before another or at the same place. -/
def isAtMost (first second : SourceFile) : Bool :=
  (compareLex (compareOn (Path.components ·.path)) (compareOn (Path.components ·.relative))
    first second).isLE

/-- The sources without those that are the same as the one before. -/
def dropRepeated : List SourceFile → List SourceFile
  | first :: second :: rest =>
    if first.key = second.key then dropRepeated (first :: rest)
    else first :: dropRepeated (second :: rest)
  | sources => sources

/-- The sources in order, each once. -/
def arrange (sources : List SourceFile) : List SourceFile :=
  dropRepeated (sources.mergeSort isAtMost)

end SourceFile

/-- The name of directories that hold packages. -/
def packageDirectory : String := "node_modules"

/-- Whether a name is that of a source with JSX. -/
def isSourceName (name : String) : Bool :=
  match Path.extension? name with
  | some extension => extension = "tsx" || extension = "jsx"
  | none => false

/-- The sources below a directory that is nested at most so deep. -/
def sourcesBelow : (depth : Nat) → (path relative : String) → Action (List SourceFile)
  | 0, _, _ => return []
  | depth + 1, path, relative => do
    let entries ← Action.perform (.listDirectory path)
    let found ← entries.mapM fun entry => do
      let path := Path.join path entry.name
      let relative := Path.join relative entry.name
      if entry.name = packageDirectory then return []
      else if entry.isDirectory then sourcesBelow depth path relative
      else return if isSourceName entry.name then [⟨path, relative⟩] else []
    return found.flatten

/-- More than the number of components of any path: paths have at most 4096 bytes. -/
def maximalDepth : Nat := 2048

/-- The sources that an input stands for. -/
def sourcesOf (input : String) : Action (List SourceFile) := do
  let name? := Path.fileName? input
  if ← Action.perform (.isFile input) then return [⟨input, name?.getD ""⟩]
  else if name? = some packageDirectory then return []
  else sourcesBelow maximalDepth input ""

/-- How a run ends. -/
structure Outcome where
  exitCode : Nat
  output : String := ""
  errors : List String := []
  deriving DecidableEq, Repr, Inhabited

/-- Why a run ends early. -/
inductive Fatal where
  | options (failure : Failure)
  | reading (path : String)
  | creating (path : String)
  | writing (path : String)
  deriving DecidableEq, Repr, Inhabited

/-- The wording of the reason why a run ends early. -/
def Fatal.message : Fatal → String
  | options failure => failure.message
  | reading path => "reading " ++ path
  | creating path => "creating " ++ path
  | writing path => "writing " ++ path

/-- Make the directory that an output goes to. -/
def createDirectory (path : String) : FallibleAction Fatal Unit :=
  .attempt (.perform (.createDirectories path)) fun _ => .creating path

/-- Write the output of a source below a directory. -/
def writeOutput (directory : String) (source : SourceFile) (code : String) :
    FallibleAction Fatal Unit := do
  let target := Path.join directory source.relative
  if let some parent := Path.parent? target then createDirectory parent
  .attempt (.perform (.writeText target code)) fun _ => .writing target

/-- Transform a source. -/
def transformFile (outDir? : Option String) (session : Session) (source : SourceFile) :
    FallibleAction Fatal (SourceOutput × Session) := do
  let text ← FallibleAction.attempt (.perform (.readText source.path))
    fun _ => .reading source.path
  let (output, session) ← ExceptT.lift (session.transformSource source.path text)
  if let some directory := outDir? then writeOutput directory source output.code
  return (output, session)

/-- Transform sources one after the other. -/
def transformFiles (outDir? : Option String) :
    Session → List SourceFile → FallibleAction Fatal (List SourceOutput)
  | _, [] => return []
  | session, source :: rest => do
    let (output, session) ← transformFile outDir? session source
    return output :: (← transformFiles outDir? session rest)

/-- The printed sources; when there are several, each comes after a line that names it. -/
def printed (sources : List SourceFile) (outputs : List SourceOutput) : String :=
  String.join ((sources.zip outputs).map fun (source, output) =>
    if sources.length > 1 then "// " ++ source.path ++ "\n" ++ output.code else output.code)

/-- The last line of a run. -/
def closingLine (outputs : List SourceOutput) : String :=
  toString outputs.length ++ " file(s) scanned, " ++
    toString (outputs.countP (·.instrumented)) ++ " instrumented, " ++
    toString (outputs.flatMap (·.points)).length ++ " tracking point(s), " ++
    toString (outputs.flatMap (·.diagnostics)).length ++ " diagnostic(s)"

/-- Transform the sources that arguments ask for. -/
def transformAll (arguments : Arguments) : FallibleAction Fatal Outcome := do
  let options ← ExceptT.adapt Fatal.options arguments.options
  let found ← ExceptT.lift (arguments.inputs.mapM sourcesOf)
  let sources := SourceFile.arrange found.flatten
  let outputs ← transformFiles arguments.outDir? { options } sources
  return { exitCode := 0
           output := if arguments.outDir?.isSome then "" else printed sources outputs
           errors := [closingLine outputs] }

/-- The version of the program. -/
def versionText : String :=
  "tracking-transform 0.1.0\n"

/-- How the program is used. -/
def helpText : String :=
  "Instrument data-track-show / data-track-click markers in JSX sources\n\n" ++
  "Usage: tracking-transform [OPTIONS] <INPUTS>...\n\n" ++
  "Arguments:\n" ++
  "  <INPUTS>...  Source files or directories (.tsx/.jsx, node_modules skipped)\n\n" ++
  "Options:\n" ++
  "  -o, --out-dir <OUT_DIR>            Write rewritten sources here, mirroring the input layout" ++
  " (default: stdout)\n" ++
  "      --config <CONFIG>              JSON options file, same shape as the plugin config\n" ++
  "      --tracking-dir <TRACKING_DIR>  Directory for manifests and the summary\n" ++
  "      --runtime-url <RUNTIME_URL>    Source of the injected runtime import\n" ++
  "      --no-manifests                 Skip manifest and summary files\n" ++
  "      --output-transformed-files     Also copy rewritten sources into" ++
  " <tracking-dir>/transformed/\n" ++
  "  -h, --help                         Print help\n" ++
  "  -V, --version                      Print version\n"

/-- Run the command line. -/
def run (arguments : List String) : Action Outcome := do
  match Invocation.ofList arguments with
  | .help => return { exitCode := 0, output := helpText }
  | .version => return { exitCode := 0, output := versionText }
  | .misuse misuse => return { exitCode := 2, errors := ["error: " ++ misuse.message] }
  | .transform arguments =>
    match ← (transformAll arguments).run with
    | .ok outcome => return outcome
    | .error fatal => return { exitCode := 1, errors := ["Error: " ++ fatal.message] }

end JsxTracking.CommandLine
