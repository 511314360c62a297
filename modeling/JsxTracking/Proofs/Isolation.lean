import JsxTracking.Host.Store
import JsxTracking.Proofs.Settlement
import JsxTracking.Session

/-! # What a transformed source depends on

A source is transformed against the points that the build has registered so far, and its records are
kept by a host that may answer as it likes. Neither has an influence on the transformed source: the
registry only decides about diagnostics of duplicates (`transformModule_isolated`), and what the host
answers only about diagnostics of records (`Session.always_keepRecords`). Whatever a host may answer
is captured by `Action.Always`, which holds of an action if all its results have a property. -/

namespace JsxTracking

/-- A host answers requests in a state of its own. -/
abbrev Host (σ : Type) := σ → (request : Request) → request.Answer × σ

namespace Action

variable {α β σ : Type}

/-- Run an action on a host. -/
def runOn (host : Host σ) : Action α → σ → α × σ
  | done value, state => (value, state)
  | ask request next, state =>
    let (answer, state) := host state request
    (next answer).runOn host state

/-- A store is a host. -/
theorem run_eq_runOn (action : Action α) (store : Store) :
    action.run store = action.runOn Store.answer store := by
  induction action generalizing store with
  | done value => rfl
  | ask request next ih => exact ih _ _

/-- Whether all results of an action have a property, whatever is answered to it. -/
def Always (property : α → Prop) : Action α → Prop
  | done value => property value
  | ask _ next => ∀ answer, (next answer).Always property

variable {property : α → Prop}

theorem always_of_forall (holds : ∀ value, property value) (action : Action α) :
    action.Always property := by
  induction action with
  | done value => exact holds value
  | ask request next ih => exact fun answer => ih answer

theorem Always.bind {action : Action α} (always : action.Always property)
    {further : β → Prop} {next : α → Action β}
    (onward : ∀ value, property value → (next value).Always further) :
    (action >>= next).Always further := by
  induction action with
  | done value => exact onward value always
  | ask request answered ih => exact fun answer => ih answer (always answer)

/-- What always holds of the results holds on every host. -/
theorem Always.runOn {action : Action α} (always : action.Always property) (host : Host σ)
    (state : σ) : property (action.runOn host state).1 := by
  induction action generalizing state with
  | done value => exact always
  | ask request next ih => exact ih _ (always _) _

end Action

/-- Whether a diagnostic tells neither of duplicates nor of records that could not be kept. -/
def Diagnostic.isOfSource (diagnostic : Diagnostic) : Bool :=
  diagnostic.code ≠ .duplicateKey && diagnostic.code ≠ .manifestIo

/-- The registry only decides which points are reported as duplicates. -/
theorem transformModule_isolated (options : Options) (registry other : Registry) (file : String)
    (source? : Option String) (items : List Tree) :
    let output := (transformModule options registry file source? items).1
    let otherOutput := (transformModule options other file source? items).1
    output.items = otherOutput.items ∧ output.points = otherOutput.points ∧
      output.instrumented = otherOutput.instrumented ∧
      output.diagnostics.filter Diagnostic.isOfSource =
        otherOutput.diagnostics.filter Diagnostic.isOfSource := by
  have settled (registry : Registry) := registry.settle_spec file
    (moduleFindings options file source? items) Diagnostic.isOfSource
    fun diagnostic duplicate => by simp [Diagnostic.isOfSource, duplicate]
  have reported (registry : Registry) :=
    congrArg Prod.fst (transformModule_settles options registry file source? items)
  have points := (settled registry).1.trans (settled other).1.symm
  have diagnostics := (settled registry).2.trans (settled other).2.symm
  rw [reported registry, reported other] at points diagnostics
  refine ⟨?_, points, ?_, diagnostics⟩
  · unfold transformModule
    split <;> rfl
  · unfold transformModule
    split <;> rfl

/-- Outputs agree if they are the same, apart from diagnostics about duplicates and records. -/
structure SourceOutput.Agrees (output other : SourceOutput) : Prop where
  code : output.code = other.code
  instrumented : output.instrumented = other.instrumented
  points : output.points = other.points
  diagnostics : output.diagnostics.filter Diagnostic.isOfSource =
    other.diagnostics.filter Diagnostic.isOfSource

namespace SourceOutput.Agrees

theorem symm {output other : SourceOutput} (agrees : output.Agrees other) : other.Agrees output :=
  ⟨agrees.code.symm, agrees.instrumented.symm, agrees.points.symm, agrees.diagnostics.symm⟩

theorem trans {output other further : SourceOutput} (agrees : output.Agrees other)
    (onward : other.Agrees further) : output.Agrees further :=
  ⟨agrees.code.trans onward.code, agrees.instrumented.trans onward.instrumented,
    agrees.points.trans onward.points, agrees.diagnostics.trans onward.diagnostics⟩

/-- Diagnostics about records may be added. -/
theorem append_records (output : SourceOutput) {records : List Diagnostic}
    (about : ∀ diagnostic ∈ records, diagnostic.code = .manifestIo) :
    Agrees { output with diagnostics := output.diagnostics ++ records } output where
  code := rfl
  instrumented := rfl
  points := rfl
  diagnostics := by
    have dropped : records.filter Diagnostic.isOfSource = [] := by
      apply List.filter_eq_nil_iff.mpr
      intro diagnostic among
      simp [Diagnostic.isOfSource, about diagnostic among]
    rw [List.filter_append, dropped, List.append_nil]

end SourceOutput.Agrees

/-- A failed action on records tells of nothing but records. -/
theorem FallibleAction.always_diagnostics {α : Type} (action : FallibleAction Failure α)
    (file : String) : (action.diagnostics file).Always fun records =>
      ∀ diagnostic ∈ records, ∃ failure : Failure, diagnostic = failure.recordDiagnostic file := by
  refine (Action.always_of_forall (fun _ => trivial) action.run).bind fun result _ => ?_
  cases result with
  | ok value => exact fun diagnostic none => absurd none List.not_mem_nil
  | error failure =>
    intro diagnostic only
    exact ⟨failure, List.mem_singleton.mp only⟩

/-- Bringing records up to date tells of nothing but records. -/
theorem TrackingDirectory.always_update (directory : TrackingDirectory) (file : String)
    (points : List TrackingPoint) : (directory.update file points).Always fun records =>
      ∀ diagnostic ∈ records, ∃ failure : Failure, diagnostic = failure.recordDiagnostic file := by
  unfold update
  split
  · exact FallibleAction.always_diagnostics _ file
  · exact FallibleAction.always_diagnostics _ file

namespace Session

/-- Keeping records tells of nothing but records. -/
theorem always_keepRecords (session : Session) (file : String) (output : SourceOutput) :
    (session.keepRecords file output).Always fun records =>
      ∀ diagnostic ∈ records, ∃ failure : Failure, diagnostic = failure.recordDiagnostic file := by
  unfold keepRecords
  split
  case isFalse => exact fun diagnostic none => absurd none List.not_mem_nil
  case isTrue =>
    refine (session.directory.always_update file output.points).bind fun recorded about => ?_
    split
    case isFalse =>
      intro diagnostic among
      exact about diagnostic (List.append_nil recorded ▸ among)
    case isTrue =>
      refine (FallibleAction.always_diagnostics _ file).bind fun kept more => ?_
      exact fun diagnostic among => (List.mem_append.mp among).elim (about diagnostic) (more diagnostic)

/-- The output for a source, given that for its module. -/
def outputOf (parsed : Source.SourceModule) (source : String) (output : ModuleOutput) :
    SourceOutput where
  code := if output.instrumented then { parsed with items := output.items }.text else source
  diagnostics := output.diagnostics
  points := output.points
  instrumented := output.instrumented

theorem transformText_error {file source : String} {failure : Failure}
    (refused : Source.parse file source = .error failure) (session : Session) :
    session.transformText file source = (.error failure, session) := by
  simp [transformText, refused]

theorem transformText_ok {file source : String} {parsed : Source.SourceModule}
    (accepted : Source.parse file source = .ok parsed) (session : Session) :
    session.transformText file source =
      (.ok (outputOf parsed source
          (session.transformModule file (some source) parsed.items).1),
        (session.transformModule file (some source) parsed.items).2) := by
  simp [transformText, accepted, outputOf]

/-- A module that is transformed with nothing registered gives the same output. -/
theorem agrees_outputOf (options : Options) (registry other : Registry) (file source : String)
    (parsed : Source.SourceModule) :
    (outputOf parsed source
        (transformModule ⟨options, registry⟩ file (some source) parsed.items).1).Agrees
      (outputOf parsed source
        (transformModule ⟨options, other⟩ file (some source) parsed.items).1) := by
  obtain ⟨items, points, instrumented, diagnostics⟩ :=
    transformModule_isolated options registry other file (some source) parsed.items
  refine ⟨?_, instrumented, points, diagnostics⟩
  have code {output otherOutput : ModuleOutput} (items : output.items = otherOutput.items)
      (instrumented : output.instrumented = otherOutput.instrumented) :
      (outputOf parsed source output).code = (outputOf parsed source otherOutput).code := by
    simp only [outputOf, items, instrumented]
  exact code items instrumented

/-- The output for a source with nothing registered, and no records kept of it. -/
def plainOutput (options : Options) (path source : String) : SourceOutput :=
  let file := Path.normalize path
  match Source.parse file source with
  | .ok parsed =>
    outputOf parsed source (transformModule { options } file (some source) parsed.items).1
  | .error failure =>
    { code := source, diagnostics := [failure.transformDiagnostic file], points := []
      instrumented := false }

/-- Whatever is registered and whatever the host answers, the output for a source agrees with the
plain one. -/
theorem always_transformSource (options : Options) (registry : Registry) (path source : String) :
    (transformSource ⟨options, registry⟩ path source).Always fun result =>
      result.1.Agrees (plainOutput options path source) := by
  unfold transformSource plainOutput
  cases parsing : Source.parse (Path.normalize path) source with
  | error failure =>
    simp only [transformText_error parsing, parsing]
    exact (Action.always_of_forall (fun _ => trivial) _).bind fun _ _ => ⟨rfl, rfl, rfl, rfl⟩
  | ok parsed =>
    simp only [transformText_ok parsing, parsing]
    refine (always_keepRecords _ _ _).bind fun records about => ?_
    refine (Action.always_of_forall (fun _ => trivial) _).bind fun _ _ => ?_
    have ofRecords : ∀ diagnostic ∈ records, diagnostic.code = .manifestIo := by
      intro diagnostic among
      obtain ⟨failure, rfl⟩ := about diagnostic among
      rfl
    exact (SourceOutput.Agrees.append_records _ ofRecords).trans
      (agrees_outputOf options registry .empty _ source parsed)

end Session

end JsxTracking
