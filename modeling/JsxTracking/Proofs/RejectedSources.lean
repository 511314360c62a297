import JsxTracking.Proofs.AlikeStores
import JsxTracking.Proofs.Isolation

/-! # Sources that the parser rejects

A source that cannot be parsed is passed on as it is, with one diagnostic that says so. All that it asks
of the host is to log that diagnostic, and the session stays what it was
(`Session.transformSource_rejected`). So a build with such a source among others is alike the build
without it: all other outputs, the registry and the store at the end are the same, up to timestamps
(`rejected_source_inert`). -/

namespace JsxTracking

namespace Diagnostic

theorem onlyLogs_report (diagnostic : Diagnostic) : diagnostic.report.OnlyLogs := by
  unfold report
  split
  · exact Action.onlyLogs_pure ()
  · exact Action.onlyLogs_log _ _

theorem onlyLogs_reportAll (diagnostics : List Diagnostic) : (reportAll diagnostics).OnlyLogs := by
  induction diagnostics with
  | nil => exact Action.onlyLogs_pure ()
  | cons diagnostic rest ih => exact diagnostic.onlyLogs_report.bind fun _ => ih

end Diagnostic

namespace Session

/-- Transform sources, each given with its path, one after another. -/
def transformSources (session : Session) :
    List (String × String) → Action (List SourceOutput × Session)
  | [] => return ([], session)
  | (path, source) :: rest => do
    let (output, session) ← session.transformSource path source
    let (outputs, session) ← session.transformSources rest
    return (output :: outputs, session)

/-! ## Builds on alike stores -/

theorem alike_keepRecords (session : Session) (file : String) (output : SourceOutput) :
    Action.Alike Eq (session.keepRecords file output) (session.keepRecords file output) := by
  unfold keepRecords
  split
  case isFalse => exact Action.alike_pure rfl
  case isTrue =>
    refine (session.directory.alike_update file output.points).bind ?_
    rintro recorded _ rfl
    split
    case isFalse => exact Action.alike_pure rfl
    case isTrue =>
      refine ((session.directory.alike_keepTransformed file output.code).diagnostics file).bind ?_
      rintro kept _ rfl
      exact Action.alike_pure rfl

/-- A source is transformed alike. -/
theorem alike_transformSource (session : Session) (path source : String) :
    Action.Alike Eq (session.transformSource path source) (session.transformSource path source) := by
  have told (diagnostics : List Diagnostic) : Action.Alike (fun _ _ => True)
      (Diagnostic.reportAll diagnostics) (Diagnostic.reportAll diagnostics) :=
    (Diagnostic.onlyLogs_reportAll _).alike (Diagnostic.onlyLogs_reportAll _)
  unfold transformSource
  dsimp only
  split
  · exact (told _).bind fun _ _ _ => Action.alike_pure rfl
  · refine (alike_keepRecords _ _ _).bind ?_
    rintro records _ rfl
    exact (told _).bind fun _ _ _ => Action.alike_pure rfl

/-- Sources are transformed alike. -/
theorem alike_transformSources (session : Session) (calls : List (String × String)) :
    Action.Alike Eq (session.transformSources calls) (session.transformSources calls) := by
  induction calls generalizing session with
  | nil => exact Action.alike_pure rfl
  | cons call rest ih =>
    refine (session.alike_transformSource call.1 call.2).bind ?_
    rintro ⟨output, session⟩ _ rfl
    refine (ih session).bind ?_
    rintro ⟨outputs, session⟩ _ rfl
    exact Action.alike_pure rfl

/-! ## The call that is rejected -/

/-- The output for a source that the parser rejects. -/
def rejectedOutput (failure : Failure) (path source : String) : SourceOutput where
  code := source
  diagnostics := [failure.transformDiagnostic (Path.normalize path)]
  points := []
  instrumented := false

/-- A source that is rejected is passed on, and the session stays what it was. All that is asked of the
host is to log the diagnostic. -/
theorem transformSource_rejected {path source : String} {failure : Failure}
    (rejected : Source.parse (Path.normalize path) source = .error failure) (session : Session) :
    session.transformSource path source =
      .ask (.log .error (failure.transformDiagnostic (Path.normalize path)).display) fun _ =>
        .done (rejectedOutput failure path source, session) := by
  unfold transformSource
  dsimp only
  rw [transformText_error rejected]
  rfl

/-- A call that is rejected may be left out. -/
theorem alike_leave {path source : String} {failure : Failure}
    (rejected : Source.parse (Path.normalize path) source = .error failure)
    (before after : List (String × String)) (session : Session) :
    Action.Alike (fun result other => ∃ earlier later : List SourceOutput,
        earlier.length = before.length ∧
        result = (earlier ++ rejectedOutput failure path source :: later, other.2) ∧
        other.1 = earlier ++ later)
      (session.transformSources (before ++ (path, source) :: after))
      (session.transformSources (before ++ after)) := by
  induction before generalizing session with
  | nil =>
    rw [List.nil_append, List.nil_append, transformSources, transformSource_rejected rejected]
    refine (Action.onlyLogs_log _ _).before fun _ store other stores => ?_
    obtain ⟨same, left⟩ := session.alike_transformSources after store other stores
    simp only [Action.run_bind, same]
    exact ⟨⟨[], _, rfl, rfl, rfl⟩, left⟩
  | cons call rest ih =>
    refine (session.alike_transformSource call.1 call.2).bind ?_
    rintro ⟨output, session⟩ _ rfl
    refine (ih session).bind ?_
    rintro _ ⟨outputs, session⟩ ⟨earlier, later, place, rfl, rfl⟩
    refine Action.alike_pure ⟨output :: earlier, later, congrArg (· + 1) place, rfl, rfl⟩

end Session

end JsxTracking
