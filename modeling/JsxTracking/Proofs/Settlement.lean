import JsxTracking.Transform
import Mathlib.Data.List.Forall2

/-! # Settling findings

A report takes the findings of a module one after another. Each point is registered on the way, and
one that the registry has seen before is reported as a duplicate; nothing else in a report depends on
the registry (`Registry.settle_spec`). What happens to the registry is what happens when the points
of the report are registered one after another, and there is one diagnostic for each call that was
answered with an earlier point (`transformModule_registers`). -/

namespace JsxTracking

namespace Finding

/-- The point that was found. -/
def point? : Finding → Option TrackingPoint
  | point found _ => some found
  | _ => none

/-- What is said of a problem that was found. -/
def diagnostic? (file : String) : Finding → Option Diagnostic
  | problem found line? => some (found.diagnostic file line?)
  | _ => none

@[simp] theorem point?_point (found : TrackingPoint) (line? : Option Nat) :
    (point found line?).point? = some found := rfl

@[simp] theorem point?_problem (found : Problem) (line? : Option Nat) :
    (problem found line?).point? = none := rfl

@[simp] theorem diagnostic?_point (file : String) (found : TrackingPoint) (line? : Option Nat) :
    (point found line?).diagnostic? file = none := rfl

@[simp] theorem diagnostic?_problem (file : String) (found : Problem) (line? : Option Nat) :
    (problem found line?).diagnostic? file = some (found.diagnostic file line?) := rfl

end Finding

/-- The earlier point that a registered point is a duplicate of. -/
def Registration.earlier? : Registration → Option TrackingPoint
  | duplicate first => some first
  | _ => none

namespace Registry

/-- A point that was given to a registry, and the answer. -/
structure Call where
  point : TrackingPoint
  answer : Registration
  deriving DecidableEq, Repr, Inhabited

/-- A call that was answered with an earlier point, and that point. -/
def Call.duplicate? (call : Call) : Option (TrackingPoint × TrackingPoint) :=
  call.answer.earlier?.map (call.point, ·)

/-- Register points one after another. -/
def registerAll (registry : Registry) : List TrackingPoint → List Call × Registry
  | [] => ([], registry)
  | point :: rest =>
    let (answer, registry) := registry.register point
    let (calls, registry) := registry.registerAll rest
    (⟨point, answer⟩ :: calls, registry)

theorem registerAll_cons (registry : Registry) (point : TrackingPoint)
    (rest : List TrackingPoint) :
    registry.registerAll (point :: rest) =
      (⟨point, (registry.register point).1⟩ ::
          ((registry.register point).2.registerAll rest).1,
        ((registry.register point).2.registerAll rest).2) :=
  rfl

theorem registerAll_append (registry : Registry) (front back : List TrackingPoint) :
    registry.registerAll (front ++ back) =
      let registered := registry.registerAll front
      let further := registered.2.registerAll back
      (registered.1 ++ further.1, further.2) := by
  induction front generalizing registry with
  | nil => rfl
  | cons point rest ih => simp only [List.cons_append, registerAll, ih]

theorem map_point_registerAll (registry : Registry) (points : List TrackingPoint) :
    (registry.registerAll points).1.map Call.point = points := by
  induction points generalizing registry with
  | nil => rfl
  | cons point rest ih => simp only [registerAll, List.map_cons, ih]

/-- Diagnostics report calls if those about duplicates are about the calls that were answered with
an earlier point, in order. -/
def Reports (file : String) (calls : List Call) (diagnostics : List Diagnostic) : Prop :=
  List.Forall₂
    (fun diagnostic (point, first) =>
      ∃ line?, diagnostic = (Problem.duplicate point first).diagnostic file line?)
    (diagnostics.filter fun diagnostic => diagnostic.code = .duplicateKey)
    (calls.filterMap Call.duplicate?)

/-- There are as many diagnostics about duplicates as calls answered with an earlier point. -/
theorem Reports.length {file : String} {calls : List Call} {diagnostics : List Diagnostic}
    (reports : Reports file calls diagnostics) :
    (diagnostics.filter fun diagnostic => diagnostic.code = .duplicateKey).length =
      (calls.filterMap Call.duplicate?).length :=
  List.Forall₂.length_eq reports

/-- What is said of a call. -/
def Call.diagnostics (call : Call) (file : String) (line? : Option Nat) : List Diagnostic :=
  (call.answer.earlier?.map fun first =>
    (Problem.duplicate call.point first).diagnostic file line?).toList

theorem Call.reports_diagnostics (call : Call) (file : String) (line? : Option Nat) :
    Reports file [call] (call.diagnostics file line?) := by
  cases answered : call.answer.earlier? with
  | none => simp [Reports, Call.diagnostics, Call.duplicate?, answered]
  | some first =>
    have coded : ((Problem.duplicate call.point first).diagnostic file line?).code =
        .duplicateKey := rfl
    simp [Reports, Call.diagnostics, Call.duplicate?, answered, coded]

theorem Reports.append {file : String} {calls further : List Call}
    {diagnostics more : List Diagnostic} (reports : Reports file calls diagnostics)
    (later : Reports file further more) : Reports file (calls ++ further) (diagnostics ++ more) := by
  unfold Reports
  rw [List.filter_append, List.filterMap_append]
  exact List.rel_append reports later

/-- A problem that is no duplicate reports no call. -/
theorem reports_problem (file : String) {problem : Problem} (other : problem.code ≠ .duplicateKey)
    (line? : Option Nat) : Reports file [] [problem.diagnostic file line?] := by
  have coded : (problem.diagnostic file line?).code = problem.code := rfl
  simp [Reports, coded, other]

theorem settleOne_problem (file : String) (report : Report) (registry : Registry)
    (problem : Problem) (line? : Option Nat) :
    settleOne file (report, registry) (.problem problem line?) =
      ({ report with
          diagnostics := report.diagnostics ++ [problem.diagnostic file line?] }, registry) :=
  rfl

/-- A point is registered, and reported with what the answer has to say. -/
theorem settleOne_point (file : String) (report : Report) (registry : Registry)
    (point : TrackingPoint) (line? : Option Nat) :
    settleOne file (report, registry) (.point point line?) =
      let (answer, after) := registry.register point
      ({ points := report.points ++ [point]
         diagnostics := report.diagnostics ++ (Call.mk point answer).diagnostics file line? },
        after) := by
  simp only [settleOne]
  split
  case h_1 first after answered =>
    simp [answered, Call.diagnostics, Registration.earlier?]
  case h_2 answer after other answered =>
    have unknown : answer.earlier? = none := by
      cases answer with
      | duplicate first => exact absurd rfl (other first)
      | registered | unkeyed => rfl
    simp [answered, Call.diagnostics, unknown]

/-- A finding is reported after the earlier ones, and apart from duplicates the report does not
depend on the registry. -/
theorem settleOne_spec (file : String) (report : Report) (registry : Registry) (finding : Finding)
    (keep : Diagnostic → Bool)
    (drops : ∀ diagnostic : Diagnostic, diagnostic.code = .duplicateKey → keep diagnostic = false) :
    let settled := (settleOne file (report, registry) finding).1
    settled.points = report.points ++ finding.point?.toList ∧
      settled.diagnostics.filter keep =
        report.diagnostics.filter keep ++ (finding.diagnostic? file).toList.filter keep := by
  cases finding with
  | problem found line? => simp [settleOne_problem]
  | point found line? =>
    have dropped : ((Call.mk found (registry.register found).1).diagnostics file line?).filter
        keep = [] := by
      apply List.filter_eq_nil_iff.mpr
      intro diagnostic among
      rw [drops diagnostic]
      · exact Bool.false_ne_true
      · obtain ⟨first, -, rfl⟩ := Option.map_eq_some_iff.mp (Option.mem_toList.mp among)
        rfl
    simp [settleOne_point, dropped]

/-- A report has the points in the order in which they were found, and apart from duplicates it says
what there is to say of the problems, in order. -/
theorem settle_spec (registry : Registry) (file : String) (findings : List Finding)
    (keep : Diagnostic → Bool)
    (drops : ∀ diagnostic : Diagnostic, diagnostic.code = .duplicateKey → keep diagnostic = false) :
    (registry.settle file findings).1.points = findings.filterMap Finding.point? ∧
      (registry.settle file findings).1.diagnostics.filter keep =
        (findings.filterMap (Finding.diagnostic? file)).filter keep := by
  have further (report : Report) : ∀ registry : Registry,
      let settled := (findings.foldl (settleOne file) (report, registry)).1
      settled.points = report.points ++ findings.filterMap Finding.point? ∧
        settled.diagnostics.filter keep = report.diagnostics.filter keep ++
          (findings.filterMap (Finding.diagnostic? file)).filter keep := by
    induction findings generalizing report with
    | nil => simp
    | cons finding rest ih =>
      intro registry
      obtain ⟨points, diagnostics⟩ := settleOne_spec file report registry finding keep drops
      obtain ⟨laterPoints, laterDiagnostics⟩ :=
        ih (settleOne file (report, registry) finding).1 (settleOne file (report, registry) finding).2
      simp only [List.foldl_cons]
      rw [laterPoints, laterDiagnostics, points, diagnostics]
      cases finding with
      | problem found line? => simp [List.filterMap_cons, ← List.filter_append]
      | point found line? => simp [List.filterMap_cons]
  exact further {} registry

/-- Settling findings registers their points in order and reports the calls. -/
theorem settle_registers (registry : Registry) (file : String) {findings : List Finding}
    (unique : ∀ problem line?, .problem problem line? ∈ findings →
      problem.code ≠ .duplicateKey) :
    let settled := registry.settle file findings
    let registered := registry.registerAll (findings.filterMap Finding.point?)
    settled.2 = registered.2 ∧ Reports file registered.1 settled.1.diagnostics := by
  have further (report : Report) : ∀ (registry : Registry) (calls : List Call),
      Reports file calls report.diagnostics →
      let settled := findings.foldl (settleOne file) (report, registry)
      let registered := registry.registerAll (findings.filterMap Finding.point?)
      settled.2 = registered.2 ∧
        Reports file (calls ++ registered.1) settled.1.diagnostics := by
    induction findings generalizing report with
    | nil =>
      intro registry calls reports
      refine ⟨rfl, ?_⟩
      change Reports file (calls ++ []) report.diagnostics
      rwa [List.append_nil]
    | cons finding rest ih =>
      intro registry calls reports
      have later := ih fun problem line? among => unique problem line? (List.mem_cons_of_mem _ among)
      cases finding with
      | problem found line? =>
        have other := unique found line? List.mem_cons_self
        have extended := reports.append (reports_problem file other line?)
        rw [List.append_nil] at extended
        exact later _ registry calls extended
      | point found line? =>
        have extended := reports.append
          ((Call.mk found (registry.register found).1).reports_diagnostics file line?)
        have shown := later
          { points := report.points ++ [found]
            diagnostics := report.diagnostics ++
              (Call.mk found (registry.register found).1).diagnostics file line? }
          (registry.register found).2 _ extended
        simp only [List.append_assoc] at shown
        simp only [List.foldl_cons, settleOne_point]
        exact shown
  exact further {} registry [] List.Forall₂.nil

end Registry

/-- What is found of an element is no duplicate; that is only known when its points are
registered. -/
theorem Treatment.findings_not_duplicate {treatment : Treatment} {file : String}
    {problem : Problem} {line? : Option Nat}
    (found : .problem problem line? ∈ treatment.findings file) : problem.code ≠ .duplicateKey := by
  obtain ⟨elementName, elementLine?, markers, outcome⟩ := treatment
  simp only [findings] at found
  rcases List.mem_append.mp found with missing | placed
  · obtain ⟨kind, -, same⟩ := List.mem_map.mp missing
    cases same
    exact DiagnosticCode.noConfusion
  · cases outcome with
    | plain => cases placed
    | refused reason =>
      cases List.mem_singleton.mp placed
      exact DiagnosticCode.noConfusion
    | instrumented allocation position shared =>
      rcases List.mem_append.mp placed with noted | pointed
      · rcases List.mem_append.mp noted with clashing | sharing
        · split at clashing
          · cases clashing
          · cases List.mem_singleton.mp clashing
            exact DiagnosticCode.noConfusion
        · split at sharing
          · cases List.mem_singleton.mp sharing
            exact DiagnosticCode.noConfusion
          · cases sharing
      · obtain ⟨marker, -, same⟩ := List.mem_map.mp pointed
        cases same

/-- What is found in a module: nothing, if it has no markers. -/
def moduleFindings (options : Options) (file : String) (source? : Option String)
    (items : List Tree) : List Finding :=
  if Tree.hasMarkersInItems items then (instrumentModule options file source? items).findings
  else []

theorem moduleFindings_not_duplicate {options : Options} {file : String} {source? : Option String}
    {items : List Tree} {problem : Problem} {line? : Option Nat}
    (found : .problem problem line? ∈ moduleFindings options file source? items) :
    problem.code ≠ .duplicateKey := by
  unfold moduleFindings at found
  split at found
  · obtain ⟨treatment, -, among⟩ := List.mem_flatMap.mp found
    exact Treatment.findings_not_duplicate among
  · cases found

/-- The report on a module settles what is found in it. -/
theorem transformModule_settles (options : Options) (registry : Registry) (file : String)
    (source? : Option String) (items : List Tree) :
    let transformed := transformModule options registry file source? items
    registry.settle file (moduleFindings options file source? items) =
      (⟨transformed.1.points, transformed.1.diagnostics⟩, transformed.2) := by
  unfold transformModule moduleFindings
  split <;> rfl

/-- Transforming a module registers its points in order, and reports one duplicate for each point that
the registry knows already. -/
theorem transformModule_registers (options : Options) (registry : Registry) (file : String)
    (source? : Option String) (items : List Tree) :
    let transformed := transformModule options registry file source? items
    let registered := registry.registerAll transformed.1.points
    transformed.2 = registered.2 ∧
      Registry.Reports file registered.1 transformed.1.diagnostics := by
  have settles := transformModule_settles options registry file source? items
  have registers := registry.settle_registers file fun problem line? found =>
    moduleFindings_not_duplicate (found : _ ∈ moduleFindings options file source? items)
  have points := (registry.settle_spec file (moduleFindings options file source? items)
    (fun _ => false) fun _ _ => rfl).1
  rw [settles] at points registers
  rw [← points] at registers
  exact registers

end JsxTracking
