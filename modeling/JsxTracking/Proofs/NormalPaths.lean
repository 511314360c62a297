import JsxTracking.Proofs.Isolation
import JsxTracking.Proofs.OutputAgreement
import JsxTracking.Proofs.RecordPaths

/-! # Normal paths

A path is *normal* if no backslash is in it and no scheme at its front; those are the paths that
normalizing leaves as they are (`Path.normalize_eq_self_iff`). Normalizing turns every backslash but drops a
single scheme, so what it gives is normal unless a second scheme follows the first
(`Path.isNormal_normalize_iff`).

A source goes through this more than once. A session normalizes the path that it is given and shows points
and diagnostics under the result (`Session.shows_transformSource`); the tracking directory normalizes
that again and keeps its records under what it gets (`Session.writes_transformSource`). Both are the same
path just in case the given one does not repeat its scheme (`Path.normalize_idempotent_iff`). -/

namespace JsxTracking

variable {ε α β : Type}

/-! ## What normalizing does to a path -/

namespace Path

/-- The scheme of files. -/
def scheme : List Char := "file://".toList

/-- A text with slashes in place of backslashes. -/
def slashed (text : List Char) : List Char :=
  text.map fun c => if c = '\\' then '/' else c

/-- Whether a path starts with the scheme of files. -/
def HasScheme (path : String) : Prop :=
  scheme <+: path.toList

/-- Whether a path starts with the scheme of files twice, in slashes or backslashes. -/
def RepeatsScheme (path : String) : Prop :=
  scheme ++ scheme <+: slashed path.toList

structure IsNormal (path : String) : Prop where
  noBackslash : '\\' ∉ path.toList
  noScheme : ¬ HasScheme path

variable {path : String} {start text rest : List Char}

theorem dropPrefix?_eq_some_iff : dropPrefix? start text = some rest ↔ text = start ++ rest := by
  induction start generalizing text with
  | nil => exact Option.some_inj
  | cons expected start ih =>
    cases text with
    | nil => simp [dropPrefix?]
    | cons c text =>
      rw [dropPrefix?]
      split
      case isTrue same => rw [ih, same, List.cons_append, List.cons.injEq, and_iff_right rfl]
      case isFalse other =>
        constructor
        · intro none
          cases none
        · intro same
          exact absurd (List.cons.inj same).1.symm other

theorem dropPrefix?_eq_none_iff : dropPrefix? start text = none ↔ ¬ start <+: text := by
  rw [Option.eq_none_iff_forall_ne_some]
  constructor
  · rintro none ⟨rest, same⟩
    exact none rest (dropPrefix?_eq_some_iff.mpr same.symm)
  · intro other rest some
    exact other ⟨rest, (dropPrefix?_eq_some_iff.mp some).symm⟩

theorem not_mem_slashed (text : List Char) : '\\' ∉ slashed text := by
  intro among
  obtain ⟨c, -, turned⟩ := List.mem_map.mp among
  split at turned
  case isTrue => exact absurd turned (by decide)
  case isFalse other => exact other turned

theorem slashed_eq_self (none : '\\' ∉ text) : slashed text = text := by
  refine (List.map_congr_left fun c among => ?_).trans (List.map_id text)
  exact if_neg fun same : c = '\\' => none (same ▸ among)

/-- The scheme is dropped from the front, with or without a slash behind it. -/
theorem toList_normalize_of_scheme (schemed : slashed path.toList = scheme ++ rest) :
    (normalize path).toList = rest := by
  unfold slashed at schemed
  have absolute : "file:///".toList = scheme ++ ['/'] := rfl
  have found : dropPrefix? "file://".toList (scheme ++ rest) = some rest :=
    dropPrefix?_eq_some_iff.mpr rfl
  simp only [normalize, schemed, found, absolute]
  split
  case h_1 below dropped =>
    have same := dropPrefix?_eq_some_iff.mp dropped
    rw [List.append_assoc] at same
    rw [String.toList_ofList]
    exact (List.append_cancel_left same).symm
  case h_2 => exact String.toList_ofList

theorem toList_normalize_of_not (schemeless : ¬ scheme <+: slashed path.toList) :
    (normalize path).toList = slashed path.toList := by
  have relative : dropPrefix? "file://".toList (slashed path.toList) = none :=
    dropPrefix?_eq_none_iff.mpr schemeless
  have absolute : dropPrefix? "file:///".toList (slashed path.toList) = none :=
    dropPrefix?_eq_none_iff.mpr fun longer =>
      schemeless ((List.prefix_append scheme ['/']).trans longer)
  unfold slashed at relative absolute ⊢
  simp only [normalize, relative, absolute]
  exact String.toList_ofList

theorem not_mem_normalize (path : String) : '\\' ∉ (normalize path).toList := by
  by_cases schemed : scheme <+: slashed path.toList
  · obtain ⟨rest, same⟩ := schemed
    rw [toList_normalize_of_scheme same.symm]
    intro among
    refine not_mem_slashed path.toList ?_
    rw [← same]
    exact List.mem_append_right _ among
  · rw [toList_normalize_of_not schemed]
    exact not_mem_slashed path.toList

/-- The normal paths are those that normalizing keeps. -/
theorem normalize_eq_self_iff : normalize path = path ↔ IsNormal path := by
  constructor
  · intro same
    have noBackslash := not_mem_normalize path
    rw [same] at noBackslash
    refine ⟨noBackslash, ?_⟩
    rintro ⟨rest, schemed⟩
    -- Otherwise the path would be shorter than itself, by a scheme.
    have shorter := toList_normalize_of_scheme ((slashed_eq_self noBackslash).trans schemed.symm)
    rw [same, ← schemed] at shorter
    exact absurd (List.append_left_eq_self.mp shorter) (by decide)
  · rintro ⟨noBackslash, noScheme⟩
    have slashes := slashed_eq_self noBackslash
    rw [HasScheme, ← slashes] at noScheme
    exact String.ext ((toList_normalize_of_not noScheme).trans slashes)

/-- One scheme is dropped, so there is one left if there were two. -/
theorem hasScheme_normalize_iff : HasScheme (normalize path) ↔ RepeatsScheme path := by
  unfold HasScheme RepeatsScheme
  by_cases schemed : scheme <+: slashed path.toList
  · obtain ⟨rest, same⟩ := schemed
    rw [toList_normalize_of_scheme same.symm, ← same, List.prefix_append_right_inj]
  · rw [toList_normalize_of_not schemed]
    constructor
    · intro impossible
      exact absurd impossible schemed
    · intro twice
      exact absurd ((List.prefix_append scheme scheme).trans twice) schemed

theorem isNormal_normalize_iff : IsNormal (normalize path) ↔ ¬ RepeatsScheme path := by
  rw [← hasScheme_normalize_iff]
  exact ⟨IsNormal.noScheme, fun noScheme => ⟨not_mem_normalize path, noScheme⟩⟩

end Path

/-! ## Under which path a source is shown -/

/-- Whether points and diagnostics show a source under a path. -/
structure ShownAs (file : String) (points : List TrackingPoint) (diagnostics : List Diagnostic) :
    Prop where
  pointed : ∀ point ∈ points, point.file = file
  diagnosed : ∀ diagnostic ∈ diagnostics, diagnostic.file = file

theorem Treatment.file_of_mem_points {treatment : Treatment} {file : String} {point : TrackingPoint}
    (among : point ∈ treatment.points file) : point.file = file := by
  obtain ⟨element, -, marked⟩ := List.mem_flatMap.mp among
  obtain ⟨⟨kind, value⟩, -, rfl⟩ := List.mem_map.mp marked
  rfl

namespace Registry

/-- What is said of a finding is said of the file in which it was found. -/
theorem file_settleOne {file : String} {report : Report} (registry : Registry) (finding : Finding)
    (diagnosed : ∀ diagnostic ∈ report.diagnostics, diagnostic.file = file) :
    ∀ diagnostic ∈ (settleOne file (report, registry) finding).1.diagnostics,
      diagnostic.file = file := by
  intro diagnostic among
  cases finding with
  | problem problem line? =>
    rw [settleOne_problem] at among
    rcases List.mem_append.mp among with earlier | last
    · exact diagnosed diagnostic earlier
    · rw [List.mem_singleton.mp last]
      rfl
  | point point line? =>
    rw [settleOne_point] at among
    rcases List.mem_append.mp among with earlier | last
    · exact diagnosed diagnostic earlier
    · obtain ⟨first, -, rfl⟩ := Option.map_eq_some_iff.mp (Option.mem_toList.mp last)
      rfl

theorem file_settle (registry : Registry) (file : String) (findings : List Finding) :
    ∀ diagnostic ∈ (registry.settle file findings).1.diagnostics, diagnostic.file = file := by
  have further (report : Report) (registry : Registry)
      (diagnosed : ∀ diagnostic ∈ report.diagnostics, diagnostic.file = file) :
      ∀ diagnostic ∈ (findings.foldl (settleOne file) (report, registry)).1.diagnostics,
        diagnostic.file = file := by
    induction findings generalizing report registry with
    | nil => exact diagnosed
    | cons finding rest ih => exact ih _ _ (file_settleOne registry finding diagnosed)
  exact further {} registry fun diagnostic none => absurd none List.not_mem_nil

end Registry

theorem shownAs_transformModule (options : Options) (registry : Registry) (file : String)
    (source? : Option String) (items : List Tree) :
    let output := (transformModule options registry file source? items).1
    ShownAs file output.points output.diagnostics := by
  intro output
  have found := (registry.settle_spec file (moduleFindings options file source? items)
    (fun _ => false) fun _ _ => rfl).1
  have diagnosed := registry.file_settle file (moduleFindings options file source? items)
  rw [transformModule_settles] at found diagnosed
  refine ⟨fun point among => ?_, diagnosed⟩
  replace among : point ∈ (moduleFindings options file source? items).filterMap Finding.point? :=
    found ▸ among
  unfold moduleFindings at among
  split at among
  case isFalse => exact absurd among List.not_mem_nil
  case isTrue =>
    obtain ⟨points, -⟩ := Treatment.findings_points file
      (Woven.treatmentsInItems (weaveModule source? items))
    rw [instrumentModule, points] at among
    obtain ⟨treatment, -, pointed⟩ := List.mem_flatMap.mp among
    exact Treatment.file_of_mem_points pointed

/-- Whatever the host answers, a source is shown under its normalized path. -/
theorem Session.shows_transformSource (session : Session) (path source : String) :
    (session.transformSource path source).Always fun result =>
      ShownAs (Path.normalize path) result.1.points result.1.diagnostics := by
  unfold transformSource
  cases parsing : Source.parse (Path.normalize path) source with
  | error failure =>
    simp only [transformText_error parsing]
    refine (Action.always_of_forall (fun _ => trivial) _).bind fun _ _ => ⟨?_, ?_⟩
    · exact fun point none => absurd none List.not_mem_nil
    · intro diagnostic only
      rw [List.mem_singleton.mp only]
      rfl
  | ok parsed =>
    simp only [transformText_ok parsing]
    have shown := shownAs_transformModule session.options session.registry (Path.normalize path)
      (some source) parsed.items
    refine (always_keepRecords _ _ _).bind fun records about => ?_
    refine (Action.always_of_forall (fun _ => trivial) _).bind fun _ _ => ⟨shown.pointed, ?_⟩
    intro diagnostic among
    rcases List.mem_append.mp among with ofModule | ofRecords
    · exact shown.diagnosed diagnostic ofModule
    · obtain ⟨failure, rfl⟩ := about diagnostic ofRecords
      rfl

/-! ## Under which path a source is recorded -/

namespace Action

/-- Whatever is answered, an action writes to files only what is allowed there. -/
def Writes (allowed : String → String → Prop) : Action α → Prop
  | done _ => True
  | ask request next =>
    (∀ path text, request = .writeText path text → allowed path text) ∧
      ∀ answer, (next answer).Writes allowed

variable {allowed : String → String → Prop}

theorem writes_perform {request : Request}
    (isAllowed : ∀ path text, request = .writeText path text → allowed path text) :
    (perform request).Writes allowed :=
  ⟨isAllowed, fun _ => trivial⟩

theorem Writes.bind {action : Action α} {next : α → Action β} (writes : action.Writes allowed)
    (later : ∀ value, (next value).Writes allowed) : (action >>= next).Writes allowed := by
  induction action with
  | done value => exact later value
  | ask request answered ih => exact ⟨writes.1, fun answer => ih answer (writes.2 answer)⟩

/-- An action that changes no file writes nothing. -/
theorem ChangesOnly.writes {action : Action α} (nothing : action.ChangesOnly []) :
    action.Writes allowed := by
  induction action with
  | done value => trivial
  | ask request answered ih =>
    refine ⟨fun path text writing => ?_, fun answer => ih answer (nothing.2 answer)⟩
    exact absurd (nothing.1 path (by rw [writing]; rfl)) List.not_mem_nil

end Action

namespace FallibleAction

variable {allowed : String → String → Prop}

/-- Whatever is answered, an action that may fail writes to files only what is allowed there. -/
def Writes (allowed : String → String → Prop) (action : FallibleAction ε α) : Prop :=
  Action.Writes allowed action.run

theorem Writes.bind {action : FallibleAction ε α} {next : α → FallibleAction ε β}
    (writes : Writes allowed action) (later : ∀ value, Writes allowed (next value)) :
    Writes allowed (action >>= next) :=
  Action.Writes.bind writes fun result =>
    match result with
    | .ok value => later value
    | .error _ => trivial

theorem writes_attempt {asked : Action (Except HostError α)} (writes : asked.Writes allowed)
    (failure : HostError → ε) : Writes allowed (attempt asked failure) :=
  writes.bind fun _ => trivial

theorem ChangesOnly.writes {action : FallibleAction ε α} (nothing : ChangesOnly [] action) :
    Writes allowed action :=
  Action.ChangesOnly.writes nothing

theorem Writes.diagnostics {action : FallibleAction Failure α} (writes : Writes allowed action)
    (file : String) : (action.diagnostics file).Writes allowed :=
  Action.Writes.bind writes fun result =>
    match result with
    | .ok _ => trivial
    | .error _ => trivial

end FallibleAction

namespace TrackingDirectory

open FallibleAction

/-- What is recorded of a source under its name: its manifest, the summary with that manifest put into
it or with the source dropped from it, and its transformed text. -/
inductive Records (directory : TrackingDirectory) (name : String) : (path text : String) → Prop
  | manifest (manifest : Manifest) (named : manifest.file = name) :
      Records directory name (Path.join directory.path (manifestName name)) manifest.toJson.pretty
  | listed (summary : Summary) (manifest : Manifest) (named : manifest.file = name) :
      Records directory name directory.summaryPath (summary.upsert manifest).toJson.pretty
  | dropped (summary : Summary) (now : String) :
      Records directory name directory.summaryPath (summary.remove name now).toJson.pretty
  | transformed (code : String) :
      Records directory name (Path.join directory.transformedPath (copyName name)) code

variable {directory : TrackingDirectory} {file : String}

theorem writes_write {allowed : String → String → Prop} {path contents : String}
    (isAllowed : allowed path contents) : Writes allowed (write path contents) := by
  refine writes_attempt (Action.writes_perform fun other text same => ?_) _
  obtain ⟨rfl, rfl⟩ := Request.writeText.inj same
  exact isAllowed

theorem writes_changingSummary {allowed : String → String → Prop}
    {change : FallibleAction Failure α} (writes : Writes allowed change) :
    Writes allowed (changingSummary change) := by
  have silent {request : Request} (changed : request.changed? = none) :
      (Action.perform request).Writes allowed :=
    (Action.changesOnly_perform fun path some => by rw [changed] at some; cases some).writes
  refine Action.Writes.bind (silent rfl) fun _ => Action.Writes.bind writes fun _ => ?_
  exact Action.Writes.bind (silent rfl) fun _ => trivial

theorem writes_record (points : List TrackingPoint) :
    Writes (directory.Records (Path.normalize file)) (directory.record file points) := by
  refine changesOnly_create.writes.bind fun _ => (changesOnly_lift_perform rfl).writes.bind fun _ => ?_
  refine (writes_write (.manifest _ rfl)).bind fun _ => ?_
  refine (writes_changingSummary ?_).bind fun _ => changesOnly_pure.writes
  exact changesOnly_readSummary.writes.bind fun summary => writes_write (.listed summary _ rfl)

theorem writes_removeFromSummary :
    Writes (directory.Records (Path.normalize file)) (directory.removeFromSummary file) := by
  refine (changesOnly_lift_perform rfl).writes.bind fun there => ?_
  cases there with
  | false => exact changesOnly_pure.writes
  | true =>
    refine writes_changingSummary (changesOnly_readSummary.writes.bind fun summary => ?_)
    dsimp only
    split
    · refine (changesOnly_lift_perform rfl).writes.bind fun now => ?_
      exact (writes_write (.dropped summary now)).bind fun _ => changesOnly_pure.writes
    · exact changesOnly_pure.writes

/-- Removing a manifest writes nothing. -/
theorem writes_removeManifest {allowed : String → String → Prop} :
    Writes allowed (directory.removeManifest file) := by
  refine changesOnly_holdsManifestOf.writes.bind fun held => ?_
  cases held with
  | false => exact changesOnly_pure.writes
  | true =>
    refine (writes_attempt (Action.writes_perform fun _ _ removing => ?_) _).bind
      fun _ => changesOnly_pure.writes
    cases removing

theorem writes_update (points : List TrackingPoint) :
    (directory.update file points).Writes (directory.Records (Path.normalize file)) := by
  unfold update
  split
  · refine Writes.diagnostics ?_ file
    exact writes_removeManifest.bind fun _ =>
      writes_removeFromSummary.bind fun _ => changesOnly_pure.writes
  · exact (writes_record points).diagnostics file

theorem writes_keepTransformed (code : String) :
    Writes (directory.Records (Path.normalize file)) (directory.keepTransformed file code) := by
  unfold keepTransformed
  split
  · refine changesOnly_create.writes.bind fun _ => ?_
    exact (writes_write (.transformed code)).bind fun _ => changesOnly_pure.writes
  · exact changesOnly_pure.writes

end TrackingDirectory

namespace Session

theorem writes_keepRecords (session : Session) (file : String) (output : SourceOutput) :
    (session.keepRecords file output).Writes
      (session.directory.Records (Path.normalize file)) := by
  unfold keepRecords
  split
  case isFalse => trivial
  case isTrue =>
    refine (TrackingDirectory.writes_update output.points).bind fun _ => ?_
    split
    case isFalse => trivial
    case isTrue =>
      exact ((TrackingDirectory.writes_keepTransformed output.code).diagnostics file).bind
        fun _ => trivial

/-- Whatever the host answers, a source is recorded under the path normalized twice. -/
theorem writes_transformSource (session : Session) (path source : String) :
    (session.transformSource path source).Writes
      (session.directory.Records (Path.normalize (Path.normalize path))) := by
  have options := session.transformText_options (Path.normalize path) source
  unfold transformSource
  dsimp only
  split
  case h_1 => exact (changesOnly_reportAll _).writes.bind fun _ => trivial
  case h_2 output next transformed =>
    rw [transformed] at options
    have same : session.directory = next.directory := by
      unfold directory
      rw [options]
    rw [same]
    exact (next.writes_keepRecords _ _).bind fun _ =>
      (changesOnly_reportAll _).writes.bind fun _ => trivial

end Session

namespace Path

/-- **Normalizing a path twice.** No backslash is left in a normalized path. Normalizing it again changes
nothing, and no scheme is left at its front, just in case the path does not start with two schemes. In
every session and on every host a source is shown under the path normalized once, in points and in
diagnostics, and recorded under the path normalized twice, in manifests and in the summary. -/
theorem normalize_idempotent_iff (path : String) :
    '\\' ∉ (normalize path).toList ∧
      (normalize (normalize path) = normalize path ↔ ¬ RepeatsScheme path) ∧
      (¬ HasScheme (normalize path) ↔ ¬ RepeatsScheme path) ∧
      ∀ (session : Session) (source : String),
        ((session.transformSource path source).Always fun result =>
          ShownAs (normalize path) result.1.points result.1.diagnostics) ∧
        (session.transformSource path source).Writes
          (session.directory.Records (normalize (normalize path))) :=
  ⟨not_mem_normalize path, normalize_eq_self_iff.trans isNormal_normalize_iff,
    not_congr hasScheme_normalize_iff, fun session source =>
      ⟨session.shows_transformSource path source, session.writes_transformSource path source⟩⟩

/-- A page under a path with two schemes: its point tells a path that still has one, and when it is
recorded under that path, the manifest tells another. -/
theorem repeated_scheme_kept :
    let path := "file://file://src/Page.tsx"
    let source := "export const P = () => <a data-track-click='b' />;"
    let session : Session := ⟨{}, .empty⟩
    let store : Store := { clock := fun _ => "1", refusal := "refused" }
    let point : TrackingPoint := ⟨.click, "b", "a", "file://src/Page.tsx", false⟩
    (RepeatsScheme path ∧ HasScheme (normalize path)) ∧
      (normalize path = "file://src/Page.tsx" ∧ normalize (normalize path) = "src/Page.tsx") ∧
      ((session.transformSource path source).run store).1.1.points = [point] ∧
      ∃ after, (session.directory.record (normalize path) [point]).Gives store
        ⟨"src/Page.tsx", "1", [point]⟩ after := by
  intro path source session store point
  have twice : RepeatsScheme path := ⟨"src/Page.tsx".toList, by decide +kernel⟩
  refine ⟨⟨twice, hasScheme_normalize_iff.mpr twice⟩, by decide +kernel, by decide +kernel, ?_⟩
  exact ⟨_, FallibleAction.gives_of_toOption (by decide +kernel)⟩

end Path

end JsxTracking
