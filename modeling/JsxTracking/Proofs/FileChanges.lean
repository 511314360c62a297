import JsxTracking.Proofs.HeldTexts

/-! # What requests change in a store

Where a path leads depends on its components alone: it is the *place* of the path, if the path can be
followed at all. A path of a file that can be followed can be followed for good, since no request
removes a directory (`Store.Leads.answer`). And the file to which it leads stays as it is, unless a
request writes or removes it under some path to the same place (`Store.Leads.file?_answer`). An action
*changes only* some paths if it writes and removes no files but those, whatever it is answered
(`Action.ChangesOnly`); so transforming a source changes only its records
(`Session.changesOnly_transformSource`). -/

namespace JsxTracking

open JsxTracking.Path (components endsInDirectory)

variable {ε α β : Type}

/-- The place to which a path leads. -/
def Path.place (path : String) : List String :=
  (components path).foldl Store.step []

/-- The path of the file that a request writes or removes. -/
def Request.changed? : Request → Option String
  | writeText path _ | removeFile path => some path
  | _ => none

namespace Store

variable {store after : Store} {path : String} {names target : List String}

/-! ## Paths that can be followed -/

/-- What it takes to resolve a path. -/
theorem resolve_eq_ok_iff :
    store.resolve path = .ok names ↔
      path ≠ "" ∧ isUsable path = true ∧ store.follow [] (components path) = .ok names ∧
        (endsInDirectory path = true → store.entry? names = some .directory) := by
  unfold resolve
  by_cases empty : path = ""
  · rw [if_pos empty]
    constructor
    · intro resolved
      cases resolved
    · rintro ⟨nonempty, -⟩
      exact absurd empty nonempty
  rw [if_neg empty]
  cases usable : isUsable path with
  | false =>
    constructor
    · intro resolved
      cases resolved
    · rintro ⟨-, ⟨⟩, -⟩
  | true =>
    cases followed : store.follow [] (components path) with
    | error error =>
      constructor
      · intro resolved
        cases resolved
      · rintro ⟨-, -, ⟨⟩, -⟩
    | ok place =>
      cases ends : endsInDirectory path with
      | false => simp [bind, Except.bind, pure, Except.pure, empty]
      | true =>
        simp only [bind, Except.bind, pure, Except.pure, Bool.not_true, Bool.false_eq_true,
          ↓reduceIte, Except.ok.injEq, empty, forall_const, ne_eq, not_false_eq_true, true_and]
        constructor
        · intro resolved
          split at resolved
          · cases resolved
          · cases resolved
          case h_3 isDirectory =>
            obtain rfl := Except.ok.inj resolved
            exact ⟨rfl, isDirectory⟩
        · rintro ⟨rfl, isDirectory⟩
          rw [isDirectory]

theorem place_of_resolve (resolved : store.resolve path = .ok names) : names = Path.place path :=
  follow_ok (resolve_eq_ok_iff.mp resolved).2.2.1

/-- A path that can be followed to its place, where it may name a file. -/
structure Leads (store : Store) (path : String) : Prop where
  resolved : store.resolve path = .ok (Path.place path)
  isOpen : endsInDirectory path = false

theorem Leads.isReached (leads : store.Leads path) : store.IsReached (Path.place path) :=
  isReached_of_follow isReached_root (resolve_eq_ok_iff.mp leads.resolved).2.2.1

theorem Leads.of_stays (leads : store.Leads path)
    (stays : ∀ place, store.IsReached place → store.entry? place = some .directory →
      after.entry? place = some .directory) : after.Leads path := by
  obtain ⟨nonempty, usable, followed, -⟩ := resolve_eq_ok_iff.mp leads.resolved
  refine ⟨resolve_eq_ok_iff.mpr ⟨nonempty, usable, ?_, fun ends => ?_⟩, leads.isOpen⟩
  · exact follow_of_stays stays isReached_root followed
  · rw [leads.isOpen] at ends
    cases ends

/-- What is read of a path is the text at its place. -/
theorem Leads.readText_iff (leads : store.Leads path) {text : String} :
    store.readText path = .ok text ↔ ∃ bytes, store.file? (Path.place path) = some bytes ∧
      String.fromUTF8? bytes = some text := by
  rw [readText_of_resolve leads.resolved]
  unfold textAt file?
  cases store.entry? (Path.place path) with
  | none => simp
  | some entry =>
    cases entry with
    | directory => simp
    | file bytes => cases decoded : String.fromUTF8? bytes <;> simp [decoded]

/-! ## What a request changes -/

/-- Directories that cannot all be made change no file either. -/
theorem extends_makeDirectoriesFrom (components : List Path.Component) (store : Store)
    (names : List String) : store.Extends (store.makeDirectoriesFrom names components).2 := by
  induction components generalizing store names with
  | nil => exact extends_refl store
  | cons component more ih =>
    rw [makeDirectoriesFrom]
    split
    case isFalse => exact extends_refl store
    case isTrue =>
      split
      case h_1 free => exact (extends_put_directory free).trans (ih _ _)
      case h_2 => exact ih _ _
      case h_3 => exact extends_refl store

theorem extends_makeDirectories (store : Store) (path : String) :
    store.Extends (store.makeDirectories path).2 := by
  unfold makeDirectories
  split
  · exact extends_makeDirectoriesFrom _ store []
  · exact extends_refl store

/-- What is written to a path is written to its place, or nowhere. -/
theorem writeBytes_cases (store : Store) (path : String) (bytes : ByteArray) :
    (∃ error, store.writeBytes path bytes = (.error error, store)) ∨
      store.Leads path ∧ store.entry? (Path.place path) ≠ some .directory ∧
        store.writeBytes path bytes = (.ok (), store.put (Path.place path) (.file bytes)) := by
  unfold writeBytes
  split
  case h_1 error resolved => exact Or.inl ⟨error, rfl⟩
  case h_2 names resolved =>
    obtain rfl := place_of_resolve resolved
    have put (free : store.entry? (Path.place path) ≠ some .directory) : store.Leads path := by
      refine ⟨resolved, Bool.eq_false_iff.mpr fun ends => free ?_⟩
      exact (resolve_eq_ok_iff.mp resolved).2.2.2 ends
    split
    case h_1 => exact Or.inl ⟨_, rfl⟩
    case h_2 _ found =>
      have free : store.entry? (Path.place path) ≠ some .directory := by simp [found]
      exact Or.inr ⟨put free, free, rfl⟩
    case h_3 found =>
      have free : store.entry? (Path.place path) ≠ some .directory := by simp [found]
      exact Or.inr ⟨put free, free, rfl⟩

/-- What is removed from a path is removed from its place. -/
theorem removeFile_cases (store : Store) (path : String) :
    (store.removeFile path).2 = store ∨
      store.entry? (Path.place path) ≠ some .directory ∧
        (store.removeFile path).2 = store.drop (Path.place path) := by
  unfold removeFile
  split
  case h_1 => exact Or.inl rfl
  case h_2 names resolved =>
    obtain rfl := place_of_resolve resolved
    split
    case h_1 _ found => exact Or.inr ⟨by simp [found], rfl⟩
    case h_2 => exact Or.inl rfl
    case h_3 => exact Or.inl rfl

theorem file?_put_of_ne (entry : Entry) (other : names ≠ target) :
    Store.file? (store.put target entry) names = store.file? names := by
  simp only [file?, entry?_put_of_ne entry other]

theorem file?_drop_of_ne (free : store.entry? target ≠ some .directory)
    (reached : store.IsReached names) (other : names ≠ target) :
    Store.file? (store.drop target) names = store.file? names := by
  have apart : ¬ target <+: names := fun below => free (reached target below (Ne.symm other))
  simp only [file?, entry?_drop_of_not_below apart]

/-- No request removes a directory. -/
theorem stays_answer (store : Store) (request : Request) {place : List String}
    (reached : store.IsReached place) (isDirectory : store.entry? place = some .directory) :
    Store.entry? (store.answer request).2 place = some .directory := by
  cases request with
  | createDirectories path => exact (extends_makeDirectories store path).keeps isDirectory
  | writeText path contents =>
    rcases store.writeBytes_cases path contents.toUTF8 with ⟨error, same⟩ | ⟨-, free, same⟩
    · rw [answer, same]
      exact isDirectory
    · rw [answer, same]
      exact stays_put free isDirectory
  | removeFile path =>
    rcases store.removeFile_cases path with same | ⟨free, same⟩
    · rw [answer, same]
      exact isDirectory
    · rw [answer, same]
      exact stays_drop free reached isDirectory
  | _ => exact isDirectory

theorem Leads.answer (leads : store.Leads path) (request : Request) :
    Leads (store.answer request).2 path :=
  leads.of_stays fun _ reached isDirectory => store.stays_answer request reached isDirectory

/-- A file stays as it is unless a request writes or removes it. -/
theorem Leads.file?_answer (leads : store.Leads path) {request : Request}
    (spared : ∀ changed, request.changed? = some changed →
      Path.place changed ≠ Path.place path) :
    Store.file? (store.answer request).2 (Path.place path) = store.file? (Path.place path) := by
  cases request with
  | createDirectories made => exact (extends_makeDirectories store made).file? _
  | writeText changed contents =>
    rcases store.writeBytes_cases changed contents.toUTF8 with ⟨error, same⟩ | ⟨-, free, same⟩
    · rw [Store.answer, same]
    · rw [Store.answer, same]
      exact file?_put_of_ne _ (Ne.symm (spared changed rfl))
  | removeFile changed =>
    rcases store.removeFile_cases changed with same | ⟨free, same⟩
    · rw [Store.answer, same]
    · rw [Store.answer, same]
      exact file?_drop_of_ne free leads.isReached (Ne.symm (spared changed rfl))
  | _ => rfl

end Store

/-! ## What an action changes -/

namespace Action

/-- Whatever is answered, an action writes and removes no files but those at some paths. -/
def ChangesOnly (paths : List String) : Action α → Prop
  | done _ => True
  | ask request next =>
    (∀ path, request.changed? = some path → path ∈ paths) ∧
      ∀ answer, (next answer).ChangesOnly paths

variable {paths others : List String}

theorem changesOnly_perform {request : Request}
    (within : ∀ path, request.changed? = some path → path ∈ paths) :
    (perform request).ChangesOnly paths :=
  ⟨within, fun _ => trivial⟩

theorem ChangesOnly.bind {action : Action α} {next : α → Action β}
    (changes : action.ChangesOnly paths) (later : ∀ value, (next value).ChangesOnly paths) :
    (action >>= next).ChangesOnly paths := by
  induction action with
  | done value => exact later value
  | ask request answered ih => exact ⟨changes.1, fun answer => ih answer (changes.2 answer)⟩

theorem ChangesOnly.mono {action : Action α} (changes : action.ChangesOnly paths)
    (within : paths ⊆ others) : action.ChangesOnly others := by
  induction action with
  | done value => trivial
  | ask request answered ih =>
    exact ⟨fun path changed => within (changes.1 path changed), fun answer =>
      ih answer (changes.2 answer)⟩

end Action

namespace FallibleAction

variable {paths : List String}

/-- An action that may fail writes and removes no files but those at some paths. -/
def ChangesOnly (paths : List String) (action : FallibleAction ε α) : Prop :=
  Action.ChangesOnly paths action.run

theorem changesOnly_pure {value : α} : ChangesOnly paths (pure value : FallibleAction ε α) :=
  trivial

theorem ChangesOnly.bind {action : FallibleAction ε α} {next : α → FallibleAction ε β}
    (changes : ChangesOnly paths action) (later : ∀ value, ChangesOnly paths (next value)) :
    ChangesOnly paths (action >>= next) :=
  Action.ChangesOnly.bind changes fun result =>
    match result with
    | .ok value => later value
    | .error _ => trivial

theorem changesOnly_attempt {asked : Action (Except HostError α)}
    (changes : asked.ChangesOnly paths) (failure : HostError → ε) :
    ChangesOnly paths (attempt asked failure) :=
  changes.bind fun _ => trivial

theorem changesOnly_lift {action : Action α} (changes : action.ChangesOnly paths) :
    ChangesOnly paths (ExceptT.lift action : FallibleAction ε α) :=
  changes.bind fun _ => trivial

/-- A request that writes and removes no file. -/
theorem changesOnly_lift_perform {request : Request} (changed : request.changed? = none) :
    ChangesOnly paths (ExceptT.lift (.perform request) : FallibleAction ε request.Answer) :=
  changesOnly_lift (Action.changesOnly_perform fun path some => by rw [changed] at some; cases some)

theorem ChangesOnly.diagnostics {action : FallibleAction Failure α}
    (changes : ChangesOnly paths action) (file : String) :
    (action.diagnostics file).ChangesOnly paths :=
  Action.ChangesOnly.bind changes fun result =>
    match result with
    | .ok _ => trivial
    | .error _ => trivial

end FallibleAction

open FallibleAction

namespace TrackingDirectory

variable {directory : TrackingDirectory} {paths : List String} {path file : String}

theorem changesOnly_create : ChangesOnly paths (create path) :=
  changesOnly_attempt (Action.changesOnly_perform fun _ changed => by cases changed) _

theorem changesOnly_write (among : path ∈ paths) (contents : String) :
    ChangesOnly paths (write path contents) := by
  refine changesOnly_attempt (Action.changesOnly_perform fun changed same => ?_) _
  obtain rfl : path = changed := Option.some.inj same
  exact among

theorem changesOnly_read? : ChangesOnly paths (read? path) := by
  refine Action.ChangesOnly.bind (Action.changesOnly_perform fun _ changed => by cases changed) ?_
  intro answer
  cases answer <;> trivial

theorem changesOnly_changingSummary {change : FallibleAction Failure α}
    (changes : ChangesOnly paths change) : ChangesOnly paths (changingSummary change) := by
  have silent {request : Request} (changed : request.changed? = none) :
      (Action.perform request).ChangesOnly paths :=
    Action.changesOnly_perform fun path some => by rw [changed] at some; cases some
  refine Action.ChangesOnly.bind (silent rfl) fun _ => Action.ChangesOnly.bind changes fun _ => ?_
  exact Action.ChangesOnly.bind (silent rfl) fun _ => trivial

theorem changesOnly_readSummary : ChangesOnly paths directory.readSummary := by
  refine changesOnly_read?.bind fun text? => ?_
  cases text? with
  | none => exact changesOnly_pure
  | some text =>
    dsimp only
    split
    · exact changesOnly_pure
    · exact (changesOnly_lift_perform rfl).bind fun _ => changesOnly_pure

/-- The paths under which the points of a file are on record. -/
def pointPaths (directory : TrackingDirectory) (file : String) : List String :=
  [directory.summaryPath, directory.manifestPath file]

theorem changesOnly_writeSummary (summary : Summary) :
    ChangesOnly (directory.pointPaths file) (directory.writeSummary summary) :=
  changesOnly_write List.mem_cons_self _

theorem changesOnly_record (points : List TrackingPoint) :
    ChangesOnly (directory.pointPaths file) (directory.record file points) := by
  refine changesOnly_create.bind fun _ => (changesOnly_lift_perform rfl).bind fun _ => ?_
  refine (changesOnly_write (List.mem_cons_of_mem _ List.mem_cons_self) _).bind fun _ => ?_
  refine (changesOnly_changingSummary ?_).bind fun _ => changesOnly_pure
  exact changesOnly_readSummary.bind fun _ => changesOnly_writeSummary _

theorem changesOnly_holdsManifestOf {source : String} :
    ChangesOnly paths (holdsManifestOf path source) := by
  refine changesOnly_read?.bind fun text? => ?_
  cases text? with
  | none => exact changesOnly_pure
  | some text =>
    dsimp only
    split
    · exact changesOnly_pure
    · exact (changesOnly_lift_perform rfl).bind fun _ => changesOnly_pure

theorem changesOnly_removeManifest :
    ChangesOnly (directory.pointPaths file) (directory.removeManifest file) := by
  refine changesOnly_holdsManifestOf.bind fun held => ?_
  cases held with
  | false => exact changesOnly_pure
  | true =>
    refine (changesOnly_attempt (Action.changesOnly_perform fun changed same => ?_) _).bind
      fun _ => changesOnly_pure
    obtain rfl : directory.manifestPath file = changed := Option.some.inj same
    exact List.mem_cons_of_mem _ List.mem_cons_self

theorem changesOnly_removeFromSummary :
    ChangesOnly (directory.pointPaths file) (directory.removeFromSummary file) := by
  refine (changesOnly_lift_perform rfl).bind fun there => ?_
  cases there with
  | false => exact changesOnly_pure
  | true =>
    refine changesOnly_changingSummary (changesOnly_readSummary.bind fun summary => ?_)
    dsimp only
    split
    · refine (changesOnly_lift_perform rfl).bind fun _ => ?_
      exact (changesOnly_writeSummary _).bind fun _ => changesOnly_pure
    · exact changesOnly_pure

/-- Bringing the records of a file up to date changes its manifest and the summary only. -/
theorem changesOnly_update (points : List TrackingPoint) :
    (directory.update file points).ChangesOnly (directory.pointPaths file) := by
  unfold update
  split
  · refine ChangesOnly.diagnostics ?_ file
    exact changesOnly_removeManifest.bind fun _ =>
      changesOnly_removeFromSummary.bind fun _ => changesOnly_pure
  · exact (changesOnly_record points).diagnostics file

/-- The paths under which the transformed source of a file is kept. -/
def copyPaths (directory : TrackingDirectory) (file : String) : List String :=
  if directory.keepsTransformed then [directory.transformedFile file] else []

/-- Keeping a transformed source changes its copy only. -/
theorem changesOnly_keepTransformed (code : String) :
    ChangesOnly (directory.copyPaths file) (directory.keepTransformed file code) := by
  unfold keepTransformed copyPaths
  split
  · refine changesOnly_create.bind fun _ => ?_
    exact (changesOnly_write List.mem_cons_self _).bind fun _ => changesOnly_pure
  · exact changesOnly_pure

end TrackingDirectory

namespace Session

/-- The paths under which a session keeps records of a file. -/
def recordPaths (session : Session) (file : String) : List String :=
  if session.options.emitManifests then
    session.directory.pointPaths file ++ session.directory.copyPaths file
  else []

theorem changesOnly_reportAll {paths : List String} (diagnostics : List Diagnostic) :
    (Diagnostic.reportAll diagnostics).ChangesOnly paths := by
  induction diagnostics with
  | nil => trivial
  | cons diagnostic rest ih =>
    refine Action.ChangesOnly.bind ?_ fun _ => ih
    unfold Diagnostic.report
    split
    · trivial
    · exact Action.changesOnly_perform fun _ changed => by cases changed

theorem changesOnly_keepRecords (session : Session) (file : String) (output : SourceOutput) :
    (session.keepRecords file output).ChangesOnly (session.recordPaths file) := by
  unfold keepRecords recordPaths
  split
  case isFalse => trivial
  case isTrue =>
    have recorded : (session.directory.update file output.points).ChangesOnly _ :=
      session.directory.changesOnly_update output.points
    refine (recorded.mono (List.subset_append_left _ _)).bind fun _ => ?_
    split
    case isFalse => trivial
    case isTrue =>
      have kept : ChangesOnly (session.directory.copyPaths file) _ :=
        session.directory.changesOnly_keepTransformed output.code
      refine ((kept.diagnostics file).mono (List.subset_append_right _ _)).bind fun _ => ?_
      trivial

theorem transformText_options (session : Session) (file source : String) :
    (session.transformText file source).2.options = session.options := by
  unfold transformText
  split <;> rfl

/-- **Transforming a source changes no files but its records.** -/
theorem changesOnly_transformSource (session : Session) (path source : String) :
    (session.transformSource path source).ChangesOnly
      (session.recordPaths (Path.normalize path)) := by
  have options := session.transformText_options (Path.normalize path) source
  unfold transformSource
  dsimp only
  split
  case h_1 => exact (changesOnly_reportAll _).bind fun _ => trivial
  case h_2 output next transformed =>
    rw [transformed] at options
    have same : session.recordPaths = next.recordPaths := by
      unfold recordPaths directory
      rw [options]
    rw [same]
    exact (next.changesOnly_keepRecords _ _).bind fun _ =>
      (changesOnly_reportAll _).bind fun _ => trivial

end Session

end JsxTracking
