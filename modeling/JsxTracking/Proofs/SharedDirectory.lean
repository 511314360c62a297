import JsxTracking.Proofs.RecordBook
import JsxTracking.Proofs.Threads
import Mathlib.Data.List.Perm.Subperm

/-! # A tracking directory shared by threads

Threads that share a tracking directory record and retract the points of files at the same time, each
of a file of its own. Only the change of the summary is made while no one else changes it; writing and
removing manifests and asking whether there is a summary may come at any time between the requests of
others. Each thread has a view of the records: the manifest of its file, what the summary lists of it
and, while it holds the summary, all of the summary. The book that the directory holds is what the
views say (`Shared`), and a thread changes nothing of it but its own part (`Shared.putManifest?`,
`Shared.putSummary`). So no call is lost, whatever the schedule (`shared_records_agree`). -/

namespace JsxTracking

variable {ε α β V : Type}

/-! ## Requests of a thread -/

/-- The action makes one request, which has nothing to do with holding the summary. -/
def Action.IsSingle (action : Action α) : Prop :=
  ∃ (request : Request) (next : request.Answer → α),
    (∀ held, request.turn held = some held) ∧ action = ask request fun answer => done (next answer)

theorem Action.IsSingle.turns {action : Action α} (single : action.IsSingle) (held : Bool) :
    action.Turns held held := by
  obtain ⟨request, next, idle, rfl⟩ := single
  exact ⟨held, idle held, fun _ => rfl⟩

/-- A request that has nothing to do with holding the summary is answered at once. -/
theorem Threads.answer?_of_idle {request : Request} (idle : ∀ held, request.turn held = some held)
    (thread : Nat) (holder? : Option Nat) (store : Store) :
    answer? thread holder? store request =
      some ((store.answer request).1, holder?, (store.answer request).2) := by
  cases request with
  | holdSummary => exact absurd (idle true) (by decide)
  | releaseSummary => exact absurd (idle false) (by decide)
  | _ => rfl

namespace FallibleAction

variable {describe : (Nat → V) → Option Nat → Store → Prop} {thread : Nat} {view : V}

/-- A single request keeps to a view if its success does. -/
theorem keeps_of_single {action : FallibleAction ε α} {after : α → V → Prop}
    (single : Action.IsSingle action.run)
    (step : ∀ views holder? store, describe views holder? store → views thread = view →
      ∀ value later, action.Gives store value later →
        ∃ changed, describe (Function.update views thread changed) holder? later ∧
          after value changed) : Keeps describe thread action view after := by
  obtain ⟨request, next, idle, whole⟩ := single
  rw [Keeps, whole]
  intro views holder? store described same answer later? later answered
  rw [Threads.answer?_of_idle idle] at answered
  cases answered
  cases outcome : next (store.answer request).1 with
  | error error =>
    left
    change Action.Fails (.done (next (store.answer request).1))
    rw [outcome]
    trivial
  | ok value =>
    have gives : action.Gives store value (store.answer request).2 := by
      rw [Gives, whole]
      exact congrArg (·, (store.answer request).2) outcome
    obtain ⟨changed, there, final⟩ := step views holder? store described same value _ gives
    refine .inr ⟨changed, there, ?_⟩
    change Action.Keeps describe thread (.done (next (store.answer request).1)) changed after
    rw [outcome]
    exact final

end FallibleAction

namespace TrackingDirectory

open FallibleAction

variable {path : String}

theorem isSingle_create : Action.IsSingle (create path).run :=
  ⟨_, _, fun _ => rfl, rfl⟩

theorem isSingle_write {contents : String} : Action.IsSingle (write path contents).run :=
  ⟨_, _, fun _ => rfl, rfl⟩

theorem isSingle_remove {failure : HostError → Failure} :
    Action.IsSingle (attempt (.perform (.removeFile path)) failure).run :=
  ⟨_, _, fun _ => rfl, rfl⟩

/-- What reading a file that may be missing gives. -/
def textIfPresent (path : String) : Except HostError String → Except Failure (Option String)
  | .ok text => .ok (some text)
  | .error error => if error.notFound then .ok none else .error (failedOn path error)

theorem isSingle_read? : Action.IsSingle (read? path).run := by
  refine ⟨.readText path, textIfPresent path, fun _ => rfl, ?_⟩
  refine congrArg (Action.ask (.readText path)) (funext fun answer => ?_)
  cases answer <;> rfl

theorem isSingle_now : Action.IsSingle now.run :=
  ⟨_, _, fun _ => rfl, rfl⟩

theorem isSingle_pathExists :
    Action.IsSingle (ExceptT.lift (.perform (.pathExists path)) : FallibleAction Failure Bool).run :=
  ⟨_, _, fun _ => rfl, rfl⟩

/-- Changing the summary takes a turn if the change has nothing to do with holding it. -/
theorem turns_changingSummary {change : FallibleAction Failure α}
    (idle : Action.Turns true true change.run) :
    Action.Turns false false (changingSummary change).run := by
  refine ⟨true, rfl, fun _ => ?_⟩
  exact idle.bind fun result => ⟨false, rfl, fun _ => rfl⟩

end TrackingDirectory

/-! ## Calls of a thread -/

/-- A call on the records of a file. -/
inductive RecordCall where
  /-- Record the points of the file. -/
  | record (points : List TrackingPoint)
  /-- Remove what is recorded of the file. -/
  | retract
  deriving DecidableEq, Repr, Inhabited

namespace RecordCall

/-- The points that the call leaves on record, if it leaves the file on record. -/
def left? : RecordCall → Option (List TrackingPoint)
  | record points => some points
  | retract => none

/-- Make the call. -/
def perform (directory : TrackingDirectory) (file : String) :
    RecordCall → FallibleAction Failure Unit
  | record points => do
    let _ ← directory.record file points
  | retract => do
    let _ ← directory.retract file

end RecordCall

/-- A thread that keeps the records of a file. -/
structure Recorder where
  file : String
  calls : List RecordCall
  deriving DecidableEq, Repr, Inhabited

namespace Recorder

/-- The path that stands for the file in the records. -/
def source (recorder : Recorder) : String :=
  Path.normalize recorder.file

/-- The points that the last call leaves on record. -/
def left? (recorder : Recorder) : Option (List TrackingPoint) :=
  recorder.calls.getLast?.bind RecordCall.left?

/-- The largest number of points that a call leaves on record. -/
def most (recorder : Recorder) : Nat :=
  (recorder.calls.map fun call => (call.left?.getD []).length).foldr max 0

/-- Make calls one after another. -/
def performAll (directory : TrackingDirectory) (file : String) :
    List RecordCall → FallibleAction Failure Unit
  | [] => return
  | call :: rest => do
    call.perform directory file
    performAll directory file rest

/-- What the thread does. -/
def program (directory : TrackingDirectory) (recorder : Recorder) : FallibleAction Failure Unit :=
  performAll directory recorder.file recorder.calls

theorem length_le_most {recorder : Recorder} {points : List TrackingPoint}
    (called : .record points ∈ recorder.calls) : points.length ≤ recorder.most := by
  have bounded (sizes : List Nat) : ∀ size ∈ sizes, size ≤ sizes.foldr max 0 := by
    induction sizes with
    | nil => simp
    | cons first rest ih =>
      intro size among
      rcases List.mem_cons.mp among with rfl | among
      · exact Nat.le_max_left _ _
      · exact (ih size among).trans (Nat.le_max_right _ _)
  exact bounded _ _ (List.mem_map.mpr ⟨_, called, rfl⟩)

/-- No two recorders share the place of their manifest. -/
def AreApart (recorders : List Recorder) : Prop :=
  (recorders.map fun recorder => TrackingDirectory.manifestName recorder.source).Nodup

theorem AreApart.same {recorders : List Recorder} (apart : AreApart recorders) {thread other : Nat}
    {recorder theirs : Recorder} (here : recorders[thread]? = some recorder)
    (there : recorders[other]? = some theirs)
    (shares : TrackingDirectory.manifestName theirs.source =
      TrackingDirectory.manifestName recorder.source) : other = thread := by
  have inside := (List.getElem?_eq_some_iff.mp there).1
  refine (List.getElem?_inj (by simpa using inside) apart).mp ?_
  rw [List.getElem?_map, List.getElem?_map, here, there, Option.map_some, Option.map_some, shares]

end Recorder

/-! ## What threads know of the records -/

/-- What a thread knows of the records. -/
structure RecordView where
  /-- The manifest of its file. -/
  manifest? : Option Manifest := none
  /-- What the summary lists of its file. -/
  listed? : Option Manifest := none
  /-- The summary, while the thread holds it. -/
  held? : Option (Option Summary) := none
  /-- Whether the thread has yet to list the manifest that it writes. -/
  underway : Bool := false
  deriving DecidableEq, Inhabited

open TrackingDirectory FallibleAction

/-- A directory that is shared by recorders holds a book, and every thread knows its part of it. -/
structure Shared (directory : TrackingDirectory) (recorders : List Recorder) (start : Store)
    (book : Book) (views : Nat → RecordView) (holder? : Option Nat) (store : Store) : Prop where
  holds : directory.Holds book.texts store
  /-- Every thread knows the manifest of its file, and there are no others. -/
  written : ∀ thread recorder, recorders[thread]? = some recorder →
    book.manifest? (manifestName recorder.source) = (views thread).manifest?
  placed : ∀ name, book.manifest? name ≠ none →
    ∃ recorder ∈ recorders, name = manifestName recorder.source
  /-- Every thread knows what is listed of its file, and nothing else is listed. -/
  listed : ∀ thread recorder, recorders[thread]? = some recorder →
    ∀ manifest, manifest ∈ book.files ∧ manifest.file = recorder.source ↔
      (views thread).listed? = some manifest
  owned : ∀ manifest ∈ book.files, ∃ recorder ∈ recorders,
    manifest.file = recorder.source ∧ manifest.tracking.length ≤ recorder.most
  once : (book.files.map Manifest.file).Nodup
  total : ∀ summary, book.summary? = some summary →
    summary.totalTracking = (summary.files.flatMap Manifest.tracking).length
  /-- The thread that holds the summary knows it. -/
  held : ∀ thread summary?, (views thread).held? = some summary? →
    holder? = some thread ∧ book.summary? = summary?
  /-- Before anything is listed, nothing is changed except by threads that will list something. -/
  untouched : book.summary? = none →
    (∀ thread < recorders.length, (views thread).underway = false) → store = start

/-- A tracking directory is described by the views of its recorders. -/
def IsShared (directory : TrackingDirectory) (recorders : List Recorder) (start : Store)
    (views : Nat → RecordView) (holder? : Option Nat) (store : Store) : Prop :=
  ∃ book, Shared directory recorders start book views holder? store

/-- What is the same in the changed view of a thread is the same in all views. -/
theorem update_view {γ : Type} {views : Nat → V} {thread : Nat} {changed : V} (part : V → γ)
    (same : part changed = part (views thread)) (other : Nat) :
    part (Function.update views thread changed other) = part (views other) := by
  by_cases own : other = thread
  · subst own
    rw [Function.update_self, same]
  · rw [Function.update_of_ne own]

/-- Manifests that are each of another recorder have no more points than these may record. -/
theorem sum_points_le {files : List Manifest} {recorders : List Recorder}
    (once : (files.map Manifest.file).Nodup)
    (owned : ∀ manifest ∈ files, ∃ recorder ∈ recorders,
      manifest.file = recorder.source ∧ manifest.tracking.length ≤ recorder.most) :
    (files.flatMap Manifest.tracking).length ≤ (recorders.map Recorder.most).sum := by
  induction files generalizing recorders with
  | nil => exact Nat.zero_le _
  | cons first rest ih =>
    rw [List.map_cons, List.nodup_cons] at once
    obtain ⟨recorder, among, own, small⟩ := owned first List.mem_cons_self
    have further : (rest.flatMap Manifest.tracking).length ≤
        ((recorders.erase recorder).map Recorder.most).sum := by
      refine ih once.2 fun manifest later => ?_
      obtain ⟨other, there, theirs, few⟩ := owned manifest (List.mem_cons_of_mem _ later)
      have differs : other ≠ recorder := by
        rintro rfl
        exact once.1 (List.mem_map.mpr ⟨manifest, later, theirs.trans own.symm⟩)
      exact ⟨other, (List.mem_erase_of_ne differs).mpr there, theirs, few⟩
    rw [List.flatMap_cons, List.length_append]
    calc first.tracking.length + (rest.flatMap Manifest.tracking).length
        ≤ recorder.most + ((recorders.erase recorder).map Recorder.most).sum :=
          Nat.add_le_add small further
      _ = (recorders.map Recorder.most).sum :=
          (((List.perm_cons_erase among).map Recorder.most).sum_nat).symm

namespace Shared

variable {directory : TrackingDirectory} {recorders : List Recorder} {start store later : Store}
  {book : Book} {views : Nat → RecordView} {holder? later? : Option Nat} {thread : Nat}
  {recorder : Recorder}

/-- The number of points that are listed is bounded. -/
theorem fits (shared : Shared directory recorders start book views holder? store)
    (bounded : (recorders.map Recorder.most).sum < 2 ^ 64) {summary : Summary}
    (recorded : book.summary? = some summary) : summary.totalTracking < 2 ^ 64 := by
  have files : book.files = summary.files := by simp [Book.files, recorded]
  refine lt_of_le_of_lt ?_ bounded
  rw [shared.total summary recorded, ← files]
  exact sum_points_le shared.once shared.owned

/-- A thread goes on without changing what its view tells of the records. -/
theorem goOn (shared : Shared directory recorders start book views holder? store)
    (inside : thread < recorders.length) {changed : RecordView}
    (sameManifest : changed.manifest? = (views thread).manifest?)
    (sameListed : changed.listed? = (views thread).listed?)
    (holds : directory.Holds book.texts later)
    (held : ∀ other summary?, (Function.update views thread changed other).held? = some summary? →
      later? = some other ∧ book.summary? = summary?)
    (untouched : book.summary? = none → changed.underway = false →
      (∀ other < recorders.length, other ≠ thread → (views other).underway = false) →
      later = start) :
    Shared directory recorders start book (Function.update views thread changed) later? later where
  holds := holds
  written other recorder here := by
    rw [update_view RecordView.manifest? sameManifest]
    exact shared.written other recorder here
  placed := shared.placed
  listed other recorder here := by
    rw [update_view RecordView.listed? sameListed]
    exact shared.listed other recorder here
  owned := shared.owned
  once := shared.once
  total := shared.total
  held := held
  untouched unlisted idle := by
    refine untouched unlisted ?_ fun other there differs => ?_
    · have own := idle thread inside
      rwa [Function.update_self] at own
    · have others := idle other there
      rwa [Function.update_of_ne differs] at others

/-- A thread makes the directory or reads the clock. -/
theorem prepare (shared : Shared directory recorders start book views holder? store)
    (inside : thread < recorders.length) {changed : RecordView}
    (sameManifest : changed.manifest? = (views thread).manifest?)
    (sameListed : changed.listed? = (views thread).listed?)
    (sameHeld : changed.held? = (views thread).held?)
    (holds : directory.Holds book.texts later)
    (noticed : book.summary? = none → changed.underway = true) :
    Shared directory recorders start book (Function.update views thread changed) holder? later := by
  refine shared.goOn inside sameManifest sameListed holds (fun other summary? holding => ?_)
    fun unlisted idle => ?_
  · rw [update_view RecordView.held? sameHeld] at holding
    exact shared.held other summary? holding
  · rw [noticed unlisted] at idle
    cases idle

/-- A thread begins to hold the summary. -/
theorem hold (shared : Shared directory recorders start book views none store)
    (inside : thread < recorders.length) {changed : RecordView}
    (sameManifest : changed.manifest? = (views thread).manifest?)
    (sameListed : changed.listed? = (views thread).listed?)
    (sameUnderway : changed.underway = (views thread).underway)
    (known : changed.held? = some book.summary?) :
    Shared directory recorders start book (Function.update views thread changed) (some thread)
      store := by
  refine shared.goOn inside sameManifest sameListed shared.holds (fun other summary? holding => ?_)
    fun unlisted idle others => shared.untouched unlisted fun other there => ?_
  · by_cases own : other = thread
    · subst own
      rw [Function.update_self, known] at holding
      exact ⟨rfl, Option.some.inj holding⟩
    · rw [Function.update_of_ne own] at holding
      exact absurd (shared.held other summary? holding).1 (by simp)
  · by_cases own : other = thread
    · rw [own, ← sameUnderway, idle]
    · exact others other there own

/-- A thread lets others have the summary. -/
theorem release (shared : Shared directory recorders start book views holder? store)
    (inside : thread < recorders.length) (holding : (views thread).held? ≠ none)
    {changed : RecordView} (sameManifest : changed.manifest? = (views thread).manifest?)
    (sameListed : changed.listed? = (views thread).listed?)
    (sameUnderway : changed.underway = (views thread).underway) (unknown : changed.held? = none) :
    Shared directory recorders start book (Function.update views thread changed) none store := by
  obtain ⟨known?, known⟩ := Option.ne_none_iff_exists'.mp holding
  have first := (shared.held thread known? known).1
  refine shared.goOn inside sameManifest sameListed shared.holds (fun other summary? theirs => ?_)
    fun unlisted idle others => shared.untouched unlisted fun other there => ?_
  · by_cases own : other = thread
    · rw [own, Function.update_self, unknown] at theirs
      cases theirs
    · rw [Function.update_of_ne own] at theirs
      have second := (shared.held other summary? theirs).1
      exact absurd (Option.some.inj (second.symm.trans first)) own
  · by_cases own : other = thread
    · rw [own, ← sameUnderway, idle]
    · exact others other there own

/-- A thread puts or removes the manifest of its file. -/
theorem putManifest? (shared : Shared directory recorders start book views holder? store)
    (apart : Recorder.AreApart recorders) (here : recorders[thread]? = some recorder)
    {changed : RecordView}
    (sameListed : changed.listed? = (views thread).listed?)
    (sameHeld : changed.held? = (views thread).held?)
    (holds : directory.Holds
      { book with
        manifest? := Function.update book.manifest? (manifestName recorder.source)
          changed.manifest? }.texts later)
    (noticed : book.summary? = none → changed.underway = true) :
    Shared directory recorders start
      { book with
        manifest? := Function.update book.manifest? (manifestName recorder.source) changed.manifest? }
      (Function.update views thread changed) holder? later where
  holds := holds
  written other theirs there := by
    dsimp only
    by_cases own : other = thread
    · subst own
      obtain rfl := Option.some.inj (here.symm.trans there)
      rw [Function.update_self, Function.update_self]
    · have differs : manifestName theirs.source ≠ manifestName recorder.source :=
        fun shares => own (apart.same here there shares)
      rw [Function.update_of_ne own, Function.update_of_ne differs]
      exact shared.written other theirs there
  placed name found := by
    dsimp only at found
    by_cases own : name = manifestName recorder.source
    · exact ⟨recorder, List.mem_of_getElem? here, own⟩
    · rw [Function.update_of_ne own] at found
      exact shared.placed name found
  listed other theirs there := by
    rw [update_view RecordView.listed? sameListed]
    exact shared.listed other theirs there
  owned := shared.owned
  once := shared.once
  total := shared.total
  held other summary? holding := by
    rw [update_view RecordView.held? sameHeld] at holding
    exact shared.held other summary? holding
  untouched unlisted idle := by
    have own := idle thread (List.getElem?_eq_some_iff.mp here).1
    rw [Function.update_self, noticed unlisted] at own
    cases own

/-- A thread that holds the summary changes what is listed of its file. -/
theorem putSummary (shared : Shared directory recorders start book views holder? store)
    (apart : Recorder.AreApart recorders) (here : recorders[thread]? = some recorder)
    (holding : (views thread).held? ≠ none) {summary : Summary} {changed : RecordView}
    (sameManifest : changed.manifest? = (views thread).manifest?)
    (known : changed.held? = some (some summary))
    (holds : directory.Holds { book with summary? := some summary }.texts later)
    (others : ∀ manifest, manifest.file ≠ recorder.source →
      (manifest ∈ summary.files ↔ manifest ∈ book.files))
    (own : ∀ manifest, manifest ∈ summary.files ∧ manifest.file = recorder.source ↔
      changed.listed? = some manifest)
    (small : ∀ manifest, changed.listed? = some manifest →
      manifest.tracking.length ≤ recorder.most)
    (once : (summary.files.map Manifest.file).Nodup)
    (total : summary.totalTracking = (summary.files.flatMap Manifest.tracking).length) :
    Shared directory recorders start { book with summary? := some summary }
      (Function.update views thread changed) holder? later where
  holds := holds
  written other theirs there := by
    rw [update_view RecordView.manifest? sameManifest]
    exact shared.written other theirs there
  placed := shared.placed
  listed other theirs there manifest := by
    change manifest ∈ summary.files ∧ _ ↔ _
    by_cases same : other = thread
    · subst same
      obtain rfl := Option.some.inj (here.symm.trans there)
      rw [Function.update_self]
      exact own manifest
    · rw [Function.update_of_ne same, ← shared.listed other theirs there manifest]
      refine and_congr_left fun file => others manifest ?_
      rw [file]
      exact fun shares => same (apart.same here there (congrArg manifestName shares))
  owned manifest among := by
    by_cases file : manifest.file = recorder.source
    · have few := small manifest ((own manifest).mp ⟨among, file⟩)
      exact ⟨recorder, List.mem_of_getElem? here, file, few⟩
    · exact shared.owned manifest ((others manifest file).mp among)
  once := once
  total past same := by
    obtain rfl := Option.some.inj same
    exact total
  held other summary? theirs := by
    obtain ⟨known?, holding⟩ := Option.ne_none_iff_exists'.mp holding
    have first := (shared.held thread known? holding).1
    by_cases same : other = thread
    · subst same
      rw [Function.update_self, known] at theirs
      exact ⟨first, Option.some.inj theirs⟩
    · rw [Function.update_of_ne same] at theirs
      have second := (shared.held other summary? theirs).1
      exact absurd (Option.some.inj (second.symm.trans first)) same
  untouched unlisted := by cases unlisted

end Shared

/-! ## Keeping to a view -/

section Keeping

variable {directory : TrackingDirectory} {recorders : List Recorder} {start : Store} {thread : Nat}
  {recorder : Recorder} {manifest? listed? : Option Manifest} {held? : Option (Option Summary)}
  {underway : Bool}

/-- The action of a thread keeps to its view of a shared directory. -/
abbrev KeepsRecords (directory : TrackingDirectory) (recorders : List Recorder) (start : Store)
    (thread : Nat) (action : FallibleAction Failure α) (view : RecordView)
    (after : α → RecordView → Prop) : Prop :=
  Keeps (IsShared directory recorders start) thread action view after

/-- A request that changes nothing keeps to every view. -/
theorem keeps_look {action : FallibleAction Failure α} {view : RecordView} {after : α → Prop}
    (single : Action.IsSingle action.run)
    (look : ∀ book views holder? store,
      Shared directory recorders start book views holder? store → views thread = view →
      ∀ value later, action.Gives store value later → later = store ∧ after value) :
    KeepsRecords directory recorders start thread action view fun value changed =>
      changed = view ∧ after value := by
  refine keeps_of_single single fun views holder? store ⟨book, shared⟩ same value later gives => ?_
  obtain ⟨rfl, found⟩ := look book views holder? store shared same value later gives
  refine ⟨view, ⟨book, ?_⟩, rfl, found⟩
  rwa [← same, Function.update_eq_self]

theorem keeps_create (inside : thread < recorders.length) :
    KeepsRecords directory recorders start thread (create directory.path)
      ⟨manifest?, listed?, held?, underway⟩ fun _ changed =>
        changed = ⟨manifest?, listed?, held?, true⟩ := by
  refine keeps_of_single isSingle_create
    fun views holder? store ⟨book, shared⟩ same value later gives => ⟨_, ⟨book, ?_⟩, rfl⟩
  exact shared.prepare inside (by rw [same]) (by rw [same]) (by rw [same]) (shared.holds.create gives)
    fun _ => rfl

/-- The clock is only read by a thread that has made the directory or knows that there is a
summary. -/
theorem keeps_now (inside : thread < recorders.length)
    (busy : underway = true ∨ ∃ summary, held? = some (some summary)) :
    KeepsRecords directory recorders start thread TrackingDirectory.now
      ⟨manifest?, listed?, held?, underway⟩ fun _ changed =>
        changed = ⟨manifest?, listed?, held?, underway⟩ := by
  refine keeps_of_single isSingle_now
    fun views holder? store ⟨book, shared⟩ same value later gives => ⟨_, ⟨book, ?_⟩, rfl⟩
  refine shared.prepare inside (by rw [same]) (by rw [same]) (by rw [same]) (shared.holds.now gives)
    fun unlisted => busy.resolve_right fun ⟨summary, known⟩ => ?_
  have holding : (views thread).held? = some (some summary) := by rw [same, known]
  have listed := (shared.held thread _ holding).2
  rw [unlisted] at listed
  cases listed

/-- A thread writes the manifest of its file. -/
theorem keeps_writeManifest (apart : Recorder.AreApart recorders)
    (here : recorders[thread]? = some recorder) {manifest : Manifest} :
    KeepsRecords directory recorders start thread
      (write (directory.manifestPath recorder.file) manifest.toJson.pretty)
      ⟨manifest?, listed?, held?, true⟩ fun _ changed =>
        changed = ⟨some manifest, listed?, held?, true⟩ := by
  refine keeps_of_single isSingle_write
    fun views holder? store ⟨book, shared⟩ same value later gives => ?_
  refine ⟨_, ⟨_, shared.putManifest? apart here (by rw [same]) (by rw [same]) ?_ fun _ => rfl⟩, rfl⟩
  have holds := shared.holds.write (isName_manifestName recorder.source) gives
  rwa [← texts_updateManifest book recorder.source (some manifest)]

/-- A thread reads the manifest of its file. -/
theorem keeps_readManifest (here : recorders[thread]? = some recorder) :
    KeepsRecords directory recorders start thread (read? (directory.manifestPath recorder.file))
      ⟨manifest?, listed?, held?, underway⟩ fun text? changed =>
        changed = ⟨manifest?, listed?, held?, underway⟩ ∧
          text? = manifest?.map fun manifest => manifest.toJson.pretty := by
  refine keeps_look isSingle_read? fun book views holder? store shared same text? later gives => ?_
  obtain ⟨rfl, text⟩ := shared.holds.read (isName_manifestName recorder.source) gives
  refine ⟨rfl, text.trans ?_⟩
  rw [texts_manifestName, shared.written thread recorder here, same]

/-- A thread removes the manifest of its file, if the file is listed. -/
theorem keeps_removeManifestFile (apart : Recorder.AreApart recorders)
    (here : recorders[thread]? = some recorder) (isListed : listed? ≠ none)
    {failure : HostError → Failure} : KeepsRecords directory recorders start thread
    (attempt (.perform (.removeFile (directory.manifestPath recorder.file))) failure)
    ⟨manifest?, listed?, held?, underway⟩ fun _ changed =>
      changed = ⟨none, listed?, held?, underway⟩ := by
  refine keeps_of_single isSingle_remove
    fun views holder? store ⟨book, shared⟩ same value later gives => ?_
  refine ⟨_, ⟨_, shared.putManifest? apart here (by rw [same]) (by rw [same]) ?_ fun unlisted => ?_⟩,
    rfl⟩
  · have holds := shared.holds.remove (isName_manifestName recorder.source) gives
    rwa [← texts_updateManifest book recorder.source none]
  · obtain ⟨manifest, known⟩ := Option.ne_none_iff_exists'.mp isListed
    have among := ((shared.listed thread recorder here manifest).mpr (by rw [same, known])).1
    rw [Book.files, unlisted] at among
    cases among

/-- A thread asks whether there is a summary; its file is not listed if there is none. -/
theorem keeps_pathExists (here : recorders[thread]? = some recorder) :
    KeepsRecords directory recorders start thread
      (ExceptT.lift (.perform (.pathExists directory.summaryPath)))
      ⟨manifest?, listed?, held?, underway⟩ fun found changed =>
        changed = ⟨manifest?, listed?, held?, underway⟩ ∧ (found = false → listed? = none) := by
  refine keeps_look isSingle_pathExists
    fun book views holder? store shared same found later gives => ?_
  cases gives.of_lift
  refine ⟨rfl, fun missing => ?_⟩
  by_contra isListed
  obtain ⟨manifest, known⟩ := Option.ne_none_iff_exists'.mp isListed
  have among := ((shared.listed thread recorder here manifest).mpr (by rw [same, known])).1
  obtain ⟨summary, listed⟩ : ∃ summary, book.summary? = some summary := by
    cases listed : book.summary? with
    | none => simp [Book.files, listed] at among
    | some summary => exact ⟨summary, rfl⟩
  have held : book.texts summaryName = some summary.toJson.pretty := by
    rw [texts_summaryName, listed]
    rfl
  have there := (shared.holds.find?_iff isName_summaryName).mpr (congrArg _ held)
  rw [summaryPath_eq, there] at missing
  cases missing

/-- A thread that holds the summary reads it. -/
theorem keeps_readSummary (here : recorders[thread]? = some recorder)
    (bounded : (recorders.map Recorder.most).sum < 2 ^ 64) {known? : Option Summary} :
    KeepsRecords directory recorders start thread directory.readSummary
      ⟨manifest?, listed?, some known?, underway⟩ fun summary changed =>
        changed = ⟨manifest?, listed?, some known?, underway⟩ ∧
          summary = (known?.map Summary.recorded).getD {} ∧
          summary.lists recorder.source = listed?.isSome := by
  have read : KeepsRecords directory recorders start thread (read? directory.summaryPath)
      ⟨manifest?, listed?, some known?, underway⟩ fun text? changed =>
        changed = ⟨manifest?, listed?, some known?, underway⟩ ∧
          text? = (known?.map fun summary => summary.toJson.pretty) ∧
          (∀ summary, known? = some summary → summary.totalTracking < 2 ^ 64) ∧
          (known?.getD {}).lists recorder.source = listed?.isSome := by
    refine keeps_look isSingle_read? fun book views holder? store shared same text? later gives => ?_
    obtain ⟨rfl, text⟩ := shared.holds.read isName_summaryName gives
    have known := (shared.held thread known? (by rw [same])).2
    rw [texts_summaryName, known] at text
    refine ⟨rfl, text, fun summary past => shared.fits bounded (known.trans past), ?_⟩
    have files : (known?.getD {}).files = book.files := by
      rw [Book.files, known]
      cases known? <;> rfl
    rw [Bool.eq_iff_iff, Summary.lists, List.any_eq_true, Option.isSome_iff_exists, files]
    refine exists_congr fun manifest => ?_
    rw [decide_eq_true_eq, shared.listed thread recorder here manifest, same]
  refine read.bind fun text? changed told => ?_
  obtain ⟨same, text, fits, lists⟩ := told
  cases known? with
  | none =>
    subst text
    exact keeps_pure ⟨same, rfl, lists⟩
  | some past =>
    have parsed : Summary.ofText past.toJson.pretty = .ok past.recorded :=
      Json.Reader.readText_pretty (Summary.reads_toJson (fits past rfl))
    subst text
    simp only [Option.map_some, parsed]
    exact keeps_pure ⟨same, rfl, (past.lists_recorded _).trans lists⟩

/-- A thread that holds the summary lists the manifest of its file. -/
theorem keeps_list (apart : Recorder.AreApart recorders) (here : recorders[thread]? = some recorder)
    {known? : Option Summary} {manifest : Manifest} (own : manifest.file = recorder.source)
    (small : manifest.tracking.length ≤ recorder.most) :
    KeepsRecords directory recorders start thread
      (directory.writeSummary (((known?.map Summary.recorded).getD {}).upsert manifest))
      ⟨manifest?, listed?, some known?, underway⟩ fun _ changed =>
        changed = ⟨manifest?, some manifest, some (some ((known?.getD {}).upsert manifest)), false⟩ := by
  refine keeps_of_single isSingle_write
    fun views holder? store ⟨book, shared⟩ same value later gives => ?_
  have known := (shared.held thread known? (by rw [same])).2
  have files : ((known?.getD {}).upsert manifest).files = Summary.replace manifest book.files := by
    rw [Book.files, known]
    cases known? <;> rfl
  have recorded : (((known?.map Summary.recorded).getD {}).upsert manifest).recorded =
      ((known?.getD {}).upsert manifest).recorded := by
    cases known? with
    | none => rfl
    | some past => exact past.upsert_recorded manifest
  have holding : (views thread).held? ≠ none := by
    rw [same]
    exact Option.some_ne_none _
  refine ⟨_, ⟨_, shared.putSummary apart here holding (by rw [same]) rfl
    (shared.holds.writeSummary recorded gives) (fun other differs => ?_) (fun other => ?_) ?_ ?_ rfl⟩,
    rfl⟩
  · rw [files, Summary.mem_replace shared.once, own]
    constructor
    · rintro (rfl | ⟨among, -⟩)
      · exact absurd own differs
      · exact among
    · exact fun among => .inr ⟨among, differs⟩
  · rw [files, Summary.mem_replace shared.once, own, Option.some.injEq]
    constructor
    · rintro ⟨rfl | ⟨-, differs⟩, file⟩
      · rfl
      · exact absurd file differs
    · rintro rfl
      exact ⟨.inl rfl, own⟩
  · rintro _ ⟨⟩
    exact small
  · rw [files, Summary.map_file_replace]
    split
    · exact shared.once
    case isFalse unlisted =>
      rw [← List.concat_eq_append, List.nodup_concat]
      exact ⟨unlisted, shared.once⟩

/-- A thread that holds the summary drops its file from it. -/
theorem keeps_unlist (apart : Recorder.AreApart recorders)
    (here : recorders[thread]? = some recorder) {past : Summary} {time : String} :
    KeepsRecords directory recorders start thread
      (directory.writeSummary (past.recorded.remove recorder.source time))
      ⟨manifest?, listed?, some (some past), underway⟩ fun _ changed =>
        changed = ⟨manifest?, none, some (some (past.remove recorder.source time)), false⟩ := by
  refine keeps_of_single isSingle_write
    fun views holder? store ⟨book, shared⟩ same value later gives => ?_
  have known := (shared.held thread (some past) (by rw [same])).2
  have files : (past.remove recorder.source time).files =
      book.files.filter fun manifest => manifest.file ≠ recorder.source := by
    rw [Book.files, known]
    exact past.files_remove _ _
  have counted : (past.remove recorder.source time).totalTracking =
      ((past.remove recorder.source time).files.flatMap Manifest.tracking).length := by
    rw [Summary.remove]
    split
    · rfl
    · exact shared.total past known
  have holding : (views thread).held? ≠ none := by
    rw [same]
    exact Option.some_ne_none _
  refine ⟨_, ⟨_, shared.putSummary apart here holding (by rw [same]) rfl
    (shared.holds.writeSummary (past.remove_recorded _ time) gives) (fun other differs => ?_)
    (fun other => ?_) (fun _ none => by cases none) ?_ counted⟩, rfl⟩
  · rw [files, List.mem_filter]
    simp [differs]
  · rw [files, List.mem_filter]
    constructor
    · rintro ⟨⟨-, differs⟩, file⟩
      simp [file] at differs
    · intro none
      cases none
  · rw [files]
    exact shared.once.sublist (List.filter_sublist.map _)

/-- A thread changes the summary while it holds it. -/
theorem keeps_changingSummary (inside : thread < recorders.length)
    {change : FallibleAction Failure α} {after : α → RecordView → Prop}
    (keeps : ∀ known?, KeepsRecords directory recorders start thread change
      ⟨manifest?, listed?, some known?, underway⟩ fun value changed =>
        changed.held? ≠ none ∧ after value { changed with held? := none }) :
    KeepsRecords directory recorders start thread (changingSummary change)
      ⟨manifest?, listed?, none, underway⟩ after := by
  intro views holder? store described same answer later? later answered
  obtain ⟨book, shared⟩ := described
  simp only [Threads.answer?] at answered
  split at answered
  case isFalse => cases answered
  case isTrue free =>
    cases answered
    subst free
    refine .inr ⟨⟨manifest?, listed?, some book.summary?, underway⟩, ⟨book, ?_⟩, ?_⟩
    · exact shared.hold inside (by rw [same]) (by rw [same]) (by rw [same]) rfl
    · refine Action.Keeps.bindWith (keeps book.summary?) (fun error answer => trivial)
        (fun error view => ?_) fun value changed told => ?_
      · intro views holder? store described same answer later? later answered
        exact .inl trivial
      · obtain ⟨holding, final⟩ := told
        rintro views holder? store ⟨book, shared⟩ same answer later? later answered
        cases answered
        exact .inr ⟨_, ⟨book, shared.release inside (by rwa [same]) (by rw [same]) (by rw [same])
          (by rw [same]) rfl⟩, final⟩

/-! ## Calls -/

/-- A recording leaves the manifest of the file written and listed. -/
theorem record_keeps (apart : Recorder.AreApart recorders)
    (here : recorders[thread]? = some recorder)
    (bounded : (recorders.map Recorder.most).sum < 2 ^ 64) {points : List TrackingPoint}
    (small : points.length ≤ recorder.most) :
    KeepsRecords directory recorders start thread (directory.record recorder.file points)
      ⟨manifest?, listed?, none, false⟩ fun manifest changed =>
        manifest.file = recorder.source ∧ manifest.tracking = points ∧
          changed = ⟨some manifest, some manifest, none, false⟩ := by
  have inside := (List.getElem?_eq_some_iff.mp here).1
  refine (keeps_create inside).bind fun _ view same => ?_
  subst same
  refine (keeps_now inside (.inl rfl)).bind fun time view same => ?_
  subst same
  refine (keeps_writeManifest apart here).bind fun _ view same => ?_
  subst same
  have listing : KeepsRecords directory recorders start thread
      (changingSummary do
        directory.writeSummary
          ((← directory.readSummary).upsert ⟨recorder.source, time, points⟩))
      ⟨some ⟨recorder.source, time, points⟩, listed?, none, true⟩ fun _ changed =>
        changed = ⟨some ⟨recorder.source, time, points⟩, some ⟨recorder.source, time, points⟩, none,
          false⟩ := by
    refine keeps_changingSummary inside fun known? => ?_
    refine (keeps_readSummary here bounded).bind fun summary view ⟨same, read, _⟩ => ?_
    subst same read
    refine (keeps_list apart here rfl small).mono fun _ changed same => ?_
    subst same
    exact ⟨Option.some_ne_none _, rfl⟩
  exact listing.bind fun _ view same => keeps_pure ⟨rfl, rfl, same⟩

/-- A thread looks whether the manifest of its file is in its place. -/
theorem keeps_holdsManifestOf (here : recorders[thread]? = some recorder) :
    KeepsRecords directory recorders start thread
      (holdsManifestOf (directory.manifestPath recorder.file) recorder.source)
      ⟨manifest?, listed?, held?, underway⟩ fun owned changed =>
        changed = ⟨manifest?, listed?, held?, underway⟩ ∧
          owned = manifest?.any fun manifest => manifest.file = recorder.source := by
  refine (keeps_readManifest here).bind fun text? view ⟨same, text⟩ => ?_
  cases manifest? with
  | none =>
    subst text
    exact keeps_pure ⟨same, rfl⟩
  | some manifest =>
    have parsed : Manifest.ofText manifest.toJson.pretty = .ok manifest.recorded :=
      Json.Reader.readText_pretty manifest.reads_toJson
    subst text
    simp only [Option.map_some, parsed]
    exact keeps_pure ⟨same, rfl⟩

/-- A thread removes the manifest of its file, which is listed if it is there. -/
theorem keeps_removeManifest (apart : Recorder.AreApart recorders)
    (here : recorders[thread]? = some recorder)
    (own : ∀ manifest, manifest? = some manifest → manifest.file = recorder.source) :
    KeepsRecords directory recorders start thread (directory.removeManifest recorder.file)
      ⟨manifest?, manifest?, held?, underway⟩ fun _ changed =>
        changed = ⟨none, manifest?, held?, underway⟩ := by
  refine (keeps_holdsManifestOf here).bind fun owned view ⟨same, found⟩ => ?_
  subst same
  cases manifest? with
  | none =>
    subst found
    exact keeps_pure rfl
  | some manifest =>
    have there : owned = true := by simpa [own manifest rfl] using found
    rw [if_pos there]
    exact (keeps_removeManifestFile apart here (Option.some_ne_none _)).bind fun _ view same =>
      keeps_pure same

/-- A thread drops its file from the summary. -/
theorem keeps_removeFromSummary (apart : Recorder.AreApart recorders)
    (here : recorders[thread]? = some recorder)
    (bounded : (recorders.map Recorder.most).sum < 2 ^ 64) :
    KeepsRecords directory recorders start thread (directory.removeFromSummary recorder.file)
      ⟨manifest?, listed?, none, false⟩ fun _ changed =>
        changed = ⟨manifest?, none, none, false⟩ := by
  refine (keeps_pathExists here).bind fun found view ⟨same, unlisted⟩ => ?_
  subst same
  cases found with
  | false =>
    obtain rfl := unlisted rfl
    exact keeps_pure rfl
  | true =>
    have inside := (List.getElem?_eq_some_iff.mp here).1
    rw [if_pos rfl]
    refine keeps_changingSummary inside fun known? => ?_
    refine (keeps_readSummary here bounded).bind fun summary view ⟨same, read, lists⟩ => ?_
    subst same
    change KeepsRecords _ _ _ _ (if summary.lists recorder.source then _ else _) _ _
    split
    case isTrue isListed =>
      cases known? with
      | none =>
        subst read
        cases isListed
      | some past =>
        subst read
        refine (keeps_now inside (.inr ⟨past, rfl⟩)).bind fun time view same => ?_
        subst same
        refine (keeps_unlist apart here).bind fun _ view same => keeps_pure ?_
        subst same
        exact ⟨Option.some_ne_none _, rfl⟩
    case isFalse isUnlisted =>
      have none : listed? = none := by simpa [isUnlisted] using lists
      subst none
      exact keeps_pure ⟨Option.some_ne_none _, rfl⟩

/-- A retraction leaves nothing of the file. -/
theorem retract_keeps (apart : Recorder.AreApart recorders)
    (here : recorders[thread]? = some recorder)
    (bounded : (recorders.map Recorder.most).sum < 2 ^ 64)
    (own : ∀ manifest, manifest? = some manifest → manifest.file = recorder.source) :
    KeepsRecords directory recorders start thread (directory.retract recorder.file)
      ⟨manifest?, manifest?, none, false⟩ fun _ changed => changed = ⟨none, none, none, false⟩ := by
  refine (keeps_removeManifest apart here own).bind fun _ view same => ?_
  subst same
  exact (keeps_removeFromSummary apart here bounded).bind fun _ view same => keeps_pure same

/-- Between two calls of a thread, what is recorded of its file is what the last call left. -/
def RecordView.Rests (source : String) (left? : Option (List TrackingPoint)) (view : RecordView) :
    Prop :=
  ∃ manifest? : Option Manifest, view = ⟨manifest?, manifest?, none, false⟩ ∧
    (∀ manifest, manifest? = some manifest → manifest.file = source) ∧
    manifest?.map Manifest.tracking = left?

/-- A call leaves what it should, whatever was there before. -/
theorem perform_keeps (apart : Recorder.AreApart recorders)
    (here : recorders[thread]? = some recorder)
    (bounded : (recorders.map Recorder.most).sum < 2 ^ 64) {call : RecordCall}
    (called : call ∈ recorder.calls) {before? : Option (List TrackingPoint)} {view : RecordView}
    (rests : view.Rests recorder.source before?) :
    KeepsRecords directory recorders start thread (call.perform directory recorder.file) view
      fun _ changed => changed.Rests recorder.source call.left? := by
  obtain ⟨manifest?, rfl, own, -⟩ := rests
  cases call with
  | record points =>
    refine (record_keeps apart here bounded (Recorder.length_le_most called)).bind
      fun manifest view ⟨file, points, same⟩ => keeps_pure ⟨some manifest, same, ?_, ?_⟩
    · rintro _ ⟨⟩
      exact file
    · exact congrArg some points
  | retract =>
    refine (retract_keeps apart here bounded own).bind fun _ view same =>
      keeps_pure ⟨none, same, ?_, rfl⟩
    rintro _ ⟨⟩

/-- A thread leaves what its last call should leave. -/
theorem performAll_keeps (apart : Recorder.AreApart recorders)
    (here : recorders[thread]? = some recorder)
    (bounded : (recorders.map Recorder.most).sum < 2 ^ 64) {calls : List RecordCall}
    (within : calls ⊆ recorder.calls) {before? : Option (List TrackingPoint)} {view : RecordView}
    (rests : view.Rests recorder.source before?) :
    KeepsRecords directory recorders start thread
      (Recorder.performAll directory recorder.file calls) view fun _ changed =>
        changed.Rests recorder.source ((calls.getLast?.map RecordCall.left?).getD before?) := by
  induction calls generalizing before? view with
  | nil => exact keeps_pure rests
  | cons call rest ih =>
    refine (perform_keeps apart here bounded (within List.mem_cons_self) rests).bind
      fun _ view rests => ?_
    refine (ih (fun later among => within (List.mem_cons_of_mem _ among)) rests).mono
      fun _ view rests => ?_
    cases rest with
    | nil => exact rests
    | cons next more => rwa [List.getLast?_cons_cons]

end Keeping

/-! ## Taking turns -/

section Turns

variable {directory : TrackingDirectory} {held : Bool} {path file : String}

theorem turns_pure {value : α} :
    Action.Turns held held (pure value : FallibleAction Failure α).run := rfl

theorem isSingle_warn {message : String} : Action.IsSingle (warn message).run :=
  ⟨_, _, fun _ => rfl, rfl⟩

theorem turns_readSummary : Action.Turns held held directory.readSummary.run := by
  refine turns_bind (isSingle_read?.turns held) fun text? => ?_
  cases text? with
  | none => exact turns_pure
  | some text =>
    dsimp only
    split
    · exact turns_pure
    · exact turns_bind (isSingle_warn.turns held) fun _ => turns_pure

theorem turns_record {points : List TrackingPoint} :
    Action.Turns false false (directory.record file points).run := by
  refine turns_bind (isSingle_create.turns false) fun _ => ?_
  refine turns_bind (isSingle_now.turns false) fun _ => ?_
  refine turns_bind (isSingle_write.turns false) fun _ => ?_
  refine turns_bind (turns_changingSummary ?_) fun _ => turns_pure
  exact turns_bind turns_readSummary fun _ => isSingle_write.turns true

theorem turns_removeManifest :
    Action.Turns false false (directory.removeManifest file).run := by
  refine turns_bind ?_ fun owned => ?_
  · refine turns_bind (isSingle_read?.turns false) fun text? => ?_
    cases text? with
    | none => exact turns_pure
    | some text =>
      dsimp only
      split
      · exact turns_pure
      · exact turns_bind (isSingle_warn.turns false) fun _ => turns_pure
  · split
    · exact turns_bind (isSingle_remove.turns false) fun _ => turns_pure
    · exact turns_pure

theorem turns_removeFromSummary :
    Action.Turns false false (directory.removeFromSummary file).run := by
  refine turns_bind (isSingle_pathExists.turns false) fun found => ?_
  split
  · refine turns_changingSummary (turns_bind turns_readSummary fun summary => ?_)
    dsimp only
    split
    · refine turns_bind (isSingle_now.turns true) fun _ => ?_
      exact turns_bind (isSingle_write.turns true) fun _ => turns_pure
    · exact turns_pure
  · exact turns_pure

theorem turns_performAll (calls : List RecordCall) :
    Action.Turns false false (Recorder.performAll directory file calls).run := by
  induction calls with
  | nil => exact turns_pure
  | cons call rest ih =>
    refine turns_bind ?_ fun _ => ih
    cases call with
    | record points => exact turns_bind turns_record fun _ => turns_pure
    | retract =>
      refine turns_bind ?_ fun _ => turns_pure
      refine turns_bind turns_removeManifest fun _ => ?_
      exact turns_bind turns_removeFromSummary fun _ => turns_pure

end Turns

/-! ## What is left -/

/-- The threads of recorders that share a directory, before their first request. -/
def Recorder.threads (directory : TrackingDirectory) (recorders : List Recorder) (store : Store) :
    Threads (Except Failure Unit) :=
  { store, running := recorders.map fun recorder => (recorder.program directory).run }

theorem Recorder.areTurning_threads (directory : TrackingDirectory) (recorders : List Recorder)
    (store : Store) : (Recorder.threads directory recorders store).AreTurning := by
  refine ⟨fun holder held => absurd held (Option.some_ne_none holder).symm,
    fun thread action running => ?_⟩
  obtain ⟨recorder, -, rfl⟩ := List.mem_map.mp (List.mem_of_getElem? running)
  exact turns_performAll recorder.calls

/-- The records of a directory are what the last calls of recorders leave. -/
structure TrackingDirectory.Leaves (directory : TrackingDirectory) (recorders : List Recorder)
    (summary : Summary) (store : Store) : Prop where
  /-- The summary lists the files whose last call recorded points, with these points as recorded. -/
  listed : ∀ recorder ∈ recorders, ∀ points,
    (∃ manifest ∈ summary.files,
        manifest.file = recorder.source ∧ manifest.tracking = points) ↔
      ∃ left, recorder.left? = some left ∧ points = left.map TrackingPoint.recorded
  /-- It lists no other files. -/
  known : ∀ manifest ∈ summary.files, ∃ recorder ∈ recorders, manifest.file = recorder.source
  once : (summary.files.map Manifest.file).Nodup
  total : summary.totalTracking = (summary.files.map fun manifest => manifest.tracking.length).sum
  /-- The files that have a manifest are those that are listed. -/
  present : ∀ recorder ∈ recorders,
    (∃ bytes, store.find? (directory.manifestPath recorder.file) = some (.file bytes)) ↔
      summary.lists recorder.source = true
  /-- The manifest of a file is what is listed of it. -/
  manifests : ∀ recorder ∈ recorders, ∀ bytes,
    store.find? (directory.manifestPath recorder.file) = some (.file bytes) →
      ∃ text manifest, String.fromUTF8? bytes = some text ∧ Manifest.ofText text = .ok manifest ∧
        manifest ∈ summary.files ∧ manifest.file = recorder.source
  /-- There are no other manifests. -/
  others : ∀ name bytes, name ≠ summaryName →
    store.entry? (directory.place ++ [name]) = some (.file bytes) →
      ∃ recorder ∈ recorders, name = manifestName recorder.source

section Leaving

variable {directory : TrackingDirectory} {recorders : List Recorder} {start store : Store}
  {book : Book} {views : Nat → RecordView} {holder? : Option Nat}

theorem Recorder.areApart
    (apart : (recorders.map fun recorder => directory.manifestPath recorder.file).Nodup) :
    AreApart recorders := by
  have places : recorders.map (fun recorder => directory.manifestPath recorder.file) =
      (recorders.map fun recorder => manifestName recorder.source).map
        (Path.join directory.path) := by
    rw [List.map_map]
    refine List.map_congr_left fun recorder _ => ?_
    rw [Function.comp_apply, manifestPath_eq, Recorder.source]
  rw [places] at apart
  exact List.Nodup.of_map (Path.join directory.path) apart

theorem isShared_start (empty : directory.IsEmpty store) :
    IsShared directory recorders store (fun _ => {}) none store := by
  refine ⟨{}, empty.holds, fun _ _ _ => rfl, fun _ found => absurd rfl found, ?_, ?_, List.nodup_nil,
    ?_, ?_, fun _ _ => rfl⟩
  · intro thread recorder here manifest
    constructor
    · rintro ⟨⟨⟩, -⟩
    · rintro ⟨⟩
  · rintro manifest ⟨⟩
  · rintro summary ⟨⟩
  · rintro thread summary? ⟨⟩

/-- When all threads rest, the records are what their last calls leave. -/
theorem Shared.leaves (shared : Shared directory recorders start book views holder? store)
    (rests : ∀ thread recorder, recorders[thread]? = some recorder →
      (views thread).Rests recorder.source recorder.left?) :
    directory.Leaves recorders ((book.summary?.map Summary.recorded).getD {}) store := by
  have files : ((book.summary?.map Summary.recorded).getD {}).files =
      book.files.map Manifest.recorded := by
    cases listed : book.summary? <;> simp [Book.files, listed, Summary.recorded]
  -- What a thread knows of its file is both listed and written.
  have knows : ∀ recorder ∈ recorders, ∃ manifest? : Option Manifest,
      manifest?.map Manifest.tracking = recorder.left? ∧
      book.manifest? (manifestName recorder.source) = manifest? ∧
      ∀ manifest, manifest ∈ book.files ∧ manifest.file = recorder.source ↔
        manifest? = some manifest := by
    intro recorder among
    obtain ⟨thread, here⟩ := List.getElem?_of_mem among
    obtain ⟨manifest?, view, -, left⟩ := rests thread recorder here
    refine ⟨manifest?, left, ?_, fun manifest => ?_⟩
    · rw [shared.written thread recorder here, view]
    · rw [shared.listed thread recorder here, view]
  constructor
  case listed =>
    intro recorder among points
    obtain ⟨manifest?, left, -, listed⟩ := knows recorder among
    rw [files, ← left]
    constructor
    · rintro ⟨_, kept, file, rfl⟩
      obtain ⟨manifest, there, rfl⟩ := List.mem_map.mp kept
      obtain rfl := (listed manifest).mp ⟨there, file⟩
      exact ⟨manifest.tracking, rfl, rfl⟩
    · rintro ⟨_, recorded, rfl⟩
      obtain ⟨manifest, known, rfl⟩ := Option.map_eq_some_iff.mp recorded
      obtain ⟨there, file⟩ := (listed manifest).mpr known
      exact ⟨manifest.recorded, List.mem_map.mpr ⟨manifest, there, rfl⟩, file, rfl⟩
  case known =>
    intro manifest among
    rw [files] at among
    obtain ⟨whole, there, rfl⟩ := List.mem_map.mp among
    obtain ⟨recorder, called, file, -⟩ := shared.owned whole there
    exact ⟨recorder, called, file⟩
  case once =>
    rw [files, List.map_map]
    exact shared.once
  case total =>
    rw [← List.length_flatMap]
    cases listed : book.summary? with
    | none => rfl
    | some past =>
      have count := shared.total past listed
      rw [← Summary.count_recorded] at count
      exact count
  case present =>
    intro recorder among
    obtain ⟨manifest?, -, written, listed⟩ := knows recorder among
    have lists : ((book.summary?.map Summary.recorded).getD {}).lists recorder.source = true ↔
        ∃ manifest, manifest? = some manifest := by
      rw [Summary.lists, files, List.any_map, List.any_eq_true]
      refine exists_congr fun manifest => ?_
      rw [← listed, Function.comp_apply, decide_eq_true_eq]
      rfl
    rw [lists, manifestPath_eq]
    simp only [shared.holds.find?_iff (isName_manifestName _)]
    change (∃ bytes, (book.texts (manifestName recorder.source)).map String.toUTF8 = some bytes) ↔ _
    rw [texts_manifestName, written]
    cases manifest? <;> simp
  case manifests =>
    intro recorder among bytes found
    obtain ⟨manifest?, -, written, listed⟩ := knows recorder among
    rw [manifestPath_eq, shared.holds.find?_iff (isName_manifestName _)] at found
    change (book.texts (manifestName recorder.source)).map String.toUTF8 = some bytes at found
    rw [texts_manifestName, written, Option.map_map] at found
    obtain ⟨manifest, rfl, rfl⟩ := Option.map_eq_some_iff.mp found
    obtain ⟨there, file⟩ := (listed manifest).mpr rfl
    refine ⟨_, manifest.recorded, Store.fromUTF8?_toUTF8 _,
      Json.Reader.readText_pretty manifest.reads_toJson, ?_, file⟩
    rw [files]
    exact List.mem_map.mpr ⟨manifest, there, rfl⟩
  case others =>
    intro name bytes differs found
    rw [← Store.file?_eq_some, shared.holds.files, Book.texts, if_neg differs, Option.map_map] at found
    obtain ⟨manifest, there, -⟩ := Option.map_eq_some_iff.mp found
    exact shared.placed name (by simp [there])

/-- When all threads rest, the summary can be read. -/
theorem Shared.gives_readSummary (shared : Shared directory recorders start book views holder? store)
    (empty : directory.IsEmpty start) (bounded : (recorders.map Recorder.most).sum < 2 ^ 64)
    (idle : ∀ thread < recorders.length, (views thread).underway = false) :
    directory.readSummary.Gives store ((book.summary?.map Summary.recorded).getD {}) store := by
  cases listed : book.summary? with
  | none =>
    obtain ⟨error, read, missing⟩ := empty.noSummary
    rw [← shared.untouched listed idle] at read
    exact (gives_read?_missing read missing).bind gives_pure
  | some past =>
    have held : book.texts summaryName = some past.toJson.pretty := by
      rw [texts_summaryName, listed]
      rfl
    have parsed : Summary.ofText past.toJson.pretty = .ok past.recorded :=
      Json.Reader.readText_pretty (Summary.reads_toJson (shared.fits bounded listed))
    refine (gives_read?_ok (shared.holds.readText isName_summaryName held)).bind ?_
    simp only [parsed]
    exact gives_pure

/-- **No call is lost.** Recorders share an empty directory, each with a file whose manifest has a
place of its own. Under any schedule, whatever the order in which their requests are answered: the
threads can all get done from where they are, and if they are done without failure, the summary can
be read, lists for each file what its last call left, and agrees with the manifests. The total in a
summary is read as a number of 64 bits, so no more points than that can be recorded. -/
theorem shared_records_agree (directory : TrackingDirectory) (store : Store)
    (recorders : List Recorder) (schedule : List Nat) (empty : directory.IsEmpty store)
    (apart : (recorders.map fun recorder => directory.manifestPath recorder.file).Nodup)
    (bounded : (recorders.map Recorder.most).sum < 2 ^ 64) :
    let threads := Recorder.threads directory recorders store
    let after := threads.run schedule
    (∃ more, ∀ action ∈ (threads.run (schedule ++ more)).running, ∃ result, action = .done result) ∧
      ((∀ action ∈ after.running, action = .done (.ok ())) →
        ∃ summary, Action.run directory.readSummary.run after.store = (.ok summary, after.store) ∧
          directory.Leaves recorders summary after.store) := by
  intro threads after
  constructor
  · have turning := (Recorder.areTurning_threads directory recorders store).run schedule
    obtain ⟨more, done⟩ := turning.exists_completion
    exact ⟨more, by rwa [Threads.run_append]⟩
  intro done
  have apart := Recorder.areApart apart
  have kept : threads.IsKept (IsShared directory recorders store) fun thread _ view =>
      ∀ recorder, recorders[thread]? = some recorder →
        view.Rests recorder.source recorder.left? := by
    refine ⟨fun _ => {}, isShared_start empty, fun thread action running => ?_⟩
    obtain ⟨recorder, here, rfl⟩ := Option.map_eq_some_iff.mp (List.getElem?_map ▸ running)
    have blank : RecordView.Rests recorder.source none {} := by
      refine ⟨none, rfl, ?_, rfl⟩
      rintro _ ⟨⟩
    refine (performAll_keeps apart here bounded (List.Subset.refl _) blank).mono
      fun _ view rests other same => ?_
    obtain rfl := Option.some.inj (here.symm.trans same)
    rw [Recorder.left?]
    cases last : recorder.calls.getLast? <;> simpa [last] using rests
  obtain ⟨views, ⟨book, shared⟩, rest⟩ := Threads.run_kept_of_done kept
    fun action among => ⟨(), done action among⟩
  have rests : ∀ thread recorder, recorders[thread]? = some recorder →
      (views thread).Rests recorder.source recorder.left? := by
    intro thread recorder here
    have inside : thread < after.running.length := by
      rw [Threads.length_run]
      exact (List.length_map _).symm ▸ (List.getElem?_eq_some_iff.mp here).1
    have running := List.getElem?_eq_getElem inside
    have final := rest thread _ running
    rw [done _ (List.getElem_mem inside)] at final
    exact final recorder here
  refine ⟨_, shared.gives_readSummary empty bounded fun thread inside => ?_, shared.leaves rests⟩
  obtain ⟨_, view, -⟩ := rests thread _ (List.getElem?_eq_getElem inside)
  rw [view]

end Leaving

instance {ε : Type} (action : Action (Except ε Unit)) : Decidable (action = .done (.ok ())) :=
  match action with
  | .done (.ok ()) => isTrue rfl
  | .done (.error _) => isFalse nofun
  | .ask _ _ => isFalse nofun

/-- While the points of one file are recorded, another is retracted, which asks for the summary before
it is written. -/
theorem shared_records_agree_page :
    let directory : TrackingDirectory := ⟨"out/tracking", false⟩
    let store : Store := { clock := fun _ => "2024-01-01T00:00:00Z", refusal := "refused" }
    let buy : TrackingPoint := ⟨.click, "buy", "button", "src/Page.tsx", false⟩
    let page : Recorder := ⟨"src\\Page.tsx", [.record [buy]]⟩
    let cart : Recorder := ⟨"src/Cart.tsx", [.retract]⟩
    let schedule := [1, 0, 0, 0, 1, 0, 0, 0, 0]
    let threads := Recorder.threads directory [page, cart] store
    let after := threads.run schedule
    directory.IsEmpty store ∧
      ([page, cart].map fun recorder => directory.manifestPath recorder.file).Nodup ∧
      ([page, cart].map Recorder.most).sum < 2 ^ 64 ∧
      (∃ more, ∀ action ∈ (threads.run (schedule ++ more)).running,
        ∃ result, action = .done result) ∧
      (∀ action ∈ after.running, action = .done (.ok ())) ∧
      ∃ summary, Action.run directory.readSummary.run after.store = (.ok summary, after.store) ∧
        directory.Leaves [page, cart] summary after.store ∧
        ∃ manifest ∈ summary.files,
          manifest.file = page.source ∧ manifest.tracking = [{ buy with file := "" }] := by
  intro directory store buy page cart schedule threads after
  have empty : directory.IsEmpty store :=
    ⟨fun name => by simp [store, Store.entry?], ⟨true, "refused"⟩, by decide +kernel, rfl⟩
  have apart : ([page, cart].map fun recorder => directory.manifestPath recorder.file).Nodup := by
    decide +kernel
  have bounded : ([page, cart].map Recorder.most).sum < 2 ^ 64 := by decide +kernel
  have done : ∀ action ∈ after.running, action = .done (.ok ()) := by decide +kernel
  obtain ⟨completes, agrees⟩ :=
    shared_records_agree directory store [page, cart] schedule empty apart bounded
  obtain ⟨summary, read, leaves⟩ := agrees done
  have listed := leaves.listed page List.mem_cons_self [{ buy with file := "" }]
  exact ⟨empty, apart, bounded, completes, done, summary, read, leaves,
    listed.mpr ⟨[buy], rfl, rfl⟩⟩

end JsxTracking
