import JsxTracking.Proofs.HeldTexts
import JsxTracking.Proofs.RecordedText
import Mathlib.Data.List.Dedup
import Mathlib.Data.List.Infix

/-! # The book of a build

Manifests and the summary of a build make up a *book*: a summary of manifests, and manifests by the
names of their files. Recording the points of a source, or retracting them, changes the book as it
should (`Book.Tells`), and the directory holds the texts of the book all along
(`Holds.update`). So the records that are left after any number of calls agree with each other and
with the calls (`TrackingDirectory.records_agree`). -/

namespace JsxTracking

open TrackingDirectory FallibleAction

/-! ## Calls -/

/-- A call that records the points of a file. -/
structure Recording where
  file : String
  points : List TrackingPoint
  deriving DecidableEq, Repr, Inhabited

namespace Recording

/-- The path that stands for the file in the records. -/
def source (call : Recording) : String :=
  Path.normalize call.file

/-- The points that the last call for a source has recorded; none if there was no call. -/
def last (calls : List Recording) (source : String) : List TrackingPoint :=
  ((calls.reverse.find? fun call => call.source = source).map Recording.points).getD []

/-- The number of points that are on record. -/
def pointCount (calls : List Recording) : Nat :=
  ((calls.map source).dedup.map fun source => (last calls source).length).sum

/-- Whether a source has been on record since a time when another was not. -/
def IsSooner (calls : List Recording) (source other : String) : Prop :=
  ∃ past, past <+: calls ∧ last past other = [] ∧
    ∀ later, past <+: later → later <+: calls → last later source ≠ []

variable {calls : List Recording} {call : Recording} {source other : String}

@[simp] theorem last_nil (source : String) : last [] source = [] := rfl

theorem last_concat (calls : List Recording) (call : Recording) (source : String) :
    last (calls ++ [call]) source =
      if call.source = source then call.points else last calls source := by
  rw [last, List.reverse_concat, List.find?_cons]
  by_cases same : call.source = source
  · simp [same]
  · simp [same, last]

theorem exists_of_last (recorded : last calls source ≠ []) : ∃ call ∈ calls, call.source = source := by
  rw [last] at recorded
  cases found : calls.reverse.find? fun call => call.source = source with
  | none => simp [found] at recorded
  | some call =>
    have among := List.mem_of_find?_eq_some found
    have same := List.find?_some found
    exact ⟨call, List.mem_reverse.mp among, by simpa using same⟩

/-- A source that stays on record stays sooner than another. -/
theorem IsSooner.concat (sooner : IsSooner calls source other)
    (stays : last (calls ++ [call]) source ≠ []) : IsSooner (calls ++ [call]) source other := by
  obtain ⟨past, before, unlisted, since⟩ := sooner
  refine ⟨past, before.trans (List.prefix_append _ _), unlisted, fun later after within => ?_⟩
  rcases List.prefix_concat_iff.mp within with rfl | within
  · exact stays
  · exact since later after within

/-- A source that is on record is sooner than one that is not. -/
theorem isSooner_concat (unlisted : last calls other = []) (listed : last calls source ≠ [])
    (stays : last (calls ++ [call]) source ≠ []) : IsSooner (calls ++ [call]) source other := by
  refine ⟨calls, List.prefix_append _ _, unlisted, fun later after within => ?_⟩
  rcases List.prefix_concat_iff.mp within with rfl | within
  · exact stays
  · rwa [within.eq_of_length_le after.length_le]

end Recording

/-! ## Summaries -/

namespace Summary

variable {manifest : Manifest} {files : List Manifest}

theorem map_file_replace (manifest : Manifest) (files : List Manifest) :
    (replace manifest files).map Manifest.file =
      if manifest.file ∈ files.map Manifest.file then files.map Manifest.file
      else files.map Manifest.file ++ [manifest.file] := by
  induction files with
  | nil => rfl
  | cons first rest ih =>
    rw [replace]
    by_cases same : first.file = manifest.file
    · simp [same]
    · have other : manifest.file ≠ first.file := Ne.symm same
      rw [if_neg same, List.map_cons, ih, List.map_cons]
      by_cases listed : manifest.file ∈ rest.map Manifest.file
      · rw [if_pos listed, if_pos (List.mem_cons_of_mem _ listed)]
      · rw [if_neg listed, if_neg (by simp [other, listed]), List.cons_append]

/-- A manifest takes the place of the one for its file. -/
theorem mem_replace (once : (files.map Manifest.file).Nodup) {other : Manifest} :
    other ∈ replace manifest files ↔
      other = manifest ∨ (other ∈ files ∧ other.file ≠ manifest.file) := by
  induction files with
  | nil => simp [replace]
  | cons first rest ih =>
    rw [List.map_cons, List.nodup_cons] at once
    rw [replace]
    by_cases same : first.file = manifest.file
    · have later : ∀ other ∈ rest, other.file ≠ manifest.file := by
        intro other among repeated
        exact once.1 (List.mem_map.mpr ⟨other, among, repeated.trans same.symm⟩)
      rw [if_pos same, List.mem_cons, List.mem_cons]
      constructor
      · rintro (rfl | among)
        · exact .inl rfl
        · exact .inr ⟨.inr among, later other among⟩
      · rintro (rfl | ⟨rfl | among, differs⟩)
        · exact .inl rfl
        · exact absurd same differs
        · exact .inr among
    · rw [if_neg same, List.mem_cons, List.mem_cons, ih once.2]
      constructor
      · rintro (rfl | rfl | ⟨among, differs⟩)
        · exact .inr ⟨.inl rfl, same⟩
        · exact .inl rfl
        · exact .inr ⟨.inr among, differs⟩
      · rintro (rfl | ⟨rfl | among, differs⟩)
        · exact .inr (.inl rfl)
        · exact .inl rfl
        · exact .inr (.inr ⟨among, differs⟩)

/-- Dropping a file drops its manifest. -/
theorem files_remove (summary : Summary) (file now : String) :
    (summary.remove file now).files =
      summary.files.filter fun manifest => manifest.file ≠ file := by
  rw [remove]
  split
  case isTrue => rfl
  case isFalse unlisted =>
    symm
    rw [List.filter_eq_self]
    intro manifest among
    have differs : ¬ manifest.file = file := by
      intro same
      exact unlisted (List.any_eq_true.mpr ⟨manifest, among, by simpa using same⟩)
    simpa using differs

/-! ### Recorded summaries -/

theorem lists_recorded (summary : Summary) (file : String) :
    summary.recorded.lists file = summary.lists file := by
  simp only [lists, recorded, List.any_map]
  rfl

theorem count_recorded (files : List Manifest) :
    ((files.map Manifest.recorded).flatMap Manifest.tracking).length =
      (files.flatMap Manifest.tracking).length := by
  induction files with
  | nil => rfl
  | cons manifest rest ih => simp [Manifest.recorded] at ih ⊢; omega

theorem recorded_recorded (manifest : Manifest) : manifest.recorded.recorded = manifest.recorded := by
  simp [Manifest.recorded, Function.comp_def, TrackingPoint.recorded]

theorem map_recorded_map (files : List Manifest) :
    (files.map Manifest.recorded).map Manifest.recorded = files.map Manifest.recorded := by
  rw [List.map_map]
  exact List.map_congr_left fun manifest _ => recorded_recorded manifest

theorem map_recorded_replace (manifest : Manifest) (files : List Manifest) :
    (replace manifest (files.map Manifest.recorded)).map Manifest.recorded =
      (replace manifest files).map Manifest.recorded := by
  induction files with
  | nil => rfl
  | cons first rest ih =>
    have sameFile : first.recorded.file = first.file := rfl
    rw [List.map_cons, replace, replace, sameFile]
    split
    · rw [List.map_cons, map_recorded_map, List.map_cons]
    · rw [List.map_cons, ih, List.map_cons, recorded_recorded]

/-- A summary that was read is refreshed like the one that was written. -/
theorem recorded_refresh {summary other : Summary}
    (same : summary.files.map Manifest.recorded = other.files.map Manifest.recorded)
    (updated : String) : (summary.refresh updated).recorded = (other.refresh updated).recorded := by
  have total : (summary.files.flatMap Manifest.tracking).length =
      (other.files.flatMap Manifest.tracking).length := by
    rw [← count_recorded, same, count_recorded]
  simp only [refresh, recorded, same, total]

theorem upsert_recorded (summary : Summary) (manifest : Manifest) :
    (summary.recorded.upsert manifest).recorded = (summary.upsert manifest).recorded :=
  recorded_refresh (map_recorded_replace manifest summary.files) _

theorem remove_recorded (summary : Summary) (file now : String) :
    (summary.recorded.remove file now).recorded = (summary.remove file now).recorded := by
  rw [remove, remove, lists_recorded]
  split
  · apply recorded_refresh
    have kept : (summary.files.map Manifest.recorded).filter (fun manifest => manifest.file ≠ file) =
        (summary.files.filter fun manifest => manifest.file ≠ file).map Manifest.recorded :=
      List.filter_map
    exact (congrArg (List.map Manifest.recorded) kept).trans (map_recorded_map _)
  · rw [recorded, recorded, map_recorded_map]

end Summary

/-! ## Books -/

/-- A summary, if there is one, and manifests by the names of their files. -/
structure Book where
  summary? : Option Summary := none
  manifest? : String → Option Manifest := fun _ => none

namespace Book

/-- The manifests that the summary lists. -/
def files (book : Book) : List Manifest :=
  (book.summary?.map Summary.files).getD []

/-- The texts of the book by the names of their files. -/
def texts (book : Book) (name : String) : Option String :=
  if name = summaryName then book.summary?.map fun summary => summary.toJson.pretty
  else (book.manifest? name).map fun manifest => manifest.toJson.pretty

/-- The book with a manifest in its place. -/
def putManifest (book : Book) (manifest : Manifest) : Book :=
  { book with
    manifest? := Function.update book.manifest? (manifestName manifest.file) (some manifest) }

/-- The book without the manifest of a source. -/
def dropManifest (book : Book) (source : String) : Book :=
  { book with
    manifest? :=
      if (book.manifest? (manifestName source)).any fun manifest => manifest.file = source then
        Function.update book.manifest? (manifestName source) none
      else book.manifest? }

/-- The book with a manifest recorded. -/
def record (book : Book) (manifest : Manifest) : Book :=
  { book.putManifest manifest with
    summary? := some ((book.summary?.getD {}).upsert manifest) }

/-- The book with a source retracted. -/
def retract (book : Book) (source now : String) : Book :=
  { book.dropManifest source with
    summary? := book.summary?.map fun summary => summary.remove source now }

/-- The book with the points of a source brought up to date. -/
def update (book : Book) (source : String) (points : List TrackingPoint) (now : String) : Book :=
  if points.isEmpty then book.retract source now else book.record ⟨source, now, points⟩

/-- A book tells of calls what it should. -/
structure Tells (book : Book) (calls : List Recording) : Prop where
  /-- The sources on record are listed, with their points. -/
  listed : ∀ source points,
    (∃ manifest ∈ book.files, manifest.file = source ∧ manifest.tracking = points) ↔
      Recording.last calls source ≠ [] ∧ points = Recording.last calls source
  once : (book.files.map Manifest.file).Nodup
  ordered : (book.files.map Manifest.file).Pairwise (Recording.IsSooner calls)
  total : ∀ summary, book.summary? = some summary →
    summary.totalTracking = (summary.files.flatMap Manifest.tracking).length
  /-- Every manifest is in its place and listed. -/
  manifests : ∀ name manifest, book.manifest? name = some manifest →
    name = manifestName manifest.file ∧ manifest ∈ book.files
  /-- Sources that do not share the place of their manifest have one if they are listed. -/
  present :
    (∀ call ∈ calls, ∀ other ∈ calls,
      manifestName call.source = manifestName other.source → call.source = other.source) →
    ∀ manifest ∈ book.files, book.manifest? (manifestName manifest.file) = some manifest

variable {book : Book} {calls : List Recording}

theorem tells_nil : Tells {} [] := by
  constructor <;> simp [files]

theorem files_record (book : Book) (manifest : Manifest) :
    (book.record manifest).files = Summary.replace manifest book.files := by
  cases summary : book.summary? <;>
    simp [files, record, summary, Summary.upsert, Summary.refresh]

theorem files_retract (book : Book) (source now : String) :
    (book.retract source now).files = book.files.filter fun manifest => manifest.file ≠ source := by
  cases summary : book.summary? with
  | none => simp [files, retract, summary]
  | some listed =>
    simp only [files, retract, summary, Option.map_some, Option.getD_some, Summary.files_remove]

theorem manifest?_dropManifest (book : Book) (source name : String) :
    (book.dropManifest source).manifest? name =
      if name = manifestName source ∧
          (book.manifest? name).any (fun manifest => manifest.file = source) = true then none
      else book.manifest? name := by
  rw [dropManifest]
  by_cases same : name = manifestName source
  · subst same
    by_cases owned :
        (book.manifest? (manifestName source)).any (fun manifest => manifest.file = source) = true
    · simp only [owned, ↓reduceIte, and_self, Function.update_self]
    · simp only [owned, Bool.false_eq_true, ↓reduceIte, and_false]
  · simp only [same, false_and, ↓reduceIte]
    split
    · rw [Function.update_of_ne same]
    · rfl

/-- A listed source was called for. -/
theorem Tells.called (tells : book.Tells calls) {manifest : Manifest}
    (among : manifest ∈ book.files) : ∃ call ∈ calls, call.source = manifest.file :=
  Recording.exists_of_last ((tells.listed _ _).mp ⟨manifest, among, rfl, rfl⟩).1

theorem Tells.last_ne_nil (tells : book.Tells calls) {source : String}
    (among : source ∈ book.files.map Manifest.file) : Recording.last calls source ≠ [] := by
  obtain ⟨manifest, listed, rfl⟩ := List.mem_map.mp among
  exact ((tells.listed _ _).mp ⟨manifest, listed, rfl, rfl⟩).1

theorem Tells.last_eq_nil (tells : book.Tells calls) {source : String}
    (unlisted : source ∉ book.files.map Manifest.file) : Recording.last calls source = [] := by
  by_contra listed
  obtain ⟨manifest, among, rfl, -⟩ := (tells.listed source _).mpr ⟨listed, rfl⟩
  exact unlisted (List.mem_map.mpr ⟨manifest, among, rfl⟩)

/-- Sources stay in order if those that stay are on record. -/
theorem Tells.ordered_concat (tells : book.Tells calls) {call : Recording} {sources : List String}
    (within : sources.Sublist (book.files.map Manifest.file))
    (stays : ∀ source ∈ sources, Recording.last (calls ++ [call]) source ≠ []) :
    sources.Pairwise (Recording.IsSooner (calls ++ [call])) := by
  have ordered := tells.ordered.sublist within
  rw [List.pairwise_iff_forall_sublist] at ordered ⊢
  intro source other both
  have among : source ∈ sources := both.subset (by simp)
  exact (ordered both).concat (stays source among)

/-- Recording the points of a source. -/
theorem Tells.record (tells : book.Tells calls) (call : Recording) (some : call.points ≠ [])
    (now : String) : (book.record ⟨call.source, now, call.points⟩).Tells (calls ++ [call]) where
  listed source points := by
    simp only [files_record, Summary.mem_replace tells.once, Recording.last_concat]
    by_cases same : call.source = source
    · subst same
      rw [if_pos rfl]
      constructor
      · rintro ⟨manifest, rfl | ⟨_, differs⟩, file, rfl⟩
        · exact ⟨some, rfl⟩
        · exact absurd file differs
      · rintro ⟨_, rfl⟩
        exact ⟨_, .inl rfl, rfl, rfl⟩
    · rw [if_neg same, ← tells.listed]
      constructor
      · rintro ⟨manifest, rfl | ⟨among, _⟩, file, rfl⟩
        · exact absurd file same
        · exact ⟨manifest, among, file, rfl⟩
      · rintro ⟨manifest, among, rfl, rfl⟩
        exact ⟨manifest, .inr ⟨among, Ne.symm same⟩, rfl, rfl⟩
  once := by
    rw [files_record, Summary.map_file_replace]
    split
    · exact tells.once
    case isFalse unlisted =>
      rw [← List.concat_eq_append, List.nodup_concat]
      exact ⟨unlisted, tells.once⟩
  ordered := by
    have stays : ∀ source ∈ book.files.map Manifest.file,
        Recording.last (calls ++ [call]) source ≠ [] := by
      intro source among
      rw [Recording.last_concat]
      split
      · exact some
      · exact tells.last_ne_nil among
    have before := tells.ordered_concat (List.Sublist.refl _) stays
    rw [files_record, Summary.map_file_replace]
    split
    · exact before
    case isFalse unlisted =>
      rw [List.pairwise_append]
      refine ⟨before, List.pairwise_singleton _ _, fun source among other new => ?_⟩
      obtain rfl := List.mem_singleton.mp new
      exact Recording.isSooner_concat (tells.last_eq_nil unlisted) (tells.last_ne_nil among)
        (stays source among)
  total summary same := by
    obtain rfl := Option.some.inj same
    rfl
  manifests name manifest found := by
    rw [files_record, Summary.mem_replace tells.once]
    by_cases own : name = manifestName call.source
    · subst own
      have same : manifest = ⟨call.source, now, call.points⟩ := by
        simpa [Book.record, putManifest] using found.symm
      subst same
      exact ⟨rfl, .inl rfl⟩
    · have kept : book.manifest? name = Option.some manifest := by
        simpa [Book.record, putManifest, Function.update_of_ne own] using found
      obtain ⟨place, among⟩ := tells.manifests name manifest kept
      refine ⟨place, .inr ⟨among, ?_⟩⟩
      intro same
      exact own (by rw [place, same])
  present apart manifest among := by
    rw [files_record, Summary.mem_replace tells.once] at among
    rcases among with rfl | ⟨among, differs⟩
    · simp [Book.record, putManifest]
    · obtain ⟨other, called, same⟩ := tells.called among
      have elsewhere : manifestName manifest.file ≠ manifestName call.source := by
        intro shared
        apply differs
        rw [← same] at shared ⊢
        exact apart other (by simp [called]) call (by simp) shared
      have kept := tells.present (fun first here second there =>
        apart first (by simp [here]) second (by simp [there])) manifest among
      simpa [Book.record, putManifest, Function.update_of_ne elsewhere] using kept

/-- Retracting a source. -/
theorem Tells.retract (tells : book.Tells calls) (call : Recording) (none : call.points = [])
    (now : String) : (book.retract call.source now).Tells (calls ++ [call]) where
  listed source points := by
    simp only [files_retract, List.mem_filter, Recording.last_concat, none]
    by_cases same : call.source = source
    · subst same
      simp only [↓reduceIte, ne_eq, not_true_eq_false, false_and, iff_false]
      rintro ⟨manifest, ⟨_, differs⟩, file, _⟩
      simp [file] at differs
    · rw [if_neg same, ← tells.listed]
      constructor
      · rintro ⟨manifest, ⟨among, _⟩, file, rfl⟩
        exact ⟨manifest, among, file, rfl⟩
      · rintro ⟨manifest, among, rfl, rfl⟩
        exact ⟨manifest, ⟨among, by simpa using Ne.symm same⟩, rfl, rfl⟩
  once := by
    rw [files_retract]
    exact tells.once.sublist (List.filter_sublist.map _)
  ordered := by
    rw [files_retract]
    refine tells.ordered_concat (List.filter_sublist.map _) fun source among => ?_
    obtain ⟨manifest, kept, rfl⟩ := List.mem_map.mp among
    obtain ⟨listed, differs⟩ := List.mem_filter.mp kept
    have other : ¬ call.source = manifest.file := fun same => by simp [same] at differs
    rw [Recording.last_concat, if_neg other]
    exact tells.last_ne_nil (List.mem_map.mpr ⟨manifest, listed, rfl⟩)
  total summary same := by
    cases before : book.summary? with
    | none => simp [Book.retract, before] at same
    | some past =>
      have same : past.remove call.source now = summary := by
        simpa [Book.retract, before] using same
      subst same
      rw [Summary.remove]
      split
      · rfl
      · exact tells.total past before
  manifests name manifest found := by
    have found : (book.dropManifest call.source).manifest? name = some manifest := found
    rw [manifest?_dropManifest] at found
    split at found
    case isTrue => cases found
    case isFalse foreign =>
      obtain ⟨place, among⟩ := tells.manifests name manifest found
      refine ⟨place, ?_⟩
      rw [files_retract, List.mem_filter]
      refine ⟨among, ?_⟩
      have other : manifest.file ≠ call.source := by
        intro same
        exact foreign ⟨by rw [place, same], by simp [found, same]⟩
      simpa using other
  present apart manifest among := by
    rw [files_retract, List.mem_filter] at among
    obtain ⟨among, differs⟩ := among
    have kept := tells.present (fun first here second there =>
      apart first (by simp [here]) second (by simp [there])) manifest among
    have whole : (book.retract call.source now).manifest? (manifestName manifest.file) =
      (book.dropManifest call.source).manifest? (manifestName manifest.file) := rfl
    rw [whole, manifest?_dropManifest, if_neg, kept]
    rintro ⟨-, owned⟩
    simp [kept] at owned
    simp [owned] at differs

/-- A book goes on to tell what it should. -/
theorem Tells.update (tells : book.Tells calls) (call : Recording) (now : String) :
    (book.update call.source call.points now).Tells (calls ++ [call]) := by
  rw [Book.update]
  split
  case isTrue none => exact tells.retract call (List.isEmpty_iff.mp none) now
  case isFalse some => exact tells.record call (by simpa using some) now

theorem sum_map_filter {sources : List String} {kept : String → Bool} {count : String → Nat}
    (dropped : ∀ source, kept source = false → count source = 0) :
    ((sources.filter kept).map count).sum = (sources.map count).sum := by
  induction sources with
  | nil => rfl
  | cons source rest ih =>
    cases keep : kept source with
    | true => rw [List.filter_cons_of_pos keep, List.map_cons, List.sum_cons, ih, List.map_cons,
        List.sum_cons]
    | false => rw [List.filter_cons_of_neg (by simp [keep]), ih, List.map_cons, List.sum_cons,
        dropped source keep, Nat.zero_add]

/-- A summary counts the points on record. -/
theorem Tells.total_eq (tells : book.Tells calls) {summary : Summary}
    (listed : book.summary? = some summary) :
    summary.totalTracking = Recording.pointCount calls := by
  have files : book.files = summary.files := by simp [Book.files, listed]
  have sources : (summary.files.map Manifest.file).Perm
      ((calls.map Recording.source).dedup.filter fun source => Recording.last calls source ≠ []) := by
    rw [← files, List.perm_ext_iff_of_nodup tells.once ((List.nodup_dedup _).filter _)]
    intro source
    rw [List.mem_filter, List.mem_dedup, decide_eq_true_eq]
    constructor
    · intro among
      have recorded := tells.last_ne_nil among
      exact ⟨List.mem_map.mpr (Recording.exists_of_last recorded), recorded⟩
    · rintro ⟨-, recorded⟩
      by_contra unlisted
      exact recorded (tells.last_eq_nil unlisted)
  have counts : summary.files.map (fun manifest => manifest.tracking.length) =
      (summary.files.map Manifest.file).map fun source => (Recording.last calls source).length := by
    rw [List.map_map]
    apply List.map_congr_left
    intro manifest among
    rw [← files] at among
    have points := ((tells.listed _ _).mp ⟨manifest, among, rfl, rfl⟩).2
    exact congrArg List.length points
  rw [tells.total summary listed, List.length_flatMap, counts, (sources.map _).sum_nat,
    Recording.pointCount, sum_map_filter]
  intro source dropped
  have unrecorded : Recording.last calls source = [] := by simpa using dropped
  rw [unrecorded, List.length_nil]

end Book

/-! ## Keeping the book -/

namespace TrackingDirectory

variable {directory : TrackingDirectory} {book : Book} {store after : Store}

theorem texts_summaryName (book : Book) :
    book.texts summaryName = book.summary?.map fun summary => summary.toJson.pretty :=
  if_pos rfl

theorem texts_manifestName (book : Book) (source : String) :
    book.texts (manifestName source) =
      (book.manifest? (manifestName source)).map fun manifest => manifest.toJson.pretty :=
  if_neg (manifestName_ne_summaryName source)

/-- What is written of a summary changes the text of the summary. -/
theorem texts_putSummary (book : Book) (summary : Summary) :
    Function.update book.texts summaryName (some summary.toJson.pretty) =
      { book with summary? := some summary }.texts := by
  funext name
  by_cases same : name = summaryName
  · subst same
    rw [Function.update_self, texts_summaryName]
    rfl
  · rw [Function.update_of_ne same, Book.texts, if_neg same, Book.texts, if_neg same]

/-- What is written of a manifest, or removed, changes the text in its place. -/
theorem texts_updateManifest (book : Book) (source : String) (manifest? : Option Manifest) :
    Function.update book.texts (manifestName source)
        (manifest?.map fun manifest => manifest.toJson.pretty) =
      { book with
        manifest? := Function.update book.manifest? (manifestName source) manifest? }.texts := by
  funext name
  by_cases same : name = manifestName source
  · subst same
    simp only [texts_manifestName, Function.update_self]
  · simp only [Book.texts, Function.update_of_ne same]

/-- The summary that is read is the recorded one of the book. -/
theorem Holds.readSummary (holds : directory.Holds book.texts store)
    (fits : ∀ summary, book.summary? = some summary → summary.totalTracking < 2 ^ 64)
    {summary : Summary} (gives : directory.readSummary.Gives store summary after) :
    after = store ∧ summary = (book.summary?.map Summary.recorded).getD {} := by
  obtain ⟨text?, middle, read, gives⟩ := gives.of_bind
  obtain ⟨rfl, rfl⟩ := holds.read isName_summaryName read
  rw [texts_summaryName] at gives
  cases listed : book.summary? with
  | none =>
    rw [listed] at gives
    obtain ⟨rfl, rfl⟩ := Gives.of_pure gives
    exact ⟨rfl, rfl⟩
  | some past =>
    have parsed : Summary.ofText past.toJson.pretty = .ok past.recorded :=
      Json.Reader.readText_pretty (Summary.reads_toJson (fits past listed))
    rw [listed] at gives
    simp only [Option.map_some, parsed] at gives
    obtain ⟨rfl, rfl⟩ := Gives.of_pure gives
    exact ⟨rfl, rfl⟩

/-- Writing a summary that is recorded like another. -/
theorem Holds.writeSummary (holds : directory.Holds book.texts store) {summary other : Summary}
    (same : summary.recorded = other.recorded) {value : Unit}
    (gives : (directory.writeSummary summary).Gives store value after) :
    directory.Holds { book with summary? := some other }.texts after := by
  have text : summary.toJson.pretty = other.toJson.pretty := by
    rw [← Summary.toJson_recorded, same, Summary.toJson_recorded]
  rw [← texts_putSummary, ← text]
  exact holds.write isName_summaryName gives

/-- Recording the points of a file. -/
theorem Holds.record (holds : directory.Holds book.texts store)
    (fits : ∀ summary, book.summary? = some summary → summary.totalTracking < 2 ^ 64)
    {file : String} {points : List TrackingPoint} {manifest : Manifest}
    (gives : (directory.record file points).Gives store manifest after) :
    ∃ now, directory.Holds (book.record ⟨Path.normalize file, now, points⟩).texts after := by
  obtain ⟨_, made, created, gives⟩ := gives.of_bind
  obtain ⟨now, timed, clocked, gives⟩ := gives.of_bind
  obtain ⟨_, written, put, gives⟩ := gives.of_bind
  obtain ⟨_, last, changed, gives⟩ := gives.of_bind
  obtain ⟨rfl, rfl⟩ := Gives.of_pure gives
  obtain ⟨summary, middle, read, summarized⟩ := (gives_changingSummary changed).of_bind
  have inPlace :=
    ((holds.create created).now clocked).write (isName_manifestName (Path.normalize file)) put
  have texts := texts_updateManifest book (Path.normalize file)
    (some ⟨Path.normalize file, now, points⟩)
  rw [Option.map_some] at texts
  rw [texts] at inPlace
  obtain ⟨rfl, rfl⟩ := inPlace.readSummary fits read
  refine ⟨now, inPlace.writeSummary ?_ summarized⟩
  cases listed : book.summary? with
  | none => simp only [Option.map_none, Option.getD_none]
  | some past => exact past.upsert_recorded _

/-- Whether the manifest of a source is in its place. -/
theorem Holds.holdsManifestOf (holds : directory.Holds book.texts store) {file : String}
    {owned : Bool}
    (gives : (TrackingDirectory.holdsManifestOf (directory.manifestPath file)
      (Path.normalize file)).Gives store owned after) :
    after = store ∧ owned = (book.manifest? (manifestName (Path.normalize file))).any
      fun manifest => manifest.file = Path.normalize file := by
  obtain ⟨text?, middle, read, gives⟩ := gives.of_bind
  rw [manifestPath_eq] at read
  obtain ⟨rfl, text⟩ := holds.read (isName_manifestName (Path.normalize file)) read
  rw [texts_manifestName] at text
  subst text
  cases found : book.manifest? (manifestName (Path.normalize file)) with
  | none =>
    rw [found] at gives
    obtain ⟨rfl, rfl⟩ := Gives.of_pure gives
    exact ⟨rfl, rfl⟩
  | some manifest =>
    have parsed : Manifest.ofText manifest.toJson.pretty = .ok manifest.recorded :=
      Json.Reader.readText_pretty manifest.reads_toJson
    rw [found] at gives
    simp only [Option.map_some, parsed] at gives
    obtain ⟨rfl, rfl⟩ := Gives.of_pure gives
    exact ⟨rfl, rfl⟩

theorem Holds.removeManifest (holds : directory.Holds book.texts store) {file : String}
    {removed : Bool} (gives : (directory.removeManifest file).Gives store removed after) :
    directory.Holds (book.dropManifest (Path.normalize file)).texts after ∧
      (book.manifest? (manifestName (Path.normalize file)) = none → after = store) := by
  obtain ⟨owned, middle, read, gives⟩ := gives.of_bind
  obtain ⟨rfl, rfl⟩ := holds.holdsManifestOf read
  unfold Book.dropManifest
  split at gives
  case isTrue owned =>
    obtain ⟨_, last, gone, gives⟩ := gives.of_bind
    obtain ⟨rfl, rfl⟩ := Gives.of_pure gives
    rw [manifestPath_eq] at gone
    have dropped := holds.remove (isName_manifestName (Path.normalize file)) gone
    have texts := texts_updateManifest book (Path.normalize file) none
    rw [Option.map_none] at texts
    rw [texts] at dropped
    rw [if_pos owned]
    exact ⟨dropped, fun none => by simp [none] at owned⟩
  case isFalse foreign =>
    obtain ⟨rfl, rfl⟩ := Gives.of_pure gives
    rw [if_neg foreign]
    exact ⟨holds, fun _ => rfl⟩

theorem Holds.removeFromSummary (holds : directory.Holds book.texts store)
    (fits : ∀ summary, book.summary? = some summary → summary.totalTracking < 2 ^ 64)
    {file : String} {removed : Bool}
    (gives : (directory.removeFromSummary file).Gives store removed after) :
    (∃ now, directory.Holds
      { book with
        summary? := book.summary?.map fun summary : Summary =>
          summary.remove (Path.normalize file) now }.texts after) ∧
      (book.summary? = none → after = store) := by
  have same (unlisted : ∀ summary, book.summary? = some summary →
      summary.lists (Path.normalize file) = false) : directory.Holds
      { book with
        summary? := book.summary?.map fun summary : Summary =>
          summary.remove (Path.normalize file) "" }.texts store := by
    have kept : (book.summary?.map fun summary : Summary => summary.remove (Path.normalize file) "") =
        book.summary? := by
      cases listed : book.summary? with
      | none => rfl
      | some summary =>
        have unlisted := unlisted summary listed
        rw [Option.map_some, Summary.remove, unlisted]
        rfl
    rw [kept]
    exact holds
  obtain ⟨found, middle, asked, gives⟩ := gives.of_bind
  cases Gives.of_lift asked
  split at gives
  case isFalse missing =>
    obtain ⟨rfl, rfl⟩ := Gives.of_pure gives
    refine ⟨⟨"", same fun summary listed => ?_⟩, fun _ => rfl⟩
    have held : book.texts summaryName = some summary.toJson.pretty := by
      rw [texts_summaryName, listed]
      rfl
    have there := (holds.find?_iff isName_summaryName).mpr (congrArg _ held)
    exact absurd (congrArg Option.isSome there) missing
  case isTrue there =>
    obtain ⟨summary, middle, read, gives⟩ := (gives_changingSummary gives).of_bind
    obtain ⟨rfl, rfl⟩ := holds.readSummary fits read
    simp only at gives
    split at gives
    case isTrue listed =>
      obtain ⟨now, timed, clocked, gives⟩ := gives.of_bind
      obtain ⟨_, last, written, gives⟩ := gives.of_bind
      obtain ⟨rfl, rfl⟩ := Gives.of_pure gives
      cases past : book.summary? with
      | none =>
        rw [past] at listed
        cases listed
      | some summary =>
        refine ⟨⟨now, ?_⟩, fun none => by cases none⟩
        rw [past] at written
        exact (holds.now clocked).writeSummary (summary.remove_recorded _ now) written
    case isFalse unlisted =>
      obtain ⟨rfl, rfl⟩ := Gives.of_pure gives
      refine ⟨⟨"", same fun summary past => ?_⟩, fun _ => rfl⟩
      rw [past] at unlisted
      simpa [Summary.lists_recorded] using unlisted

/-- Bringing the records of a file up to date without diagnostics brings the book up to date. An
update that leaves the book without a summary changes nothing. -/
theorem Holds.update (holds : directory.Holds book.texts store)
    (fits : ∀ summary, book.summary? = some summary → summary.totalTracking < 2 ^ 64)
    (call : Recording) (none : ((directory.update call.file call.points).run store).1 = []) :
    let after := ((directory.update call.file call.points).run store).2
    ∃ now, directory.Holds (book.update call.source call.points now).texts after ∧
      ((∀ name, book.manifest? name = Option.none) →
        (book.update call.source call.points now).summary? = Option.none → after = store) := by
  rw [TrackingDirectory.update] at none ⊢
  unfold Book.update
  split
  case isTrue empty =>
    rw [if_pos empty] at none
    obtain ⟨_, gives⟩ := gives_of_diagnostics none
    obtain ⟨_, middle, removed, gives⟩ := gives.of_bind
    obtain ⟨_, last, dropped, gives⟩ := gives.of_bind
    obtain ⟨-, same⟩ := Gives.of_pure gives
    obtain ⟨gone, keptManifest⟩ := holds.removeManifest removed
    obtain ⟨⟨now, unlisted⟩, keptSummary⟩ := gone.removeFromSummary fits dropped
    refine ⟨now, same ▸ unlisted, fun noManifest noSummary => ?_⟩
    have blank : book.summary? = Option.none := by simpa [Book.retract] using noSummary
    rw [same, keptSummary blank, keptManifest (noManifest _)]
  case isFalse some =>
    rw [if_neg some] at none
    obtain ⟨_, gives⟩ := gives_of_diagnostics none
    obtain ⟨now, recorded⟩ := holds.record fits gives
    exact ⟨now, recorded, fun _ noSummary => by cases noSummary⟩

/-! ## Sequences of calls -/

/-- Bring the records of files up to date, one call after another. -/
def recordAll (directory : TrackingDirectory) : List Recording → Action (List Diagnostic)
  | [] => return []
  | call :: calls => do
    let diagnostics ← directory.update call.file call.points
    return diagnostics ++ (← directory.recordAll calls)

/-- Nothing is recorded in a directory: it has no entries, and asking for its summary finds none. -/
structure IsEmpty (directory : TrackingDirectory) (store : Store) : Prop where
  noEntry : ∀ name, store.entry? (directory.place ++ [name]) = none
  noSummary : ∃ error, store.readText directory.summaryPath = .error error ∧ error.notFound = true

theorem IsEmpty.holds (empty : directory.IsEmpty store) :
    directory.Holds ({} : Book).texts store := by
  have blank : ({} : Book).texts = fun _ => none := by
    funext name
    simp [Book.texts]
  rw [blank]
  refine ⟨fun name => ?_, fun name held => absurd rfl held, fun name held => absurd rfl held⟩
  rw [Store.file?, empty.noEntry]
  rfl

theorem recordAll_cons (call : Recording) (calls : List Recording) (store : Store) :
    (directory.recordAll (call :: calls)).run store =
      let first := (directory.update call.file call.points).run store
      let rest := (directory.recordAll calls).run first.2
      (first.1 ++ rest.1, rest.2) := by
  rw [recordAll, Action.run_bind, Action.run_bind]
  rfl

/-- A book that tells of the calls so far is kept while more calls are made. -/
theorem exists_book {start : Store} {past calls : List Recording}
    (fits : ∀ earlier, earlier <+: past ++ calls → Recording.pointCount earlier < 2 ^ 64)
    (none : ((directory.recordAll calls).run store).1 = []) (tells : book.Tells past)
    (holds : directory.Holds book.texts store)
    (unchanged : book.summary? = Option.none → store = start) :
    ∃ last : Book, last.Tells (past ++ calls) ∧
      directory.Holds last.texts ((directory.recordAll calls).run store).2 ∧
      (last.summary? = Option.none → ((directory.recordAll calls).run store).2 = start) := by
  induction calls generalizing past book store with
  | nil => exact ⟨book, by rwa [List.append_nil], holds, unchanged⟩
  | cons call calls ih =>
    rw [recordAll_cons] at none ⊢
    obtain ⟨first, rest⟩ := List.append_eq_nil_iff.mp none
    have small : ∀ summary, book.summary? = some summary → summary.totalTracking < 2 ^ 64 := by
      intro summary listed
      rw [tells.total_eq listed]
      exact fits past (List.prefix_append _ _)
    obtain ⟨now, kept, still⟩ := holds.update small call first
    have joined : past ++ [call] ++ calls = past ++ call :: calls := by simp
    rw [← joined] at fits ⊢
    refine ih fits rest (tells.update call now) kept fun noSummary => ?_
    have before : book.summary? = Option.none := by
      rw [Book.update] at noSummary
      split at noSummary
      · simpa [Book.retract] using noSummary
      · cases noSummary
    have noManifest (name : String) : book.manifest? name = Option.none := by
      cases found : book.manifest? name with
      | none => rfl
      | some manifest =>
        have among := (tells.manifests name manifest found).2
        rw [Book.files, before] at among
        cases among
    rw [still noManifest noSummary, unchanged before]

/-- The records of a directory agree with each other and with the calls that made them. -/
structure Reflects (directory : TrackingDirectory) (calls : List Recording) (summary : Summary)
    (store : Store) : Prop where
  /-- The summary lists the sources whose last call had points, with these points as recorded. -/
  listed : ∀ source points,
    (∃ manifest ∈ summary.files, manifest.file = source ∧ manifest.tracking = points) ↔
      Recording.last calls source ≠ [] ∧
        points = (Recording.last calls source).map TrackingPoint.recorded
  once : (summary.files.map Manifest.file).Nodup
  ordered : (summary.files.map Manifest.file).Pairwise (Recording.IsSooner calls)
  total : summary.totalTracking =
    (summary.files.map fun manifest => manifest.tracking.length).sum
  /-- Every other file is the manifest of a source, and the summary lists it as it is. -/
  manifests : ∀ name bytes, name ≠ summaryName →
    store.entry? (directory.place ++ [name]) = some (.file bytes) →
      ∃ text manifest, String.fromUTF8? bytes = some text ∧ Manifest.ofText text = .ok manifest ∧
        name = manifestName manifest.file ∧ manifest ∈ summary.files
  /-- If no two sources share the place of their manifest, those that are listed have one. -/
  present :
    (∀ call ∈ calls, ∀ other ∈ calls,
      directory.manifestPath call.file = directory.manifestPath other.file →
        call.source = other.source) →
    ∀ call ∈ calls, (∃ bytes, store.find? (directory.manifestPath call.file) = some (.file bytes)) ↔
      summary.lists call.source = true

/-- The summary of a book as it is read. -/
theorem Holds.reflects (holds : directory.Holds book.texts store) {calls : List Recording}
    (tells : book.Tells calls) {summary : Summary}
    (read : summary = (book.summary?.map Summary.recorded).getD {}) :
    directory.Reflects calls summary store := by
  have files : summary.files = book.files.map Manifest.recorded := by
    rw [read]
    cases listed : book.summary? <;> simp [Book.files, listed, Summary.recorded]
  have sources : summary.files.map Manifest.file = book.files.map Manifest.file := by
    rw [files, List.map_map]
    rfl
  have atPlace {name : String} {bytes : ByteArray} (differs : name ≠ summaryName)
      (found : (book.texts name).map String.toUTF8 = some bytes) :
      ∃ manifest, book.manifest? name = some manifest ∧
        bytes = manifest.toJson.pretty.toUTF8 := by
    rw [Book.texts, if_neg differs, Option.map_map] at found
    obtain ⟨manifest, present, rfl⟩ := Option.map_eq_some_iff.mp found
    exact ⟨manifest, present, rfl⟩
  constructor
  case listed =>
    intro source points
    constructor
    · rintro ⟨manifest, among, rfl, rfl⟩
      rw [files] at among
      obtain ⟨whole, kept, rfl⟩ := List.mem_map.mp among
      have recorded := (tells.listed _ _).mp ⟨whole, kept, rfl, rfl⟩
      exact ⟨recorded.1, congrArg (List.map TrackingPoint.recorded) recorded.2⟩
    · rintro ⟨recorded, rfl⟩
      obtain ⟨manifest, among, same, points⟩ := (tells.listed source _).mpr ⟨recorded, rfl⟩
      refine ⟨manifest.recorded, ?_, same, congrArg (List.map TrackingPoint.recorded) points⟩
      rw [files]
      exact List.mem_map.mpr ⟨manifest, among, rfl⟩
  case once => rw [sources]; exact tells.once
  case ordered => rw [sources]; exact tells.ordered
  case total =>
    rw [← List.length_flatMap, read]
    cases listed : book.summary? with
    | none => rfl
    | some past =>
      have count := tells.total past listed
      rw [← Summary.count_recorded] at count
      exact count
  case manifests =>
    intro name bytes differs found
    rw [← Store.file?_eq_some, holds.files] at found
    obtain ⟨manifest, there, rfl⟩ := atPlace differs found
    obtain ⟨place, among⟩ := tells.manifests name manifest there
    refine ⟨_, manifest.recorded, Store.fromUTF8?_toUTF8 _,
      Json.Reader.readText_pretty manifest.reads_toJson, place, ?_⟩
    rw [files]
    exact List.mem_map.mpr ⟨manifest, among, rfl⟩
  case present =>
    intro apart call called
    have lists : summary.lists call.source = true ↔
        ∃ manifest ∈ book.files, manifest.file = call.source := by
      simp only [Summary.lists, files, List.any_map, List.any_eq_true, Function.comp_apply,
        decide_eq_true_eq]
      rfl
    have named {first second : Recording} (here : first ∈ calls) (there : second ∈ calls)
        (shared : manifestName first.source = manifestName second.source) :
        first.source = second.source :=
      apart first here second there (congrArg (Path.join directory.path) shared)
    rw [lists, manifestPath_eq]
    simp only [holds.find?_iff (isName_manifestName _)]
    constructor
    · rintro ⟨bytes, found⟩
      obtain ⟨manifest, there, rfl⟩ := atPlace (manifestName_ne_summaryName _) found
      obtain ⟨place, among⟩ := tells.manifests _ manifest there
      obtain ⟨other, calledToo, same⟩ := tells.called among
      refine ⟨manifest, among, ?_⟩
      rw [← same] at place ⊢
      exact (named called calledToo place).symm
    · rintro ⟨manifest, among, same⟩
      have there := tells.present (fun first here second there => named here there) manifest among
      refine ⟨manifest.toJson.pretty.toUTF8, ?_⟩
      change (book.texts (manifestName call.source)).map String.toUTF8 = _
      rw [← same, texts_manifestName, there]
      rfl

/-- **The records of a build agree.** Whatever files are recorded and retracted in an empty directory,
one after another and without diagnostics: the summary can be read, lists the sources whose last call
had points, in the order in which they came on record, and agrees with the manifests. -/
theorem records_agree (directory : TrackingDirectory) (store : Store) (calls : List Recording)
    (empty : directory.IsEmpty store)
    (fits : ∀ past, past <+: calls → Recording.pointCount past < 2 ^ 64)
    (noFailure : ((directory.recordAll calls).run store).1 = []) :
    let after := ((directory.recordAll calls).run store).2
    ∃ summary, Action.run directory.readSummary.run after = (.ok summary, after) ∧
      directory.Reflects calls summary after := by
  intro after
  have fitsAll : ∀ past, past <+: [] ++ calls → Recording.pointCount past < 2 ^ 64 := fits
  obtain ⟨book, tells, holds, unchanged⟩ := exists_book fitsAll noFailure
    Book.tells_nil empty.holds fun _ => rfl
  rw [List.nil_append] at tells
  refine ⟨_, ?_, holds.reflects tells rfl⟩
  cases listed : book.summary? with
  | none =>
    obtain ⟨error, read, missing⟩ := empty.noSummary
    rw [← unchanged listed] at read
    exact (gives_read?_missing read missing).bind gives_pure
  | some past =>
    have held : book.texts summaryName = some past.toJson.pretty := by
      rw [texts_summaryName, listed]
      rfl
    have small : past.totalTracking < 2 ^ 64 := by
      rw [tells.total_eq listed]
      exact fits calls (List.prefix_refl _)
    have parsed : Summary.ofText past.toJson.pretty = .ok past.recorded :=
      Json.Reader.readText_pretty (Summary.reads_toJson small)
    refine (gives_read?_ok (holds.readText isName_summaryName held)).bind ?_
    simp only [parsed]
    exact gives_pure

/-- A file without points, and one with points under a path that is not normalized, in a directory
that is not there yet. -/
theorem records_agree_page :
    let directory : TrackingDirectory := ⟨"out/tracking", false⟩
    let store : Store := { clock := fun _ => "2024-01-01T00:00:00Z", refusal := "refused" }
    let point : TrackingPoint := ⟨.click, "buy", "button", "src/Page.tsx", false⟩
    let calls : List Recording := [⟨"src/Cart.tsx", []⟩, ⟨"src\\Page.tsx", [point]⟩]
    let after := ((directory.recordAll calls).run store).2
    directory.IsEmpty store ∧
      (∀ past, past <+: calls → Recording.pointCount past < 2 ^ 64) ∧
      ((directory.recordAll calls).run store).1 = [] ∧
      ∃ summary, Action.run directory.readSummary.run after = (.ok summary, after) ∧
        directory.Reflects calls summary after ∧
        ∃ manifest ∈ summary.files,
          manifest.file = "src/Page.tsx" ∧ manifest.tracking = [{ point with file := "" }] := by
  intro directory store point calls after
  have empty : directory.IsEmpty store :=
    ⟨fun name => by simp [store, Store.entry?], ⟨true, "refused"⟩, by decide +kernel, rfl⟩
  have fits : ∀ past, past <+: calls → Recording.pointCount past < 2 ^ 64 := by
    intro past before
    have counts : ∀ past ∈ calls.inits, Recording.pointCount past < 2 ^ 64 := by decide +kernel
    exact counts past ((List.mem_inits _ _).mpr before)
  have noFailure : ((directory.recordAll calls).run store).1 = [] := by decide +kernel
  obtain ⟨summary, read, reflects⟩ := records_agree directory store calls empty fits noFailure
  exact ⟨empty, fits, noFailure, summary, read, reflects,
    (reflects.listed _ _).mpr ⟨by decide +kernel, by decide +kernel⟩⟩

end TrackingDirectory

end JsxTracking
