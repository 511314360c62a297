import JsxTracking.Proofs.RecordBook
import JsxTracking.Proofs.StoredRecords

/-! # What a retraction removes

A retraction removes the manifest of a file and its entries in the summary, each only if it can be read
and names the file. Each of its two steps changes at most the file at one place, which the other leaves
alone, so what it does is told by the records that the store had before
(`TrackingDirectory.retracted`). A summary without an entry for the file is not written, and its total
stays what it was. -/

namespace JsxTracking

namespace Path

variable {directory name : String}

theorem place_join (isName : IsName name) : place (join directory name) = place directory ++ [name] := by
  rw [place, components_join isName, List.foldl_append]
  rfl

end Path

/-- A summary without anything that is not recorded stays so when a file is dropped. -/
theorem Summary.recorded_remove {summary : Summary} (fixed : summary.recorded = summary)
    (file now : String) : (summary.remove file now).recorded = summary.remove file now := by
  have files : summary.files.map Manifest.recorded = summary.files := congrArg Summary.files fixed
  have each : ∀ manifest ∈ summary.files, manifest.recorded = id manifest := by
    rwa [← List.map_inj_left, List.map_id]
  have kept : (summary.remove file now).files.map Manifest.recorded =
      (summary.remove file now).files.map id := by
    refine List.map_congr_left fun manifest among => each manifest ?_
    rw [files_remove] at among
    exact (List.mem_filter.mp among).1
  rw [recorded, kept, List.map_id]

open FallibleAction

namespace TrackingDirectory

variable {directory : TrackingDirectory} {store after : Store} {file : String}

/-- The manifest and the summary are not in one place. -/
theorem place_manifestPath_ne (directory : TrackingDirectory) (file : String) :
    Path.place (directory.manifestPath file) ≠ Path.place directory.summaryPath := by
  rw [manifestPath_eq, summaryPath_eq, Path.place_join (isName_manifestName _),
    Path.place_join isName_summaryName]
  intro same
  exact manifestName_ne_summaryName (Path.normalize file) (by simpa using same)

/-- The manifest in the place of a file's can be read and names the file. -/
def OwnsManifest (directory : TrackingDirectory) (file : String) (store : Store) : Prop :=
  ∃ manifest, store.HasManifest (directory.manifestPath file) manifest ∧
    manifest.file = Path.normalize file

/-- The summary can be read and has an entry for a file. -/
def ListsFile (directory : TrackingDirectory) (file : String) (store : Store) : Prop :=
  ∃ summary, store.HasSummary directory.summaryPath summary ∧
    ∃ manifest ∈ summary.files, manifest.file = Path.normalize file

theorem ownsManifest_congr
    (same : after.find? (directory.manifestPath file) = store.find? (directory.manifestPath file)) :
    directory.OwnsManifest file after ↔ directory.OwnsManifest file store := by
  simp only [OwnsManifest, Store.HasManifest, same]

theorem hasSummary_congr {path : String} (same : after.find? path = store.find? path)
    {summary : Summary} : after.HasSummary path summary ↔ store.HasSummary path summary := by
  simp only [Store.HasSummary, same]

theorem listsFile_congr
    (same : after.find? directory.summaryPath = store.find? directory.summaryPath) :
    directory.ListsFile file after ↔ directory.ListsFile file store := by
  simp only [ListsFile, hasSummary_congr same]

/-! ## The steps of a retraction -/

/-- The manifest is removed exactly if it is that of the file. -/
theorem gives_removeManifest {had : Bool}
    (gives : (directory.removeManifest file).Gives store had after) :
    Store.ChangesAt (Path.place (directory.manifestPath file)) store after ∧
      (had = true ↔ directory.OwnsManifest file store) ∧
      (had = true → after.find? (directory.manifestPath file) = none) ∧
      (had = false → after.entries = store.entries) := by
  obtain ⟨held, middle, asked, gives⟩ := gives.of_bind
  obtain ⟨same, isHeld⟩ := gives_holdsManifestOf asked
  cases held with
  | true =>
    obtain ⟨_, removed, removal, gives⟩ := gives.of_bind
    obtain ⟨rfl, rfl⟩ := gives.of_pure
    obtain ⟨changes, gone⟩ := Store.removeFile_ok (gives_remove removal)
    exact ⟨(Store.ChangesAt.of_entries same).trans changes, isHeld, fun _ => gone,
      fun kept => absurd kept.symm Bool.false_ne_true⟩
  | false =>
    obtain ⟨rfl, rfl⟩ := gives.of_pure
    exact ⟨.of_entries same, isHeld, fun taken => absurd taken Bool.false_ne_true, fun _ => same⟩

/-- The summary is written exactly if it has an entry for the file, and then without that. -/
theorem gives_removeFromSummary {listed : Bool}
    (gives : (directory.removeFromSummary file).Gives store listed after) :
    Store.ChangesAt (Path.place directory.summaryPath) store after ∧
      (listed = true ↔ directory.ListsFile file store) ∧
      (listed = true → ∃ summary now, store.HasSummary directory.summaryPath summary ∧
        summary.lists (Path.normalize file) = true ∧
        after.find? directory.summaryPath =
          some (.file (summary.remove (Path.normalize file) now).toJson.pretty.toUTF8)) ∧
      (listed = false → after.entries = store.entries) := by
  obtain ⟨there, middle, asked, gives⟩ := gives.of_bind
  obtain ⟨rfl, rfl⟩ := Prod.mk.inj asked.of_lift
  cases found : store.find? directory.summaryPath with
  | none =>
    rw [found] at gives
    obtain ⟨rfl, rfl⟩ := gives.of_pure
    refine ⟨.of_entries rfl, ⟨fun dropped => absurd dropped Bool.false_ne_true, ?_⟩,
      fun dropped => absurd dropped Bool.false_ne_true, fun _ => rfl⟩
    rintro ⟨summary, ⟨bytes, isFile, -⟩, -⟩
    rw [found] at isFile
    cases isFile
  | some entry =>
    rw [found] at gives
    obtain ⟨summary, looked, read, gives⟩ := (gives_changingSummary gives).of_bind
    obtain ⟨same, has⟩ := gives_readSummary read
    dsimp only at gives
    split at gives
    case isTrue lists =>
      obtain ⟨now, timed, clock, gives⟩ := gives.of_bind
      obtain ⟨_, written, writing, gives⟩ := gives.of_bind
      obtain ⟨rfl, rfl⟩ := gives.of_pure
      obtain ⟨changes, held⟩ := Store.writeBytes_ok (gives_write writing)
      rcases has with has | ⟨rfl, -⟩
      · have listed : directory.ListsFile file store :=
          ⟨summary, has, by simpa [Summary.lists] using lists⟩
        have unchanged := (gives_now clock).trans same
        exact ⟨(Store.ChangesAt.of_entries unchanged).trans changes, iff_of_true rfl listed,
          fun _ => ⟨summary, now, has, lists, held⟩,
          fun kept => absurd kept.symm Bool.false_ne_true⟩
      · cases lists
    case isFalse unlisted =>
      obtain ⟨rfl, rfl⟩ := gives.of_pure
      refine ⟨.of_entries same, ⟨fun dropped => absurd dropped Bool.false_ne_true, ?_⟩,
        fun dropped => absurd dropped Bool.false_ne_true, fun _ => same⟩
      rintro ⟨other, hasOther, among⟩
      rcases has with has | ⟨-, none⟩
      · obtain rfl := has.unique hasOther
        exact absurd (by simpa [Summary.lists] using among) unlisted
      · exact absurd hasOther (none other)

/-- A summary that is written without a file lists it no more. -/
theorem not_listsFile_of_removed {summary : Summary} {now : String}
    (held : after.find? directory.summaryPath =
      some (.file (summary.remove (Path.normalize file) now).toJson.pretty.toUTF8)) :
    ¬ directory.ListsFile file after := by
  rintro ⟨other, ⟨bytes, found, spelled⟩, manifest, among, same⟩
  obtain rfl := Entry.file.inj (Option.some.inj (held.symm.trans found))
  obtain ⟨rfl, -⟩ := Summary.isSpelledBy_pretty_iff.mp spelled
  obtain ⟨original, kept, rfl⟩ := List.mem_map.mp among
  rw [Summary.files_remove] at kept
  have differs : original.file ≠ Path.normalize file := by
    simpa using (List.mem_filter.mp kept).2
  exact differs same

/-! ## Retractions -/

/-- **What a retraction removes.** A retraction that succeeds tells whether the manifest in the place of
the file's could be read and named the file, or the summary could be read and listed it. Neither is so
afterwards. Every other file is as it was; so is the manifest if it was not that of the file, and the
summary if it did not list the file. A summary that did keeps its other entries in order, their points
are counted anew, and it can be read again if the count is one that can be read at all. -/
theorem retracted {removed : Bool} (gives : (directory.retract file).Gives store removed after) :
    (removed = true ↔ directory.OwnsManifest file store ∨ directory.ListsFile file store) ∧
    (¬ directory.OwnsManifest file after ∧ ¬ directory.ListsFile file after) ∧
    (∀ path, Path.place path ≠ Path.place (directory.manifestPath file) →
      Path.place path ≠ Path.place directory.summaryPath → after.find? path = store.find? path) ∧
    ((directory.OwnsManifest file store → after.find? (directory.manifestPath file) = none) ∧
      (¬ directory.OwnsManifest file store →
        after.find? (directory.manifestPath file) = store.find? (directory.manifestPath file))) ∧
    ((directory.ListsFile file store → ∃ summary rest,
        store.HasSummary directory.summaryPath summary ∧
        after.find? directory.summaryPath = some (.file rest.toJson.pretty.toUTF8) ∧
        rest.files = summary.files.filter (fun manifest => manifest.file ≠ Path.normalize file) ∧
        rest.totalTracking = (rest.files.map fun manifest => manifest.tracking.length).sum ∧
        (rest.totalTracking < 2 ^ 64 → after.HasSummary directory.summaryPath rest)) ∧
      (¬ directory.ListsFile file store →
        after.find? directory.summaryPath = store.find? directory.summaryPath)) ∧
    (removed = false → after.entries = store.entries) := by
  obtain ⟨had, middle, first, gives⟩ := gives.of_bind
  obtain ⟨listed, last, second, gives⟩ := gives.of_bind
  obtain ⟨rfl, rfl⟩ := gives.of_pure
  obtain ⟨changed, hadIff, gone, untouched⟩ := gives_removeManifest first
  obtain ⟨rewritten, listedIff, held, unwritten⟩ := gives_removeFromSummary second
  have apart := directory.place_manifestPath_ne file
  have atSummary : middle.find? directory.summaryPath = store.find? directory.summaryPath :=
    changed.find?_eq apart.symm
  have atManifest : after.find? (directory.manifestPath file) =
      middle.find? (directory.manifestPath file) := rewritten.find?_eq apart
  rw [listsFile_congr atSummary] at listedIff
  refine ⟨?_, ⟨?_, ?_⟩, fun path notManifest notSummary => ?_, ⟨?_, ?_⟩, ⟨?_, ?_⟩, ?_⟩
  · rw [Bool.or_eq_true, hadIff, listedIff]
  · rw [ownsManifest_congr atManifest]
    intro owns
    cases had with
    | true =>
      obtain ⟨manifest, ⟨bytes, found, -⟩, -⟩ := owns
      rw [gone rfl] at found
      cases found
    | false =>
      rw [ownsManifest_congr (Store.find?_of_entries (untouched rfl) _)] at owns
      exact absurd (hadIff.mpr owns) Bool.false_ne_true
  · cases listed with
    | true =>
      obtain ⟨summary, now, -, -, written⟩ := held rfl
      exact not_listsFile_of_removed written
    | false =>
      rw [listsFile_congr (Store.find?_of_entries (unwritten rfl) _), listsFile_congr atSummary]
      exact fun lists => absurd (listedIff.mpr lists) Bool.false_ne_true
  · rw [rewritten.find?_eq notSummary, changed.find?_eq notManifest]
  · intro owns
    rw [atManifest, gone (hadIff.mpr owns)]
  · intro foreign
    have kept : had = false := Bool.eq_false_iff.mpr fun had => foreign (hadIff.mp had)
    rw [atManifest, Store.find?_of_entries (untouched kept)]
  · intro lists
    obtain ⟨summary, now, has, among, written⟩ := held (listedIff.mpr lists)
    have total : (summary.remove (Path.normalize file) now).totalTracking =
        ((summary.remove (Path.normalize file) now).files.map fun manifest =>
          manifest.tracking.length).sum := by
      rw [Summary.remove, if_pos among, Summary.refresh, List.length_flatMap]
    refine ⟨summary, summary.remove (Path.normalize file) now, (hasSummary_congr atSummary).mp has,
      written, Summary.files_remove _ _ _, total, fun fits => ⟨_, written, ?_⟩⟩
    obtain ⟨bytes, -, _, document, -, -, means⟩ := has
    have fixed := Summary.recorded_remove (Summary.recorded_of_document means)
      (Path.normalize file) now
    exact Summary.isSpelledBy_pretty_iff.mpr ⟨fixed.symm, fits⟩
  · intro unlisted
    have kept : listed = false := Bool.eq_false_iff.mpr fun listed => unlisted (listedIff.mp listed)
    rw [Store.find?_of_entries (unwritten kept), atSummary]
  · intro nothing
    obtain ⟨noManifest, noEntry⟩ := Bool.or_eq_false_iff.mp nothing
    rw [unwritten noEntry, untouched noManifest]

/-- A summary that lists a file twice, next to a manifest in the place of the file's that names another
file with its stem. All of them are written as lists. -/
theorem retracted_twice_listed :
    let directory : TrackingDirectory := ⟨"t", false⟩
    let store := Store.inDirectory [
      ("A-tracking.json", .file "[\"lib/A.tsx\", \"\", []]".toUTF8),
      ("tracking-summary.json", .file ("[[[\"src/A.tsx\", \"\", []], [\"lib/A.tsx\", \"\", []], " ++
        "[\"src/A.tsx\", \"\", []]], 9, \"\"]").toUTF8)]
    ∃ after, (directory.retract "src/A.tsx").Gives store true after ∧
      ¬ directory.OwnsManifest "src/A.tsx" store ∧ directory.ListsFile "src/A.tsx" store ∧
      ¬ directory.ListsFile "src/A.tsx" after ∧
      after.find? "t/A-tracking.json" = store.find? "t/A-tracking.json" ∧
      ∃ updated, after.HasSummary directory.summaryPath ⟨[⟨"lib/A.tsx", "", []⟩], 0, updated⟩ := by
  intro directory store
  obtain ⟨after, gives⟩ : ∃ after, (directory.retract "src/A.tsx").Gives store true after :=
    ⟨_, gives_of_toOption (by decide +kernel)⟩
  obtain ⟨told, ⟨-, unlisted⟩, -, ⟨-, kept⟩, ⟨rewritten, -⟩, -⟩ := retracted gives
  have path : directory.manifestPath "src/A.tsx" = "t/A-tracking.json" := by decide +kernel
  have foreign : ¬ directory.OwnsManifest "src/A.tsx" store := by
    rintro ⟨manifest, has, named⟩
    have held : store.HasManifest (directory.manifestPath "src/A.tsx") ⟨"lib/A.tsx", "", []⟩ :=
      Store.hasManifest_of_toOption (by decide +kernel)
    rw [← held.unique has] at named
    exact absurd named (by decide +kernel)
  have lists := (told.mp rfl).resolve_left foreign
  refine ⟨after, gives, foreign, lists, unlisted, by rw [← path]; exact kept foreign, ?_⟩
  obtain ⟨summary, ⟨files, total, updated⟩, has, -, rest, sum, held⟩ := rewritten lists
  have listed : store.HasSummary directory.summaryPath
      ⟨[⟨"src/A.tsx", "", []⟩, ⟨"lib/A.tsx", "", []⟩, ⟨"src/A.tsx", "", []⟩], 9, ""⟩ :=
    Store.hasSummary_of_toOption (by decide +kernel)
  obtain rfl := listed.unique has
  obtain rfl : files = [⟨"lib/A.tsx", "", []⟩] := rest.trans (by decide +kernel)
  obtain rfl : total = 0 := sum
  exact ⟨updated, held (Nat.two_pow_pos 64)⟩

/-- The total of a summary without an entry for the file is not counted anew: the manifest of the file
goes, and the summary stays as it was, with a total that is not that of its points. -/
theorem stale_total_kept :
    let directory : TrackingDirectory := ⟨"t", false⟩
    let store := Store.inDirectory [
      ("A-tracking.json",
        .file "\x7b\"file\": \"src/A.tsx\", \"timestamp\": \"\", \"tracking\": []\x7d".toUTF8),
      ("tracking-summary.json",
        .file "\x7b\"files\": [], \"totalTracking\": 99, \"lastUpdated\": \"\"\x7d".toUTF8)]
    ∃ after summary, (directory.retract "src/A.tsx").Gives store true after ∧
      after.HasSummary directory.summaryPath summary ∧
      summary.totalTracking ≠ (summary.files.map fun manifest => manifest.tracking.length).sum := by
  intro directory store
  have held : Store.HasSummary (Action.run (directory.retract "src/A.tsx").run store).2
      directory.summaryPath ⟨[], 99, ""⟩ := Store.hasSummary_of_toOption (by decide +kernel)
  exact ⟨_, _, gives_of_toOption (by decide +kernel), held, by decide⟩

end TrackingDirectory

end JsxTracking
