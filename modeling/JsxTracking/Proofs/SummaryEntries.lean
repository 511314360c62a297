import JsxTracking.Proofs.RecordBook

/-! # The entries of a summary

A summary is kept as a list of manifests and used as a table with the file as its key. An update
replaces the first entry of its file only, or adds one (`replace_cases`), while a removal drops all
of them. So a summary that lists each file at most once stays one (`IsBuilt.isKeyed`), and there an
update leaves exactly its manifest for its file. A summary that was merged or edited by hand may list
a file several times; then the later entries outlive the update, and count in the total
(`upsert_entries_iff`). -/

namespace JsxTracking

namespace Summary

variable {summary : Summary} {manifest : Manifest} {file : String}

/-- The entries of a file, in their order. -/
def entries (summary : Summary) (file : String) : List Manifest :=
  summary.files.filter fun entry => entry.file = file

/-- The entries of all other files, in their order. -/
def others (summary : Summary) (file : String) : List Manifest :=
  summary.files.filter fun entry => entry.file ≠ file

/-- A summary lists each file at most once. -/
def IsKeyed (summary : Summary) : Prop :=
  ∀ file, (summary.entries file).length ≤ 1

/-- A manifest takes the place of the first entry of its file, or comes last. -/
theorem replace_cases (manifest : Manifest) (files : List Manifest) :
    (∀ entry ∈ files, entry.file ≠ manifest.file) ∧ replace manifest files = files ++ [manifest] ∨
      ∃ before entry after, files = before ++ entry :: after ∧
        (∀ entry ∈ before, entry.file ≠ manifest.file) ∧ entry.file = manifest.file ∧
        replace manifest files = before ++ manifest :: after := by
  induction files with
  | nil => exact .inl ⟨fun _ present => absurd present List.not_mem_nil, rfl⟩
  | cons first rest ih =>
    rw [replace]
    split
    case isTrue same =>
      exact .inr ⟨[], first, rest, rfl, fun _ present => absurd present List.not_mem_nil, same, rfl⟩
    case isFalse different =>
      obtain ⟨free, added⟩ | ⟨before, entry, after, rfl, free, same, replaced⟩ := ih
      · exact .inl ⟨List.forall_mem_cons.mpr ⟨different, free⟩, by rw [added, List.cons_append]⟩
      · exact .inr ⟨first :: before, entry, after, rfl, List.forall_mem_cons.mpr ⟨different, free⟩,
          same, by rw [replaced, List.cons_append]⟩

/-- An update puts its manifest in front of the later entries of its file. -/
theorem entries_upsert (summary : Summary) (manifest : Manifest) :
    (summary.upsert manifest).entries manifest.file =
      manifest :: (summary.entries manifest.file).tail := by
  have none {files : List Manifest} (free : ∀ entry ∈ files, entry.file ≠ manifest.file) :
      files.filter (fun entry => entry.file = manifest.file) = [] :=
    List.filter_eq_nil_iff.mpr fun entry present => by simpa using free entry present
  -- What stands before the replaced entry has no entry of the file.
  change (replace manifest summary.files).filter _ = manifest :: (summary.files.filter _).tail
  obtain ⟨free, added⟩ | ⟨before, entry, after, listed, free, same, replaced⟩ :=
    replace_cases manifest summary.files
  · rw [added, List.filter_append, none free, List.filter_cons_of_pos (by simp)]
    rfl
  · rw [replaced, listed, List.filter_append, List.filter_append, none free,
      List.filter_cons_of_pos (by simp), List.filter_cons_of_pos (by simpa using same)]
    rfl

/-- An update leaves all entries of other files alone. -/
theorem filter_upsert {keeps : Manifest → Bool} (summary : Summary) (manifest : Manifest)
    (apart : ∀ entry, entry.file = manifest.file → keeps entry = false) :
    (summary.upsert manifest).files.filter keeps = summary.files.filter keeps := by
  have dropped := apart manifest rfl
  change (replace manifest summary.files).filter keeps = _
  obtain ⟨-, added⟩ | ⟨before, entry, after, listed, -, same, replaced⟩ :=
    replace_cases manifest summary.files
  · rw [added, List.filter_append, List.filter_cons_of_neg (by simp [dropped]), List.filter_nil,
      List.append_nil]
  · rw [replaced, listed, List.filter_append, List.filter_append,
      List.filter_cons_of_neg (by simp [dropped]), List.filter_cons_of_neg (by simp [apart, same])]

theorem others_upsert (summary : Summary) (manifest : Manifest) :
    (summary.upsert manifest).others manifest.file = summary.others manifest.file :=
  filter_upsert summary manifest fun _ same => by simp [same]

theorem entries_upsert_of_ne (different : manifest.file ≠ file) :
    (summary.upsert manifest).entries file = summary.entries file :=
  filter_upsert summary manifest fun _ same => by simp [same, different]

/-! ### Summaries built from nothing -/

/-- A summary that comes from the empty one by updates and removals. -/
inductive IsBuilt : Summary → Prop
  | empty : IsBuilt {}
  | upsert {summary : Summary} (built : IsBuilt summary) (manifest : Manifest) :
      IsBuilt (summary.upsert manifest)
  | remove {summary : Summary} (built : IsBuilt summary) (file now : String) :
      IsBuilt (summary.remove file now)

theorem IsKeyed.upsert (keyed : summary.IsKeyed) (manifest : Manifest) :
    (summary.upsert manifest).IsKeyed := by
  intro file
  by_cases same : manifest.file = file
  · subst same
    have atMost := keyed manifest.file
    rw [entries_upsert, List.length_cons, List.length_tail]
    omega
  · rw [entries_upsert_of_ne same]
    exact keyed file

theorem IsKeyed.remove (keyed : summary.IsKeyed) (file now : String) :
    (summary.remove file now).IsKeyed := by
  intro other
  have fewer : ((summary.remove file now).entries other).Sublist (summary.entries other) := by
    rw [entries, files_remove]
    exact List.filter_sublist.filter _
  exact Nat.le_trans fewer.length_le (keyed other)

theorem IsBuilt.isKeyed (built : summary.IsBuilt) : summary.IsKeyed := by
  induction built with
  | empty => exact fun _ => Nat.zero_le 1
  | upsert _ manifest keyed => exact keyed.upsert manifest
  | remove _ file now keyed => exact keyed.remove file now

/-! ### Any summary -/

/-- **What an update makes of any summary.** It leaves its manifest as the only entry of the file
exactly if the file was listed at most once; the later entries of the file stay behind it. The entries
of other files stay as they are, the total is counted over all entries, the time is that of the
manifest, and a removal afterwards leaves what it would have left before. -/
theorem upsert_entries_iff (start : Summary) (manifest : Manifest) :
    ((start.upsert manifest).entries manifest.file = [manifest] ↔
        (start.entries manifest.file).length ≤ 1) ∧
      (start.upsert manifest).entries manifest.file =
        manifest :: (start.entries manifest.file).tail ∧
      (start.upsert manifest).others manifest.file = start.others manifest.file ∧
      (start.upsert manifest).totalTracking =
        ((start.upsert manifest).files.map fun entry => entry.tracking.length).sum ∧
      (start.upsert manifest).lastUpdated = manifest.timestamp ∧
      ∀ now alone, ((start.upsert manifest).remove manifest.file now).files =
        (start.remove manifest.file alone).files := by
  refine ⟨?_, entries_upsert start manifest, others_upsert start manifest, List.length_flatMap, rfl,
    fun now alone => ?_⟩
  · rw [entries_upsert, List.cons_inj_right, ← List.length_eq_zero_iff, List.length_tail]
    omega
  · rw [files_remove, files_remove]
    exact others_upsert start manifest

/-- A summary that lists a file twice can be read, and an update of the file keeps the second entry. -/
theorem later_entry_kept :
    let text := "\x7b\"files\": [" ++
      "\x7b\"file\": \"src/A.tsx\", \"timestamp\": \"t1\", \"tracking\": []\x7d, " ++
      "\x7b\"file\": \"src/A.tsx\", \"timestamp\": \"t2\", \"tracking\": []\x7d], " ++
      "\"totalTracking\": 0, \"lastUpdated\": \"t2\"\x7d"
    let manifest : Manifest := ⟨"src/A.tsx", "t3", []⟩
    ∃ start, Summary.ofText text = .ok start ∧
      (start.upsert manifest).entries manifest.file ≠ [manifest] := by
  intro text manifest
  exact ⟨⟨[⟨"src/A.tsx", "t1", []⟩, ⟨"src/A.tsx", "t2", []⟩], 0, "t2"⟩,
    ok_of_toOption (by decide +kernel), by decide⟩

end Summary

end JsxTracking
