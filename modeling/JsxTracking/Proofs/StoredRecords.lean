import JsxTracking.Proofs.FileChanges
import JsxTracking.Proofs.SpelledRecords

/-! # Which records a store has

A store has a record under a path if the path finds a file whose bytes spell it
(`Store.HasManifest`, `Store.HasSummary`). Reading records gives what the store has, and changes none
of its files (`TrackingDirectory.gives_readSummary`, `TrackingDirectory.gives_holdsManifestOf`). Stores
with the same directories find the same under every path whose place they agree on
(`Store.SameDirectories.find?_eq`). -/

namespace JsxTracking

namespace Store

variable {store after : Store} {path : String} {names target : List String}

/-! ## What is found -/

theorem resolve_of_find? {entry : Entry} (found : store.find? path = some entry) :
    store.resolve path = .ok (Path.place path) ∧ store.entry? (Path.place path) = some entry := by
  unfold find? at found
  split at found
  case h_1 names resolved =>
    obtain rfl := place_of_resolve resolved
    exact ⟨resolved, found⟩
  case h_2 => cases found

/-- What is read of a file is its text, if it has one. -/
theorem readText_of_find? {bytes : ByteArray} (found : store.find? path = some (.file bytes)) :
    store.readText path = (String.fromUTF8? bytes).elim (.error store.refused) .ok := by
  obtain ⟨resolved, isFile⟩ := resolve_of_find? found
  rw [readText_of_resolve resolved, textAt_of_file (file?_eq_some.mpr isFile)]

theorem find?_of_readBytes {bytes : ByteArray} (read : store.readBytes path = .ok bytes) :
    store.find? path = some (.file bytes) := by
  rw [readBytes] at read
  cases resolved : store.resolve path with
  | error error =>
    rw [resolved] at read
    cases read
  | ok names =>
    rw [resolved] at read
    dsimp only [bind, Except.bind] at read
    rw [find?, resolved]
    split at read
    case h_1 isFile => exact isFile.trans (congrArg _ (congrArg _ (Except.ok.inj read)))
    case h_2 => cases read
    case h_3 => cases read

/-- What can be read is found. -/
theorem find?_of_readText {text : String} (read : store.readText path = .ok text) :
    ∃ bytes, store.find? path = some (.file bytes) ∧ String.fromUTF8? bytes = some text := by
  cases resolved : store.resolve path with
  | error error =>
    rw [readText_of_unresolved resolved] at read
    cases read
  | ok names =>
    rw [readText_of_resolve resolved, textAt] at read
    split at read
    case h_1 bytes isFile =>
      refine ⟨bytes, by rw [find?, resolved]; exact isFile, ?_⟩
      cases decoded : String.fromUTF8? bytes with
      | none =>
        rw [decoded] at read
        cases read
      | some decoded =>
        rw [decoded] at read
        rw [Except.ok.inj read]
    case h_2 => cases read
    case h_3 => cases read

theorem entry?_congr (same : after.entries = store.entries) (names : List String) :
    after.entry? names = store.entry? names := by
  unfold entry?
  rw [same]

/-! ## Stores with the same directories -/

/-- The directories that can be reached in one store and in another are the same. -/
structure SameDirectories (store after : Store) : Prop where
  kept : ∀ names, store.IsReached names → store.entry? names = some .directory →
    after.entry? names = some .directory
  known : ∀ names, after.IsReached names → after.entry? names = some .directory →
    store.entry? names = some .directory

theorem SameDirectories.of_entries (same : after.entries = store.entries) :
    store.SameDirectories after where
  kept names _ isDirectory := by rw [entry?_congr same, isDirectory]
  known names _ isDirectory := by rw [← entry?_congr same, isDirectory]

/-- The directories above what can be reached can be reached themselves. -/
theorem IsReached.of_within (reached : store.IsReached names) {above : List String}
    (within : above <+: names) : store.IsReached above := by
  intro further below other
  refine reached further (below.trans within) ?_
  rintro rfl
  exact other (below.eq_of_length_le within.length_le)

theorem IsReached.of_kept (reached : store.IsReached names)
    (kept : ∀ names, store.IsReached names → store.entry? names = some .directory →
      after.entry? names = some .directory) : after.IsReached names := by
  intro above within other
  exact kept above (reached.of_within within) (reached above within other)

theorem SameDirectories.trans {further : Store} (first : store.SameDirectories after)
    (next : after.SameDirectories further) : store.SameDirectories further where
  kept names reached isDirectory :=
    next.kept names (reached.of_kept first.kept) (first.kept names reached isDirectory)
  known names reached isDirectory :=
    first.known names (reached.of_kept next.known) (next.known names reached isDirectory)

/-- A path finds the same in both stores if its place leads to the same in both. -/
theorem SameDirectories.find?_eq (same : store.SameDirectories after)
    (here : store.IsReached (Path.place path) →
      after.entry? (Path.place path) = store.entry? (Path.place path)) :
    after.find? path = store.find? path := by
  have carried {store after : Store}
      (kept : ∀ names, store.IsReached names → store.entry? names = some .directory →
        after.entry? names = some .directory) {names : List String}
      (resolved : store.resolve path = .ok names) : after.resolve path = .ok names := by
    obtain ⟨nonempty, usable, followed, ends⟩ := resolve_eq_ok_iff.mp resolved
    have reached := isReached_of_follow isReached_root followed
    exact resolve_eq_ok_iff.mpr ⟨nonempty, usable, follow_of_stays kept isReached_root followed,
      fun isOpen => kept names reached (ends isOpen)⟩
  cases resolved : store.resolve path with
  | error error =>
    have unresolved : ∃ error, after.resolve path = .error error := by
      cases again : after.resolve path with
      | error error => exact ⟨error, rfl⟩
      | ok names =>
        rw [carried same.known again] at resolved
        cases resolved
    obtain ⟨other, unresolved⟩ := unresolved
    rw [find?, find?, unresolved, resolved]
  | ok names =>
    have reached := isReached_of_follow isReached_root (resolve_eq_ok_iff.mp resolved).2.2.1
    obtain rfl := place_of_resolve resolved
    rw [find?, find?, carried same.kept resolved, resolved]
    exact here reached

theorem find?_of_entries (same : after.entries = store.entries) (path : String) :
    after.find? path = store.find? path :=
  (SameDirectories.of_entries same).find?_eq fun _ => entry?_congr same _

/-- What is not below a file stays when the file goes. -/
theorem entry?_drop_of_reached (free : store.entry? target ≠ some .directory)
    (reached : store.IsReached names) (other : names ≠ target) :
    Store.entry? (store.drop target) names = store.entry? names :=
  entry?_drop_of_not_below fun below => free (reached target below (Ne.symm other))

theorem sameDirectories_put {bytes : ByteArray} (nonroot : target ≠ [])
    (free : store.entry? target ≠ some .directory) :
    store.SameDirectories (store.put target (.file bytes)) where
  kept names _ isDirectory := stays_put free isDirectory
  known names _ isDirectory := by
    by_cases same : names = target
    · rw [same, entry?_put_self _ nonroot] at isDirectory
      cases isDirectory
    · rwa [entry?_put_of_ne _ same] at isDirectory

theorem sameDirectories_drop (nonroot : target ≠ [])
    (free : store.entry? target ≠ some .directory) :
    store.SameDirectories (store.drop target) where
  kept names reached isDirectory := stays_drop free reached isDirectory
  known names _ isDirectory := by
    by_cases below : target <+: names
    · have gone := lookup_filter_dropped store.entries target.isPrefixOf
        (List.isPrefixOf_iff_prefix.mpr below)
      have nonempty : names ≠ [] := by
        rintro rfl
        exact nonroot (List.prefix_nil.mp below)
      simp only [drop, entry?, nonempty, ↓reduceIte, gone] at isDirectory
      cases isDirectory
    · rwa [entry?_drop_of_not_below below] at isDirectory

/-- Two stores differ at most in the file at a place. -/
structure ChangesAt (target : List String) (store after : Store) : Prop where
  same : store.SameDirectories after
  others : ∀ names, store.IsReached names → names ≠ target → after.entry? names = store.entry? names

/-- Other files are found as before. -/
theorem ChangesAt.find?_eq (changes : ChangesAt target store after)
    (other : Path.place path ≠ target) : after.find? path = store.find? path :=
  changes.same.find?_eq fun reached => changes.others _ reached other

theorem ChangesAt.trans {further : Store} (changes : ChangesAt target store after)
    (again : ChangesAt target after further) : ChangesAt target store further where
  same := changes.same.trans again.same
  others names reached other :=
    (again.others names (reached.of_kept changes.same.kept) other).trans
      (changes.others names reached other)

theorem ChangesAt.of_entries (same : after.entries = store.entries) :
    ChangesAt target store after where
  same := .of_entries same
  others names _ _ := entry?_congr same names

theorem ne_nil_of_free (free : store.entry? target ≠ some .directory) : target ≠ [] := by
  rintro rfl
  exact free rfl

/-- What can be written is put in its place. -/
theorem writeBytes_put {bytes : ByteArray}
    (written : store.writeBytes path bytes = (.ok (), after)) :
    store.Leads path ∧ store.entry? (Path.place path) ≠ some .directory ∧
      after = store.put (Path.place path) (.file bytes) := by
  rcases store.writeBytes_cases path bytes with ⟨error, failed⟩ | ⟨leads, free, put⟩
  · rw [failed] at written
    cases (Prod.mk.inj written).1
  · rw [put] at written
    exact ⟨leads, free, (Prod.mk.inj written).2.symm⟩

/-- What is written is found. -/
theorem writeBytes_ok {bytes : ByteArray} (written : store.writeBytes path bytes = (.ok (), after)) :
    ChangesAt (Path.place path) store after ∧ after.find? path = some (.file bytes) := by
  obtain ⟨leads, free, rfl⟩ := writeBytes_put written
  have nonroot := ne_nil_of_free free
  have onward : Leads (store.put (Path.place path) (.file bytes)) path :=
    leads.of_stays fun _ _ isDirectory => stays_put free isDirectory
  refine ⟨⟨sameDirectories_put nonroot free, fun _ _ other => entry?_put_of_ne _ other⟩, ?_⟩
  rw [find?, onward.resolved]
  exact entry?_put_self _ nonroot

/-- What is removed is no longer found. -/
theorem removeFile_ok (removed : store.removeFile path = (.ok (), after)) :
    ChangesAt (Path.place path) store after ∧ after.find? path = none := by
  unfold removeFile at removed
  split at removed
  case h_1 => cases (Prod.mk.inj removed).1
  case h_2 names resolved =>
    obtain rfl := place_of_resolve resolved
    split at removed
    case h_1 bytes isFile =>
      obtain ⟨-, rfl⟩ := Prod.mk.inj removed
      have free : store.entry? (Path.place path) ≠ some .directory := by simp [isFile]
      have nonroot := ne_nil_of_free free
      refine ⟨⟨sameDirectories_drop nonroot free, fun _ reached other =>
        entry?_drop_of_reached free reached other⟩, ?_⟩
      cases found : Store.find? (store.drop (Path.place path)) path with
      | none => rfl
      | some entry =>
        have gone : Store.entry? (store.drop (Path.place path)) (Path.place path) = none :=
          entry?_drop_self nonroot
        rw [(resolve_of_find? found).2] at gone
        cases gone
    case h_2 => cases (Prod.mk.inj removed).1
    case h_3 => cases (Prod.mk.inj removed).1

/-! ## Records -/

/-- The store with the given entries in the directory `t`. -/
def inDirectory (entries : List (String × Entry)) : Store where
  entries := (["t"], .directory) :: entries.map fun (name, entry) => (["t", name], entry)
  clock _ := "now"
  refusal := "refused"

/-- A file that spells a manifest is found under a path. -/
def HasManifest (store : Store) (path : String) (manifest : Manifest) : Prop :=
  ∃ bytes, store.find? path = some (.file bytes) ∧ manifest.IsSpelledBy bytes

/-- A file that spells a summary is found under a path. -/
def HasSummary (store : Store) (path : String) (summary : Summary) : Prop :=
  ∃ bytes, store.find? path = some (.file bytes) ∧ summary.IsSpelledBy bytes

theorem hasManifest_of_toOption {manifest : Manifest}
    (has : ((store.readText path).toOption.bind fun text => (Manifest.ofText text).toOption) =
      some manifest) : store.HasManifest path manifest := by
  obtain ⟨text, read, parsed⟩ := Option.bind_eq_some_iff.mp has
  obtain ⟨bytes, found, decoded⟩ := find?_of_readText (ok_of_toOption read)
  exact ⟨bytes, found, Manifest.isSpelledBy_iff.mpr ⟨text, decoded, ok_of_toOption parsed⟩⟩

theorem hasSummary_of_toOption {summary : Summary}
    (has : ((store.readText path).toOption.bind fun text => (Summary.ofText text).toOption) =
      some summary) : store.HasSummary path summary := by
  obtain ⟨text, read, parsed⟩ := Option.bind_eq_some_iff.mp has
  obtain ⟨bytes, found, decoded⟩ := find?_of_readText (ok_of_toOption read)
  exact ⟨bytes, found, Summary.isSpelledBy_iff.mpr ⟨text, decoded, ok_of_toOption parsed⟩⟩

theorem HasManifest.unique {manifest other : Manifest} (has : store.HasManifest path manifest)
    (again : store.HasManifest path other) : manifest = other := by
  obtain ⟨bytes, found, spelled⟩ := has
  obtain ⟨_, same, spelledAgain⟩ := again
  obtain rfl := Entry.file.inj (Option.some.inj (found.symm.trans same))
  exact spelled.unique spelledAgain

theorem HasSummary.unique {summary other : Summary} (has : store.HasSummary path summary)
    (again : store.HasSummary path other) : summary = other := by
  obtain ⟨bytes, found, spelled⟩ := has
  obtain ⟨_, same, spelledAgain⟩ := again
  obtain rfl := Entry.file.inj (Option.some.inj (found.symm.trans same))
  exact spelled.unique spelledAgain

end Store

open FallibleAction

namespace TrackingDirectory

variable {directory : TrackingDirectory} {store after : Store} {path source file : String}

/-! ## Reading records -/

/-- What is read of a path is the text found there; nothing is read only if no file is found. -/
theorem gives_read?_cases {text? : Option String}
    (gives : (read? path).Gives store text? after) :
    after = store ∧
      ((∃ bytes text, store.find? path = some (.file bytes) ∧ String.fromUTF8? bytes = some text ∧
          text? = some text) ∨
        text? = none ∧ ∀ bytes, store.find? path ≠ some (.file bytes)) := by
  obtain ⟨same, ⟨text, read, rfl⟩ | ⟨error, read, missing, rfl⟩⟩ := gives_read? gives
  · obtain ⟨bytes, found, decoded⟩ := Store.find?_of_readText read
    exact ⟨same, .inl ⟨bytes, text, found, decoded, rfl⟩⟩
  · refine ⟨same, .inr ⟨rfl, fun bytes found => ?_⟩⟩
    rw [Store.readText_of_find? found] at read
    cases decoded : String.fromUTF8? bytes with
    | none =>
      rw [decoded] at read
      cases Except.error.inj read
      cases missing
    | some text =>
      rw [decoded] at read
      cases read

theorem gives_warn {message : String} {value : Unit}
    (gives : (warn message).Gives store value after) : after.entries = store.entries := by
  cases gives.of_lift
  rfl

theorem gives_now {time : String} (gives : now.Gives store time after) :
    after.entries = store.entries := by
  cases gives.of_lift
  rfl

/-- The summary that is read is the one the store has, or else the empty one. -/
theorem gives_readSummary {summary : Summary}
    (gives : directory.readSummary.Gives store summary after) :
    after.entries = store.entries ∧
      (store.HasSummary directory.summaryPath summary ∨
        summary = {} ∧ ∀ other, ¬ store.HasSummary directory.summaryPath other) := by
  obtain ⟨text?, middle, read, gives⟩ := gives.of_bind
  obtain ⟨rfl, ⟨bytes, text, found, decoded, rfl⟩ | ⟨rfl, missing⟩⟩ := gives_read?_cases read
  · dsimp only at gives
    split at gives
    case h_1 past parsed =>
      obtain ⟨rfl, rfl⟩ := gives.of_pure
      exact ⟨rfl, .inl ⟨bytes, found, Summary.isSpelledBy_iff.mpr ⟨text, decoded, parsed⟩⟩⟩
    case h_2 fault rejected =>
      obtain ⟨_, warned, warning, gives⟩ := gives.of_bind
      obtain ⟨rfl, rfl⟩ := gives.of_pure
      refine ⟨gives_warn warning, .inr ⟨rfl, ?_⟩⟩
      rintro other ⟨_, again, spelled⟩
      obtain rfl := Entry.file.inj (Option.some.inj (found.symm.trans again))
      obtain ⟨_, same, parsed⟩ := Summary.isSpelledBy_iff.mp spelled
      obtain rfl := Option.some.inj (decoded.symm.trans same)
      rw [rejected] at parsed
      cases parsed
  · obtain ⟨rfl, rfl⟩ := gives.of_pure
    exact ⟨rfl, .inr ⟨rfl, fun other ⟨bytes, found, _⟩ => missing bytes found⟩⟩

/-- Whether a manifest is found to be that of a source. -/
theorem gives_holdsManifestOf {held : Bool}
    (gives : (holdsManifestOf path source).Gives store held after) :
    after.entries = store.entries ∧
      (held = true ↔ ∃ manifest, store.HasManifest path manifest ∧ manifest.file = source) := by
  obtain ⟨text?, middle, read, gives⟩ := gives.of_bind
  obtain ⟨rfl, ⟨bytes, text, found, decoded, rfl⟩ | ⟨rfl, missing⟩⟩ := gives_read?_cases read
  · dsimp only at gives
    split at gives
    case h_1 manifest parsed =>
      obtain ⟨rfl, rfl⟩ := gives.of_pure
      have has : Store.HasManifest _ path manifest :=
        ⟨bytes, found, Manifest.isSpelledBy_iff.mpr ⟨text, decoded, parsed⟩⟩
      rw [decide_eq_true_iff]
      refine ⟨rfl, fun same => ⟨manifest, has, same⟩, ?_⟩
      rintro ⟨other, again, same⟩
      rwa [has.unique again]
    case h_2 fault rejected =>
      obtain ⟨_, warned, warning, gives⟩ := gives.of_bind
      obtain ⟨rfl, rfl⟩ := gives.of_pure
      refine ⟨gives_warn warning, fun impossible => (by cases impossible), ?_⟩
      rintro ⟨other, ⟨_, again, spelled⟩, -⟩
      obtain rfl := Entry.file.inj (Option.some.inj (found.symm.trans again))
      obtain ⟨_, same, parsed⟩ := Manifest.isSpelledBy_iff.mp spelled
      obtain rfl := Option.some.inj (decoded.symm.trans same)
      rw [rejected] at parsed
      cases parsed
  · obtain ⟨rfl, rfl⟩ := gives.of_pure
    refine ⟨rfl, fun impossible => (by cases impossible), ?_⟩
    rintro ⟨other, ⟨bytes, found, -⟩, -⟩
    exact absurd found (missing bytes)

end TrackingDirectory

end JsxTracking
