import JsxTracking.Proofs.HeldTexts
import JsxTracking.Proofs.RecordedText

/-! # Stores that differ in timestamps only

The clock of a build shows in its records and in nothing else. Two stores are *alike* if they hold the
same directories and files, but for the timestamps in the manifests and in the summary and whatever the
build log says (`Store.Alike`). Actions that get the same answers on alike stores, up to timestamps, and
leave alike stores are alike themselves (`Action.Alike`); so are those on the records of a build, since
what they read back of a record is what was written (`TrackingDirectory.alike_update`). -/

namespace JsxTracking

variable {ε α β γ δ : Type}

/-! ## Records without their timestamps -/

/-- The manifest without its timestamp. -/
def Manifest.untimed (manifest : Manifest) : Manifest :=
  { manifest with timestamp := "" }

theorem Manifest.file_of_untimed {manifest other : Manifest}
    (same : manifest.untimed = other.untimed) : manifest.file = other.file := by
  cases manifest
  cases other
  exact (Manifest.mk.inj same).1

namespace Summary

/-- The summary without its timestamps. -/
def untimed (summary : Summary) : Summary :=
  { summary with files := summary.files.map Manifest.untimed, lastUpdated := "" }

variable {summary other : Summary}

theorem files_untimed (same : summary.untimed = other.untimed) :
    summary.files.map Manifest.untimed = other.files.map Manifest.untimed :=
  congrArg Summary.files same

/-- Counting the points anew does not depend on timestamps. -/
theorem refresh_untimed {files others : List Manifest}
    (same : files.map Manifest.untimed = others.map Manifest.untimed) (total otherTotal : Nat)
    (last otherLast time otherTime : String) :
    ((Summary.mk files total last).refresh time).untimed =
      ((Summary.mk others otherTotal otherLast).refresh otherTime).untimed := by
  have points : files.flatMap Manifest.tracking = others.flatMap Manifest.tracking := by
    have each := congrArg (List.flatMap Manifest.tracking) same
    rwa [List.flatMap_map, List.flatMap_map] at each
  simp only [refresh, untimed, points, same]

theorem totalTracking_of_untimed (same : summary.untimed = other.untimed) :
    summary.totalTracking = other.totalTracking := by
  cases summary
  cases other
  exact (Summary.mk.inj same).2.1

theorem replace_untimed {manifest change : Manifest} (alike : manifest.untimed = change.untimed)
    {files others : List Manifest}
    (same : files.map Manifest.untimed = others.map Manifest.untimed) :
    (replace manifest files).map Manifest.untimed = (replace change others).map Manifest.untimed := by
  induction files generalizing others with
  | nil =>
    obtain rfl : others = [] := List.map_eq_nil_iff.mp same.symm
    exact congrArg ([·]) alike
  | cons first rest ih =>
    cases others with
    | nil => cases same
    | cons second more =>
      obtain ⟨here, later⟩ := List.cons.inj same
      have named : first.file = second.file := Manifest.file_of_untimed here
      have replacing : manifest.file = change.file := Manifest.file_of_untimed alike
      rw [replace, replace, named, replacing]
      split
      · rw [List.map_cons, List.map_cons, alike, later]
      · rw [List.map_cons, List.map_cons, here, ih later]

theorem upsert_untimed (same : summary.untimed = other.untimed) {manifest change : Manifest}
    (alike : manifest.untimed = change.untimed) :
    (summary.upsert manifest).untimed = (other.upsert change).untimed :=
  refresh_untimed (replace_untimed alike (files_untimed same)) _ _ _ _ _ _

theorem lists_untimed (same : summary.untimed = other.untimed) (file : String) :
    summary.lists file = other.lists file := by
  have each := congrArg (List.any · fun manifest => manifest.file = file) (files_untimed same)
  rwa [List.any_map, List.any_map] at each

theorem remove_untimed (same : summary.untimed = other.untimed) (file now later : String) :
    (summary.remove file now).untimed = (other.remove file later).untimed := by
  unfold remove
  rw [lists_untimed same]
  split
  case isFalse => exact same
  case isTrue =>
    refine refresh_untimed ?_ _ _ _ _ _ _
    have kept := congrArg (List.filter fun manifest => decide (manifest.file ≠ file))
      (files_untimed same)
    rwa [List.filter_map, List.filter_map] at kept

theorem recorded_untimed (same : summary.untimed = other.untimed) :
    summary.recorded.untimed = other.recorded.untimed := by
  have commutes (summary : Summary) : summary.recorded.untimed = summary.untimed.recorded := by
    simp only [recorded, untimed, List.map_map]
    rfl
  rw [commutes, commutes, same]

end Summary

/-! ## Alike stores -/

open TrackingDirectory (summaryName)

/-- Two texts of a file with a name are the same up to timestamps. What is called like the summary is a
summary, all other records are manifests. -/
inductive AlikeTexts (name? : Option String) : String → String → Prop
  | same (text : String) : AlikeTexts name? text text
  | manifest {manifest other : Manifest} (elsewhere : name? ≠ some summaryName)
      (same : manifest.untimed = other.untimed) :
      AlikeTexts name? manifest.toJson.pretty other.toJson.pretty
  | summary {summary other : Summary} (there : name? = some summaryName)
      (same : summary.untimed = other.untimed) :
      AlikeTexts name? summary.toJson.pretty other.toJson.pretty

namespace AlikeTexts

/-- Texts of the summary are both read as one, up to timestamps, or both are not. -/
theorem read_summary {text other : String} (alike : AlikeTexts (some summaryName) text other) :
    (∃ summary otherSummary, Summary.ofText text = .ok summary ∧
      Summary.ofText other = .ok otherSummary ∧ summary.untimed = otherSummary.untimed) ∨
    ((∃ fault, Summary.ofText text = .error fault) ∧ ∃ fault, Summary.ofText other = .error fault) := by
  cases alike with
  | same =>
    cases read : Summary.ofText text with
    | ok summary => exact Or.inl ⟨summary, summary, rfl, rfl, rfl⟩
    | error fault => exact Or.inr ⟨⟨fault, rfl⟩, fault, rfl⟩
  | manifest elsewhere => exact absurd rfl elsewhere
  | @summary summary other there same =>
    have totals := Summary.totalTracking_of_untimed same
    rcases Nat.lt_or_ge summary.totalTracking (2 ^ 64) with fits | large
    · exact Or.inl ⟨_, _, Json.Reader.readText_pretty (Summary.reads_toJson fits),
        Json.Reader.readText_pretty (Summary.reads_toJson (totals ▸ fits)),
        Summary.recorded_untimed same⟩
    · exact Or.inr ⟨Summary.ofText_pretty_rejected large,
        Summary.ofText_pretty_rejected (totals ▸ large)⟩

/-- Texts of other files are both read as a manifest, up to timestamps, or both are not. -/
theorem read_manifest {name? : Option String} (elsewhere : name? ≠ some summaryName)
    {text other : String} (alike : AlikeTexts name? text other) :
    (∃ manifest otherManifest, Manifest.ofText text = .ok manifest ∧
      Manifest.ofText other = .ok otherManifest ∧ manifest.file = otherManifest.file) ∨
    ((∃ fault, Manifest.ofText text = .error fault) ∧
      ∃ fault, Manifest.ofText other = .error fault) := by
  cases alike with
  | same =>
    cases read : Manifest.ofText text with
    | ok manifest => exact Or.inl ⟨manifest, manifest, rfl, rfl, rfl⟩
    | error fault => exact Or.inr ⟨⟨fault, rfl⟩, fault, rfl⟩
  | summary there => exact absurd there elsewhere
  | @manifest manifest other _ same =>
    have named := Manifest.file_of_untimed same
    exact Or.inl ⟨_, _, Json.Reader.readText_pretty manifest.reads_toJson,
      Json.Reader.readText_pretty other.reads_toJson, named⟩

end AlikeTexts

/-- What a place leads to in two stores is the same up to timestamps. -/
inductive AlikeEntries (place : List String) : Option Entry → Option Entry → Prop
  | same (found : Option Entry) : AlikeEntries place found found
  | texts {text other : String} (alike : AlikeTexts place.getLast? text other) :
      AlikeEntries place (some (.file text.toUTF8)) (some (.file other.toUTF8))

namespace Store

/-- Two stores hold the same, up to timestamps. Their clocks and their build logs may differ. -/
structure Alike (store other : Store) : Prop where
  refusal : store.refusal = other.refusal
  entries : ∀ place, AlikeEntries place (store.entry? place) (other.entry? place)

theorem entry?_drop_of_below {store : Store} {target names : List String} (below : target <+: names)
    (some : names ≠ []) : Store.entry? (store.drop target) names = none := by
  have within : target.isPrefixOf names = true := List.isPrefixOf_iff_prefix.mpr below
  unfold entry?
  rw [if_neg some]
  exact lookup_filter_dropped store.entries target.isPrefixOf within

namespace Alike

variable {store other : Store}

theorem missing (alike : store.Alike other) : store.missing = other.missing :=
  congrArg (HostError.mk true) alike.refusal

theorem refused (alike : store.Alike other) : store.refused = other.refused :=
  congrArg (HostError.mk false) alike.refusal

/-- Paths lead to the same places. -/
theorem follow (alike : store.Alike other) (components : List Path.Component)
    (names : List String) : store.follow names components = other.follow names components := by
  induction components generalizing names with
  | nil => rfl
  | cons component rest ih =>
    rw [Store.follow, Store.follow]
    have entries := alike.entries names
    generalize store.entry? names = entry at entries
    generalize other.entry? names = otherEntry at entries
    cases entries with
    | same =>
      rw [alike.missing, alike.refused]
      split
      · rfl
      · rfl
      · split
        · exact ih _
        · rfl
    | texts => exact congrArg Except.error alike.refused

theorem resolve (alike : store.Alike other) (path : String) :
    store.resolve path = other.resolve path := by
  unfold Store.resolve
  rw [alike.missing, alike.refused, alike.follow]
  by_cases empty : path = ""
  · rw [if_pos empty, if_pos empty]
    rfl
  rw [if_neg empty, if_neg empty]
  cases isUsable path with
  | false => rfl
  | true =>
    cases other.follow [] (Path.components path) with
    | error error => rfl
    | ok names =>
      have entries := alike.entries names
      cases ends : Path.endsInDirectory path with
      | false => rfl
      | true =>
        simp only [bind, Except.bind, pure, Except.pure]
        generalize store.entry? names = entry at entries
        generalize other.entry? names = otherEntry at entries
        cases entries <;> rfl

/-- The same kind of entry is put into both stores. -/
theorem put (alike : store.Alike other) {place : List String} {entry otherEntry : Entry}
    (entries : AlikeEntries place (some entry) (some otherEntry)) :
    (store.put place entry).Alike (other.put place otherEntry) := by
  refine ⟨alike.refusal, fun names => ?_⟩
  by_cases same : names = place
  · subst same
    by_cases root : names = []
    · subst root
      exact .same (some .directory)
    · rw [entry?_put_self entry root, entry?_put_self otherEntry root]
      exact entries
  · rw [entry?_put_of_ne entry same, entry?_put_of_ne otherEntry same]
    exact alike.entries names

theorem drop (alike : store.Alike other) (place : List String) :
    (store.drop place).Alike (other.drop place) := by
  refine ⟨alike.refusal, fun names => ?_⟩
  by_cases below : place <+: names
  · by_cases root : names = []
    · subst root
      exact .same (some .directory)
    · rw [entry?_drop_of_below below root, entry?_drop_of_below below root]
      exact .same none
  · rw [entry?_drop_of_not_below below, entry?_drop_of_not_below below]
    exact alike.entries names

/-- Directories are made alike. -/
theorem makeDirectoriesFrom (alike : store.Alike other) (components : List Path.Component)
    (names : List String) :
    (store.makeDirectoriesFrom names components).1 = (other.makeDirectoriesFrom names components).1 ∧
      (store.makeDirectoriesFrom names components).2.Alike
        (other.makeDirectoriesFrom names components).2 := by
  induction components generalizing names store other with
  | nil => exact ⟨rfl, alike⟩
  | cons component rest ih =>
    rw [Store.makeDirectoriesFrom, Store.makeDirectoriesFrom]
    split
    case isFalse => exact ⟨congrArg Except.error alike.refused, alike⟩
    case isTrue =>
      have entries := alike.entries (step names component)
      generalize store.entry? (step names component) = entry at entries
      generalize other.entry? (step names component) = otherEntry at entries
      cases entries with
      | texts => exact ⟨congrArg Except.error alike.refused, alike⟩
      | same =>
        split
        · exact ih (alike.put (.same _)) _
        · exact ih alike _
        · exact ⟨congrArg Except.error alike.refused, alike⟩

theorem makeDirectories (alike : store.Alike other) (path : String) :
    (store.makeDirectories path).1 = (other.makeDirectories path).1 ∧
      (store.makeDirectories path).2.Alike (other.makeDirectories path).2 := by
  unfold Store.makeDirectories
  split
  · exact alike.makeDirectoriesFrom _ []
  · exact ⟨congrArg Except.error alike.refused, alike⟩

/-- Alike texts are written to alike stores. -/
theorem writeText (alike : store.Alike other) {path text otherText : String}
    (texts : ∀ place, store.resolve path = .ok place → AlikeTexts place.getLast? text otherText) :
    (store.writeBytes path text.toUTF8).1 = (other.writeBytes path otherText.toUTF8).1 ∧
      (store.writeBytes path text.toUTF8).2.Alike
        (other.writeBytes path otherText.toUTF8).2 := by
  unfold Store.writeBytes
  rw [← alike.resolve]
  cases resolved : store.resolve path with
  | error error => exact ⟨rfl, alike⟩
  | ok place =>
    dsimp only
    have entries := alike.entries place
    have written := alike.put (.texts (texts place resolved))
    generalize store.entry? place = entry at entries
    generalize other.entry? place = otherEntry at entries
    cases entries with
    | texts => exact ⟨rfl, written⟩
    | same =>
      cases entry with
      | none => exact ⟨rfl, written⟩
      | some entry =>
        cases entry with
        | file => exact ⟨rfl, written⟩
        | directory => exact ⟨congrArg Except.error alike.refused, alike⟩

theorem removeFile (alike : store.Alike other) (path : String) :
    (store.removeFile path).1 = (other.removeFile path).1 ∧
      (store.removeFile path).2.Alike (other.removeFile path).2 := by
  unfold Store.removeFile
  rw [← alike.resolve]
  cases resolved : store.resolve path with
  | error error => exact ⟨rfl, alike⟩
  | ok place =>
    dsimp only
    have entries := alike.entries place
    have removed := alike.drop place
    generalize store.entry? place = entry at entries
    generalize other.entry? place = otherEntry at entries
    cases entries with
    | texts => exact ⟨rfl, removed⟩
    | same =>
      cases entry with
      | none => exact ⟨congrArg Except.error alike.missing, alike⟩
      | some entry =>
        cases entry with
        | file => exact ⟨rfl, removed⟩
        | directory => exact ⟨congrArg Except.error alike.refused, alike⟩

theorem find?_isSome (alike : store.Alike other) (path : String) :
    (store.find? path).isSome = (other.find? path).isSome := by
  unfold Store.find?
  rw [← alike.resolve]
  split
  case h_1 place resolved =>
    have entries := alike.entries place
    generalize store.entry? place = entry at entries
    generalize other.entry? place = otherEntry at entries
    cases entries <;> rfl
  case h_2 => rfl

/-- What is read of a path is the same up to timestamps. -/
theorem readText (alike : store.Alike other) (path : String) :
    (∃ error, store.readText path = .error error ∧ other.readText path = .error error) ∨
      ∃ place text otherText, store.resolve path = .ok place ∧
        AlikeTexts place.getLast? text otherText ∧ store.readText path = .ok text ∧
          other.readText path = .ok otherText := by
  cases resolved : store.resolve path with
  | error error =>
    exact Or.inl ⟨error, readText_of_unresolved resolved,
      readText_of_unresolved ((alike.resolve path).symm.trans resolved)⟩
  | ok place =>
    rw [readText_of_resolve resolved,
      readText_of_resolve ((alike.resolve path).symm.trans resolved)]
    have entries := alike.entries place
    unfold textAt
    generalize store.entry? place = entry at entries
    generalize other.entry? place = otherEntry at entries
    cases entries with
    | @texts text otherText texts =>
      simp only [fromUTF8?_toUTF8, Option.elim_some]
      exact Or.inr ⟨place, text, otherText, rfl, texts, rfl, rfl⟩
    | same =>
      cases entry with
      | none => exact Or.inl ⟨_, rfl, congrArg Except.error alike.missing.symm⟩
      | some entry =>
        cases entry with
        | directory => exact Or.inl ⟨_, rfl, congrArg Except.error alike.refused.symm⟩
        | file bytes =>
          cases decoded : String.fromUTF8? bytes with
          | none =>
            simp only [decoded]
            exact Or.inl ⟨_, rfl, congrArg Except.error alike.refused.symm⟩
          | some text =>
            simp only [decoded]
            exact Or.inr ⟨place, text, text, rfl, .same text, rfl, rfl⟩

end Alike

end Store

/-! ## Alike actions -/

namespace Action

/-- Two actions give related results on alike stores, and leave alike stores. -/
def Alike (related : α → β → Prop) (first : Action α) (second : Action β) : Prop :=
  ∀ store other : Store, store.Alike other →
    related (first.run store).1 (second.run other).1 ∧
      (first.run store).2.Alike (second.run other).2

variable {related : α → β → Prop} {onward : γ → δ → Prop}

theorem alike_pure {value : α} {other : β} (same : related value other) :
    Alike related (pure value : Action α) (pure other : Action β) :=
  fun _ _ alike => ⟨same, alike⟩

/-- Actions that are alike one after another. -/
theorem Alike.bind {first : Action α} {second : Action β} {next : α → Action γ}
    {further : β → Action δ} (alike : Alike related first second)
    (later : ∀ value other, related value other → Alike onward (next value) (further other)) :
    Alike onward (first >>= next) (second >>= further) := by
  intro store other stores
  obtain ⟨values, between⟩ := alike store other stores
  rw [run_bind, run_bind]
  exact later _ _ values _ _ between

/-- Whether an action changes nothing but the build log. -/
def OnlyLogs (action : Action α) : Prop :=
  ∀ store : Store, ∃ log, (action.run store).2 = { store with log }

theorem onlyLogs_pure (value : α) : (pure value : Action α).OnlyLogs :=
  fun store => ⟨store.log, rfl⟩

theorem onlyLogs_log (severity : Severity) (message : String) :
    (perform (.log severity message)).OnlyLogs :=
  fun store => ⟨store.log ++ [⟨severity, message⟩], rfl⟩

theorem OnlyLogs.bind {action : Action α} {next : α → Action γ} (logs : action.OnlyLogs)
    (later : ∀ value, (next value).OnlyLogs) : (action >>= next).OnlyLogs := by
  intro store
  obtain ⟨log, first⟩ := logs store
  obtain ⟨further, second⟩ := later (action.run store).1 (action.run store).2
  rw [run_bind]
  exact ⟨further, second.trans (by rw [first])⟩

/-- Whatever is put into build logs, stores stay alike. -/
theorem OnlyLogs.alike {first : Action α} {second : Action β} (logs : first.OnlyLogs)
    (logsToo : second.OnlyLogs) : Alike (fun _ _ => True) first second := by
  intro store other alike
  obtain ⟨log, same⟩ := logs store
  obtain ⟨otherLog, otherSame⟩ := logsToo other
  rw [same, otherSame]
  exact ⟨trivial, alike.refusal, alike.entries⟩

/-- An action that only logs may come first. -/
theorem OnlyLogs.before {first : Action α} {next : α → Action γ} {other : Action δ}
    (logs : first.OnlyLogs) (later : ∀ value, Alike onward (next value) other) :
    Alike onward (first >>= next) other := by
  have nothing : (pure () : Action Unit).OnlyLogs := onlyLogs_pure ()
  have both : Alike onward (first >>= next) ((pure () : Action Unit) >>= fun _ => other) :=
    (logs.alike nothing).bind fun value _ _ => later value
  exact both

end Action

/-- Two results of actions that may fail: the same failure, or related values. -/
inductive AlikeResults (related : α → β → Prop) : Except ε α → Except ε β → Prop
  | failed (error : ε) : AlikeResults related (.error error) (.error error)
  | gave {value : α} {other : β} (same : related value other) :
      AlikeResults related (.ok value) (.ok other)

namespace FallibleAction

/-- Two actions fail alike or give related values on alike stores, and leave alike stores. -/
def Alike (related : α → β → Prop) (first : FallibleAction ε α) (second : FallibleAction ε β) :
    Prop :=
  Action.Alike (AlikeResults related) first.run second.run

variable {related : α → β → Prop} {onward : γ → δ → Prop}

theorem alike_pure {value : α} {other : β} (same : related value other) :
    Alike related (pure value : FallibleAction ε α) (pure other) :=
  Action.alike_pure (.gave same)

theorem Alike.bind {first : FallibleAction ε α} {second : FallibleAction ε β}
    {next : α → FallibleAction ε γ} {further : β → FallibleAction ε δ}
    (alike : Alike related first second)
    (later : ∀ value other, related value other → Alike onward (next value) (further other)) :
    Alike onward (first >>= next) (second >>= further) := by
  refine Action.Alike.bind alike fun result other results => ?_
  cases results with
  | failed error => exact Action.alike_pure (.failed error)
  | gave same => exact later _ _ same

/-- A request that is answered in the same way. -/
theorem alike_attempt {request otherRequest : Action (Except HostError α)}
    (alike : Action.Alike Eq request otherRequest) (failure : HostError → ε) :
    Alike Eq (attempt request failure) (attempt otherRequest failure) := by
  refine Action.Alike.bind alike ?_
  rintro result _ rfl
  refine Action.alike_pure ?_
  cases result with
  | error error => exact .failed _
  | ok value => exact .gave rfl

theorem alike_lift {first : Action α} {second : Action β} (alike : Action.Alike related first second) :
    Alike related (ExceptT.lift first : FallibleAction ε α) (ExceptT.lift second) :=
  Action.Alike.bind alike fun _ _ same => Action.alike_pure (.gave same)

/-- Failures tell the same. -/
theorem Alike.diagnostics {first : FallibleAction Failure α} {second : FallibleAction Failure β}
    (alike : Alike related first second) (file : String) :
    Action.Alike Eq (first.diagnostics file) (second.diagnostics file) := by
  refine Action.Alike.bind alike fun result other results => ?_
  cases results with
  | failed error => exact Action.alike_pure rfl
  | gave same => exact Action.alike_pure rfl

end FallibleAction

namespace TrackingDirectory

open FallibleAction

variable (directory : TrackingDirectory)

theorem alike_create (path : String) : Alike Eq (create path) (create path) := by
  have asked : Action.Alike Eq (Action.perform (.createDirectories path))
      (Action.perform (.createDirectories path)) := fun _ _ alike => alike.makeDirectories path
  exact alike_attempt asked _

/-- Texts that are alike under any name they may get are written alike. -/
theorem alike_write {path text other : String}
    (texts : ∀ store place, Store.resolve store path = .ok place →
      AlikeTexts place.getLast? text other) : Alike Eq (write path text) (write path other) := by
  have asked : Action.Alike Eq (Action.perform (.writeText path text))
      (Action.perform (.writeText path other)) :=
    fun store _ alike => alike.writeText (texts store)
  exact alike_attempt asked _

theorem alike_write_join {name : String} (isName : Path.IsName name) {text other : String}
    (texts : AlikeTexts (some name) text other) (path : String) :
    Alike Eq (write (Path.join path name) text) (write (Path.join path name) other) := by
  refine alike_write fun store place resolved => ?_
  obtain ⟨⟨above, -, rfl⟩, -⟩ := Store.resolve_join_ok isName resolved
  rw [List.getLast?_concat]
  exact texts

/-- What is read of a file, if anything. -/
theorem alike_read? {name : String} (isName : Path.IsName name) (path : String) :
    Alike (fun text? other? => text? = none ∧ other? = none ∨
        ∃ text other, AlikeTexts (some name) text other ∧ text? = some text ∧ other? = some other)
      (read? (Path.join path name)) (read? (Path.join path name)) := by
  have asked : Action.Alike (fun answer other =>
      (∃ error, answer = .error error ∧ other = .error error) ∨
        ∃ text otherText, AlikeTexts (some name) text otherText ∧ answer = .ok text ∧
          other = .ok otherText)
      (Action.perform (.readText (Path.join path name)))
      (Action.perform (.readText (Path.join path name))) := by
    intro store other alike
    refine ⟨?_, alike⟩
    rcases alike.readText (Path.join path name) with
      failed | ⟨place, text, otherText, resolved, texts, read⟩
    · exact Or.inl failed
    · obtain ⟨⟨above, -, rfl⟩, -⟩ := Store.resolve_join_ok isName resolved
      rw [List.getLast?_concat] at texts
      exact Or.inr ⟨text, otherText, texts, read⟩
  refine Action.Alike.bind asked ?_
  rintro _ _ (⟨error, rfl, rfl⟩ | ⟨text, other, texts, rfl, rfl⟩)
  · cases missing : error.notFound with
    | true =>
      simp only [missing, ↓reduceIte]
      exact Action.alike_pure (.gave (Or.inl ⟨rfl, rfl⟩))
    | false =>
      simp only [missing, Bool.false_eq_true, ↓reduceIte]
      exact Action.alike_pure (.failed _)
  · exact Action.alike_pure (.gave (Or.inr ⟨text, other, texts, rfl, rfl⟩))

theorem alike_now : Alike (fun _ _ => True) now now := by
  have asked : Action.Alike (fun _ _ => True) (Action.perform .now) (Action.perform .now) :=
    fun _ _ alike => ⟨trivial, alike.refusal, alike.entries⟩
  exact alike_lift asked

theorem alike_warn (message other : String) : Alike (fun _ _ => True) (warn message) (warn other) :=
  alike_lift ((Action.onlyLogs_log _ _).alike (Action.onlyLogs_log _ _))

/-- The summary is read up to its timestamps. -/
theorem alike_readSummary : Alike (fun summary other => summary.untimed = other.untimed)
    directory.readSummary directory.readSummary := by
  refine (alike_read? isName_summaryName directory.path).bind ?_
  rintro _ _ (⟨rfl, rfl⟩ | ⟨_, _, texts, rfl, rfl⟩)
  · exact alike_pure rfl
  · rcases texts.read_summary with ⟨summary, other, read, readOther, same⟩ |
      ⟨⟨fault, read⟩, otherFault, readOther⟩
    · simp only [read, readOther]
      exact alike_pure same
    · simp only [read, readOther]
      exact (alike_warn _ _).bind fun _ _ _ => alike_pure rfl

/-- While the summary is held, actions stay alike. -/
theorem alike_changingSummary {related : α → β → Prop} {first : FallibleAction Failure α}
    {second : FallibleAction Failure β} (alike : Alike related first second) :
    Alike related (changingSummary first) (changingSummary second) := by
  have asked (request : Request) (silent : request = .holdSummary ∨ request = .releaseSummary) :
      Action.Alike (fun _ _ => True) (Action.perform request) (Action.perform request) := by
    rcases silent with rfl | rfl <;> exact fun _ _ alike => ⟨trivial, alike⟩
  refine Action.Alike.bind (asked _ (Or.inl rfl)) fun _ _ _ => Action.Alike.bind alike ?_
  intro result other results
  exact Action.Alike.bind (asked _ (Or.inr rfl)) fun _ _ _ => Action.alike_pure results

theorem alike_writeSummary {summary other : Summary} (same : summary.untimed = other.untimed) :
    Alike Eq (directory.writeSummary summary) (directory.writeSummary other) :=
  alike_write_join isName_summaryName (.summary rfl same) directory.path

theorem manifestName_ne (file : String) : some (manifestName file) ≠ some summaryName :=
  fun same => manifestName_ne_summaryName file (Option.some.inj same)

/-- Points are recorded alike. -/
theorem alike_record (file : String) (points : List TrackingPoint) :
    Alike (fun manifest other => manifest.untimed = other.untimed)
      (directory.record file points) (directory.record file points) := by
  refine (alike_create directory.path).bind fun _ _ _ => alike_now.bind fun time other _ => ?_
  have same : (Manifest.mk (Path.normalize file) time points).untimed =
      (Manifest.mk (Path.normalize file) other points).untimed := rfl
  refine (alike_write_join (isName_manifestName _) (.manifest (manifestName_ne _) same)
    directory.path).bind fun _ _ _ => ?_
  refine (alike_changingSummary (directory.alike_readSummary.bind fun summary other summaries =>
    directory.alike_writeSummary (Summary.upsert_untimed summaries same))).bind fun _ _ _ => ?_
  exact alike_pure same

/-- A manifest is found to be that of a source alike. -/
theorem alike_holdsManifestOf (file source : String) :
    Alike Eq (holdsManifestOf (directory.manifestPath file) source)
      (holdsManifestOf (directory.manifestPath file) source) := by
  refine (alike_read? (isName_manifestName (Path.normalize file)) directory.path).bind ?_
  rintro _ _ (⟨rfl, rfl⟩ | ⟨_, _, texts, rfl, rfl⟩)
  · exact alike_pure rfl
  · rcases texts.read_manifest (manifestName_ne _) with ⟨manifest, other, read, readOther, same⟩ |
      ⟨⟨fault, read⟩, otherFault, readOther⟩
    · simp only [read, readOther, same]
      exact alike_pure rfl
    · simp only [read, readOther]
      exact (alike_warn _ _).bind fun _ _ _ => alike_pure rfl

theorem alike_removeManifest (file : String) :
    Alike Eq (directory.removeManifest file) (directory.removeManifest file) := by
  refine (directory.alike_holdsManifestOf file _).bind ?_
  rintro held _ rfl
  cases held with
  | false => exact alike_pure rfl
  | true =>
    have asked (path : String) : Action.Alike Eq (Action.perform (.removeFile path))
        (Action.perform (.removeFile path)) := fun _ _ alike => alike.removeFile path
    exact (alike_attempt (asked _) _).bind fun _ _ _ => alike_pure rfl

theorem alike_removeFromSummary (file : String) :
    Alike Eq (directory.removeFromSummary file) (directory.removeFromSummary file) := by
  have asked : Action.Alike Eq (Action.perform (.pathExists directory.summaryPath))
      (Action.perform (.pathExists directory.summaryPath)) :=
    fun _ _ alike => ⟨alike.find?_isSome _, alike⟩
  refine (alike_lift asked).bind ?_
  rintro there _ rfl
  cases there with
  | false => exact alike_pure rfl
  | true =>
    refine alike_changingSummary (directory.alike_readSummary.bind fun summary other same => ?_)
    dsimp only
    rw [Summary.lists_untimed same]
    split
    case isFalse => exact alike_pure rfl
    case isTrue =>
      refine alike_now.bind fun time otherTime _ => ?_
      exact (directory.alike_writeSummary (Summary.remove_untimed same _ _ _)).bind
        fun _ _ _ => alike_pure rfl

/-- What is recorded of a file is removed alike. -/
theorem alike_retract (file : String) :
    Alike Eq (directory.retract file) (directory.retract file) := by
  refine (directory.alike_removeManifest file).bind ?_
  rintro removed _ rfl
  refine (directory.alike_removeFromSummary file).bind ?_
  rintro dropped _ rfl
  exact alike_pure rfl

/-- Transformed sources are kept alike. -/
theorem alike_keepTransformed (file code : String) :
    Alike Eq (directory.keepTransformed file code) (directory.keepTransformed file code) := by
  unfold keepTransformed
  split
  case isFalse => exact alike_pure rfl
  case isTrue =>
    refine (alike_create _).bind fun _ _ _ => ?_
    exact (alike_write fun _ _ _ => .same code).bind fun _ _ _ => alike_pure rfl

/-- **Records are kept alike.** -/
theorem alike_update (file : String) (points : List TrackingPoint) :
    Action.Alike Eq (directory.update file points) (directory.update file points) := by
  unfold update
  split
  · exact (directory.alike_retract file).diagnostics file
  · exact (directory.alike_record file points).diagnostics file

end TrackingDirectory

end JsxTracking
