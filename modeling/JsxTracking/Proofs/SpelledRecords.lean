import JsxTracking.Manifest
import JsxTracking.Proofs.JsonRecords
import JsxTracking.Proofs.Places

/-! # What the texts of records say

Manifests and summaries are found in documents as their format says: under their keys, each given once,
in an object or in order in a list. They are read from a text exactly if the text is such a document
(`Manifest.ofText_iff`, `Summary.ofText_iff`), so what is accepted as a record of a build depends on
the grammar and on the format, and not on how it is read. -/

namespace JsxTracking

open Json (Document)
open Json.Reader

/-! ## Records in documents -/

/-- The kind that a document names, by a text or as the only key of an object with the value null. -/
def MarkerKind.ofDocument? : Document → Option MarkerKind
  | .string (some label) => ofLabel? label
  | .object [(some label, .null)] => ofLabel? label
  | _ => none

/-- The point that a document is; its file is not recorded, nor whether its name stands for a dynamic
value. -/
def TrackingPoint.ofDocument? (document : Document) : Option TrackingPoint := do
  let members ← document.members? ["type", "name", "elementName"]
  return {
    kind := ← Document.told? members "type" MarkerKind.ofDocument?
    name := ← Document.told? members "name" Document.text?
    elementName := ← Document.told? members "elementName" Document.text?
    file := "", dynamic := false }

/-- The manifest that a document is. -/
def Manifest.ofDocument? (document : Document) : Option Manifest := do
  let members ← document.members? ["file", "timestamp", "tracking"]
  return {
    file := ← Document.told? members "file" Document.text?
    timestamp := ← Document.told? members "timestamp" Document.text?
    tracking := ← Document.told? members "tracking" (Document.list? TrackingPoint.ofDocument?) }

/-- The summary that a document is. -/
def Summary.ofDocument? (document : Document) : Option Summary := do
  let members ← document.members? ["files", "totalTracking", "lastUpdated"]
  return {
    files := ← Document.told? members "files" (Document.list? Manifest.ofDocument?)
    totalTracking := ← Document.told? members "totalTracking" Document.natural?
    lastUpdated := ← Document.told? members "lastUpdated" Document.text? }

variable {text rest : List Char}

namespace MarkerKind

theorem understands_named : Understands named fun document => document.text?.bind ofLabel? := by
  intro text rest kind
  rw [named]
  constructor
  · intro read
    obtain ⟨label, middle, given, made⟩ := of_run_bind read
    obtain ⟨document, spells, means⟩ := understands_string.mp given
    cases found : ofLabel? label with
    | none =>
      rw [found] at made
      exact absurd made run_fail_ne
    | some known =>
      rw [found] at made
      obtain ⟨rfl, rfl⟩ := Prod.mk.inj (Except.ok.inj made)
      exact ⟨document, spells, Option.bind_eq_some_iff.mpr ⟨label, means, found⟩⟩
  · rintro ⟨document, spells, means⟩
    obtain ⟨label, given, found⟩ := Option.bind_eq_some_iff.mp means
    rw [run_bind_ok (understands_string.mpr ⟨document, spells, given⟩), found]
    rfl

/-- A document that names a kind by a text is that text. -/
theorem eq_string_of_named {document : Document} {kind : MarkerKind}
    (means : document.text?.bind ofLabel? = some kind) :
    ∃ label, document = .string (some label) ∧ ofLabel? label = some kind := by
  cases document with
  | string value? =>
    obtain ⟨label, rfl, found⟩ := Option.bind_eq_some_iff.mp means
    exact ⟨label, rfl, found⟩
  | _ => cases means

theorem understands_reader : Understands reader ofDocument? := by
  intro text rest kind
  rw [reader]
  constructor
  · intro read
    obtain ⟨c, behind, dropped, given⟩ := of_run_peek_bind read run_fail_ne
    split at given
    case h_1 none => cases none
    case h_2 same =>
      obtain ⟨document, spells, means⟩ := understands_named.mp given
      obtain ⟨label, rfl, found⟩ := eq_string_of_named means
      rw [← dropped] at spells
      exact ⟨_, spells.of_dropWhile, found⟩
    case h_3 same =>
      obtain rfl := Option.some.inj same
      rw [run_advance_bind] at given
      obtain ⟨known, afterKey, given, onward⟩ := of_run_bind given
      obtain ⟨document, spells, means⟩ := understands_named.mp given
      obtain ⟨label, rfl, found⟩ := eq_string_of_named means
      obtain ⟨_, afterColon, colon, onward⟩ := of_run_bind onward
      obtain ⟨_, afterNull, null, onward⟩ := of_run_bind onward
      obtain ⟨last, after, ended, made⟩ := of_run_peek_bind onward run_fail_ne
      split at made
      case h_1 same =>
        obtain rfl := Option.some.inj same
        rw [run_advance_bind] at made
        obtain ⟨rfl, rfl⟩ := Prod.mk.inj (Except.ok.inj made)
        cases spells with
        | string quoted quotes =>
          have value := Json.Spells.null (run_null_iff.mp null)
          have member := Json.Spells.member quoted quotes (run_colon_iff.mp colon) value
          have begins := Json.begins_of_dropWhile dropped
          exact ⟨_, .object begins member (.endOfMembers (Json.begins_of_dropWhile ended)), found⟩
      case h_2 => exact absurd made run_fail_ne
      case h_3 => exact absurd made run_fail_ne
    case h_4 => exact absurd given run_fail_ne
  · rintro ⟨document, spells, means⟩
    rw [run_peek_bind]
    cases document with
    | string value? =>
      cases value? with
      | none => cases means
      | some label =>
        have read := understands_named.mpr ⟨_, spells.dropWhile, means⟩
        cases spells with
        | string begins quotes =>
          rw [begins.dropWhile rfl] at read ⊢
          exact read
    | object members =>
      obtain ⟨behind, begins⟩ := spells.begins_object
      rw [begins.dropWhile rfl]
      match members, means with
      | [(some label, .null)], means =>
        cases spells with
        | object opened first more =>
          obtain rfl := begins.unique opened rfl
          cases first with
          | member quoted quotes colon value =>
            cases value with
            | null null =>
              cases more with
              | endOfMembers ends =>
                refine (run_advance_bind _ _ _).trans ?_
                have named := understands_named.mpr ⟨_, .string quoted quotes, means⟩
                rw [run_bind_ok named, run_bind_ok (run_colon_iff.mpr colon),
                  run_bind_ok (run_null_iff.mpr null), run_peek_bind, ends.dropWhile rfl]
                rfl
    | _ => cases means

end MarkerKind

namespace GivenPoint

/-- The parts of a point. -/
def parts : List (RecordPart GivenPoint) :=
  [⟨_, "type", kind?, _, fun given value => { given with kind? := some value }, _,
      MarkerKind.understands_reader⟩,
    ⟨_, "name", name?, _, fun given value => { given with name? := some value }, _,
      understands_string⟩,
    ⟨_, "elementName", elementName?, _, fun given value => { given with elementName? := some value },
      _, understands_string⟩]

theorem independent_parts : Independent parts where
  keys := by decide
  stored := by simp [parts]
  others := by simp [parts]
  determined := by
    rintro ⟨⟩ ⟨⟩ same
    simpa [parts] using same

theorem complete?_eq_some_iff (given : GivenPoint) (point : TrackingPoint) :
    given.complete? = some point ↔
      given = ⟨some point.kind, some point.name, some point.elementName⟩ ∧
        (point.file = "" ∧ point.dynamic = false) := by
  obtain ⟨kind?, name?, elementName?⟩ := given
  cases point
  simp only [complete?, Option.bind_eq_bind, Option.bind_eq_some_iff, Option.pure_def,
    Option.some.injEq, GivenPoint.mk.injEq, TrackingPoint.mk.injEq]
  grind

end GivenPoint

theorem TrackingPoint.understands_reader : Understands TrackingPoint.reader ofDocument? := by
  refine understands_complete GivenPoint.independent_parts (by simp [GivenPoint.parts])
    GivenPoint.complete?_eq_some_iff (by simp [GivenPoint.parts]) fun document point => ?_
  cases point
  simp only [ofDocument?, GivenPoint.parts, Option.bind_eq_bind, Option.bind_eq_some_iff,
    Option.pure_def, Option.some.injEq, TrackingPoint.mk.injEq, List.forall_mem_cons, List.map_cons,
    List.map_nil]
  grind

namespace GivenManifest

/-- The parts of a manifest. -/
def parts : List (RecordPart GivenManifest) :=
  [⟨_, "file", file?, _, fun given value => { given with file? := some value }, _,
      understands_string⟩,
    ⟨_, "timestamp", timestamp?, _, fun given value => { given with timestamp? := some value }, _,
      understands_string⟩,
    ⟨_, "tracking", tracking?, _, fun given value => { given with tracking? := some value }, _,
      understands_list TrackingPoint.understands_reader⟩]

theorem independent_parts : Independent parts where
  keys := by decide
  stored := by simp [parts]
  others := by simp [parts]
  determined := by
    rintro ⟨⟩ ⟨⟩ same
    simpa [parts] using same

theorem complete?_eq_some_iff (given : GivenManifest) (manifest : Manifest) :
    given.complete? = some manifest ↔
      given = ⟨some manifest.file, some manifest.timestamp, some manifest.tracking⟩ ∧ True := by
  obtain ⟨file?, timestamp?, tracking?⟩ := given
  cases manifest
  simp only [complete?, Option.bind_eq_bind, Option.bind_eq_some_iff, Option.pure_def,
    Option.some.injEq, GivenManifest.mk.injEq, Manifest.mk.injEq]
  grind

end GivenManifest

theorem Manifest.understands_reader : Understands Manifest.reader ofDocument? := by
  refine understands_complete GivenManifest.independent_parts (by simp [GivenManifest.parts])
    GivenManifest.complete?_eq_some_iff (by simp [GivenManifest.parts]) fun document manifest => ?_
  cases manifest
  simp only [ofDocument?, GivenManifest.parts, Option.bind_eq_bind, Option.bind_eq_some_iff,
    Option.pure_def, Option.some.injEq, Manifest.mk.injEq, List.forall_mem_cons, List.map_cons,
    List.map_nil]
  grind

namespace GivenSummary

/-- The parts of a summary. -/
def parts : List (RecordPart GivenSummary) :=
  [⟨_, "files", files?, _, fun given value => { given with files? := some value }, _,
      understands_list Manifest.understands_reader⟩,
    ⟨_, "totalTracking", totalTracking?, _,
      fun given value => { given with totalTracking? := some value }, _, understands_natural⟩,
    ⟨_, "lastUpdated", lastUpdated?, _,
      fun given value => { given with lastUpdated? := some value }, _, understands_string⟩]

theorem independent_parts : Independent parts where
  keys := by decide
  stored := by simp [parts]
  others := by simp [parts]
  determined := by
    rintro ⟨⟩ ⟨⟩ same
    simpa [parts] using same

theorem complete?_eq_some_iff (given : GivenSummary) (summary : Summary) :
    given.complete? = some summary ↔
      given = ⟨some summary.files, some summary.totalTracking, some summary.lastUpdated⟩ ∧
        True := by
  obtain ⟨files?, totalTracking?, lastUpdated?⟩ := given
  cases summary
  simp only [complete?, Option.bind_eq_bind, Option.bind_eq_some_iff, Option.pure_def,
    Option.some.injEq, GivenSummary.mk.injEq, Summary.mk.injEq]
  grind

end GivenSummary

theorem Summary.understands_reader : Understands Summary.reader ofDocument? := by
  refine understands_complete GivenSummary.independent_parts (by simp [GivenSummary.parts])
    GivenSummary.complete?_eq_some_iff (by simp [GivenSummary.parts]) fun document summary => ?_
  cases summary
  simp only [ofDocument?, GivenSummary.parts, Option.bind_eq_bind, Option.bind_eq_some_iff,
    Option.pure_def, Option.some.injEq, Summary.mk.injEq, List.forall_mem_cons, List.map_cons,
    List.map_nil]
  grind

/-! ## Records in texts -/

/-- **A text is a manifest exactly if it spells one.** -/
theorem Manifest.ofText_iff {text : String} {manifest : Manifest} :
    ofText text = .ok manifest ↔
      ∃ document, Json.IsDocument text.toList document ∧ ofDocument? document = some manifest :=
  Manifest.understands_reader.readText_iff

/-- **A text is a summary exactly if it spells one.** -/
theorem Summary.ofText_iff {text : String} {summary : Summary} :
    ofText text = .ok summary ↔
      ∃ document, Json.IsDocument text.toList document ∧ ofDocument? document = some summary :=
  Summary.understands_reader.readText_iff

/-- Bytes spell a value if they are the text of a document with that meaning. -/
def Json.IsSpelling {α : Type} (meaning? : Document → Option α) (bytes : ByteArray) (value : α) :
    Prop :=
  ∃ text document, String.fromUTF8? bytes = some text ∧ IsDocument text.toList document ∧
    meaning? document = some value

/-- The bytes of a manifest. -/
def Manifest.IsSpelledBy (manifest : Manifest) (bytes : ByteArray) : Prop :=
  Json.IsSpelling ofDocument? bytes manifest

/-- The bytes of a summary. -/
def Summary.IsSpelledBy (summary : Summary) (bytes : ByteArray) : Prop :=
  Json.IsSpelling ofDocument? bytes summary

theorem Json.isSpelling_iff {α : Type} {reader : Json.Reader α} {meaning? : Document → Option α}
    (understands : Understands reader meaning?) {bytes : ByteArray} {value : α} :
    IsSpelling meaning? bytes value ↔
      ∃ text, String.fromUTF8? bytes = some text ∧ readText reader text = .ok value := by
  simp only [IsSpelling, understands.readText_iff, exists_and_left]

theorem Json.IsSpelling.unique {α : Type} {reader : Json.Reader α}
    {meaning? : Document → Option α} (understands : Understands reader meaning?)
    {bytes : ByteArray} {value other : α} (spelled : IsSpelling meaning? bytes value)
    (again : IsSpelling meaning? bytes other) : value = other := by
  obtain ⟨text, decoded, read⟩ := (isSpelling_iff understands).mp spelled
  obtain ⟨same, decodedAgain, readAgain⟩ := (isSpelling_iff understands).mp again
  obtain rfl := Option.some.inj (decoded.symm.trans decodedAgain)
  exact Except.ok.inj (read.symm.trans readAgain)

theorem Manifest.isSpelledBy_iff {manifest : Manifest} {bytes : ByteArray} :
    manifest.IsSpelledBy bytes ↔
      ∃ text, String.fromUTF8? bytes = some text ∧ ofText text = .ok manifest :=
  Json.isSpelling_iff Manifest.understands_reader

theorem Summary.isSpelledBy_iff {summary : Summary} {bytes : ByteArray} :
    summary.IsSpelledBy bytes ↔
      ∃ text, String.fromUTF8? bytes = some text ∧ ofText text = .ok summary :=
  Json.isSpelling_iff Summary.understands_reader

theorem Manifest.IsSpelledBy.unique {manifest other : Manifest} {bytes : ByteArray}
    (spelled : manifest.IsSpelledBy bytes) (again : other.IsSpelledBy bytes) : manifest = other :=
  Json.IsSpelling.unique Manifest.understands_reader spelled again

theorem Summary.IsSpelledBy.unique {summary other : Summary} {bytes : ByteArray}
    (spelled : summary.IsSpelledBy bytes) (again : other.IsSpelledBy bytes) : summary = other :=
  Json.IsSpelling.unique Summary.understands_reader spelled again

/-! ## What is recorded is all there is to read -/

theorem TrackingPoint.recorded_of_document {document : Document} {point : TrackingPoint}
    (means : ofDocument? document = some point) : point.recorded = point := by
  simp only [ofDocument?, Option.bind_eq_bind, Option.bind_eq_some_iff, Option.pure_def,
    Option.some.injEq] at means
  obtain ⟨_, -, _, -, _, -, _, -, rfl⟩ := means
  rfl

theorem Json.Document.map_of_list {α : Type} {item? : Document → Option α} {recorded : α → α}
    (fixed : ∀ {document value}, item? document = some value → recorded value = value)
    {document : Document} {values : List α} (means : document.list? item? = some values) :
    values.map recorded = values := by
  cases document with
  | list items =>
    induction items generalizing values with
    | nil =>
      obtain rfl : [] = values := Option.some.inj means
      rfl
    | cons item items ih =>
      simp only [list?, List.mapM_cons, Option.bind_eq_bind, Option.bind_eq_some_iff,
        Option.pure_def, Option.some.injEq] at means
      obtain ⟨first, isFirst, more, others, rfl⟩ := means
      rw [List.map_cons, fixed isFirst, ih others]
  | _ => cases means

theorem Manifest.recorded_of_document {document : Document} {manifest : Manifest}
    (means : ofDocument? document = some manifest) : manifest.recorded = manifest := by
  simp only [ofDocument?, Document.told?, Option.bind_eq_bind, Option.bind_eq_some_iff,
    Option.pure_def, Option.some.injEq] at means
  obtain ⟨_, -, _, -, _, -, points, ⟨_, -, listed⟩, rfl⟩ := means
  rw [recorded, Document.map_of_list TrackingPoint.recorded_of_document listed]

/-- A summary that is read holds nothing that is not recorded. -/
theorem Summary.recorded_of_document {document : Document} {summary : Summary}
    (means : ofDocument? document = some summary) : summary.recorded = summary := by
  simp only [ofDocument?, Document.told?, Option.bind_eq_bind, Option.bind_eq_some_iff,
    Option.pure_def, Option.some.injEq] at means
  obtain ⟨_, -, files, ⟨_, -, listed⟩, _, -, _, -, rfl⟩ := means
  rw [recorded, Document.map_of_list Manifest.recorded_of_document listed]

/-- What is written of a summary is its recorded form, unless its total is too large. -/
theorem Summary.isSpelledBy_pretty_iff {summary other : Summary} :
    other.IsSpelledBy summary.toJson.pretty.toUTF8 ↔
      other = summary.recorded ∧ summary.totalTracking < 2 ^ 64 := by
  rw [isSpelledBy_iff]
  constructor
  · rintro ⟨text, decoded, read⟩
    rw [Store.fromUTF8?_toUTF8] at decoded
    obtain rfl := Option.some.inj decoded
    by_cases fits : summary.totalTracking < 2 ^ 64
    · have written : ofText summary.toJson.pretty = .ok summary.recorded :=
        readText_pretty (reads_toJson fits)
      exact ⟨Except.ok.inj (read.symm.trans written), fits⟩
    · obtain ⟨fault, rejected⟩ := ofText_pretty_rejected (Nat.le_of_not_lt fits)
      rw [rejected] at read
      cases read
  · rintro ⟨rfl, fits⟩
    exact ⟨_, Store.fromUTF8?_toUTF8 _, readText_pretty (reads_toJson fits)⟩

end JsxTracking
