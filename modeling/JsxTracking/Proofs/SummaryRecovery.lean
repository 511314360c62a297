import JsxTracking.Proofs.Retraction

/-! # Summaries that cannot be read

A summary that is not one is replaced: it is read as the empty summary, and recording the points of a
file leaves a summary of that file alone. So it is for every file whose bytes are a text, whatever the
text (`TrackingDirectory.recovers_iff`). Bytes that are no text are refused before anything is parsed,
and then no points are recorded again until the file is replaced by hand. -/

namespace JsxTracking

namespace Store

variable {store after : Store} {path : String}

/-- What is found stays found while directories are made. -/
theorem Extends.find? (extended : store.Extends after) {entry : Entry}
    (found : store.find? path = some entry) : after.find? path = some entry := by
  obtain ⟨resolved, there⟩ := resolve_of_find? found
  obtain ⟨nonempty, usable, followed, ends⟩ := resolve_eq_ok_iff.mp resolved
  have stays : ∀ names, store.IsReached names → store.entry? names = some .directory →
      after.entry? names = some .directory := fun _ _ => extended.keeps
  have onward : after.resolve path = .ok (Path.place path) :=
    resolve_eq_ok_iff.mpr ⟨nonempty, usable, follow_of_stays stays isReached_root followed,
      fun isOpen => extended.keeps (ends isOpen)⟩
  rw [Store.find?, onward]
  exact extended.keeps there

/-- A file that is found can be written. -/
theorem writeBytes_of_find? {bytes contents : ByteArray} (found : store.find? path = some (.file bytes)) :
    store.writeBytes path contents = (.ok (), store.put (Path.place path) (.file contents)) := by
  obtain ⟨resolved, there⟩ := resolve_of_find? found
  rw [writeBytes, resolved]
  simp only [there]

/-- Whether a file can be written does not depend on what is written. -/
theorem writeBytes_of_writable {bytes : ByteArray} (same : after.entries = store.entries)
    (writable : (store.writeBytes path bytes).1 = .ok ()) (contents : ByteArray) :
    after.writeBytes path contents = (.ok (), after.put (Path.place path) (.file contents)) := by
  rcases store.writeBytes_cases path bytes with ⟨error, failed⟩ | ⟨leads, free, -⟩
  · rw [failed] at writable
    cases writable
  · have onward : after.Leads path := leads.of_stays fun names _ isDirectory => by
      rw [entry?_congr same, isDirectory]
    rw [← entry?_congr same] at free
    rw [writeBytes, onward.resolved]
    cases found : after.entry? (Path.place path) with
    | none => simp only [found]
    | some entry =>
      cases entry with
      | file => simp only [found]
      | directory => exact absurd found free

/-- Directories that are there need not be made. -/
theorem makeDirectoriesFrom_there {names place : List String} {components : List Path.Component}
    (followed : store.follow names components = .ok place)
    (isDirectory : store.entry? place = some .directory) :
    store.makeDirectoriesFrom names components = (.ok (), store) := by
  induction components generalizing names with
  | nil => rfl
  | cons component more ih =>
    rw [follow] at followed
    split at followed
    · cases followed
    · cases followed
    case h_3 =>
      split at followed
      case isFalse => cases followed
      case isTrue usable =>
        have next : store.entry? (step names component) = some .directory := by
          cases more with
          | nil =>
            obtain rfl := Except.ok.inj followed
            exact isDirectory
          | cons =>
            rw [follow] at followed
            split at followed
            · cases followed
            · cases followed
            case h_3 there => exact there
        rw [makeDirectoriesFrom, if_pos usable]
        simp only [next]
        exact ih followed

/-- A path can be followed if a longer one can. -/
theorem isUsable_of_within {path other : String} (within : path.toList <+: other.toList)
    (usable : isUsable other = true) : isUsable path = true := by
  obtain ⟨rest, whole⟩ := within
  have joined : other = path ++ String.ofList rest := by
    rw [← String.toList_inj, String.toList_append, String.toList_ofList, whole]
  rw [joined] at usable
  simp only [isUsable, String.utf8ByteSize_append, String.toList_append, List.all_append,
    Bool.and_eq_true, decide_eq_true_eq] at usable ⊢
  exact ⟨Nat.le_trans (Nat.le_add_right _ _) usable.1, usable.2.1⟩

/-- The directory of a file that is found need not be made. -/
theorem makeDirectories_of_find? {directory name : String} (isName : Path.IsName name) {entry : Entry}
    (found : store.find? (Path.join directory name) = some entry) :
    store.makeDirectories directory = (.ok (), store) := by
  obtain ⟨⟨place, there, -⟩, usable, -⟩ := resolve_join_ok isName (resolve_of_find? found).1
  have within : directory.toList <+: (Path.join directory name).toList := by
    rcases Path.toList_join isName directory with ⟨empty, -⟩ | ⟨before, ends, joined⟩ | ⟨-, joined⟩
    · rw [empty]
      exact List.nil_prefix
    · rw [ends, joined]
      exact ⟨name.toList, by simp⟩
    · rw [joined]
      exact List.prefix_append _ _
  rw [makeDirectories, if_pos (isUsable_of_within within usable)]
  exact makeDirectoriesFrom_there there.followed there.isDirectory

end Store

open FallibleAction

namespace TrackingDirectory

variable {directory : TrackingDirectory} {store after : Store} {file : String} {bytes : ByteArray}

/-! ## Summaries whose bytes are a text -/

theorem gives_create_of_ok {path : String} (made : store.makeDirectories path = (.ok (), after)) :
    (create path).Gives store () after :=
  gives_attempt made

theorem gives_write_of_ok {path contents : String}
    (written : store.writeBytes path contents.toUTF8 = (.ok (), after)) :
    (write path contents).Gives store () after :=
  gives_attempt written

theorem gives_changingSummary_of_gives {α : Type} {change : FallibleAction Failure α} {value : α}
    (gives : change.Gives store value after) : (changingSummary change).Gives store value after := by
  change Action.run (change.run >>= fun result =>
      Action.perform .releaseSummary >>= fun _ => pure result) store = (.ok value, after)
  rw [Action.run_bind, gives]
  rfl

/-- A summary whose bytes are a text is read. -/
theorem exists_gives_readSummary {text : String}
    (found : store.find? directory.summaryPath = some (.file bytes))
    (decoded : String.fromUTF8? bytes = some text) :
    ∃ summary after, directory.readSummary.Gives store summary after := by
  have read : store.readText directory.summaryPath = .ok text := by
    rw [Store.readText_of_find? found, decoded]
    rfl
  cases parsed : Summary.ofText text with
  | ok summary =>
    refine ⟨summary, store, (gives_read?_ok read).bind ?_⟩
    simp only [parsed]
    exact gives_pure
  | error fault =>
    have warned (message : String) : ∃ after,
        Gives (do warn message; return ({} : Summary)) store {} after :=
      ⟨_, (gives_lift rfl).bind gives_pure⟩
    obtain ⟨after, gives⟩ := warned
      ("[tracking] discarding unreadable summary " ++ directory.summaryPath ++ ": " ++ fault.message)
    refine ⟨{}, after, (gives_read?_ok read).bind ?_⟩
    simp only [parsed]
    exact gives

/-- The summary that is read is what the bytes spell, or else the empty one. -/
theorem gives_readSummary_found {summary : Summary}
    (found : store.find? directory.summaryPath = some (.file bytes))
    (gives : directory.readSummary.Gives store summary after) :
    after.entries = store.entries ∧
      (summary.IsSpelledBy bytes ∨ summary = {} ∧ ∀ other : Summary, ¬ other.IsSpelledBy bytes) := by
  obtain ⟨same, ⟨_, again, spelled⟩ | ⟨empty, none⟩⟩ := gives_readSummary gives
  · obtain rfl := Entry.file.inj (Option.some.inj (found.symm.trans again))
    exact ⟨same, .inl spelled⟩
  · exact ⟨same, .inr ⟨empty, fun other spelled => none other ⟨bytes, found, spelled⟩⟩⟩

/-! ## Recording next to a summary -/

/-- What recording the points of a file makes of the summary that is there. -/
theorem gives_record_found {points : List TrackingPoint} {manifest : Manifest}
    (found : store.find? directory.summaryPath = some (.file bytes))
    (gives : (directory.record file points).Gives store manifest after) :
    (manifest.file = Path.normalize file ∧ manifest.tracking = points) ∧
      (∃ text, String.fromUTF8? bytes = some text) ∧
      ∃ summary : Summary,
        (summary.IsSpelledBy bytes ∨ summary = {} ∧ ∀ other : Summary, ¬ other.IsSpelledBy bytes) ∧
        after.find? directory.summaryPath =
          some (.file (summary.upsert manifest).toJson.pretty.toUTF8) := by
  obtain ⟨_, made, creating, onward⟩ := gives.of_bind
  obtain ⟨time, timed, clock, writing⟩ := onward.of_bind
  obtain ⟨_, written, wrote, recording⟩ := writing.of_bind
  obtain ⟨_, last, changing, ended⟩ := recording.of_bind
  obtain ⟨rfl, rfl⟩ := ended.of_pure
  have extended := (Store.makeDirectories_spec (gives_create creating)).1
  have kept : written.find? directory.summaryPath = some (.file bytes) := by
    have apart := directory.place_manifestPath_ne file
    rw [(Store.writeBytes_ok (gives_write wrote)).1.find?_eq apart.symm,
      Store.find?_of_entries (gives_now clock), extended.find? found]
  obtain ⟨summary, looked, read, rewriting⟩ := (gives_changingSummary changing).of_bind
  have held := (Store.writeBytes_ok (gives_write rewriting)).2
  refine ⟨⟨rfl, rfl⟩, ?_, summary, (gives_readSummary_found kept read).2, held⟩
  obtain ⟨text?, middle, asked, -⟩ := read.of_bind
  obtain ⟨-, ⟨_, text, again, decoded, -⟩ | ⟨-, missing⟩⟩ := gives_read?_cases asked
  · obtain rfl := Entry.file.inj (Option.some.inj (kept.symm.trans again))
    exact ⟨text, decoded⟩
  · exact absurd kept (missing bytes)

/-- Points are recorded next to a summary whose bytes are a text, if the manifest can be written. -/
theorem exists_gives_record {text : String} (points : List TrackingPoint)
    (found : store.find? directory.summaryPath = some (.file bytes))
    (decoded : String.fromUTF8? bytes = some text)
    (writable : (store.writeBytes (directory.manifestPath file) .empty).1 = .ok ()) :
    ∃ manifest after, (directory.record file points).Gives store manifest after := by
  have creating : (create directory.path).Gives store () store :=
    gives_create_of_ok (Store.makeDirectories_of_find? isName_summaryName found)
  obtain ⟨time, timed, clock⟩ : ∃ time timed, now.Gives store time timed := ⟨_, _, gives_lift rfl⟩
  let manifest : Manifest := ⟨Path.normalize file, time, points⟩
  obtain ⟨written, wrote⟩ : ∃ written,
      (write (directory.manifestPath file) manifest.toJson.pretty).Gives timed () written :=
    ⟨_, gives_write_of_ok (Store.writeBytes_of_writable (gives_now clock) writable _)⟩
  have kept : written.find? directory.summaryPath = some (.file bytes) := by
    have apart := directory.place_manifestPath_ne file
    rw [(Store.writeBytes_ok (gives_write wrote)).1.find?_eq apart.symm,
      Store.find?_of_entries (gives_now clock), found]
  obtain ⟨summary, looked, read⟩ := exists_gives_readSummary kept decoded
  have there := (Store.find?_of_entries (gives_readSummary_found kept read).1 _).trans kept
  obtain ⟨after, rewrote⟩ : ∃ after,
      (directory.writeSummary (summary.upsert manifest)).Gives looked () after :=
    ⟨_, gives_write_of_ok (Store.writeBytes_of_find? there)⟩
  have changing : Gives (changingSummary do
      directory.writeSummary ((← directory.readSummary).upsert manifest)) written () after :=
    gives_changingSummary_of_gives (read.bind rewrote)
  exact ⟨manifest, after, creating.bind (clock.bind (wrote.bind (changing.bind gives_pure)))⟩

/-! ## Summaries whose bytes are no text -/

/-- A summary whose bytes are no text is refused. -/
theorem run_readSummary_undecodable
    (found : store.find? directory.summaryPath = some (.file bytes))
    (undecodable : String.fromUTF8? bytes = none) :
    Action.run directory.readSummary.run store =
      (.error (failedOn directory.summaryPath store.refused), store) := by
  have read : store.readText directory.summaryPath = .error store.refused := by
    rw [Store.readText_of_find? found, undecodable]
    rfl
  have answered : (Action.perform (.readText directory.summaryPath)).run store =
      (.error store.refused, store) := Prod.ext read rfl
  have refused : Action.run (read? directory.summaryPath).run store =
      (.error (failedOn directory.summaryPath store.refused), store) := by
    rw [read?, ExceptT.run_mk, Action.run_bind, answered]
    rfl
  change Action.run ((read? directory.summaryPath).run >>= ExceptT.bindCont _) store = _
  rw [Action.run_bind, refused]
  rfl

/-- Whatever the bytes of the summary: it is read as the summary that they spell, or as the empty one if
they spell none. In that case points can be recorded if the manifest can be written, and then they make
up the whole summary. -/
structure Recovers (directory : TrackingDirectory) (bytes : ByteArray) (store : Store) : Prop where
  read : ∃ summary after, directory.readSummary.Gives store summary after ∧
    after.entries = store.entries ∧
    (summary.IsSpelledBy bytes ∨ summary = {} ∧ ∀ other : Summary, ¬ other.IsSpelledBy bytes)
  rebuilt : (∀ other : Summary, ¬ other.IsSpelledBy bytes) → ∀ file points,
    (store.writeBytes (directory.manifestPath file) .empty).1 = .ok () →
      ∃ (manifest : Manifest) (after : Store) (summary : Summary),
        (directory.record file points).Gives store manifest after ∧
        (manifest.file = Path.normalize file ∧ manifest.tracking = points) ∧
        (summary.files = [manifest] ∧ summary.totalTracking = points.length) ∧
        after.find? directory.summaryPath = some (.file summary.toJson.pretty.toUTF8) ∧
        (points.length < 2 ^ 64 → after.HasSummary directory.summaryPath summary.recorded)

theorem not_recovers (found : store.find? directory.summaryPath = some (.file bytes))
    (undecodable : String.fromUTF8? bytes = none) : ¬ directory.Recovers bytes store := by
  intro recovers
  obtain ⟨summary, after, gives, -⟩ := recovers.read
  rw [Gives, run_readSummary_undecodable found undecodable] at gives
  cases (Prod.mk.inj gives).1

/-- Points are not recorded next to a summary whose bytes are no text. -/
theorem run_record_undecodable (found : store.find? directory.summaryPath = some (.file bytes))
    (undecodable : String.fromUTF8? bytes = none) (file : String) (points : List TrackingPoint) :
    ∃ failure after,
      Action.run (directory.record file points).run store = (.error failure, after) := by
  cases outcome : Action.run (directory.record file points).run store with
  | mk result after =>
    cases result with
    | error failure => exact ⟨failure, after, rfl⟩
    | ok manifest =>
      obtain ⟨-, ⟨text, decoded⟩, -⟩ := gives_record_found found outcome
      rw [undecodable] at decoded
      cases decoded

/-- **Which summaries are recovered from.** A file in the place of the summary is recovered from exactly
if its bytes are a text in UTF-8, whatever the text is. Otherwise the summary cannot be read, and the
points of no file can be recorded. -/
theorem recovers_iff (found : store.find? directory.summaryPath = some (.file bytes)) :
    (directory.Recovers bytes store ↔ (String.fromUTF8? bytes).isSome = true) ∧
    (String.fromUTF8? bytes = none →
      Action.run directory.readSummary.run store =
        (.error (failedOn directory.summaryPath store.refused), store) ∧
      ∀ file points, ∃ failure after,
        Action.run (directory.record file points).run store = (.error failure, after)) := by
  refine ⟨⟨fun recovers => ?_, fun isText => ?_⟩, fun undecodable => ⟨?_, fun file points => ?_⟩⟩
  · rw [Option.isSome_iff_ne_none]
    exact fun undecodable => not_recovers found undecodable recovers
  · obtain ⟨text, decoded⟩ := Option.isSome_iff_exists.mp isText
    constructor
    · obtain ⟨summary, after, gives⟩ := exists_gives_readSummary found decoded
      exact ⟨summary, after, gives, gives_readSummary_found found gives⟩
    · intro corrupt file points writable
      obtain ⟨manifest, after, gives⟩ := exists_gives_record points found decoded writable
      obtain ⟨⟨named, listed⟩, -, summary, spelled | ⟨rfl, -⟩, held⟩ :=
        gives_record_found found gives
      · exact absurd spelled (corrupt summary)
      · have total : (Summary.upsert {} manifest).totalTracking = points.length := by
          rw [← listed]
          simp [Summary.upsert, Summary.replace, Summary.refresh]
        refine ⟨manifest, after, _, gives, ⟨named, listed⟩, ⟨rfl, total⟩, held, fun fits => ?_⟩
        exact ⟨_, held, Summary.isSpelledBy_pretty_iff.mpr ⟨rfl, total ▸ fits⟩⟩
  · exact run_readSummary_undecodable found undecodable
  · exact run_record_undecodable found undecodable file points

/-- A summary that breaks off is recovered from: it is read as the empty one, and once a point is recorded
the summary holds its file alone. -/
theorem recovers_truncated :
    let directory : TrackingDirectory := ⟨"t", false⟩
    let bytes := "\x7b\"files\": [".toUTF8
    let store := Store.inDirectory [("tracking-summary.json", .file bytes)]
    let point : TrackingPoint := ⟨.visible, "a", "div", "src/A.tsx", false⟩
    store.find? directory.summaryPath = some (.file bytes) ∧
      (∃ after, directory.readSummary.Gives store {} after ∧ after.entries = store.entries) ∧
      ∃ (manifest : Manifest) (after : Store) (summary : Summary),
        (directory.record "src/A.tsx" [point]).Gives store manifest after ∧
        summary.files = [manifest] ∧ manifest.file = "src/A.tsx" ∧
        after.HasSummary directory.summaryPath summary.recorded := by
  intro directory bytes store point
  have found : store.find? directory.summaryPath = some (.file bytes) :=
    Store.find?_of_readBytes (ok_of_toOption (by decide +kernel))
  have recovers := (recovers_iff found).1.mpr (by decide +kernel)
  have corrupt (other : Summary) : ¬ other.IsSpelledBy bytes := by
    rw [Summary.isSpelledBy_iff]
    rintro ⟨text, decoded, parsed⟩
    rw [Store.fromUTF8?_toUTF8] at decoded
    obtain rfl := Option.some.inj decoded
    have rejected : (Summary.ofText "\x7b\"files\": [").toOption = none := by decide +kernel
    rw [parsed] at rejected
    cases rejected
  refine ⟨found, ?_, ?_⟩
  · obtain ⟨summary, after, gives, same, spelled | ⟨rfl, -⟩⟩ := recovers.read
    · exact absurd spelled (corrupt summary)
    · exact ⟨after, gives, same⟩
  · obtain ⟨manifest, after, summary, gives, ⟨named, -⟩, ⟨files, -⟩, -, held⟩ :=
      recovers.rebuilt corrupt "src/A.tsx" [point] (ok_of_toOption (by decide +kernel))
    refine ⟨manifest, after, summary, gives, files, named.trans (by decide +kernel), held ?_⟩
    exact Nat.one_lt_two_pow (by decide)

/-- A summary of a single byte that is no text is not recovered from. -/
theorem not_recovers_undecodable :
    let directory : TrackingDirectory := ⟨"t", false⟩
    let bytes : ByteArray := ⟨#[255]⟩
    let store := Store.inDirectory [("tracking-summary.json", .file bytes)]
    store.find? directory.summaryPath = some (.file bytes) ∧ ¬ directory.Recovers bytes store ∧
      ∃ failure after,
        Action.run (directory.record "src/A.tsx" []).run store = (.error failure, after) := by
  intro directory bytes store
  have found : store.find? directory.summaryPath = some (.file bytes) :=
    Store.find?_of_readBytes (ok_of_toOption (by decide +kernel))
  have undecodable : String.fromUTF8? bytes = none := by decide +kernel
  exact ⟨found, not_recovers found undecodable, run_record_undecodable found undecodable _ _⟩

end TrackingDirectory

end JsxTracking
