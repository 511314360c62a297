import JsxTracking.Proofs.Places
import JsxTracking.Session
import Mathlib.Logic.Function.Basic

/-! # What a tracking directory holds

The actions on the records of a build are read backwards: from an action that succeeds to what it has
done to the store (`FallibleAction.Gives`). All of them touch only files of the tracking directory,
which therefore *holds* texts by their names (`TrackingDirectory.Holds`): what is read is what is
held, and writing or removing a file changes what is held under its name and nothing else. -/

namespace JsxTracking

variable {ε α β : Type}

/-! ## Actions that succeed -/

theorem ok_of_toOption {result : Except ε α} {value : α} (has : result.toOption = some value) :
    result = .ok value := by
  cases result with
  | error => cases has
  | ok given => exact congrArg Except.ok (Option.some.inj has)

theorem Action.run_bind (action : Action α) (next : α → Action β) (store : Store) :
    (action >>= next).run store = (next (action.run store).1).run (action.run store).2 := by
  induction action generalizing store with
  | done value => rfl
  | ask request answered ih => exact ih _ _

namespace FallibleAction

/-- An action on a store succeeds with a value and leaves a store. -/
def Gives (action : FallibleAction ε α) (store : Store) (value : α) (after : Store) : Prop :=
  Action.run action.run store = (.ok value, after)

variable {store after : Store} {value : α}

theorem gives_pure : (pure value : FallibleAction ε α).Gives store value store := rfl

/-- An action that has a value gives it. -/
theorem gives_of_toOption {action : FallibleAction ε α}
    (has : (Action.run action.run store).1.toOption = some value) :
    action.Gives store value (Action.run action.run store).2 :=
  Prod.ext (ok_of_toOption has) rfl

theorem Gives.of_pure {given : α} (gives : (pure given : FallibleAction ε α).Gives store value after) :
    value = given ∧ after = store := by
  cases gives
  exact ⟨rfl, rfl⟩

/-- A sequence of actions succeeds if each of them does. -/
theorem Gives.of_bind {action : FallibleAction ε α} {next : α → FallibleAction ε β} {value : β}
    (gives : (action >>= next).Gives store value after) :
    ∃ first middle, action.Gives store first middle ∧ (next first).Gives middle value after := by
  have ran : Action.run (action.run >>= ExceptT.bindCont next) store = (.ok value, after) := gives
  rw [Action.run_bind] at ran
  cases outcome : Action.run action.run store with
  | mk result middle =>
    rw [outcome] at ran
    cases result with
    | error error => cases ran
    | ok first => exact ⟨first, middle, outcome, ran⟩

theorem Gives.of_attempt {asked : Action (Except HostError α)} {failure : HostError → ε}
    (gives : (attempt asked failure).Gives store value after) :
    asked.run store = (.ok value, after) := by
  have ran : Action.run (asked >>= fun result => pure (result.mapError failure)) store =
      (.ok value, after) := gives
  rw [Action.run_bind] at ran
  cases outcome : asked.run store with
  | mk result middle =>
    rw [outcome] at ran
    cases result with
    | error error => cases ran
    | ok value =>
      cases ran
      rfl

theorem Gives.of_lift {action : Action α}
    (gives : Gives (ExceptT.lift action : FallibleAction ε α) store value after) :
    action.run store = (value, after) := by
  have ran : Action.run (action >>= fun value => pure (.ok value : Except ε α)) store =
      (.ok value, after) := gives
  rw [Action.run_bind] at ran
  cases ran
  rfl

/-- Actions that succeed one after another. -/
theorem Gives.bind {action : FallibleAction ε α} {next : α → FallibleAction ε β} {middle : Store}
    {result : β} (first : action.Gives store value middle)
    (second : (next value).Gives middle result after) : (action >>= next).Gives store result after := by
  have ran : Action.run (action.run >>= ExceptT.bindCont next) store = (.ok result, after) := by
    rw [Action.run_bind, first]
    exact second
  exact ran

theorem gives_attempt {asked : Action (Except HostError α)} {failure : HostError → ε}
    (answered : asked.run store = (.ok value, after)) :
    (attempt asked failure).Gives store value after := by
  change Action.run (asked >>= fun result => pure (result.mapError failure)) store = _
  rw [Action.run_bind, answered]
  rfl

theorem gives_lift {action : Action α} (ran : action.run store = (value, after)) :
    Gives (ExceptT.lift action : FallibleAction ε α) store value after := by
  change Action.run (action >>= fun value => pure (.ok value : Except ε α)) store = _
  rw [Action.run_bind, ran]
  rfl

/-- An action without diagnostics has succeeded. -/
theorem gives_of_diagnostics {action : FallibleAction Failure α} {file : String}
    (none : ((action.diagnostics file).run store).1 = []) :
    ∃ value, action.Gives store value ((action.diagnostics file).run store).2 := by
  rw [diagnostics, Action.run_bind] at none ⊢
  cases outcome : Action.run action.run store with
  | mk result middle =>
    rw [outcome] at none
    cases result with
    | error failure => cases none
    | ok value => exact ⟨value, outcome⟩

end FallibleAction

open FallibleAction

namespace TrackingDirectory

variable {directory : TrackingDirectory} {store after : Store} {path : String}

theorem gives_create {value : Unit} (gives : (create path).Gives store value after) :
    store.makeDirectories path = (.ok (), after) :=
  gives.of_attempt

theorem gives_write {contents : String} {value : Unit}
    (gives : (write path contents).Gives store value after) :
    store.writeBytes path contents.toUTF8 = (.ok (), after) :=
  gives.of_attempt

theorem gives_remove {failure : HostError → Failure} {value : Unit}
    (gives : Gives (.attempt (.perform (.removeFile path)) failure) store value after) :
    store.removeFile path = (.ok (), after) :=
  gives.of_attempt

theorem gives_read? {text? : Option String} (gives : (read? path).Gives store text? after) :
    after = store ∧ ((∃ text, store.readText path = .ok text ∧ text? = some text) ∨
      ∃ error, store.readText path = .error error ∧ error.notFound = true ∧ text? = none) := by
  have answered : (Action.perform (.readText path)).run store = (store.readText path, store) := rfl
  rw [Gives, read?, ExceptT.run_mk, Action.run_bind, answered] at gives
  simp only at gives
  split at gives
  case h_1 text read =>
    cases gives
    exact ⟨rfl, .inl ⟨text, read, rfl⟩⟩
  case h_2 error read =>
    by_cases missing : error.notFound = true
    · simp only [missing, ↓reduceIte] at gives
      cases gives
      exact ⟨rfl, .inr ⟨error, read, missing, rfl⟩⟩
    · simp only [missing, Bool.false_eq_true, ↓reduceIte] at gives
      cases gives

/-- A text that can be read is read. -/
theorem gives_read?_ok {text : String} (read : store.readText path = .ok text) :
    (read? path).Gives store (some text) store := by
  have answered : (Action.perform (.readText path)).run store = (store.readText path, store) := rfl
  rw [Gives, read?, ExceptT.run_mk, Action.run_bind, answered, read]
  rfl

theorem gives_read?_missing {error : HostError} (read : store.readText path = .error error)
    (missing : error.notFound = true) : (read? path).Gives store none store := by
  have answered : (Action.perform (.readText path)).run store = (store.readText path, store) := rfl
  rw [Gives, read?, ExceptT.run_mk, Action.run_bind, answered, read]
  simp only [missing, ↓reduceIte]
  rfl

/-- A summary is changed while no one else does; this does not show in the store. -/
theorem gives_changingSummary {change : FallibleAction Failure α} {value : α}
    (gives : (changingSummary change).Gives store value after) : change.Gives store value after := by
  have ran : Action.run (change.run >>= fun result =>
      Action.perform .releaseSummary >>= fun _ => pure result) store = (.ok value, after) := gives
  rw [Action.run_bind] at ran
  exact ran

/-! ## Where records are kept -/

/-- Where the directory is. -/
def place (directory : TrackingDirectory) : List String :=
  (Path.components directory.path).foldl Store.step []

/-- The name of the summary in the directory. -/
def summaryName : String := "tracking-summary.json"

/-- The name of the manifest of a source in the directory. -/
def manifestName (source : String) : String :=
  Path.safeName ((Path.fileStem? source).getD unnamed) ++ "-tracking.json"

theorem summaryPath_eq : directory.summaryPath = Path.join directory.path summaryName := rfl

theorem manifestPath_eq (file : String) :
    directory.manifestPath file =
      Path.join directory.path (manifestName (Path.normalize file)) := rfl

theorem isName_summaryName : Path.IsName summaryName :=
  ⟨by decide, by decide⟩

theorem toList_manifestName (source : String) :
    ∃ stem : List Char, (manifestName source).toList = stem ++ "-tracking.json".toList ∧
      '/' ∉ stem := by
  refine ⟨_, String.toList_append .., ?_⟩
  rw [Path.safeName, String.toList_ofList]
  intro slash
  obtain ⟨c, -, same⟩ := List.mem_map.mp slash
  split at same
  case isTrue safe =>
    subst same
    exact absurd safe (by decide)
  case isFalse => exact absurd same (by decide)

theorem isName_manifestName (source : String) : Path.IsName (manifestName source) := by
  obtain ⟨stem, text, noSlash⟩ := toList_manifestName source
  have long : 14 ≤ (manifestName source).toList.length := by
    rw [text, List.length_append]
    exact Nat.le_add_left _ _
  constructor
  · have some : ¬ ((manifestName source).toList = [] ∨ (manifestName source).toList = ['.']) := by
      rintro (short | short) <;> simp [short] at long
    have other : (manifestName source).toList ≠ ['.', '.'] := by
      intro short
      simp [short] at long
    rw [Path.component?, if_neg some, if_neg other, String.ofList_toList]
  · rw [text, List.mem_append, not_or]
    exact ⟨noSlash, by decide⟩

theorem manifestName_ne_summaryName (source : String) : manifestName source ≠ summaryName := by
  obtain ⟨stem, text, -⟩ := toList_manifestName source
  intro same
  have ends : "-tracking.json".toList <:+ summaryName.toList := ⟨stem, by rw [← text, same]⟩
  exact absurd ends (by decide)

/-- The directory holds texts by their names and no other files. -/
structure Holds (directory : TrackingDirectory) (texts : String → Option String) (store : Store) :
    Prop where
  files : ∀ name, store.file? (directory.place ++ [name]) = (texts name).map String.toUTF8
  /-- The directory is there if it holds anything. -/
  reached : ∀ name, texts name ≠ none → store.HasDirectory directory.path directory.place
  /-- What was written can be read again. -/
  usable : ∀ name, texts name ≠ none →
    Store.isUsable (Path.join directory.path name) = true ∧
      Store.isUsableName (.name name) = true

namespace Holds

variable {texts : String → Option String} {name : String}

theorem place_eq {place : List String} (there : store.HasDirectory directory.path place) :
    place = directory.place :=
  Store.follow_ok there.followed

/-- What is read of a name is what the directory holds under it. -/
theorem read (holds : directory.Holds texts store) (isName : Path.IsName name)
    {text? : Option String}
    (gives : (read? (Path.join directory.path name)).Gives store text? after) :
    after = store ∧ text? = texts name := by
  obtain ⟨rfl, ⟨text, read, rfl⟩ | ⟨error, read, missing, rfl⟩⟩ := gives_read? gives
  · obtain ⟨place, bytes, there, found, decoded⟩ := Store.readText_join_ok isName read
    obtain rfl := place_eq there
    rw [holds.files name] at found
    obtain ⟨held, holding, rfl⟩ := Option.map_eq_some_iff.mp found
    rw [Store.fromUTF8?_toUTF8] at decoded
    exact ⟨rfl, by rw [holding, decoded]⟩
  · refine ⟨rfl, ?_⟩
    cases holding : texts name with
    | none => rfl
    | some text =>
      have there := holds.reached name (by simp [holding])
      have gone := (Store.readText_join_missing isName read missing).2 _ there
      rw [holds.files name, holding] at gone
      cases gone

theorem write (holds : directory.Holds texts store) (isName : Path.IsName name) {text : String}
    {value : Unit}
    (gives : (TrackingDirectory.write (Path.join directory.path name) text).Gives store value after) :
    directory.Holds (Function.update texts name (some text)) after := by
  obtain ⟨place, there, usable, self, others⟩ := Store.writeBytes_join isName (gives_write gives)
  obtain rfl := place_eq there
  refine ⟨fun other => ?_, fun _ _ => there, fun other held => ?_⟩
  · by_cases same : other = name
    · subst same
      rw [self, Function.update_self]
      rfl
    · rw [others _ (by simpa using same), Function.update_of_ne same, holds.files]
  · by_cases same : other = name
    · rwa [same]
    · rw [Function.update_of_ne same] at held
      exact holds.usable other held

theorem remove (holds : directory.Holds texts store) (isName : Path.IsName name)
    {failure : HostError → Failure} {value : Unit}
    (gives : Gives (.attempt (.perform (.removeFile (Path.join directory.path name))) failure)
      store value after) :
    directory.Holds (Function.update texts name none) after := by
  obtain ⟨place, there, self, others⟩ := Store.removeFile_join isName (gives_remove gives)
  obtain rfl := place_eq there
  refine ⟨fun other => ?_, fun _ _ => there, fun other held => ?_⟩
  · by_cases same : other = name
    · subst same
      rw [self, Function.update_self]
      rfl
    · rw [others _ same, Function.update_of_ne same, holds.files]
  · by_cases same : other = name
    · rw [same, Function.update_self] at held
      exact absurd rfl held
    · rw [Function.update_of_ne same] at held
      exact holds.usable other held

theorem create (holds : directory.Holds texts store) {value : Unit}
    (gives : (TrackingDirectory.create directory.path).Gives store value after) :
    directory.Holds texts after := by
  obtain ⟨extended, there⟩ := Store.makeDirectories_spec (gives_create gives)
  exact ⟨fun name => by rw [extended.file?, holds.files], fun _ _ => there, holds.usable⟩

/-- Reading the clock changes no file. -/
theorem now (holds : directory.Holds texts store) {time : String}
    (gives : TrackingDirectory.now.Gives store time after) : directory.Holds texts after := by
  cases gives.of_lift
  refine ⟨holds.files, fun name held => ?_, holds.usable⟩
  exact (holds.reached name held).of_stays fun _ _ => id

/-- A text that the directory holds is in its place. -/
theorem resolve (holds : directory.Holds texts store) (isName : Path.IsName name)
    (held : texts name ≠ none) :
    store.resolve (Path.join directory.path name) = .ok (directory.place ++ [name]) := by
  obtain ⟨usable, short⟩ := holds.usable name held
  exact (holds.reached name held).resolve_join isName usable short

/-- The files that are found are those that the directory holds. -/
theorem find?_iff (holds : directory.Holds texts store) (isName : Path.IsName name)
    {bytes : ByteArray} :
    store.find? (Path.join directory.path name) = some (.file bytes) ↔
      (texts name).map String.toUTF8 = some bytes := by
  rw [← holds.files, Store.file?_eq_some]
  constructor
  · intro found
    cases resolved : store.resolve (Path.join directory.path name) with
    | error error =>
      rw [Store.find?, resolved] at found
      cases found
    | ok names =>
      rw [Store.find?, resolved] at found
      obtain ⟨⟨place, there, rfl⟩, -⟩ := Store.resolve_join_ok isName resolved
      obtain rfl := place_eq there
      exact found
  · intro found
    have held : texts name ≠ none := by
      intro none
      have files := holds.files name
      rw [none, Store.file?, found] at files
      cases files
    rw [Store.find?, holds.resolve isName held]
    exact found

/-- A text that the directory holds can be read. -/
theorem readText (holds : directory.Holds texts store) (isName : Path.IsName name) {text : String}
    (held : texts name = some text) :
    store.readText (Path.join directory.path name) = .ok text := by
  have file : store.file? (directory.place ++ [name]) = some text.toUTF8 := by
    rw [holds.files, held]
    rfl
  rw [Store.readText_of_resolve (holds.resolve isName (by simp [held])),
    Store.textAt_of_file file, Store.fromUTF8?_toUTF8]
  rfl

end Holds

end TrackingDirectory

end JsxTracking
