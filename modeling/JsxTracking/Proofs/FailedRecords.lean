import JsxTracking.Proofs.Retraction

/-! # What is left of records that fail

Recording the points of a file, or retracting them, takes several requests, and any of them may be
refused. An action *may end* in a way if it does so while some of its requests about files are refused
without a change, and the others are answered by the store (`Action.MayEnd`); how it ends when nothing
is refused is one of these ways. A failure ends either action at the request that was refused, and what
was done before it is not undone: that is nothing, or the change of the manifest, whose request comes
first (`TrackingDirectory.records_failed`). -/

namespace JsxTracking

variable {ε α β : Type}

/-- The answer that refuses a request about a file or a directory. Only looking whether something is
there is never refused. -/
def Request.refusal? : (request : Request) → HostError → Option request.Answer
  | createDirectories _, error => some (.error error)
  | writeText _ _, error => some (.error error)
  | removeFile _, error => some (.error error)
  | readText _, error => some (.error error)
  | _, _ => none

namespace Action

/-- How an action may end on a store if requests may be refused, each time without a change. A refusal
does not claim that nothing is there. -/
inductive MayEnd : Action α → Store → α → Store → Prop where
  | ended (value : α) (store : Store) : MayEnd (done value) store value store
  | answered {request : Request} {next : request.Answer → Action α} {store after : Store} {value : α}
      (onward : MayEnd (next (store.answer request).1) (store.answer request).2 value after) :
      MayEnd (ask request next) store value after
  | refused {request : Request} {next : request.Answer → Action α} {store after : Store} {value : α}
      {error : HostError} {answer : request.Answer} (there : error.notFound = false)
      (refusal : request.refusal? error = some answer)
      (onward : MayEnd (next answer) store value after) : MayEnd (ask request next) store value after

/-- An action may end as it does when nothing is refused. -/
theorem mayEnd_run (action : Action α) (store : Store) :
    action.MayEnd store (action.run store).1 (action.run store).2 := by
  induction action generalizing store with
  | done value => exact .ended value store
  | ask request next ih => exact .answered (ih _ _)

namespace MayEnd

variable {store after : Store}

theorem of_bind {action : Action α} {next : α → Action β} {value : β}
    (ends : (action >>= next).MayEnd store value after) :
    ∃ first middle, action.MayEnd store first middle ∧ (next first).MayEnd middle value after := by
  induction action generalizing store with
  | done first => exact ⟨first, store, .ended first store, ends⟩
  | ask request answered ih =>
    cases ends with
    | answered onward =>
      obtain ⟨first, middle, here, later⟩ := ih _ onward
      exact ⟨first, middle, .answered here, later⟩
    | refused there refusal onward =>
      obtain ⟨first, middle, here, later⟩ := ih _ onward
      exact ⟨first, middle, .refused there refusal here, later⟩

theorem of_done {given value : α} (ends : MayEnd (.done given) store value after) :
    value = given ∧ after = store := by
  cases ends
  exact ⟨rfl, rfl⟩

/-- A single request is answered by the store, or refused. -/
theorem of_perform {request : Request} {answer : request.Answer}
    (ends : (perform request).MayEnd store answer after) :
    store.answer request = (answer, after) ∨
      after = store ∧ ∃ error, error.notFound = false ∧ request.refusal? error = some answer := by
  cases ends with
  | answered onward =>
    obtain ⟨rfl, rfl⟩ := onward.of_done
    exact .inl rfl
  | refused there refusal onward =>
    obtain ⟨rfl, rfl⟩ := onward.of_done
    exact .inr ⟨rfl, _, there, refusal⟩

/-- Some requests are never refused. -/
theorem of_answered {request : Request} {answer : request.Answer}
    (never : ∀ error, request.refusal? error = none)
    (ends : (perform request).MayEnd store answer after) : store.answer request = (answer, after) := by
  rcases ends.of_perform with answered | ⟨-, error, -, refusal⟩
  · exact answered
  · rw [never] at refusal
    cases refusal

end MayEnd

end Action

namespace FallibleAction

/-- An action may succeed with a value. -/
def MayGive (action : FallibleAction ε α) (store : Store) (value : α) (after : Store) : Prop :=
  Action.MayEnd action.run store (.ok value) after

/-- An action may fail. -/
def MayFail (action : FallibleAction ε α) (store : Store) (failure : ε) (after : Store) : Prop :=
  Action.MayEnd action.run store (.error failure) after

/-- The failure of a result. -/
def failure? : Except ε α → Option ε
  | .error failure => some failure
  | .ok _ => none

theorem error_of_failure? {result : Except ε α} {failure : ε}
    (failed : failure? result = some failure) : result = .error failure := by
  cases result with
  | ok => cases failed
  | error => exact congrArg Except.error (Option.some.inj failed)

/-- An action may fail as it does when nothing is refused. -/
theorem mayFail_of_failure? {action : FallibleAction ε α} {store : Store} {failure : ε}
    (failed : failure? (Action.run action.run store).1 = some failure) :
    action.MayFail store failure (Action.run action.run store).2 := by
  have ends := Action.mayEnd_run action.run store
  rwa [error_of_failure? failed] at ends

/-- An action that succeeds was refused nothing. -/
def IsStrict (action : FallibleAction ε α) : Prop :=
  ∀ ⦃store value after⦄, action.MayGive store value after → action.Gives store value after

variable {store after : Store} {failure : ε}

/-- A sequence of actions fails in the first of them, or later. -/
theorem MayFail.of_bind {action : FallibleAction ε α} {next : α → FallibleAction ε β}
    (strict : action.IsStrict) (fails : (action >>= next).MayFail store failure after) :
    action.MayFail store failure after ∨
      ∃ value middle, action.Gives store value middle ∧
        (next value).MayFail middle failure after := by
  obtain ⟨result, middle, first, later⟩ := Action.MayEnd.of_bind fails
  cases result with
  | ok value => exact .inr ⟨value, middle, strict first, later⟩
  | error other =>
    obtain ⟨same, rfl⟩ := Action.MayEnd.of_done later
    obtain rfl := Except.error.inj same
    exact .inl first

theorem not_mayFail_pure {value : α} :
    ¬ (pure value : FallibleAction ε α).MayFail store failure after := by
  intro fails
  cases (Action.MayEnd.of_done fails).1

theorem not_mayFail_lift {action : Action α} :
    ¬ MayFail (ExceptT.lift action : FallibleAction ε α) store failure after := by
  intro fails
  obtain ⟨value, middle, -, ended⟩ := Action.MayEnd.of_bind fails
  cases (Action.MayEnd.of_done ended).1

/-- What is made of a value is not what fails. -/
theorem MayFail.of_bind_pure {action : FallibleAction ε α} {result : α → β}
    (fails : MayFail (do return result (← action)) store failure after) :
    action.MayFail store failure after := by
  obtain ⟨outcome, middle, first, later⟩ := Action.MayEnd.of_bind fails
  cases outcome with
  | ok value => cases (Action.MayEnd.of_done later).1
  | error other =>
    obtain ⟨same, rfl⟩ := Action.MayEnd.of_done later
    obtain rfl := Except.error.inj same
    exact first

theorem MayFail.of_attempt {asked : Action (Except HostError α)} {failed : HostError → ε}
    (fails : (attempt asked failed).MayFail store failure after) :
    ∃ error, failure = failed error ∧ asked.MayEnd store (.error error) after := by
  obtain ⟨result, middle, ends, ended⟩ := Action.MayEnd.of_bind fails
  obtain ⟨same, rfl⟩ := Action.MayEnd.of_done ended
  cases result with
  | ok value => cases same
  | error error => exact ⟨error, Except.error.inj same, ends⟩

theorem isStrict_pure {value : α} : (pure value : FallibleAction ε α).IsStrict := by
  intro store given after gives
  obtain ⟨same, rfl⟩ := Action.MayEnd.of_done gives
  obtain rfl := Except.ok.inj same
  exact gives_pure

theorem IsStrict.bind {action : FallibleAction ε α} {next : α → FallibleAction ε β}
    (strict : action.IsStrict) (later : ∀ value, (next value).IsStrict) :
    (action >>= next).IsStrict := by
  intro store value after gives
  obtain ⟨result, middle, first, onward⟩ := Action.MayEnd.of_bind gives
  cases result with
  | ok given => exact (strict first).bind (later given onward)
  | error other => cases (Action.MayEnd.of_done onward).1

theorem isStrict_lift {request : Request} (never : ∀ error, request.refusal? error = none) :
    IsStrict (ExceptT.lift (.perform request) : FallibleAction ε request.Answer) := by
  intro store value after gives
  obtain ⟨given, middle, ends, ended⟩ := Action.MayEnd.of_bind gives
  obtain ⟨same, rfl⟩ := Action.MayEnd.of_done ended
  obtain rfl := Except.ok.inj same
  exact gives_lift (ends.of_answered never)

/-- A request is asked strictly if its refusals are no answers that it can do with. -/
theorem isStrict_attempt {asked : Action (Except HostError α)} {failed : HostError → ε}
    (strict : ∀ ⦃store value after⦄, asked.MayEnd store (.ok value) after →
      asked.run store = (.ok value, after)) : IsStrict (attempt asked failed) := by
  intro store value after gives
  obtain ⟨result, middle, ends, ended⟩ := Action.MayEnd.of_bind gives
  obtain ⟨same, rfl⟩ := Action.MayEnd.of_done ended
  cases result with
  | error error => cases same
  | ok given =>
    obtain rfl := Except.ok.inj same
    exact gives_attempt (strict ends)

end FallibleAction

open FallibleAction

namespace TrackingDirectory

variable {directory : TrackingDirectory} {store after : Store} {path source file : String}
  {failure : Failure}

/-! ## Requests -/

theorem isStrict_create : IsStrict (create path) := by
  refine isStrict_attempt fun store value after ends => ?_
  rcases ends.of_perform with answered | ⟨-, error, -, refusal⟩
  · exact answered
  · cases refusal

theorem isStrict_write {contents : String} : IsStrict (write path contents) := by
  refine isStrict_attempt fun store value after ends => ?_
  rcases ends.of_perform with answered | ⟨-, error, -, refusal⟩
  · exact answered
  · cases refusal

theorem isStrict_remove {failed : HostError → Failure} :
    IsStrict (attempt (.perform (.removeFile path)) failed) := by
  refine isStrict_attempt fun store value after ends => ?_
  rcases ends.of_perform with answered | ⟨-, error, -, refusal⟩
  · exact answered
  · cases refusal

theorem isStrict_now : IsStrict now := isStrict_lift fun _ => rfl

theorem isStrict_warn {message : String} : IsStrict (warn message) := isStrict_lift fun _ => rfl

theorem isStrict_read? : IsStrict (read? path) := by
  intro store text? after gives
  obtain ⟨answer, middle, ends, onward⟩ := Action.MayEnd.of_bind gives
  rcases ends.of_perform with answered | ⟨-, error, there, refusal⟩
  · obtain ⟨rfl, rfl⟩ := Prod.mk.inj answered
    cases read : store.readText path with
    | ok text =>
      rw [read] at onward
      obtain ⟨same, rfl⟩ := Action.MayEnd.of_done onward
      obtain rfl := Except.ok.inj same
      exact gives_read?_ok read
    | error error =>
      rw [read] at onward
      obtain ⟨same, rfl⟩ := Action.MayEnd.of_done onward
      split at same
      case isTrue missing =>
        obtain rfl := Except.ok.inj same
        exact gives_read?_missing read missing
      case isFalse => cases same
  · obtain rfl := Option.some.inj refusal
    dsimp only at onward
    rw [there] at onward
    cases (Action.MayEnd.of_done onward).1

theorem isStrict_readSummary : IsStrict directory.readSummary := by
  refine isStrict_read?.bind fun text? => ?_
  cases text? with
  | none => exact isStrict_pure
  | some text =>
    dsimp only
    split
    · exact isStrict_pure
    · exact isStrict_warn.bind fun _ => isStrict_pure

theorem isStrict_holdsManifestOf : IsStrict (holdsManifestOf path source) := by
  refine isStrict_read?.bind fun text? => ?_
  cases text? with
  | none => exact isStrict_pure
  | some text =>
    dsimp only
    split
    · exact isStrict_pure
    · exact isStrict_warn.bind fun _ => isStrict_pure

theorem isStrict_removeManifest : IsStrict (directory.removeManifest file) := by
  refine isStrict_holdsManifestOf.bind fun held => ?_
  cases held with
  | true => exact isStrict_remove.bind fun _ => isStrict_pure
  | false => exact isStrict_pure

/-! ## Where requests fail -/

/-- Directories that cannot be made leave all files as they are. -/
theorem mayFail_create (fails : (create path).MayFail store failure after) :
    (∃ error, failure = failedOn path error) ∧ store.Extends after := by
  obtain ⟨error, rfl, ends⟩ := fails.of_attempt
  rcases ends.of_perform with answered | ⟨rfl, -⟩
  · have extended := store.extends_makeDirectories path
    have same : (store.makeDirectories path).2 = after := congrArg Prod.snd answered
    rw [same] at extended
    exact ⟨⟨error, rfl⟩, extended⟩
  · exact ⟨⟨error, rfl⟩, Store.extends_refl _⟩

/-- A file that cannot be written stays as it is. -/
theorem mayFail_write {contents : String} (fails : (write path contents).MayFail store failure after) :
    (∃ error, failure = failedOn path error) ∧ after = store := by
  obtain ⟨error, rfl, ends⟩ := fails.of_attempt
  rcases ends.of_perform with answered | ⟨rfl, -⟩
  · rcases store.writeBytes_cases path contents.toUTF8 with ⟨_, failed⟩ | ⟨-, -, put⟩
    · exact ⟨⟨error, rfl⟩, (Prod.mk.inj (failed.symm.trans answered)).2.symm⟩
    · cases (Prod.mk.inj (put.symm.trans answered)).1
  · exact ⟨⟨error, rfl⟩, rfl⟩

/-- A file that cannot be removed stays as it is. -/
theorem mayFail_remove
    (fails : (attempt (.perform (.removeFile path)) (failedOn path)).MayFail store failure after) :
    (∃ error, failure = failedOn path error) ∧ after = store := by
  obtain ⟨error, rfl, ends⟩ := fails.of_attempt
  refine ⟨⟨error, rfl⟩, ?_⟩
  rcases ends.of_perform with answered | ⟨rfl, -⟩
  · change store.removeFile path = (.error error, after) at answered
    unfold Store.removeFile at answered
    split at answered
    · exact (Prod.mk.inj answered).2.symm
    · split at answered
      · cases (Prod.mk.inj answered).1
      · exact (Prod.mk.inj answered).2.symm
      · exact (Prod.mk.inj answered).2.symm
  · rfl

theorem mayFail_read? (fails : (read? path).MayFail store failure after) :
    (∃ error, failure = failedOn path error) ∧ after = store := by
  obtain ⟨answer, middle, ends, onward⟩ := Action.MayEnd.of_bind fails
  have same : middle = store := by
    rcases ends.of_perform with answered | ⟨rfl, -⟩
    · exact (Prod.mk.inj answered).2.symm
    · rfl
  cases answer with
  | ok text => cases (Action.MayEnd.of_done onward).1
  | error error =>
    obtain ⟨given, rfl⟩ := Action.MayEnd.of_done onward
    split at given
    case isTrue => cases given
    case isFalse => exact ⟨⟨error, Except.error.inj given⟩, same⟩

/-- Reading the summary fails only if its text cannot be read. -/
theorem mayFail_readSummary (fails : directory.readSummary.MayFail store failure after) :
    (∃ error, failure = failedOn directory.summaryPath error) ∧ after = store := by
  rcases fails.of_bind isStrict_read? with unread | ⟨text?, middle, -, later⟩
  · exact mayFail_read? unread
  · cases text? with
    | none => exact absurd later not_mayFail_pure
    | some text =>
      dsimp only at later
      split at later
      · exact absurd later not_mayFail_pure
      · exact absurd later.of_bind_pure not_mayFail_lift

/-- Looking for a manifest fails only if its text cannot be read. -/
theorem mayFail_holdsManifestOf (fails : (holdsManifestOf path source).MayFail store failure after) :
    (∃ error, failure = failedOn path error) ∧ after = store := by
  rcases fails.of_bind isStrict_read? with unread | ⟨text?, middle, -, later⟩
  · exact mayFail_read? unread
  · cases text? with
    | none => exact absurd later not_mayFail_pure
    | some text =>
      dsimp only at later
      split at later
      · exact absurd later not_mayFail_pure
      · exact absurd later.of_bind_pure not_mayFail_lift

/-- What fails while the summary is held fails without that. -/
theorem MayFail.of_changingSummary {α : Type} {change : FallibleAction Failure α}
    (fails : (changingSummary change).MayFail store failure after) :
    change.MayFail store failure after := by
  obtain ⟨_, held, hold, changing⟩ := Action.MayEnd.of_bind fails
  obtain ⟨result, middle, changed, releasing⟩ := Action.MayEnd.of_bind changing
  obtain ⟨_, released, release, ended⟩ := Action.MayEnd.of_bind releasing
  obtain ⟨rfl, rfl⟩ := Action.MayEnd.of_done ended
  obtain ⟨-, rfl⟩ := Prod.mk.inj (hold.of_answered fun _ => rfl)
  obtain ⟨-, rfl⟩ := Prod.mk.inj (release.of_answered fun _ => rfl)
  exact changed

/-! ## Records that fail -/

/-- If the manifest is not removed, it is the manifest that was refused, and nothing has changed. -/
theorem mayFail_removeManifest (fails : (directory.removeManifest file).MayFail store failure after) :
    (∃ error, failure = failedOn (directory.manifestPath file) error) ∧
      after.entries = store.entries := by
  rcases fails.of_bind isStrict_holdsManifestOf with unknown | ⟨held, middle, looked, later⟩
  · obtain ⟨about, rfl⟩ := mayFail_holdsManifestOf unknown
    exact ⟨about, rfl⟩
  · cases held with
    | false => exact absurd later not_mayFail_pure
    | true =>
      obtain ⟨about, rfl⟩ := mayFail_remove later.of_bind_pure
      exact ⟨about, (gives_holdsManifestOf looked).1⟩

/-- If the summary is not changed, it is the summary that was refused, and nothing has changed. -/
theorem mayFail_removeFromSummary
    (fails : (directory.removeFromSummary file).MayFail store failure after) :
    (∃ error, failure = failedOn directory.summaryPath error) ∧ after.entries = store.entries := by
  rcases fails.of_bind (isStrict_lift fun _ => rfl) with unasked | ⟨there, middle, asked, later⟩
  · exact absurd unasked not_mayFail_lift
  · obtain ⟨-, rfl⟩ := Prod.mk.inj asked.of_lift
    cases there with
    | false => exact absurd later not_mayFail_pure
    | true =>
      rcases (MayFail.of_changingSummary later).of_bind isStrict_readSummary with
        unread | ⟨summary, looked, read, onward⟩
      · obtain ⟨about, rfl⟩ := mayFail_readSummary unread
        exact ⟨about, rfl⟩
      · dsimp only at onward
        split at onward
        case isFalse => exact absurd onward not_mayFail_pure
        case isTrue =>
          rcases onward.of_bind isStrict_now with timeless | ⟨time, timed, clock, writing⟩
          · exact absurd timeless not_mayFail_lift
          obtain ⟨about, rfl⟩ := mayFail_write writing.of_bind_pure
          exact ⟨about, (gives_now clock).trans (gives_readSummary read).1⟩

/-- If points are not recorded, either nothing has been written, or the manifest has and the summary has
not. -/
theorem mayFail_record {points : List TrackingPoint}
    (fails : (directory.record file points).MayFail store failure after) :
    ((∃ error, failure = failedOn directory.path error ∨
        failure = failedOn (directory.manifestPath file) error) ∧
      ∀ names, after.file? names = store.file? names) ∨
    ((∃ error, failure = failedOn directory.summaryPath error) ∧
      (∃ time, after.file? (Path.place (directory.manifestPath file)) =
        some (Manifest.toJson ⟨Path.normalize file, time, points⟩).pretty.toUTF8) ∧
      ∀ names, names ≠ Path.place (directory.manifestPath file) →
        after.file? names = store.file? names) := by
  rcases fails.of_bind isStrict_create with unmade | ⟨_, made, creating, later⟩
  · obtain ⟨⟨error, about⟩, extended⟩ := mayFail_create unmade
    exact .inl ⟨⟨error, .inl about⟩, extended.file?⟩
  have extended := (Store.makeDirectories_spec (gives_create creating)).1
  rcases later.of_bind isStrict_now with timeless | ⟨time, timed, clock, writing⟩
  · exact absurd timeless not_mayFail_lift
  have files (names : List String) : timed.file? names = store.file? names := by
    rw [← extended.file?, Store.file?, Store.file?, Store.entry?_congr (gives_now clock)]
  dsimp only at writing
  rcases writing.of_bind isStrict_write with unwritten | ⟨_, written, wrote, recording⟩
  · obtain ⟨⟨error, about⟩, rfl⟩ := mayFail_write unwritten
    exact .inl ⟨⟨error, .inr about⟩, files⟩
  have kept : (∃ error, failure = failedOn directory.summaryPath error) ∧
      after.entries = written.entries := by
    rcases (MayFail.of_changingSummary recording.of_bind_pure).of_bind isStrict_readSummary with
      unread | ⟨summary, looked, read, unwritten⟩
    · obtain ⟨about, rfl⟩ := mayFail_readSummary unread
      exact ⟨about, rfl⟩
    · obtain ⟨about, rfl⟩ := mayFail_write unwritten
      exact ⟨about, (gives_readSummary read).1⟩
  have same (names : List String) : after.file? names = written.file? names := by
    rw [Store.file?, Store.file?, Store.entry?_congr kept.2]
  obtain ⟨-, free, rfl⟩ := Store.writeBytes_put (gives_write wrote)
  refine .inr ⟨kept.1, ⟨time, ?_⟩, fun names other => ?_⟩
  · rw [same, Store.file?_eq_some, Store.entry?_put_self _ (Store.ne_nil_of_free free)]
  · rw [same, Store.file?_put_of_ne _ other, files]

/-- **What is left when records fail.** Whichever request is refused, a call that fails has changed no
file but the manifest of its file, and so not the summary. It tells which request was refused. If it was
one about the directory or the manifest, the manifest is as it was too. If it was one about the summary,
the manifest has been written by then when points are recorded, and has been removed when they are
retracted, if it was that of the file. -/
theorem records_failed (directory : TrackingDirectory) (file : String) (store : Store) :
    (∀ points failure after, (directory.record file points).MayFail store failure after →
      (∀ names, names ≠ Path.place (directory.manifestPath file) →
        after.file? names = store.file? names) ∧
      ((∃ error, failure = failedOn directory.path error ∨
          failure = failedOn (directory.manifestPath file) error) ∧
          after.file? (Path.place (directory.manifestPath file)) =
            store.file? (Path.place (directory.manifestPath file)) ∨
        (∃ error, failure = failedOn directory.summaryPath error) ∧
          ∃ time, after.file? (Path.place (directory.manifestPath file)) =
            some (Manifest.toJson ⟨Path.normalize file, time, points⟩).pretty.toUTF8)) ∧
    (∀ failure after, (directory.retract file).MayFail store failure after →
      (∀ path, Path.place path ≠ Path.place (directory.manifestPath file) →
        after.find? path = store.find? path) ∧
      ((∃ error, failure = failedOn (directory.manifestPath file) error) ∧
          after.find? (directory.manifestPath file) = store.find? (directory.manifestPath file) ∨
        (∃ error, failure = failedOn directory.summaryPath error) ∧
          (directory.OwnsManifest file store → after.find? (directory.manifestPath file) = none) ∧
          (¬ directory.OwnsManifest file store →
            after.find? (directory.manifestPath file) =
              store.find? (directory.manifestPath file)))) := by
  refine ⟨fun points failure after fails => ?_, fun failure after fails => ?_⟩
  · rcases mayFail_record fails with ⟨about, same⟩ | ⟨about, written, others⟩
    · exact ⟨fun names _ => same names, .inl ⟨about, same _⟩⟩
    · exact ⟨others, .inr ⟨about, written⟩⟩
  · rcases fails.of_bind isStrict_removeManifest with unremoved | ⟨had, middle, removed, later⟩
    · obtain ⟨about, same⟩ := mayFail_removeManifest unremoved
      exact ⟨fun path _ => Store.find?_of_entries same path,
        .inl ⟨about, Store.find?_of_entries same _⟩⟩
    · obtain ⟨about, same⟩ := mayFail_removeFromSummary later.of_bind_pure
      obtain ⟨changes, hadIff, gone, untouched⟩ := gives_removeManifest removed
      refine ⟨fun path other => ?_, .inr ⟨about, fun owns => ?_, fun foreign => ?_⟩⟩
      · rw [Store.find?_of_entries same, changes.find?_eq other]
      · rw [Store.find?_of_entries same, gone (hadIff.mpr owns)]
      · have kept : had = false := Bool.eq_false_iff.mpr fun had => foreign (hadIff.mp had)
        rw [Store.find?_of_entries same, Store.find?_of_entries (untouched kept)]

/-- A summary that is not a text, next to the manifest of the file. -/
theorem records_failed_undecodable :
    let directory : TrackingDirectory := ⟨"t", false⟩
    let store := Store.inDirectory [("A-tracking.json", .file "[\"src/A.tsx\", \"\", []]".toUTF8),
      ("tracking-summary.json", .file ⟨#[255]⟩)]
    let failure := failedOn directory.summaryPath store.refused
    (∃ after, (directory.record "src/A.tsx" []).MayFail store failure after ∧
      ∃ time, after.file? (Path.place (directory.manifestPath "src/A.tsx")) =
        some (Manifest.toJson ⟨"src/A.tsx", time, []⟩).pretty.toUTF8) ∧
    (∃ after, (directory.retract "src/A.tsx").MayFail store failure after ∧
      after.find? directory.summaryPath = store.find? directory.summaryPath ∧
      after.find? (directory.manifestPath "src/A.tsx") = none) := by
  intro directory store failure
  obtain ⟨recording, retracting⟩ := records_failed directory "src/A.tsx" store
  have normal : Path.normalize "src/A.tsx" = "src/A.tsx" := by decide +kernel
  have notManifest : directory.summaryPath ≠ directory.manifestPath "src/A.tsx" := by
    decide +kernel
  constructor
  · obtain ⟨after, fails⟩ : ∃ after,
        (directory.record "src/A.tsx" []).MayFail store failure after :=
      ⟨_, mayFail_of_failure? (by decide +kernel)⟩
    refine ⟨after, fails, ?_⟩
    rcases (recording [] failure after fails).2 with ⟨⟨error, about | about⟩, -⟩ | ⟨-, written⟩
    · exact absurd (Failure.io.inj about).1 (by decide +kernel)
    · exact absurd (Failure.io.inj about).1 notManifest
    · rwa [normal] at written
  · obtain ⟨after, fails⟩ : ∃ after, (directory.retract "src/A.tsx").MayFail store failure after :=
      ⟨_, mayFail_of_failure? (by decide +kernel)⟩
    obtain ⟨others, ⟨⟨error, about⟩, -⟩ | ⟨-, gone, -⟩⟩ := retracting failure after fails
    · exact absurd (Failure.io.inj about).1 notManifest
    · refine ⟨after, fails, others _ (directory.place_manifestPath_ne "src/A.tsx").symm, gone ?_⟩
      have held : store.HasManifest (directory.manifestPath "src/A.tsx") ⟨"src/A.tsx", "", []⟩ :=
        Store.hasManifest_of_toOption (by decide +kernel)
      exact ⟨_, held, normal.symm⟩

/-- A call that fails may have changed the manifest: where a directory is in the place of the summary, the
manifest of a file that had none is written before the summary is found to be unreadable. -/
theorem manifest_left_behind :
    let directory : TrackingDirectory := ⟨"t", false⟩
    let store := Store.inDirectory [("tracking-summary.json", .directory)]
    ∃ after, Action.run (directory.record "src/A.tsx" []).run store =
        (.error (failedOn directory.summaryPath store.refused), after) ∧
      store.find? (directory.manifestPath "src/A.tsx") = none ∧
      after.find? (directory.manifestPath "src/A.tsx") ≠ none := by
  intro directory store
  have unwritten : (store.find? (directory.manifestPath "src/A.tsx")).isNone = true := by
    decide +kernel
  have written : (Store.find? (Action.run (directory.record "src/A.tsx" []).run store).2
      (directory.manifestPath "src/A.tsx")).isSome = true := by decide +kernel
  exact ⟨_, Prod.ext (error_of_failure? (by decide +kernel)) rfl,
    Option.isNone_iff_eq_none.mp unwritten, Option.isSome_iff_ne_none.mp written⟩

end TrackingDirectory

end JsxTracking
