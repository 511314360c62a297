import JsxTracking.Proofs.FileChanges
import JsxTracking.Proofs.Isolation
import JsxTracking.Proofs.SourcePasses
import JsxTracking.Proofs.Threads

/-! # The files that outputs are written to

A run of the command line with a directory for its outputs writes the code of each source to a file of
that directory. Which file that is depends on the names of the source below its input alone, so sources
of several inputs may be written to one file. What that file holds in the end is the code of one of
them: a file whose place was written is never without code that was written there
(`Writings.AreHeld`), whatever else the run writes elsewhere and in whatever order it transforms its
sources. So no output is lost if and only if sources that are written to one place have the same code
(`outputs_kept_iff`). -/

namespace JsxTracking

variable {ε α β V : Type}

/-! ## Files that were written -/

/-- What threads have written: the paths of files, with their texts. -/
abbrev Writings := Nat → List (String × String)

namespace Writings

/-- A file at one of the target paths that was written holds a text that was written in its place. -/
structure IsHeld (targets : List String) (writings : Writings) (store : Store)
    (written : String × String) : Prop where
  isTarget : written.1 ∈ targets
  leads : store.Leads written.1
  holds : ∃ thread, ∃ last ∈ writings thread, Path.place last.1 = Path.place written.1 ∧
    store.file? (Path.place written.1) = some last.2.toUTF8

/-- All files that some number of threads have written hold texts that were written in their places. -/
def AreHeld (targets : List String) (count : Nat) (writings : Writings) (_ : Option Nat)
    (store : Store) : Prop :=
  ∀ thread, ∀ written ∈ writings thread, thread < count ∧ IsHeld targets writings store written

/-- Texts that were written in one place are the same. -/
def Agree (writings : Writings) : Prop :=
  ∀ thread, ∀ written ∈ writings thread, ∀ other, ∀ further ∈ writings other,
    Path.place written.1 = Path.place further.1 → written.2 = further.2

variable {targets paths : List String} {writings : Writings} {holder? : Option Nat} {store : Store}
  {thread count : Nat} {view : List (String × String)}

theorem areHeld_nothing (targets : List String) (count : Nat) (holder? : Option Nat) (store : Store) :
    AreHeld targets count (fun _ => []) holder? store :=
  fun _ _ among => nomatch among

/-- **What becomes of writings.** All files hold what was written to them if and only if nothing else
was written in their places. -/
theorem AreHeld.readText_iff (held : AreHeld targets count writings holder? store) :
    (∀ thread, ∀ written ∈ writings thread, store.readText written.1 = .ok written.2) ↔
      writings.Agree := by
  constructor
  · intro read thread written among other further amongToo same
    have leads := (held thread written among).2.leads
    have leadsToo := (held other further amongToo).2.leads
    obtain ⟨bytes, found, decoded⟩ := leads.readText_iff.mp (read thread written among)
    obtain ⟨others, foundToo, decodedToo⟩ := leadsToo.readText_iff.mp (read other further amongToo)
    rw [← same, found] at foundToo
    obtain rfl := Option.some.inj foundToo
    exact Option.some.inj (decoded.symm.trans decodedToo)
  · intro agree thread written among
    obtain ⟨-, -, leads, other, last, amongToo, same, found⟩ := held thread written among
    refine leads.readText_iff.mpr ⟨_, found, ?_⟩
    rw [Store.fromUTF8?_toUTF8, agree thread written among other last amongToo same.symm]

/-- Requests that change files in other places leave what was written. -/
theorem AreHeld.answer (held : AreHeld targets count writings holder? store) {request : Request}
    (apart : ∀ path, request.changed? = some path →
      ∀ target ∈ targets, Path.place path ≠ Path.place target) (later? : Option Nat) :
    AreHeld targets count writings later? (store.answer request).2 := by
  intro thread written among
  obtain ⟨inside, isTarget, leads, other, last, amongToo, same, found⟩ := held thread written among
  refine ⟨inside, isTarget, leads.answer request, other, last, amongToo, same, ?_⟩
  rw [leads.file?_answer fun path changed => apart path changed _ isTarget, found]

/-- Actions that change files in other places keep to what their thread has written. -/
theorem keeps_of_changesOnly {action : Action (Except ε α)} (changes : action.ChangesOnly paths)
    {property : α → Prop}
    (always : action.Always fun result => ∀ value, result = .ok value → property value)
    (apart : ∀ path ∈ paths, ∀ target ∈ targets, Path.place path ≠ Path.place target) :
    action.Keeps (AreHeld targets count) thread view fun value later => property value ∧ later = view := by
  induction action with
  | done result =>
    cases result with
    | ok value => exact ⟨always value rfl, rfl⟩
    | error error => trivial
  | ask request next ih =>
    intro writings holder? store held same answer later? later answered
    obtain ⟨rfl, rfl⟩ := Threads.answer?_store answered
    refine Or.inr ⟨view, ?_, ih _ (changes.2 _) (always _)⟩
    rw [← same, Function.update_eq_self]
    exact held.answer (fun path changed => apart path (changes.1 path changed)) later?

/-- What a thread has written last is held. -/
theorem isHeld_last {target : String} (isTarget : target ∈ targets) (leads : store.Leads target)
    (free : store.entry? (Path.place target) ≠ some .directory) (code : String)
    (among : (target, code) ∈ writings thread) :
    IsHeld targets writings (store.put (Path.place target) (.file code.toUTF8)) (target, code) := by
  have below : Path.place target ≠ [] := by
    intro root
    rw [root] at free
    exact free rfl
  refine ⟨isTarget, leads.of_stays fun _ _ => Store.stays_put free, thread, _, among, rfl, ?_⟩
  rw [Store.file?_eq_some, Store.entry?_put_self _ below]

/-- What was written before is still held, if by what was written last. -/
theorem IsHeld.put {written : String × String} (held : IsHeld targets writings store written)
    {target : String} (isTarget : target ∈ targets) (leads : store.Leads target)
    (free : store.entry? (Path.place target) ≠ some .directory) {code : String}
    {later : Writings} (more : ∀ thread, writings thread ⊆ later thread)
    (among : (target, code) ∈ later thread) :
    IsHeld targets later (store.put (Path.place target) (.file code.toUTF8)) written := by
  obtain ⟨isWritten, stays, other, before, amongToo, same, found⟩ := held
  refine ⟨isWritten, stays.of_stays fun _ _ => Store.stays_put free, ?_⟩
  by_cases here : Path.place written.1 = Path.place target
  · obtain ⟨-, -, last⟩ := isHeld_last isTarget leads free code among
    rw [here]
    exact last
  · refine ⟨other, before, more other amongToo, same, ?_⟩
    rw [Store.file?_put_of_ne _ here, found]

/-- A thread that writes a target adds to what is held. -/
theorem AreHeld.write (held : AreHeld targets count writings holder? store) (inside : thread < count)
    {target : String} (isTarget : target ∈ targets) (leads : store.Leads target)
    (free : store.entry? (Path.place target) ≠ some .directory) (code : String)
    (later? : Option Nat) :
    AreHeld targets count (Function.update writings thread (writings thread ++ [(target, code)])) later?
      (store.put (Path.place target) (.file code.toUTF8)) := by
  have last : (target, code) ∈
      Function.update writings thread (writings thread ++ [(target, code)]) thread := by
    rw [Function.update_self]
    exact List.mem_append_right _ List.mem_cons_self
  have more : ∀ other, writings other ⊆
      Function.update writings thread (writings thread ++ [(target, code)]) other := by
    intro other
    by_cases own : other = thread
    · subst own
      rw [Function.update_self]
      exact List.subset_append_left _ _
    · rw [Function.update_of_ne own]
      exact List.Subset.refl _
  intro other written among
  by_cases own : other = thread
  · subst own
    rw [Function.update_self] at among
    rcases List.mem_append.mp among with before | new
    · exact (held other written before).imp_right (·.put isTarget leads free more last)
    · obtain rfl := List.mem_singleton.mp new
      exact ⟨inside, isHeld_last isTarget leads free code last⟩
  · rw [Function.update_of_ne own] at among
    exact (held other written among).imp_right (·.put isTarget leads free more last)

/-- Writing a target adds to what the thread has written. -/
theorem keeps_write {target code : String} (inside : thread < count) (isTarget : target ∈ targets)
    (failure : HostError → ε) :
    (FallibleAction.attempt (.perform (.writeText target code)) failure).Keeps (AreHeld targets count)
      thread view fun _ later => later = view ++ [(target, code)] := by
  intro writings holder? store held same answer later? later answered
  obtain ⟨rfl, rfl⟩ := Threads.answer?_store answered
  rcases store.writeBytes_cases target code.toUTF8 with ⟨error, failed⟩ | ⟨leads, free, written⟩
  · left
    change Action.Fails (.done ((store.writeBytes target code.toUTF8).1.mapError failure))
    rw [failed]
    trivial
  · right
    refine ⟨view ++ [(target, code)], ?_, ?_⟩
    · rw [← same, Store.answer, written]
      exact held.write inside isTarget leads free code later?
    · change Action.Keeps _ _ (.done ((store.writeBytes target code.toUTF8).1.mapError failure)) _ _
      rw [written]
      rfl

end Writings

/-! ## Runs with a directory for outputs -/

namespace CommandLine

open FallibleAction

/-- The path that the output of a source is written to. -/
def SourceFile.target (directory : String) (source : SourceFile) : String :=
  Path.join directory source.relative

variable {targets : List String} {thread count : Nat} {view : List (String × String)} {directory : String}
  {options : Options}

/-- The records of a session are kept away from the targets of a run. -/
def AreApart (options : Options) (targets : List String) (source : SourceFile) : Prop :=
  ∀ record ∈ (Session.mk options .empty).recordPaths (Path.normalize source.path),
    ∀ target ∈ targets, Path.place record ≠ Path.place target

/-- A session keeps its options. -/
theorem always_options (session : Session) (path source : String) :
    (session.transformSource path source).Always fun result =>
      result.2.options = session.options := by
  have options := session.transformText_options (Path.normalize path) source
  unfold Session.transformSource
  dsimp only
  have any {γ : Type} (action : Action γ) : action.Always fun _ => True :=
    Action.always_of_forall (fun _ => trivial) action
  split
  case h_1 _ next transformed =>
    rw [transformed] at options
    exact (any _).bind fun _ _ => options
  case h_2 output next transformed =>
    rw [transformed] at options
    exact (any _).bind fun _ _ => (any _).bind fun _ _ => options

/-- An action that changes no targets leaves what its thread has written. -/
theorem keeps_other {action : FallibleAction ε α} {paths : List String}
    (changes : ChangesOnly paths action)
    (apart : ∀ path ∈ paths, ∀ target ∈ targets, Path.place path ≠ Path.place target) :
    action.Keeps (Writings.AreHeld targets count) thread view fun _ later => later = view := by
  have any : Action.Always (fun result => ∀ value, result = .ok value → True) action.run :=
    Action.always_of_forall (fun _ _ _ => trivial) _
  have keeps : action.Keeps (Writings.AreHeld targets count) thread view fun _ later =>
      True ∧ later = view := Writings.keeps_of_changesOnly changes any apart
  exact keeps.mono fun _ _ => And.right

theorem keeps_writeOutput (source : SourceFile) (code : String) (inside : thread < count)
    (isTarget : source.target directory ∈ targets) :
    (writeOutput directory source code).Keeps (Writings.AreHeld targets count) thread view
      fun _ later => later = view ++ [(source.target directory, code)] := by
  unfold writeOutput
  dsimp only
  split
  case h_1 parent _ =>
    have made : ChangesOnly [] (createDirectory parent) :=
      changesOnly_attempt (Action.changesOnly_perform fun _ changed => by cases changed) _
    refine FallibleAction.Keeps.bind (keeps_other made fun _ among => nomatch among) ?_
    rintro _ _ rfl
    exact Writings.keeps_write inside isTarget _
  case h_2 => exact Writings.keeps_write inside isTarget _

/-- Transforming a file adds its output to what the thread has written. -/
theorem keeps_transformFile (source : SourceFile) (registry : Registry) (inside : thread < count)
    (isTarget : source.target directory ∈ targets) (apart : AreApart options targets source) :
    (transformFile (some directory) ⟨options, registry⟩ source).Keeps (Writings.AreHeld targets count) thread
      view fun result later => result.2.options = options ∧
        later = view ++ [(source.target directory, result.1.code)] := by
  have read : ChangesOnly [] (attempt (.perform (.readText source.path)) fun _ =>
      Fatal.reading source.path) :=
    changesOnly_attempt (Action.changesOnly_perform fun _ changed => by cases changed) _
  refine FallibleAction.Keeps.bind (keeps_other read fun _ among => nomatch among) ?_
  rintro text view rfl
  have transformed : FallibleAction.Keeps (Writings.AreHeld targets count) thread
      (ExceptT.lift ((Session.mk options registry).transformSource source.path text) :
        FallibleAction Fatal (SourceOutput × Session)) view fun result later =>
          result.2.options = options ∧ later = view := by
    refine Writings.keeps_of_changesOnly
      (changesOnly_lift (Session.changesOnly_transformSource _ source.path text)) ?_ apart
    refine (always_options ⟨options, registry⟩ source.path text).bind ?_
    rintro result same _ ⟨⟩
    exact same
  refine transformed.bind ?_
  rintro ⟨output, session⟩ _ ⟨same, rfl⟩
  refine (keeps_writeOutput source output.code inside isTarget).bind ?_
  rintro _ _ rfl
  exact FallibleAction.keeps_pure ⟨same, rfl⟩

/-- What is written for sources with their outputs. -/
def writtenBy (directory : String) (outputs : List (SourceFile × SourceOutput)) :
    List (String × String) :=
  outputs.map fun (source, output) => (source.target directory, output.code)

/-- Transforming files adds their outputs to what the thread has written. -/
theorem keeps_transformFiles (sources : List SourceFile) (registry : Registry) (inside : thread < count)
    (areTargets : ∀ source ∈ sources, source.target directory ∈ targets)
    (apart : ∀ source ∈ sources, AreApart options targets source) :
    (transformFiles (some directory) ⟨options, registry⟩ sources).Keeps (Writings.AreHeld targets count)
      thread view fun outputs later => later = view ++ writtenBy directory (sources.zip outputs) := by
  induction sources generalizing registry view with
  | nil => exact FallibleAction.keeps_pure (List.append_nil _).symm
  | cons source rest ih =>
    obtain ⟨isTarget, areTargets⟩ := List.forall_mem_cons.mp areTargets
    obtain ⟨first, apart⟩ := List.forall_mem_cons.mp apart
    refine (keeps_transformFile source registry inside isTarget first).bind ?_
    rintro ⟨output, session⟩ _ ⟨rfl, rfl⟩
    refine (ih session.registry areTargets apart).bind ?_
    rintro outputs _ rfl
    refine FallibleAction.keeps_pure ?_
    rw [List.append_assoc]
    rfl

/-! ## What outputs are kept -/

/-- The outputs of sources are in the files that they were written to. -/
def AreKept (directory : String) (outputs : List (SourceFile × SourceOutput)) (store : Store) : Prop :=
  ∀ entry ∈ outputs, store.readText (entry.1.target directory) = .ok entry.2.code

/-- Outputs that are written to one place have the same code. -/
def AreAlike (directory : String) (outputs : List (SourceFile × SourceOutput)) : Prop :=
  ∀ entry ∈ outputs, ∀ other ∈ outputs,
    Path.place (entry.1.target directory) = Path.place (other.1.target directory) →
      entry.2.code = other.2.code

/-- If outputs are all that was written, they are kept if and only if they are alike. -/
theorem areKept_iff {writings : Writings} {holder? : Option Nat} {store : Store}
    {outputs : List (SourceFile × SourceOutput)}
    (held : Writings.AreHeld targets count writings holder? store)
    (all : ∀ written, written ∈ writtenBy directory outputs ↔ ∃ thread, written ∈ writings thread) :
    AreKept directory outputs store ↔ AreAlike directory outputs := by
  have forall_written (property : String × String → Prop) :
      (∀ entry ∈ outputs, property (entry.1.target directory, entry.2.code)) ↔
        ∀ thread, ∀ written ∈ writings thread, property written := by
    have listed : (∀ written ∈ writtenBy directory outputs, property written) ↔
        ∀ entry ∈ outputs, property (entry.1.target directory, entry.2.code) := List.forall_mem_map
    rw [← listed]
    constructor
    · exact fun holds thread written among => holds written ((all written).mpr ⟨thread, among⟩)
    · intro holds written among
      obtain ⟨thread, among⟩ := (all written).mp among
      exact holds thread written among
  have kept := forall_written fun written => store.readText written.1 = .ok written.2
  have alike := forall_written fun written => ∀ thread, ∀ further ∈ writings thread,
    Path.place written.1 = Path.place further.1 → written.2 = further.2
  rw [AreKept, kept, held.readText_iff, Writings.Agree, ← alike]
  refine forall_congr' fun entry => forall_congr' fun _ => Iff.symm ?_
  exact forall_written fun further => Path.place (entry.1.target directory) = Path.place further.1 →
    entry.2.code = further.2

/-- One thread for each source, with a registry of tracking points as it may be by then. -/
def transforming (directory : String) (options : Options) (registries : Nat → Registry)
    (sources : List SourceFile) (store : Store) : Threads (Except Fatal (SourceOutput × Session)) :=
  { store,
    running := sources.mapIdx fun index source =>
      (transformFile (some directory) ⟨options, registries index⟩ source).run }

variable {store : Store} {sources : List SourceFile}

/-- Transforming sources one after another keeps what is alike. -/
theorem areKept_of_gives {outputs : List SourceOutput} {registry : Registry} {after : Store}
    (apart : ∀ source ∈ sources, AreApart options (sources.map (SourceFile.target directory)) source)
    (gives : (transformFiles (some directory) ⟨options, registry⟩ sources).Gives store outputs after) :
    AreKept directory (sources.zip outputs) after ↔ AreAlike directory (sources.zip outputs) := by
  have keeps : (transformFiles (some directory) ⟨options, registry⟩ sources).Keeps
      (Writings.AreHeld (sources.map (SourceFile.target directory)) 1) 0 []
      fun outputs written => written = [] ++ writtenBy directory (sources.zip outputs) :=
    keeps_transformFiles sources registry Nat.one_pos (fun _ among => List.mem_map_of_mem among) apart
  obtain ⟨changed, held, rfl⟩ := Action.Keeps.run keeps (fun _ _ _ held => held)
    (Writings.areHeld_nothing _ _ none store) rfl gives
  refine areKept_iff held fun written => ⟨fun among => ⟨0, ?_⟩, ?_⟩
  · rwa [Function.update_self]
  · rintro ⟨thread, among⟩
    obtain rfl := Nat.lt_one_iff.mp (held thread written among).1
    rwa [Function.update_self] at among

/-- Threads that transform sources keep what is alike, whatever their schedule. -/
theorem areKept_of_done {registries : Nat → Registry} {schedule : List Nat}
    {results : List (SourceOutput × Session)}
    (apart : ∀ source ∈ sources, AreApart options (sources.map (SourceFile.target directory)) source)
    (done : ((transforming directory options registries sources store).run schedule).running =
      results.map fun result => .done (.ok result)) :
    AreKept directory (sources.zip (results.map Prod.fst))
        ((transforming directory options registries sources store).run schedule).store ↔
      AreAlike directory (sources.zip (results.map Prod.fst)) := by
  have kept : (transforming directory options registries sources store).IsKept
      (Writings.AreHeld (sources.map (SourceFile.target directory)) sources.length)
      fun thread result view => ∀ source, sources[thread]? = some source →
        view = [(source.target directory, result.1.code)] := by
    refine ⟨fun _ => [], Writings.areHeld_nothing _ _ _ _, fun thread action running => ?_⟩
    rw [transforming, List.getElem?_mapIdx] at running
    obtain ⟨source, here, rfl⟩ := Option.map_eq_some_iff.mp running
    obtain ⟨inside, rfl⟩ := List.getElem?_eq_some_iff.mp here
    have among := List.getElem_mem inside
    refine (keeps_transformFile _ (registries thread) inside (List.mem_map_of_mem among)
      (apart _ among)).mono ?_
    rintro result view ⟨-, rfl⟩ other same
    rw [here] at same
    obtain rfl := Option.some.inj same
    rfl
  obtain ⟨views, held, rest⟩ := Threads.run_kept_of_done kept fun action among => by
    rw [done] at among
    obtain ⟨result, -, rfl⟩ := List.mem_map.mp among
    exact ⟨result, rfl⟩
  have length : results.length = sources.length := by
    have same := Threads.length_run (transforming directory options registries sources store) schedule
    rw [done, List.length_map] at same
    rw [same, transforming, List.length_mapIdx]
  have view {thread : Nat} {source : SourceFile} {result : SourceOutput × Session}
      (here : sources[thread]? = some source) (ended : results[thread]? = some result) :
      views thread = [(source.target directory, result.1.code)] := by
    have running : ((transforming directory options registries sources store).run
        schedule).running[thread]? = some (.done (.ok result)) := by
      rw [done, List.getElem?_map, ended]
      rfl
    exact rest thread _ running source here
  refine areKept_iff held fun written => ⟨fun among => ?_, ?_⟩
  · obtain ⟨⟨source, output⟩, listed, rfl⟩ := List.mem_map.mp among
    obtain ⟨thread, listed⟩ := List.getElem?_of_mem listed
    obtain ⟨here, given⟩ := List.getElem?_zip_eq_some.mp listed
    rw [List.getElem?_map] at given
    obtain ⟨result, ended, rfl⟩ := Option.map_eq_some_iff.mp given
    exact ⟨thread, view here ended ▸ List.mem_singleton.mpr rfl⟩
  · rintro ⟨thread, among⟩
    have inside := (held thread written among).1
    have here := List.getElem?_eq_getElem inside
    have ended := List.getElem?_eq_getElem (length ▸ inside)
    rw [view here ended] at among
    obtain rfl := List.mem_singleton.mp among
    refine List.mem_map.mpr ⟨(sources[thread], results[thread].1), ?_, rfl⟩
    refine List.mem_of_getElem? (List.getElem?_zip_eq_some.mpr ⟨here, ?_⟩)
    rw [List.getElem?_map, ended]
    rfl

/-- What a run passes on and what the session makes of it. -/
def Arguments.outputs (arguments : Arguments) (store : Store) : List (SourceFile × SourceOutput) :=
  (arguments.passes store).map fun pass => (pass.source, pass.output)

/-- The outputs of a run that succeeds. -/
theorem Arguments.outputs_of_gives {arguments : Arguments} {options : Options} {after : Store}
    {outputs : List SourceOutput} (given : arguments.options.Gives store options store)
    (gives : (transformFiles arguments.outDir? { options } (arguments.sources store)).Gives store
      outputs after) : arguments.outputs store = (arguments.sources store).zip outputs := by
  have read : Action.run arguments.options.run store = (.ok options, store) := given
  obtain ⟨sources, results⟩ := passes_of_gives gives
  rw [Arguments.outputs, Arguments.passes, read, ← List.zip_map', sources, results]

/-- Two directories with a page in each. -/
def twoPages : Store where
  entries := [(["src"], .directory), (["src", "a"], .directory),
    (["src", "a", "Page.tsx"], .file "export const a = 1;\n".toUTF8), (["src", "b"], .directory),
    (["src", "b", "Page.tsx"], .file "export const b = 2;\n".toUTF8)]
  clock := fun _ => "2024-01-01T00:00:00Z"
  refusal := "refused"

end CommandLine

end JsxTracking
