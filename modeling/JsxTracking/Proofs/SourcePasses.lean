import JsxTracking.Proofs.FoundSources
import Mathlib.Data.List.Nodup

/-! # The sources that a run passes on

A run of the command line passes its sources to the session one after another. Those are the sources
that its inputs reach, arranged, and they are compared as they are spelled: by the directory in which
they were found and the names below it. So a source is passed once if all inputs that reach it spell
that directory in the same way, and a second time for every other spelling, be it that of an input which
lies in another one (`sources_passed_once_iff`). -/

namespace JsxTracking

variable {ε φ α β : Type}

/-! ## Runs that succeed -/

namespace FallibleAction

theorem Gives.of_adapt {action : FallibleAction ε α} {wrap : ε → φ} {store after : Store} {value : α}
    (gives : Gives (ExceptT.adapt wrap action) store value after) :
    action.Gives store value after := by
  have ran : Action.run (action.run >>= fun result => pure (result.mapError wrap)) store =
      (.ok value, after) := gives
  rw [Action.run_bind] at ran
  cases outcome : Action.run action.run store with
  | mk result middle =>
    rw [outcome] at ran
    cases result with
    | error error => cases ran
    | ok given =>
      cases ran
      exact outcome

theorem Gives.adapt {action : FallibleAction ε α} {wrap : ε → φ} {store after : Store} {value : α}
    (gives : action.Gives store value after) :
    Gives (ExceptT.adapt wrap action) store value after := by
  have ran : Action.run (action.run >>= fun result => pure (result.mapError wrap)) store =
      (.ok value, after) := by
    rw [Action.run_bind, gives]
    rfl
  exact ran

theorem Gives.lift {action : Action α} {store after : Store} {value : α}
    (ran : action.run store = (value, after)) :
    Gives (ExceptT.lift action : FallibleAction ε α) store value after := by
  have lifted : Action.run (action >>= fun value => pure (.ok value : Except ε α)) store =
      (.ok value, after) := by
    rw [Action.run_bind, ran]
    rfl
  exact lifted

theorem onlyReads_bind {action : FallibleAction ε α} {next : α → FallibleAction ε β}
    (reads : Action.OnlyReads action.run) (later : ∀ value, Action.OnlyReads (next value).run) :
    Action.OnlyReads (action >>= next).run :=
  reads.bind fun result =>
    match result with
    | .ok value => later value
    | .error _ => Action.onlyReads_pure _

end FallibleAction

namespace CommandLine

open FallibleAction

variable {store after : Store} {arguments : Arguments}

/-- A source that was passed to the session, with its text and what the session made of it. -/
structure Pass where
  source : SourceFile
  text : String
  output : SourceOutput
  deriving Repr, Inhabited

/-- The sources that a run passes to its session, in order. It ends with the first file that cannot be
read or written. -/
def passes (outDir? : Option String) : Session → List SourceFile → Store → List Pass
  | _, [], _ => []
  | session, source :: rest, store =>
    match store.readText source.path with
    | .error _ => []
    | .ok text =>
      let output := ((session.transformSource source.path text).run store).1.1
      ⟨source, text, output⟩ ::
        match Action.run (transformFile outDir? session source).run store with
        | (.ok (_, session), store) => passes outDir? session rest store
        | (.error _, _) => []

/-- What it takes to transform a file. -/
theorem gives_transformFile {outDir? : Option String} {session : Session} {source : SourceFile}
    {result : SourceOutput × Session}
    (gives : (transformFile outDir? session source).Gives store result after) :
    ∃ text middle, store.readText source.path = .ok text ∧
      (session.transformSource source.path text).run store = (result, middle) ∧
      match outDir? with
      | some directory => (writeOutput directory source result.1.code).Gives middle () after
      | none => after = middle := by
  obtain ⟨text, first, read, gives⟩ := gives.of_bind
  have answered : (store.readText source.path, store) = (.ok text, first) := read.of_attempt
  obtain ⟨hasText, rfl⟩ := Prod.mk.inj answered
  obtain ⟨⟨output, next⟩, middle, transformed, gives⟩ := gives.of_bind
  refine ⟨text, middle, hasText, ?_⟩
  cases outDir? with
  | none =>
    obtain ⟨rfl, rfl⟩ := gives.of_pure
    exact ⟨transformed.of_lift, rfl⟩
  | some directory =>
    obtain ⟨_, _, written, ended⟩ := gives.of_bind
    obtain ⟨rfl, rfl⟩ := ended.of_pure
    exact ⟨transformed.of_lift, written⟩

/-- What a run that succeeds has passed on, and what it gives. -/
theorem passes_of_gives {outDir? : Option String} {session : Session} {sources : List SourceFile}
    {outputs : List SourceOutput}
    (gives : (transformFiles outDir? session sources).Gives store outputs after) :
    (passes outDir? session sources store).map Pass.source = sources ∧
      (passes outDir? session sources store).map Pass.output = outputs := by
  induction sources generalizing session store outputs with
  | nil =>
    obtain ⟨rfl, -⟩ := gives.of_pure
    exact ⟨rfl, rfl⟩
  | cons source rest ih =>
    obtain ⟨⟨output, next⟩, middle, first, gives⟩ := gives.of_bind
    obtain ⟨others, last, later, ended⟩ := gives.of_bind
    obtain ⟨rfl, rfl⟩ := ended.of_pure
    obtain ⟨text, _, hasText, transformed, -⟩ := gives_transformFile first
    obtain ⟨sources, outputs⟩ := ih later
    have ran : Action.run (transformFile outDir? session source).run store =
        (.ok (output, next), middle) := first
    rw [passes, hasText]
    simp only [ran, transformed, List.map_cons, sources, outputs, and_self]

/-- Sources are passed on in their order. -/
theorem prefix_passes (outDir? : Option String) (session : Session) (sources : List SourceFile)
    (store : Store) : (passes outDir? session sources store).map Pass.source <+: sources := by
  induction sources generalizing session store with
  | nil => exact List.prefix_rfl
  | cons source rest ih =>
    rw [passes]
    split
    · exact List.nil_prefix
    · rw [List.map_cons, List.prefix_cons_inj]
      split
      · exact ih _ _
      · exact List.nil_prefix

namespace Arguments

/-- The sources that a run passes on, found in a store. -/
def sources (arguments : Arguments) (store : Store) : List SourceFile :=
  SourceFile.arrange ((arguments.inputs.mapM sourcesOf).run store).1.flatten

theorem sources_of_ascending (arguments : Arguments) {sources : List SourceFile}
    (found : ((arguments.inputs.mapM sourcesOf).run store).1.flatten = sources)
    (ascending : sources.Pairwise fun first second => SourceFile.order first second = .lt) :
    arguments.sources store = sources := by
  rw [Arguments.sources, found, SourceFile.arrange_of_ascending ascending]

/-- What a run with these arguments passes to its session. -/
def passes (arguments : Arguments) (store : Store) : List Pass :=
  match (Action.run arguments.options.run store).1 with
  | .ok options => CommandLine.passes arguments.outDir? { options } (arguments.sources store) store
  | .error _ => []

/-- The sources of a run are passed on in their order. -/
theorem prefix_passes (arguments : Arguments) (store : Store) :
    (arguments.passes store).map Pass.source <+: arguments.sources store := by
  unfold passes
  split
  · exact CommandLine.prefix_passes _ _ _ _
  · exact List.nil_prefix

theorem onlyReads_options (arguments : Arguments) : Action.OnlyReads arguments.options.run := by
  unfold options
  cases arguments.config? with
  | none => exact Action.onlyReads_pure _
  | some path =>
    have asked : (Action.perform (.readText path)).OnlyReads := fun _ => rfl
    have read : Action.OnlyReads (Options.ofFile path).run :=
      onlyReads_bind (asked.bind fun _ => Action.onlyReads_pure _) fun _ => Action.onlyReads_pure _
    exact onlyReads_bind read fun _ => Action.onlyReads_pure _

end Arguments

/-- A run transforms what its arguments say, and tells what went wrong with that. -/
theorem run_eq {args : List String} (asked : Invocation.ofList args = .transform arguments) :
    run args = (transformAll arguments).run >>= fun result =>
      match result with
      | .ok outcome => pure outcome
      | .error fatal => pure { exitCode := 1, errors := ["Error: " ++ fatal.message] } := by
  unfold run
  split
  case h_1 other | h_2 other | h_3 other => cases other.symm.trans asked
  case h_4 found =>
    cases found.symm.trans asked
    rfl

/-- A run that ends well has transformed all sources that its inputs stand for. -/
theorem gives_of_run {args : List String} (asked : Invocation.ofList args = .transform arguments)
    (success : ((run args).run store).1.exitCode = 0) :
    ∃ options outputs, arguments.options.Gives store options store ∧
      (transformFiles arguments.outDir? { options } (arguments.sources store)).Gives store outputs
        ((run args).run store).2 := by
  rw [run_eq asked, Action.run_bind] at success ⊢
  cases outcome : Action.run (transformAll arguments).run store with
  | mk result last =>
    rw [outcome] at success
    cases result with
    | error fatal => cases success
    | ok ended =>
      have gives : (transformAll arguments).Gives store ended last := outcome
      obtain ⟨options, first, adapted, onward⟩ := gives.of_bind
      obtain ⟨found, second, lifted, further⟩ := onward.of_bind
      obtain ⟨outputs, third, transformed, ended⟩ := further.of_bind
      obtain ⟨-, rfl⟩ := ended.of_pure
      have given : Action.run arguments.options.run store = (.ok options, first) := adapted.of_adapt
      have listed : (arguments.inputs.mapM sourcesOf).run first = (found, second) := lifted.of_lift
      have same : first = store := by
        rw [← arguments.onlyReads_options store, given]
      have still : second = first := by
        rw [← Action.onlyReads_mapM onlyReads_sourcesOf arguments.inputs first, listed]
      subst still same
      refine ⟨options, outputs, given, ?_⟩
      rw [Arguments.sources, listed]
      exact transformed

/-- A run ends well if it has its options and transforms all sources. -/
theorem run_of_gives {args : List String} (asked : Invocation.ofList args = .transform arguments)
    {options : Options} {outputs : List SourceOutput}
    (given : arguments.options.Gives store options store)
    (gives : (transformFiles arguments.outDir? { options } (arguments.sources store)).Gives store
      outputs after) :
    ((run args).run store).2 = after ∧ ((run args).run store).1.exitCode = 0 ∧
      ((run args).run store).1.errors = [closingLine outputs] := by
  have listed : (arguments.inputs.mapM sourcesOf).run store =
      (((arguments.inputs.mapM sourcesOf).run store).1, store) :=
    Prod.ext rfl (Action.onlyReads_mapM onlyReads_sourcesOf arguments.inputs store)
  have all : ∃ outcome : Outcome, outcome.exitCode = 0 ∧ outcome.errors = [closingLine outputs] ∧
      (transformAll arguments).Gives store outcome after :=
    ⟨_, rfl, rfl, given.adapt.bind ((Gives.lift listed).bind (gives.bind gives_pure))⟩
  obtain ⟨outcome, exitCode, errors, gives⟩ := all
  have ran : Action.run (transformAll arguments).run store = (.ok outcome, after) := gives
  rw [run_eq asked, Action.run_bind, ran]
  exact ⟨rfl, exitCode, errors⟩

/-- A run that closes with a line says just that. -/
theorem run_of_closingLine {args : List String}
    (asked : Invocation.ofList args = .transform arguments) {options : Options}
    (given : arguments.options.Gives store options store) {sources : List SourceFile}
    (found : arguments.sources store = sources) (line : String)
    (closes : (Action.run (transformFiles arguments.outDir? { options } sources).run
      store).1.toOption.map closingLine = some line) :
    ((run args).run store).1.exitCode = 0 ∧ ((run args).run store).1.errors = [line] := by
  rw [← found] at closes
  cases ran : Action.run (transformFiles arguments.outDir? { options }
      (arguments.sources store)).run store with
  | mk result after =>
    rw [ran] at closes
    cases result with
    | error fatal => cases closes
    | ok outputs =>
      obtain rfl := Option.some.inj closes
      exact (run_of_gives asked given ran).2

/-- A run that ends well has passed on all sources. -/
theorem passes_of_run {args : List String} (asked : Invocation.ofList args = .transform arguments)
    (success : ((run args).run store).1.exitCode = 0) :
    (arguments.passes store).map Pass.source = arguments.sources store := by
  obtain ⟨options, outputs, given, gives⟩ := gives_of_run asked success
  have read : Action.run arguments.options.run store = (.ok options, store) := given
  rw [Arguments.passes, read]
  exact (passes_of_gives gives).1

end CommandLine

/-! ## Sources and their spellings -/

open JsxTracking.Path (Component)

namespace Store

/-- Whether a path leads to a place. -/
def leadsTo (store : Store) (place : List String) (path : String) : Bool :=
  match store.resolve path with
  | .ok names => names = place
  | .error _ => false

theorem leadsTo_iff {store : Store} {place : List String} {path : String} :
    store.leadsTo place path = true ↔ store.resolve path = .ok place := by
  unfold leadsTo
  split
  case h_1 names resolved => rw [resolved, decide_eq_true_eq, Except.ok.injEq]
  case h_2 error resolved => simp [resolved]

/-- A place is that of a source if an input reaches it. -/
def IsSource (store : Store) (inputs : List String) (place : List String) : Prop :=
  ∃ input ∈ inputs, ∃ anchor, store.Reaches input anchor place

/-- All inputs that reach a source spell its directory in the same way. -/
def SpelledAlike (store : Store) (inputs : List String) (place : List String) : Prop :=
  ∀ input ∈ inputs, ∀ other ∈ inputs, ∀ anchor otherAnchor,
    store.Reaches input anchor place → store.Reaches other otherAnchor place → anchor = otherAnchor

/-- Whether the anchor of an input is the input itself depends on what that is. -/
theorem Reaches.anchor_eq {store : Store} {input : String} {anchor : List Component}
    {place : List String} (reaches : store.Reaches input anchor place) :
    anchor = match store.find? input with
      | some .directory => Path.components input
      | _ => (Path.components input).dropLast := by
  cases reaches with
  | file resolved isFile => rw [find?_of_resolve resolved, isFile]
  | below _ resolved isDirectory => rw [find?_of_resolve resolved, isDirectory]

/-- An input spells the directory of a source in one way only. -/
theorem spelledAlike_singleton (store : Store) (input : String) (place : List String) :
    store.SpelledAlike [input] place := by
  intro first isFirst second isSecond anchor otherAnchor reaches again
  obtain rfl := List.mem_singleton.mp isFirst
  obtain rfl := List.mem_singleton.mp isSecond
  exact reaches.anchor_eq.trans again.anchor_eq.symm

end Store

namespace CommandLine

variable {store : Store} {arguments : Arguments} {anchor otherAnchor : List Component}
  {base otherBase names otherNames place : List String} {source other : SourceFile} {input : String}

namespace SourceFile

/-- Sources in one place have the same components if they were found from the same anchor. -/
theorem IsAnchored.key_eq_iff (anchored : source.IsAnchored store anchor base names)
    (otherAnchored : other.IsAnchored store otherAnchor otherBase otherNames)
    (place : base ++ names = otherBase ++ otherNames) :
    source.key = other.key ↔ anchor = otherAnchor := by
  constructor
  · intro same
    have paths : anchor ++ names.map .name = otherAnchor ++ otherNames.map .name := by
      rw [← anchored.path, ← otherAnchored.path]
      exact (List.cons.inj same).1
    have below : names.map Component.name = otherNames.map .name := by
      rw [← anchored.relative, ← otherAnchored.relative]
      exact (List.cons.inj (List.cons.inj same).2).1
    rw [below] at paths
    exact List.append_cancel_right paths
  · rintro rfl
    have bases : base = otherBase :=
      Except.ok.inj (anchored.followed.symm.trans otherAnchored.followed)
    have below : names = otherNames := List.append_cancel_left (bases ▸ place)
    unfold key
    rw [anchored.path, otherAnchored.path, anchored.relative, otherAnchored.relative, below]

/-- Where a source is, its components tell. -/
theorem IsAnchored.place_eq (anchored : source.IsAnchored store anchor base names)
    (otherAnchored : other.IsAnchored store otherAnchor otherBase otherNames)
    (same : source.key = other.key) : base ++ names = otherBase ++ otherNames := by
  have paths : Path.components source.path = Path.components other.path := (List.cons.inj same).1
  rw [Store.follow_ok (Store.followed_of_resolve anchored.resolved), paths,
    ← Store.follow_ok (Store.followed_of_resolve otherAnchored.resolved)]

end SourceFile

namespace Arguments

theorem mem_found {source : SourceFile} :
    source ∈ ((arguments.inputs.mapM sourcesOf).run store).1.flatten ↔
      ∃ input ∈ arguments.inputs, source ∈ ((sourcesOf input).run store).1 := by
  rw [Action.run_mapM onlyReads_sourcesOf, List.mem_flatten]
  simp only [List.mem_map, exists_exists_and_eq_and]

/-- A source that is passed on is reached by an input. -/
theorem reaches_of_mem_sources (tree : store.IsTree)
    (isFollowed : ∀ input ∈ arguments.inputs, store.IsFollowed input)
    (among : source ∈ arguments.sources store) :
    ∃ input ∈ arguments.inputs, ∃ anchor base names, store.Reaches input anchor (base ++ names) ∧
      source.IsAnchored store anchor base names := by
  obtain ⟨input, given, found⟩ := mem_found.mp (SourceFile.mem_of_mem_arrange among)
  exact ⟨input, given, reaches_of_mem_sourcesOf tree (isFollowed input given) found⟩

/-- A source that an input reaches is passed on, found from the anchor of that input. -/
theorem exists_mem_sources (tree : store.IsTree)
    (isFollowed : ∀ input ∈ arguments.inputs, store.IsFollowed input)
    (given : input ∈ arguments.inputs) (reaches : store.Reaches input anchor place) :
    ∃ source ∈ arguments.sources store, ∃ base names, place = base ++ names ∧
      source.IsAnchored store anchor base names := by
  obtain ⟨source, base, names, found, rfl, anchored⟩ :=
    exists_mem_sourcesOf tree (isFollowed input given) reaches
  obtain ⟨kept, among, same⟩ := SourceFile.exists_arranged (mem_found.mpr ⟨input, given, found⟩)
  obtain ⟨-, -, keptAnchor, keptBase, keptNames, -, keptAnchored⟩ :=
    reaches_of_mem_sources tree isFollowed among
  have places := keptAnchored.place_eq anchored same
  obtain rfl := (keptAnchored.key_eq_iff anchored places).mp same
  exact ⟨kept, among, keptBase, keptNames, places.symm, keptAnchored⟩

/-- **Sources are listed once** for each spelling of the directory in which they lie. -/
theorem countP_sources_iff (tree : store.IsTree)
    (isFollowed : ∀ input ∈ arguments.inputs, store.IsFollowed input)
    (isSource : store.IsSource arguments.inputs place) :
    (arguments.sources store).countP (fun source => store.leadsTo place source.path) = 1 ↔
      store.SpelledAlike arguments.inputs place := by
  constructor
  · intro once input given other otherGiven anchor otherAnchor reaches otherReaches
    obtain ⟨source, among, base, names, rfl, anchored⟩ :=
      exists_mem_sources tree isFollowed given reaches
    obtain ⟨second, secondAmong, otherBase, otherNames, places, secondAnchored⟩ :=
      exists_mem_sources tree isFollowed otherGiven otherReaches
    rw [List.countP_eq_length_filter, List.length_eq_one_iff] at once
    obtain ⟨only, once⟩ := once
    have isOnly {source : SourceFile} (among : source ∈ arguments.sources store)
        (resolved : store.resolve source.path = .ok (base ++ names)) : source = only := by
      have filtered : source ∈ (arguments.sources store).filter fun source =>
          store.leadsTo (base ++ names) source.path :=
        List.mem_filter.mpr ⟨among, Store.leadsTo_iff.mpr resolved⟩
      exact List.mem_singleton.mp (once ▸ filtered)
    have same : source = second :=
      (isOnly among anchored.resolved).trans
        (isOnly secondAmong (places ▸ secondAnchored.resolved)).symm
    exact (anchored.key_eq_iff secondAnchored places).mp (congrArg SourceFile.key same)
  · intro alike
    obtain ⟨input, given, anchor, reaches⟩ := isSource
    obtain ⟨source, among, base, names, rfl, anchored⟩ :=
      exists_mem_sources tree isFollowed given reaches
    have distinct := SourceFile.nodup_arrange ((arguments.inputs.mapM sourcesOf).run store).1.flatten
    have leads : ∀ other ∈ arguments.sources store,
        store.leadsTo (base ++ names) other.path = true ↔ (other == source) = true := by
      intro other otherAmong
      rw [Store.leadsTo_iff, beq_iff_eq]
      constructor
      · intro resolved
        obtain ⟨otherInput, otherGiven, otherAnchor, otherBase, otherNames, otherReaches,
          otherAnchored⟩ := reaches_of_mem_sources tree isFollowed otherAmong
        have places : otherBase ++ otherNames = base ++ names :=
          Except.ok.inj (otherAnchored.resolved.symm.trans resolved)
        have anchors := alike otherInput otherGiven input given _ _ (places ▸ otherReaches) reaches
        have keys := (otherAnchored.key_eq_iff anchored places).mpr anchors
        exact List.inj_on_of_nodup_map distinct otherAmong among keys
      · rintro rfl
        exact anchored.resolved
    rw [List.countP_congr leads]
    exact List.count_eq_one_of_mem (List.Nodup.of_map _ distinct) among

end Arguments

/-- A directory in another one, with a source. -/
def nestedTree : Store where
  entries := [(["src"], .directory), (["src", "a"], .directory),
    (["src", "a", "Page.tsx"],
      .file "export const Page = () => <div data-track-click=\"buy\" />;\n".toUTF8)]
  clock := fun _ => "2024-01-01T00:00:00Z"
  refusal := "refused"

theorem isTree_nestedTree : nestedTree.IsTree := by
  refine Store.isTree_of_entries (by decide +kernel) (by decide +kernel) fun item among => ?_
  simp only [nestedTree, List.mem_cons, List.not_mem_nil, or_false] at among
  rcases among with rfl | rfl | rfl <;> rfl

theorem isFollowed_nestedTree : nestedTree.IsFollowed "src" := by
  have resolved : nestedTree.resolve "src" = .ok ["src"] :=
    Store.leadsTo_iff.mp (by decide +kernel)
  exact isFollowed_of_entries resolved (by decide +kernel) (by decide +kernel)

theorem reaches_nestedTree :
    nestedTree.Reaches "src" (Path.components "src") ["src", "a", "Page.tsx"] := by
  have resolved : nestedTree.resolve "src" = .ok ["src"] :=
    Store.leadsTo_iff.mp (by decide +kernel)
  have below : nestedTree.IsSourceBelow ["src"] ["a", "Page.tsx"] :=
    ⟨⟨_, rfl⟩, by decide, "Page.tsx", rfl, by decide +kernel⟩
  exact .below (by decide +kernel) resolved rfl below

end CommandLine

end JsxTracking
