import JsxTracking.Proofs.FileChanges
import JsxTracking.Proofs.SourceOrder
import Mathlib.Data.List.Induction

/-! # The sources below an input

A store is a tree if it lists nothing twice, all its names are names of files, and whatever it holds lies
in directories. An input *reaches* the sources that it stands for: itself if it is a file, and otherwise
the files below it with the extension of a source that are in no directory of packages
(`Store.Reaches`). Each of them is found under a path that begins like the directory which the input
names, its *anchor*, and goes on with the names below that (`SourceFile.IsAnchored`).
Walking through a tree finds the sources that are reached, and nothing else (`mem_sourcesOf`). -/

namespace JsxTracking

variable {α β : Type}

/-! ## Actions that only read -/

instance : LawfulMonad Action := by
  refine LawfulMonad.mk' Action (fun action => ?_) (fun _ _ => rfl) (fun action first second => ?_)
  · induction action with
    | done value => rfl
    | ask request next ih => exact congrArg (Action.ask request) (funext ih)
  · induction action with
    | done value => rfl
    | ask request next ih => exact congrArg (Action.ask request) (funext ih)

namespace Action

/-- Whether an action leaves every store as it is. -/
def OnlyReads (action : Action α) : Prop :=
  ∀ store : Store, (action.run store).2 = store

theorem onlyReads_pure (value : α) : (pure value : Action α).OnlyReads :=
  fun _ => rfl

theorem OnlyReads.bind {action : Action α} {next : α → Action β} (reads : action.OnlyReads)
    (later : ∀ value, (next value).OnlyReads) : (action >>= next).OnlyReads := by
  intro store
  rw [run_bind, later, reads]

/-- Actions that only read, one after another, read the same store. -/
theorem run_mapM {each : α → Action β} (reads : ∀ value, (each value).OnlyReads)
    (values : List α) (store : Store) :
    (values.mapM each).run store = (values.map fun value => ((each value).run store).1, store) := by
  induction values with
  | nil => rfl
  | cons value rest ih =>
    rw [List.mapM_cons, run_bind, reads, run_bind, ih]
    rfl

theorem onlyReads_mapM {each : α → Action β} (reads : ∀ value, (each value).OnlyReads)
    (values : List α) : (values.mapM each).OnlyReads :=
  fun store => by rw [run_mapM reads]

end Action

/-! ## Paths that go on with names -/

namespace Path

/-- A path that goes on with names. -/
def joinAll (path : String) (names : List String) : String :=
  names.foldl join path

variable {names : List String} {path name : String}

theorem components_joinAll (areNames : ∀ name ∈ names, IsName name) (path : String) :
    components (joinAll path names) = components path ++ names.map .name := by
  induction names generalizing path with
  | nil => exact (List.append_nil _).symm
  | cons name rest ih =>
    obtain ⟨isName, areNames⟩ := List.forall_mem_cons.mp areNames
    change components (joinAll (join path name) rest) = _
    rw [ih areNames, components_join isName, List.append_assoc]
    rfl

theorem IsName.components (isName : IsName name) : components name = [.name name] := by
  have relative : name.toList.head? ≠ some '/' := fun slash =>
    isName.noSlash (List.mem_of_head? slash)
  have alone : join "" name = name := by
    unfold join
    rw [if_neg relative, if_pos (Or.inl String.toList_empty), String.empty_append]
  have joined := components_join isName ""
  rw [alone] at joined
  exact joined

instance (text : String) : Decidable (IsName text) :=
  decidable_of_iff (component? text.toList = some (.name text) ∧ '/' ∉ text.toList)
    ⟨fun ⟨component, noSlash⟩ => ⟨component, noSlash⟩, fun ⟨component, noSlash⟩ =>
      ⟨component, noSlash⟩⟩

/-- Whether a path is neither empty nor ends in a slash. -/
def IsSolid (path : String) : Prop :=
  ¬ (path.toList = [] ∨ path.toList.getLast? = some '/')

theorem IsName.one_le (isName : IsName name) : 1 ≤ name.utf8ByteSize := by
  rw [Nat.one_le_iff_ne_zero, ne_eq, String.utf8ByteSize_eq_zero_iff]
  rintro rfl
  exact isName.ne_nil rfl

theorem isSolid_join (isName : IsName name) (path : String) : IsSolid (join path name) := by
  have ends : ∃ before, (join path name).toList = before ++ name.toList := by
    rcases toList_join isName path with ⟨-, same⟩ | ⟨before, -, same⟩ | ⟨-, same⟩
    · exact ⟨[], same⟩
    · exact ⟨before ++ ['/'], by rw [same, List.append_assoc]; rfl⟩
    · exact ⟨path.toList ++ ['/'], by rw [same, List.append_assoc]; rfl⟩
  obtain ⟨before, same⟩ := ends
  rintro (empty | slash)
  · exact isName.ne_nil (List.append_eq_nil_iff.mp (same ▸ empty)).2
  · cases last : name.toList.getLast? with
    | none => exact isName.ne_nil (List.getLast?_eq_none_iff.mp last)
    | some c =>
      rw [same, List.getLast?_append, last] at slash
      obtain rfl : c = '/' := Option.some.inj slash
      exact isName.noSlash (List.mem_of_getLast? last)

/-- How much longer a path gets with a name. -/
theorem utf8ByteSize_join (isName : IsName name) (path : String) :
    (IsSolid path → path.utf8ByteSize + 2 ≤ (join path name).utf8ByteSize) ∧
      path.utf8ByteSize + 1 ≤ (join path name).utf8ByteSize := by
  have one := isName.one_le
  have relative : name.toList.head? ≠ some '/' := fun slash =>
    isName.noSlash (List.mem_of_head? slash)
  unfold join IsSolid
  rw [if_neg relative]
  split
  case isTrue loose =>
    rw [String.utf8ByteSize_append]
    exact ⟨fun solid => absurd loose solid, by omega⟩
  case isFalse =>
    rw [String.utf8ByteSize_append, String.utf8ByteSize_append]
    have slash : "/".utf8ByteSize = 1 := by decide
    exact ⟨fun _ => by omega, by omega⟩

theorem utf8ByteSize_joinAll (areNames : ∀ name ∈ names, IsName name) (solid : IsSolid path) :
    path.utf8ByteSize + 2 * names.length ≤ (joinAll path names).utf8ByteSize := by
  induction names generalizing path with
  | nil => exact Nat.le_refl _
  | cons name rest ih =>
    obtain ⟨isName, areNames⟩ := List.forall_mem_cons.mp areNames
    have first := (utf8ByteSize_join isName path).1 solid
    have others := ih areNames (isSolid_join isName path)
    change _ ≤ (joinAll (join path name) rest).utf8ByteSize
    rw [List.length_cons]
    omega

/-- A path has room for each of its names and what separates it from the others. -/
theorem length_le_joinAll (areNames : ∀ name ∈ names, IsName name) (some : path ≠ "") :
    2 * names.length ≤ (joinAll path names).utf8ByteSize := by
  cases names with
  | nil => exact Nat.zero_le _
  | cons name rest =>
    obtain ⟨isName, areNames⟩ := List.forall_mem_cons.mp areNames
    have nonempty := mt String.utf8ByteSize_eq_zero_iff.mp some
    have first := (utf8ByteSize_join isName path).2
    have others := utf8ByteSize_joinAll areNames (isSolid_join isName path)
    change _ ≤ (joinAll (join path name) rest).utf8ByteSize
    rw [List.length_cons]
    omega

end Path

/-! ## Trees -/

open CommandLine

namespace Store

/-- A store that is a tree of directories and files. -/
structure IsTree (store : Store) : Prop where
  /-- Nothing is listed twice. -/
  once : (store.entries.map Prod.fst).Nodup
  named : ∀ {names entry}, store.entry? names = some entry → ∀ name ∈ names,
    Path.IsName name ∧ isUsableName (.name name) = true
  within : ∀ {names name entry}, store.entry? (names ++ [name]) = some entry →
    store.entry? names = some .directory

variable {store : Store} {base names : List String} {path name : String}

theorem mem_of_entry? {entry : Entry} (found : store.entry? names = some entry) :
    names = [] ∧ entry = .directory ∨ (names, entry) ∈ store.entries := by
  unfold entry? at found
  split at found
  case isTrue root => exact Or.inl ⟨root, (Option.some.inj found).symm⟩
  case isFalse =>
    obtain ⟨before, after, same, -⟩ := List.lookup_eq_some_iff.mp found
    exact Or.inr (same ▸ List.mem_append_right _ List.mem_cons_self)

/-- Whether a store is a tree, its entries tell. -/
theorem isTree_of_entries (once : (store.entries.map Prod.fst).Nodup)
    (named : ∀ item ∈ store.entries, ∀ name ∈ item.1,
      Path.IsName name ∧ isUsableName (.name name) = true)
    (within : ∀ item ∈ store.entries, store.entry? item.1.dropLast = some .directory) :
    store.IsTree where
  once := once
  named {names entry} found := by
    rcases mem_of_entry? found with ⟨rfl, -⟩ | among
    · exact fun name among => nomatch among
    · exact named _ among
  within {names name entry} found := by
    rcases mem_of_entry? found with ⟨empty, -⟩ | among
    · exact absurd empty (List.concat_ne_nil _ _)
    · have directory := within _ among
      rwa [List.dropLast_concat] at directory

theorem IsTree.above (tree : store.IsTree) {below : List String} {entry : Entry}
    (found : store.entry? (names ++ below) = some entry) (more : below ≠ []) :
    store.entry? names = some .directory := by
  induction below using List.reverseRecOn generalizing entry with
  | nil => exact absurd rfl more
  | append_singleton before name ih =>
    rw [← List.append_assoc] at found
    have directory := tree.within found
    cases before with
    | nil => rwa [List.append_nil] at directory
    | cons first rest => exact ih directory (List.cons_ne_nil _ _)

theorem IsTree.mem_entries (tree : store.IsTree) (more : names ≠ []) {entry : Entry} :
    (names, entry) ∈ store.entries ↔ store.entry? names = some entry := by
  unfold entry?
  rw [if_neg more, List.lookup_eq_some_iff]
  constructor
  · intro among
    obtain ⟨before, after, same⟩ := List.append_of_mem among
    have once := tree.once
    rw [same, List.map_append, List.nodup_append] at once
    refine ⟨before, after, same, fun item earlier => bne_iff_ne.mpr fun equal => ?_⟩
    exact once.2.2 item.1 (List.mem_map_of_mem earlier) names List.mem_cons_self equal.symm
  · rintro ⟨before, after, same, -⟩
    rw [same]
    exact List.mem_append_right _ List.mem_cons_self

/-- The entries of a directory are what names lead to from it. -/
theorem IsTree.mem_listDirectory (tree : store.IsTree) (resolved : store.resolve path = .ok base)
    (isDirectory : store.entry? base = some .directory) {listed : DirectoryEntry} :
    listed ∈ store.listDirectory path ↔
      ∃ entry, store.entry? (base ++ [listed.name]) = some entry ∧
        listed.isDirectory = entry.isDirectory := by
  have more : base ++ [listed.name] ≠ [] := List.concat_ne_nil _ _
  unfold listDirectory
  simp only [resolved, isDirectory, List.mem_filterMap]
  constructor
  · rintro ⟨⟨place, entry⟩, among, given⟩
    dsimp only at given
    split at given
    case h_2 => cases given
    case h_1 name ends =>
      obtain ⟨before, rfl⟩ := List.getLast?_eq_some_iff.mp ends
      rw [List.dropLast_concat] at given
      split at given
      case isFalse => cases given
      case isTrue same =>
        subst same
        cases given
        exact ⟨entry, (tree.mem_entries more).mp among, rfl⟩
  · rintro ⟨entry, there, kind⟩
    refine ⟨(base ++ [listed.name], entry), (tree.mem_entries more).mpr there, ?_⟩
    simp only [List.getLast?_concat, List.dropLast_concat, ↓reduceIte, ← kind]

/-- A resolved path was followed through its components. -/
theorem followed_of_resolve {place : List String} (resolved : store.resolve path = .ok place) :
    store.follow [] (Path.components path) = .ok place :=
  (resolve_eq_ok_iff.mp resolved).2.2.1

theorem find?_of_resolve {place : List String} (resolved : store.resolve path = .ok place) :
    store.find? path = store.entry? place := by
  rw [find?, resolved]

theorem exists_of_find? {entry : Entry} (found : store.find? path = some entry) :
    ∃ place, store.resolve path = .ok place ∧ store.entry? place = some entry := by
  cases resolved : store.resolve path with
  | error error =>
    rw [find?, resolved] at found
    cases found
  | ok place => exact ⟨place, rfl, find?_of_resolve resolved ▸ found⟩

/-- Only directories have entries. -/
theorem exists_of_mem_listDirectory {listed : DirectoryEntry}
    (among : listed ∈ store.listDirectory path) :
    ∃ place, store.resolve path = .ok place ∧ store.entry? place = some .directory := by
  unfold listDirectory at among
  split at among
  case h_1 => cases among
  case h_2 place resolved =>
    split at among
    case h_1 isDirectory => exact ⟨place, resolved, isDirectory⟩
    case h_2 => cases among

/-- A directory lies in a directory. -/
theorem IsTree.parent (tree : store.IsTree) (isDirectory : store.entry? names = some .directory) :
    store.entry? names.dropLast = some .directory := by
  rcases List.eq_nil_or_concat names with rfl | ⟨before, name, rfl⟩
  · exact isDirectory
  · rw [List.concat_eq_append] at isDirectory ⊢
    rw [List.dropLast_concat]
    exact tree.within isDirectory

/-! ## Walks -/

/-- Names lead from a place to a file with the extension of a source, through no directory of
packages. -/
structure IsSourceBelow (store : Store) (base names : List String) : Prop where
  isFile : ∃ bytes, store.entry? (base ++ names) = some (.file bytes)
  unpackaged : packageDirectory ∉ names
  isSource : ∃ name, names.getLast? = some name ∧ isSourceName name = true

theorem IsSourceBelow.ne_nil (below : store.IsSourceBelow base names) : names ≠ [] := by
  rintro rfl
  obtain ⟨name, ends, -⟩ := below.isSource
  cases ends

theorem isSourceBelow_cons (more : names ≠ []) :
    store.IsSourceBelow base (name :: names) ↔
      name ≠ packageDirectory ∧ store.IsSourceBelow (base ++ [name]) names := by
  have place : base ++ name :: names = base ++ [name] ++ names := by
    rw [List.append_assoc]
    rfl
  have ends : (name :: names).getLast? = names.getLast? := by
    rw [List.getLast?_cons_of_ne_nil more]
  constructor
  · intro below
    obtain ⟨bytes, isFile⟩ := below.isFile
    obtain ⟨first, others⟩ := not_or.mp (mt List.mem_cons.mpr below.unpackaged)
    exact ⟨Ne.symm first, ⟨bytes, place ▸ isFile⟩, others, ends ▸ below.isSource⟩
  · rintro ⟨first, ⟨bytes, isFile⟩, others, isSource⟩
    refine ⟨⟨bytes, place ▸ isFile⟩, fun among => ?_, ends ▸ isSource⟩
    exact (List.mem_cons.mp among).elim (fun same => first same.symm) others

/-- A directory below which every path can be followed. -/
structure IsWalked (store : Store) (path : String) (base : List String) : Prop where
  there : store.HasDirectory path base
  nonempty : path ≠ ""
  usable : ∀ {names entry}, store.entry? (base ++ names) = some entry →
    isUsable (Path.joinAll path names) = true

namespace IsWalked

theorem resolve (walked : store.IsWalked path base) : store.resolve path = .ok base := by
  have itself : store.entry? (base ++ []) = some .directory := by
    rw [List.append_nil]
    exact walked.there.isDirectory
  exact resolve_eq_ok_iff.mpr ⟨walked.nonempty, walked.usable itself, walked.there.followed,
    fun _ => walked.there.isDirectory⟩

theorem join (walked : store.IsWalked path base) (tree : store.IsTree)
    (found : store.entry? (base ++ [name]) = some .directory) :
    store.IsWalked (Path.join path name) (base ++ [name]) := by
  obtain ⟨isName, short⟩ := tree.named found name (by simp)
  refine ⟨⟨?_, found⟩, Path.join_ne_empty isName path, fun {names entry} further => ?_⟩
  · rw [Path.components_join isName, follow_append, walked.there.followed]
    change store.follow base [.name name] = _
    rw [follow, walked.there.isDirectory]
    simp [short, follow, step]
  · rw [List.append_assoc] at further
    exact walked.usable further

/-- Names below a walked directory lead where they say. -/
theorem resolve_joinAll (walked : store.IsWalked path base) (tree : store.IsTree) {entry : Entry}
    (found : store.entry? (base ++ names) = some entry) (more : names ≠ []) :
    store.resolve (Path.joinAll path names) = .ok (base ++ names) := by
  induction names generalizing path base with
  | nil => exact absurd rfl more
  | cons name rest ih =>
    by_cases last : rest = []
    · subst last
      obtain ⟨isName, short⟩ := tree.named found name (by simp)
      exact walked.there.resolve_join isName (walked.usable found) short
    · have place : base ++ name :: rest = base ++ [name] ++ rest := by
        rw [List.append_assoc]
        rfl
      rw [place] at found ⊢
      exact ih (walked.join tree (tree.above found last)) found last

end IsWalked

end Store

namespace CommandLine

variable {store : Store} {path relative : String} {base : List String} {source : SourceFile}

/-- What is found at an entry of a directory. -/
def sourcesAt (depth : Nat) (path relative : String) (entry : DirectoryEntry) :
    Action (List SourceFile) :=
  if entry.name = packageDirectory then return []
  else if entry.isDirectory then
    sourcesBelow depth (Path.join path entry.name) (Path.join relative entry.name)
  else return if isSourceName entry.name then
    [⟨Path.join path entry.name, Path.join relative entry.name⟩] else []

theorem sourcesBelow_succ (depth : Nat) (path relative : String) :
    sourcesBelow (depth + 1) path relative = (do
      let entries ← Action.perform (.listDirectory path)
      let found ← entries.mapM (sourcesAt depth path relative)
      return found.flatten) := by
  rw [sourcesBelow]
  rfl

theorem sourcesAt_directory {name : String} (packaged : name ≠ packageDirectory) (depth : Nat)
    (path relative : String) :
    sourcesAt depth path relative ⟨name, true⟩ =
      sourcesBelow depth (Path.join path name) (Path.join relative name) :=
  if_neg packaged

theorem sourcesAt_file {name : String} (packaged : name ≠ packageDirectory) (depth : Nat)
    (path relative : String) :
    sourcesAt depth path relative ⟨name, false⟩ =
      return if isSourceName name then [⟨Path.join path name, Path.join relative name⟩] else [] :=
  if_neg packaged

theorem onlyReads_sourcesAt {depth : Nat}
    (deeper : ∀ path relative, (sourcesBelow depth path relative).OnlyReads)
    (path relative : String) (entry : DirectoryEntry) :
    (sourcesAt depth path relative entry).OnlyReads := by
  unfold sourcesAt
  split
  · exact Action.onlyReads_pure []
  · split
    · exact deeper _ _
    · exact Action.onlyReads_pure _

theorem onlyReads_sourcesBelow (depth : Nat) (path relative : String) :
    (sourcesBelow depth path relative).OnlyReads := by
  induction depth generalizing path relative with
  | zero => exact Action.onlyReads_pure []
  | succ depth ih =>
    have listed : (Action.perform (.listDirectory path)).OnlyReads := fun _ => rfl
    rw [sourcesBelow_succ]
    exact listed.bind fun entries =>
      (Action.onlyReads_mapM (onlyReads_sourcesAt ih path relative) entries).bind fun _ =>
        Action.onlyReads_pure _

theorem mem_run_sourcesBelow (depth : Nat) :
    source ∈ ((sourcesBelow (depth + 1) path relative).run store).1 ↔
      ∃ entry ∈ store.listDirectory path,
        source ∈ ((sourcesAt depth path relative entry).run store).1 := by
  have listed : (Action.perform (.listDirectory path)).run store =
      (store.listDirectory path, store) := rfl
  rw [sourcesBelow_succ, Action.run_bind, listed, Action.run_bind,
    Action.run_mapM (onlyReads_sourcesAt (onlyReads_sourcesBelow depth) path relative)]
  change source ∈ List.flatten _ ↔ _
  rw [List.mem_flatten]
  simp only [List.mem_map, exists_exists_and_eq_and]

/-- **A walk finds the sources below a directory.** Those are the files whose names say so and lie in no
directory of packages, as far down as the walk goes. -/
theorem mem_sourcesBelow (tree : store.IsTree) {depth : Nat} (walked : store.IsWalked path base) :
    source ∈ ((sourcesBelow depth path relative).run store).1 ↔
      ∃ names, names.length ≤ depth ∧ store.IsSourceBelow base names ∧
        source = ⟨Path.joinAll path names, Path.joinAll relative names⟩ := by
  induction depth generalizing path base relative with
  | zero =>
    constructor
    · intro among
      cases among
    · rintro ⟨names, short, below, -⟩
      obtain rfl := List.length_eq_zero_iff.mp (Nat.le_zero.mp short)
      exact absurd rfl below.ne_nil
  | succ depth ih =>
    rw [mem_run_sourcesBelow]
    have listed {entry : DirectoryEntry} : entry ∈ store.listDirectory path ↔ _ :=
      tree.mem_listDirectory walked.resolve walked.there.isDirectory
    constructor
    · rintro ⟨⟨name, isDirectory⟩, among, found⟩
      obtain ⟨held, there, rfl⟩ := listed.mp among
      by_cases packaged : name = packageDirectory
      · rw [sourcesAt, if_pos packaged] at found
        cases found
      cases held with
      | directory =>
        rw [Entry.isDirectory, sourcesAt_directory packaged] at found
        obtain ⟨names, short, below, same⟩ := (ih (walked.join tree there)).mp found
        exact ⟨name :: names, Nat.succ_le_succ short,
          (Store.isSourceBelow_cons below.ne_nil).mpr ⟨packaged, below⟩, same⟩
      | file bytes =>
        rw [Entry.isDirectory, sourcesAt_file packaged] at found
        split at found
        case isFalse => cases found
        case isTrue isSource =>
          refine ⟨[name], Nat.succ_le_succ (Nat.zero_le _), ⟨⟨bytes, there⟩, ?_, name, rfl, isSource⟩,
            List.mem_singleton.mp found⟩
          exact mt List.mem_singleton.mp (Ne.symm packaged)
    · rintro ⟨names, short, below, rfl⟩
      cases names with
      | nil => exact absurd rfl below.ne_nil
      | cons name rest =>
        by_cases last : rest = []
        · subst last
          obtain ⟨bytes, isFile⟩ := below.isFile
          obtain ⟨_, ends, isSource⟩ := below.isSource
          obtain rfl : name = _ := Option.some.inj ends
          have packaged : name ≠ packageDirectory := fun same =>
            below.unpackaged (List.mem_singleton.mpr same.symm)
          refine ⟨⟨name, false⟩, listed.mpr ⟨.file bytes, isFile, rfl⟩, ?_⟩
          rw [sourcesAt_file packaged, if_pos isSource]
          exact List.mem_singleton.mpr rfl
        · obtain ⟨packaged, further⟩ := (Store.isSourceBelow_cons last).mp below
          obtain ⟨bytes, isFile⟩ := further.isFile
          have there := tree.above isFile last
          refine ⟨⟨name, true⟩, listed.mpr ⟨.directory, there, rfl⟩, ?_⟩
          rw [sourcesAt_directory packaged]
          exact (ih (walked.join tree there)).mpr
            ⟨rest, Nat.le_of_succ_le_succ short, further, rfl⟩

end CommandLine

/-! ## What an input reaches -/

open JsxTracking.Path (Component)

/-- An input reaches the sources that it stands for. Its anchor is the directory in which they lie, as
the input spells it. -/
inductive Store.Reaches (store : Store) (input : String) : List Component → List String → Prop
  | file {place : List String} {bytes : ByteArray} (resolved : store.resolve input = .ok place)
      (isFile : store.entry? place = some (.file bytes)) :
      store.Reaches input (Path.components input).dropLast place
  | below {base names : List String} (unpackaged : Path.fileName? input ≠ some packageDirectory)
      (resolved : store.resolve input = .ok base)
      (isDirectory : store.entry? base = some .directory)
      (below : store.IsSourceBelow base names) :
      store.Reaches input (Path.components input) (base ++ names)

/-- A source of the command line is in its place and was found from an anchor. -/
structure CommandLine.SourceFile.IsAnchored (source : SourceFile) (store : Store)
    (anchor : List Component) (base names : List String) : Prop where
  followed : store.follow [] anchor = .ok base
  path : Path.components source.path = anchor ++ names.map .name
  relative : Path.components source.relative = names.map .name
  resolved : store.resolve source.path = .ok (base ++ names)

/-- Paths below an input can be followed, wherever they lead. -/
def Store.IsFollowed (store : Store) (input : String) : Prop :=
  ∀ base names entry, store.resolve input = .ok base → store.entry? (base ++ names) = some entry →
    Store.isUsable (Path.joinAll input names) = true

namespace CommandLine

variable {store : Store} {input : String} {anchor : List Component} {place : List String}
  {source : SourceFile}

/-- Whether an input is a file, as the host tells. -/
theorem run_isFile (input : String) (store : Store) :
    (Action.perform (.isFile input)).run store =
      (match store.find? input with
        | some (.file _) => true
        | _ => false, store) := rfl

theorem sourcesOf_eq (input : String) :
    sourcesOf input = (do
      if ← Action.perform (.isFile input) then return [⟨input, (Path.fileName? input).getD ""⟩]
      else if Path.fileName? input = some packageDirectory then return []
      else sourcesBelow maximalDepth input "") := rfl

theorem onlyReads_sourcesOf (input : String) : (sourcesOf input).OnlyReads := by
  have asked : (Action.perform (.isFile input)).OnlyReads := fun _ => rfl
  rw [sourcesOf_eq]
  refine asked.bind fun isFile => ?_
  split
  · exact Action.onlyReads_pure _
  · split
    · exact Action.onlyReads_pure _
    · exact onlyReads_sourcesBelow _ _ _

theorem run_sourcesOf_file {bytes : ByteArray} (isFile : store.find? input = some (.file bytes)) :
    ((sourcesOf input).run store).1 = [⟨input, (Path.fileName? input).getD ""⟩] := by
  rw [sourcesOf_eq, Action.run_bind, run_isFile, isFile]
  rfl

theorem run_sourcesOf_other (other : ∀ bytes, store.find? input ≠ some (.file bytes)) :
    ((sourcesOf input).run store).1 =
      if Path.fileName? input = some packageDirectory then []
      else ((sourcesBelow maximalDepth input "").run store).1 := by
  rw [sourcesOf_eq, Action.run_bind, run_isFile]
  split
  case h_1 bytes isFile => exact absurd isFile (other bytes)
  case h_2 =>
    simp only [Bool.false_eq_true, ↓reduceIte]
    split <;> rfl

/-- A file lies in the directory to which its path leads without the last component. -/
theorem file_anchored (tree : store.IsTree) {bytes : ByteArray}
    (resolved : store.resolve input = .ok place)
    (isFile : store.entry? place = some (.file bytes)) :
    ∃ base name, place = base ++ [name] ∧ Path.fileName? input = some name ∧ Path.IsName name ∧
      store.follow [] (Path.components input).dropLast = .ok base ∧
      Path.components input = (Path.components input).dropLast ++ [.name name] := by
  have followed := Store.followed_of_resolve resolved
  have noDirectory : store.entry? place ≠ some .directory := by
    rw [isFile]
    simp
  rcases List.eq_nil_or_concat (Path.components input) with empty | ⟨before, last, ends⟩
  · rw [empty] at followed
    cases followed
    exact absurd rfl noDirectory
  · rw [List.concat_eq_append] at ends
    rw [ends, List.dropLast_concat]
    rw [ends, Store.follow_append] at followed
    cases above : store.follow [] before with
    | error error =>
      rw [above] at followed
      cases followed
    | ok base =>
      rw [above] at followed
      change store.follow base [last] = _ at followed
      rw [Store.follow] at followed
      split at followed
      · cases followed
      · cases followed
      case h_3 isDirectory =>
        split at followed
        case isFalse => cases followed
        case isTrue =>
          obtain rfl : Store.step base last = place := Except.ok.inj followed
          cases last with
          | root => exact absurd rfl noDirectory
          | current => exact absurd isDirectory noDirectory
          | parent => exact absurd (tree.parent isDirectory) noDirectory
          | name name =>
            have isName := (tree.named isFile name (by simp [Store.step])).1
            have called : Path.fileName? input = some name := by
              rw [Path.fileName?, ends, List.getLast?_concat]
            exact ⟨base, name, rfl, called, isName, rfl, rfl⟩

/-- Whether paths below an input can be followed, the entries of the store tell. -/
theorem isFollowed_of_entries {base : List String} (resolved : store.resolve input = .ok base)
    (usable : Store.isUsable input = true)
    (below : ∀ item ∈ store.entries, base <+: item.1 →
      Store.isUsable (Path.joinAll input (item.1.drop base.length)) = true) :
    store.IsFollowed input := by
  intro other names entry again found
  obtain rfl : base = other := Except.ok.inj (resolved.symm.trans again)
  rcases Store.mem_of_entry? found with ⟨empty, -⟩ | among
  · obtain ⟨-, rfl⟩ := List.append_eq_nil_iff.mp empty
    exact usable
  · have followed := below _ among (List.prefix_append _ _)
    rwa [List.drop_left] at followed

/-- A directory whose entries can be followed is walked. -/
theorem isWalked_of_isFollowed (isFollowed : store.IsFollowed input)
    (resolved : store.resolve input = .ok place)
    (isDirectory : store.entry? place = some .directory) : store.IsWalked input place where
  there := ⟨Store.followed_of_resolve resolved, isDirectory⟩
  nonempty := by
    rintro rfl
    cases resolved
  usable := isFollowed _ _ _ resolved

/-- Walking goes as deep as there are sources. -/
theorem length_le_maximalDepth (tree : store.IsTree) {base names : List String}
    (walked : store.IsWalked input base) (below : store.IsSourceBelow base names) :
    names.length ≤ maximalDepth := by
  obtain ⟨bytes, isFile⟩ := below.isFile
  have areNames : ∀ name ∈ names, Path.IsName name := fun name among =>
    (tree.named isFile name (List.mem_append_right _ among)).1
  have long := Path.length_le_joinAll areNames walked.nonempty
  have usable := walked.usable isFile
  rw [Store.isUsable, Bool.and_eq_true, decide_eq_true_eq] at usable
  have short : (Path.joinAll input names).utf8ByteSize ≤ 4095 := usable.1
  rw [maximalDepth]
  omega

/-- What is found below an input is anchored there. -/
theorem isAnchored_joinAll (tree : store.IsTree) {base names : List String}
    (walked : store.IsWalked input base) (below : store.IsSourceBelow base names) :
    SourceFile.IsAnchored ⟨Path.joinAll input names, Path.joinAll "" names⟩ store
      (Path.components input) base names := by
  obtain ⟨bytes, isFile⟩ := below.isFile
  have areNames : ∀ name ∈ names, Path.IsName name := fun name among =>
    (tree.named isFile name (List.mem_append_right _ among)).1
  exact ⟨walked.there.followed, Path.components_joinAll areNames input,
    Path.components_joinAll areNames "", walked.resolve_joinAll tree isFile below.ne_nil⟩

theorem isAnchored_file {base : List String} {name : String} (isName : Path.IsName name)
    (resolved : store.resolve input = .ok (base ++ [name]))
    (followed : store.follow [] anchor = .ok base)
    (ends : Path.components input = anchor ++ [.name name]) :
    SourceFile.IsAnchored ⟨input, name⟩ store anchor base [name] :=
  ⟨followed, ends, isName.components, resolved⟩

/-- **What an input reaches is found**, from its anchor. -/
theorem exists_mem_sourcesOf (tree : store.IsTree) (isFollowed : store.IsFollowed input)
    (reaches : store.Reaches input anchor place) :
    ∃ source base names, source ∈ ((sourcesOf input).run store).1 ∧ place = base ++ names ∧
      source.IsAnchored store anchor base names := by
  cases reaches with
  | @file place bytes resolved isFile =>
    have found : store.find? input = some (.file bytes) :=
      (Store.find?_of_resolve resolved).trans isFile
    obtain ⟨base, name, rfl, called, isName, followed, ends⟩ := file_anchored tree resolved isFile
    refine ⟨⟨input, name⟩, base, [name], ?_, rfl, isAnchored_file isName resolved followed ends⟩
    rw [run_sourcesOf_file found, called]
    exact List.mem_singleton.mpr rfl
  | @below base names unpackaged resolved isDirectory below =>
    have walked := isWalked_of_isFollowed isFollowed resolved isDirectory
    have other : ∀ bytes, store.find? input ≠ some (.file bytes) := by
      intro bytes
      rw [Store.find?_of_resolve resolved, isDirectory]
      simp
    refine ⟨_, base, names, ?_, rfl, isAnchored_joinAll tree walked below⟩
    rw [run_sourcesOf_other other, if_neg unpackaged]
    exact (mem_sourcesBelow tree walked).mpr
      ⟨names, length_le_maximalDepth tree walked below, below, rfl⟩

/-- **What is found is reached.** -/
theorem reaches_of_mem_sourcesOf (tree : store.IsTree) (isFollowed : store.IsFollowed input)
    (among : source ∈ ((sourcesOf input).run store).1) :
    ∃ anchor base names, store.Reaches input anchor (base ++ names) ∧
      source.IsAnchored store anchor base names := by
  by_cases file : ∃ bytes, store.find? input = some (.file bytes)
  · obtain ⟨bytes, found⟩ := file
    obtain ⟨place, resolved, isFile⟩ := Store.exists_of_find? found
    have reaches := Store.Reaches.file resolved isFile
    obtain ⟨base, name, rfl, called, isName, followed, ends⟩ := file_anchored tree resolved isFile
    rw [run_sourcesOf_file found, called] at among
    obtain rfl := List.mem_singleton.mp among
    exact ⟨_, base, [name], reaches, isAnchored_file isName resolved followed ends⟩
  · have other : ∀ bytes, store.find? input ≠ some (.file bytes) := fun bytes found =>
      file ⟨bytes, found⟩
    rw [run_sourcesOf_other other] at among
    split at among
    case isTrue => cases among
    case isFalse unpackaged =>
      obtain ⟨entry, listed, -⟩ := (mem_run_sourcesBelow 2047).mp among
      obtain ⟨base, resolved, isDirectory⟩ := Store.exists_of_mem_listDirectory listed
      have walked := isWalked_of_isFollowed isFollowed resolved isDirectory
      obtain ⟨names, -, below, rfl⟩ := (mem_sourcesBelow tree walked).mp among
      exact ⟨_, base, names, .below unpackaged resolved isDirectory below,
        isAnchored_joinAll tree walked below⟩

end CommandLine

end JsxTracking
