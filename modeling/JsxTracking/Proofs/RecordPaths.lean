import JsxTracking.Proofs.FileChanges

/-! # Which paths records have

Whatever text the path of a source is, its records are kept directly below the tracking directory, and
copies of transformed sources directly below their own: the name that is joined to the directory is a
*plain* one, which leads down one level and nowhere else (`Path.IsPlainName`). Replacing characters
cannot make a plain name of dots, since dots are the only characters that become dots
(`Path.isPlainName_safeName`). -/

namespace JsxTracking

/-- The name of the copy of a source in the directory of copies. -/
def TrackingDirectory.copyName (source : String) : String :=
  Path.safeName ((Path.fileName? source).getD unnamed)

theorem TrackingDirectory.transformedFile_eq (directory : TrackingDirectory) (file : String) :
    directory.transformedFile file =
      Path.join directory.transformedPath (copyName (Path.normalize file)) := rfl

namespace Path

/-- A name that leads from a directory to one of its entries, in characters that need no quoting. -/
structure IsPlainName (name : String) : Prop where
  nonempty : name ≠ ""
  not_current : name ≠ "."
  not_parent : name ≠ ".."
  plain : ∀ c ∈ name.toList, c.isAlphanum = true ∨ c = '.' ∨ c = '_' ∨ c = '-'

/-- A path is a directory joined with a single plain name, and has one component more. -/
def IsDirectlyBelow (path directory : String) : Prop :=
  ∃ name, IsPlainName name ∧ path = join directory name ∧
    components path = components directory ++ [.name name]

variable {name path : String}

theorem isSafe_iff {c : Char} :
    isSafe c = true ↔ c.isAlphanum = true ∨ c = '.' ∨ c = '_' ∨ c = '-' := by
  delta Char.isAlphanum Char.isAlpha Char.isUpper Char.isLower Char.isDigit
  simp only [isSafe, Bool.or_eq_true, Bool.and_eq_true, decide_eq_true_eq, or_assoc, ge_iff_le,
    Char.le_def]

theorem isSafe_of_mem_safeName {c : Char} (among : c ∈ (safeName name).toList) :
    isSafe c = true := by
  rw [safeName, String.toList_ofList] at among
  obtain ⟨original, -, replaced⟩ := List.mem_map.mp among
  by_cases safe : isSafe original = true
  · rw [if_pos safe] at replaced
    rwa [← replaced]
  · rw [if_neg safe] at replaced
    rw [← replaced]
    rfl

/-- Dots stay dots, and nothing else becomes one. -/
theorem safeName_eq_replicate_dot (count : Nat) :
    safeName name = String.ofList (List.replicate count '.') ↔
      name = String.ofList (List.replicate count '.') := by
  have dot (c : Char) : (if isSafe c = true then c else '_') = '.' ↔ c = '.' := by
    by_cases safe : isSafe c = true
    · rw [if_pos safe]
    · rw [if_neg safe]
      constructor
      · intro impossible
        exact absurd impossible (by decide)
      · rintro rfl
        exact absurd rfl safe
  rw [safeName, String.ofList_inj, List.eq_replicate_iff, String.ext_iff, String.toList_ofList,
    List.eq_replicate_iff, List.length_map]
  apply and_congr_right
  intro _
  simp only [List.mem_map, forall_exists_index, and_imp, forall_apply_eq_imp_iff₂, dot]

theorem isPlainName_safeName (nonempty : name ≠ "") (not_current : name ≠ ".")
    (not_parent : name ≠ "..") : IsPlainName (safeName name) where
  nonempty := fun same => nonempty ((safeName_eq_replicate_dot 0).mp same)
  not_current := fun same => not_current ((safeName_eq_replicate_dot 1).mp same)
  not_parent := fun same => not_parent ((safeName_eq_replicate_dot 2).mp same)
  plain := fun _ among => isSafe_iff.mp (isSafe_of_mem_safeName among)

/-- The names among the components of a path are neither empty nor dots. -/
theorem name_of_mem_components (among : .name name ∈ components path) :
    name ≠ "" ∧ name ≠ "." ∧ name ≠ ".." := by
  rw [components_eq] at among
  rcases List.mem_append.mp among with first | later
  · unfold start at first
    split at first <;> simp at first
  · obtain ⟨segment, -, component⟩ := List.mem_filterMap.mp later
    unfold component? at component
    split at component
    case isTrue => cases component
    case isFalse solid =>
      split at component
      case isTrue => cases component
      case isFalse other =>
        obtain rfl : String.ofList segment = name := by simpa using component
        rw [not_or] at solid
        refine ⟨fun same => solid.1 ?_, fun same => solid.2 ?_, fun same => other ?_⟩
        · exact String.ofList_inj.mp same
        · exact String.ofList_inj.mp same
        · exact String.ofList_inj.mp same

/-- A name that a path ends in is made plain by replacing characters. -/
theorem isPlainName_copyName (path : String) : IsPlainName (TrackingDirectory.copyName path) := by
  unfold TrackingDirectory.copyName
  cases found : fileName? path with
  | none => exact isPlainName_safeName (by decide) (by decide) (by decide)
  | some name =>
    have last : (components path).getLast? = some (.name name) := by
      unfold fileName? at found
      split at found
      case h_1 _ last => rw [last, Option.some.inj found]
      case h_2 => cases found
    obtain ⟨nonempty, not_current, not_parent⟩ :=
      name_of_mem_components (List.mem_of_getLast? last)
    exact isPlainName_safeName nonempty not_current not_parent

theorem IsPlainName.isName (isPlain : IsPlainName name) : IsName name := by
  constructor
  · have some : ¬ (name.toList = [] ∨ name.toList = ['.']) := by
      rintro (empty | dot)
      · exact isPlain.nonempty (String.ext empty)
      · exact isPlain.not_current (String.ext dot)
    have other : name.toList ≠ ['.', '.'] := fun dots => isPlain.not_parent (String.ext dots)
    rw [component?, if_neg some, if_neg other, String.ofList_toList]
  · intro slash
    rcases isPlain.plain '/' slash with alphanumeric | other
    · exact absurd alphanumeric (by decide)
    · exact absurd other (by decide)

theorem IsPlainName.isDirectlyBelow (isPlain : IsPlainName name) (directory : String) :
    IsDirectlyBelow (join directory name) directory :=
  ⟨name, isPlain, rfl, components_join isPlain.isName directory⟩

end Path

open FallibleAction

namespace TrackingDirectory

open JsxTracking.Path (IsPlainName IsDirectlyBelow)

variable {directory : TrackingDirectory} {store after : Store} {file : String}

theorem isPlainName_manifestName (source : String) : IsPlainName (manifestName source) := by
  obtain ⟨stem, text, -⟩ := toList_manifestName source
  have ends {other : String} (same : manifestName source = other) :
      "-tracking.json".toList <:+ other.toList := ⟨stem, by rw [← text, same]⟩
  refine ⟨fun same => ?_, fun same => ?_, fun same => ?_, fun c among => ?_⟩
  · exact absurd (ends same) (by decide)
  · exact absurd (ends same) (by decide)
  · exact absurd (ends same) (by decide)
  · rw [manifestName, String.toList_append] at among
    rcases List.mem_append.mp among with inStem | inEnding
    · exact Path.isSafe_iff.mp (Path.isSafe_of_mem_safeName inStem)
    · have safe : "-tracking.json".toList.all Path.isSafe = true := by decide
      exact Path.isSafe_iff.mp (List.all_eq_true.mp safe c inEnding)

/-- The path of a manifest has not the components of the path of the summary. -/
theorem components_manifestPath_ne (directory : TrackingDirectory) (file : String) :
    Path.components (directory.manifestPath file) ≠ Path.components directory.summaryPath := by
  rw [manifestPath_eq, summaryPath_eq, Path.components_join (isName_manifestName _),
    Path.components_join isName_summaryName]
  intro same
  have last := List.append_cancel_left same
  exact manifestName_ne_summaryName (Path.normalize file) (by simpa using last)

/-- A transformed source that is kept can be read in its place. -/
theorem gives_keepTransformed {code path : String}
    (gives : (directory.keepTransformed file code).Gives store (some path) after) :
    path = directory.transformedFile file ∧ after.readText path = .ok code := by
  unfold keepTransformed at gives
  split at gives
  case isFalse => cases gives.of_pure.1
  case isTrue =>
    obtain ⟨_, made, -, gives⟩ := gives.of_bind
    obtain ⟨_, written, write, gives⟩ := gives.of_bind
    have same : path = directory.transformedFile file := Option.some.inj gives.of_pure.1
    refine ⟨same, ?_⟩
    have isName := (Path.isPlainName_copyName (Path.normalize file)).isName
    rw [transformedFile_eq] at same write
    obtain ⟨place, there, ⟨usable, short⟩, held, -⟩ :=
      Store.writeBytes_join isName (gives_write write)
    rw [same, gives.of_pure.2, Store.readText_of_resolve (there.resolve_join isName usable short),
      Store.textAt_of_file held, Store.fromUTF8?_toUTF8]
    rfl

/-- **Records stay within the tracking directory.** For every directory and every text as the path of a
source, the manifest is directly below the directory and the copy of the transformed source is directly
below the directory of copies, each by one plain name; the copy is written nowhere else, whatever the host
answers. The manifest is never in the place of the summary, and spellings of one path share their
manifest. -/
theorem record_paths_confined (directory : TrackingDirectory) (file : String) :
    IsDirectlyBelow (directory.manifestPath file) directory.path ∧
    (directory.transformedPath = Path.join directory.path "transformed" ∧
      IsDirectlyBelow directory.transformedPath directory.path ∧
      IsDirectlyBelow (directory.transformedFile file) directory.transformedPath) ∧
    (∀ code, ChangesOnly [directory.transformedFile file] (directory.keepTransformed file code)) ∧
    (∀ code store path after,
      (directory.keepTransformed file code).Gives store (some path) after →
        path = directory.transformedFile file ∧ after.readText path = .ok code) ∧
    Path.components (directory.manifestPath file) ≠ Path.components directory.summaryPath ∧
    ∀ other, Path.normalize file = Path.normalize other →
      directory.manifestPath file = directory.manifestPath other := by
  refine ⟨(isPlainName_manifestName _).isDirectlyBelow _, ⟨rfl, ?_, ?_⟩, fun code => ?_, ?_, ?_, ?_⟩
  · have safe : "transformed".toList.all Path.isSafe = true := by decide
    have plain : IsPlainName "transformed" := ⟨by decide, by decide, by decide, fun c among =>
      Path.isSafe_iff.mp (List.all_eq_true.mp safe c among)⟩
    exact plain.isDirectlyBelow _
  · exact (Path.isPlainName_copyName (Path.normalize file)).isDirectlyBelow _
  · refine (directory.changesOnly_keepTransformed code).mono ?_
    unfold copyPaths
    split
    · exact List.Subset.refl _
    · exact List.nil_subset _
  · intro code store path after gives
    exact gives_keepTransformed gives
  · exact components_manifestPath_ne directory file
  · intro other same
    rw [manifestPath_eq, manifestPath_eq, same]

/-- A path with a scheme, backslashes, dots and a trailing slash. -/
theorem record_paths_confined_scheme :
    let directory : TrackingDirectory := ⟨"out/./t/", true⟩
    let file := "file:///C:\\app\\..\\src/[id] ünit..tsx/"
    let store : Store := { clock := fun _ => "", refusal := "" }
    let after := (Action.run (directory.keepTransformed file "code").run store).2
    (directory.manifestPath file = "out/./t/_id___nit.-tracking.json" ∧
      directory.transformedFile file = "out/./t/transformed/_id___nit..tsx") ∧
    ((directory.keepTransformed file "code").Gives store
        (some (directory.transformedFile file)) after ∧
      after.readText (directory.transformedFile file) = .ok "code") ∧
    Path.normalize file = Path.normalize "/C:/app/../src/[id] ünit..tsx/" ∧
      directory.manifestPath file =
        directory.manifestPath "/C:/app/../src/[id] ünit..tsx/" := by
  intro directory file store after
  obtain ⟨-, -, -, kept, -, spelled⟩ := record_paths_confined directory file
  have gives : (directory.keepTransformed file "code").Gives store
      (some (directory.transformedFile file)) after := gives_of_toOption (by decide +kernel)
  have same : Path.normalize file = Path.normalize "/C:/app/../src/[id] ünit..tsx/" := by
    decide +kernel
  exact ⟨⟨by decide +kernel, by decide +kernel⟩, ⟨gives, (kept "code" store _ after gives).2⟩,
    same, spelled _ same⟩

end TrackingDirectory

end JsxTracking
