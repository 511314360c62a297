import JsxTracking.Host.Store

/-! # Where paths lead

A name below a directory leads to where the directory is, whatever the path of the directory looks
like (`Path.components_join`). Directories that a path passes stay where they are while files are
written and removed (`Store.follow_put`, `Store.follow_drop`), and making a directory touches no file
(`Store.makeDirectories_spec`). -/

namespace JsxTracking

namespace Path

/-- Whether a text is a single component. -/
structure IsName (text : String) : Prop where
  component : component? text.toList = some (.name text)
  noSlash : '/' ∉ text.toList

theorem segments_ne_nil (text : List Char) : segments text ≠ [] := by
  cases text with
  | nil => simp [segments]
  | cons c rest =>
    unfold segments
    split
    · simp
    · split <;> simp

theorem segments_cons {c : Char} (solid : c ≠ '/') {rest segment : List Char}
    {more : List (List Char)} (below : segments rest = segment :: more) :
    segments (c :: rest) = (c :: segment) :: more := by
  rw [segments, if_neg solid, below]

/-- A slash separates the stretches before it from those behind. -/
theorem segments_append (text rest : List Char) :
    segments (text ++ '/' :: rest) = segments text ++ segments rest := by
  induction text with
  | nil => rfl
  | cons c more ih =>
    by_cases slash : c = '/'
    · subst slash
      rw [List.cons_append, segments, if_pos rfl, segments, if_pos rfl, ih, List.cons_append]
    · obtain ⟨segment, others, below⟩ := List.exists_cons_of_ne_nil (segments_ne_nil more)
      rw [below, List.cons_append] at ih
      rw [List.cons_append, segments_cons slash ih, segments_cons slash below, List.cons_append]

theorem segments_of_noSlash {text : List Char} (noSlash : '/' ∉ text) : segments text = [text] := by
  induction text with
  | nil => rfl
  | cons c more ih =>
    rw [List.mem_cons, not_or] at noSlash
    rw [segments_cons (Ne.symm noSlash.1) (ih noSlash.2)]

/-- The component that tells where a path starts, if its first stretch tells. -/
def start : List (List Char) → List Component
  | ['.'] :: _ => [.current]
  | [] :: _ :: _ => [.root]
  | _ => []

theorem components_eq (path : String) :
    components path =
      start (segments path.toList) ++ (segments path.toList).filterMap component? := by
  rfl

theorem start_append {parts : List (List Char)} (some : parts ≠ []) (last other : List Char) :
    start (parts ++ [last]) = start (parts ++ [other]) := by
  obtain ⟨part, more, rfl⟩ := List.exists_cons_of_ne_nil some
  cases more with
  | nil => unfold start; split <;> simp_all
  | cons next more => unfold start; split <;> simp_all

theorem start_append_of_ne {parts : List (List Char)} (some : parts ≠ []) (more : parts ≠ [[]])
    (last : List Char) : start (parts ++ [last]) = start parts := by
  obtain ⟨part, rest, rfl⟩ := List.exists_cons_of_ne_nil some
  cases rest with
  | nil => unfold start; split <;> simp_all
  | cons next rest => unfold start; split <;> simp_all

theorem segments_ne_singleton_nil {text : List Char} (some : text ≠ []) :
    segments text ≠ [[]] := by
  obtain ⟨c, rest, rfl⟩ := List.exists_cons_of_ne_nil some
  by_cases slash : c = '/'
  · subst slash
    obtain ⟨segment, others, below⟩ := List.exists_cons_of_ne_nil (segments_ne_nil rest)
    simp [segments, below]
  · obtain ⟨segment, others, below⟩ := List.exists_cons_of_ne_nil (segments_ne_nil rest)
    simp [segments_cons slash below]

variable {name : String}

theorem IsName.ne_nil (isName : IsName name) : name.toList ≠ [] := by
  intro empty
  have none := isName.component
  rw [empty] at none
  cases none

theorem IsName.ne_dot (isName : IsName name) : name.toList ≠ ['.'] := by
  intro dot
  have none := isName.component
  rw [dot] at none
  cases none

/-- What is below a directory is separated from it by exactly one slash. -/
theorem toList_join (isName : IsName name) (directory : String) :
    (directory.toList = [] ∧ (join directory name).toList = name.toList) ∨
    (∃ before, directory.toList = before ++ ['/'] ∧
      (join directory name).toList = before ++ '/' :: name.toList) ∨
    (directory.toList ≠ [] ∧
      (join directory name).toList = directory.toList ++ '/' :: name.toList) := by
  have relative : name.toList.head? ≠ some '/' := by
    intro slash
    exact isName.noSlash (List.mem_of_mem_head? slash)
  unfold join
  rw [if_neg relative]
  split
  case isTrue joined =>
    rcases joined with empty | slash
    · left
      simp [empty]
    · right; left
      obtain ⟨before, ends⟩ := List.getLast?_eq_some_iff.mp slash
      exact ⟨before, ends, by simp [ends]⟩
  case isFalse apart =>
    right; right
    exact ⟨fun empty => apart (.inl empty), by simp⟩

/-- The components of a path below a directory are those of the directory and the name. -/
theorem components_join (isName : IsName name) (directory : String) :
    components (join directory name) = components directory ++ [.name name] := by
  have single := segments_of_noSlash isName.noSlash
  have last : [name.toList].filterMap component? = [.name name] := by simp [isName.component]
  rw [components_eq, components_eq]
  rcases toList_join isName directory with ⟨empty, joined⟩ | ⟨before, ends, joined⟩ | ⟨some, joined⟩
  · have begins : start [name.toList] = [] := by
      unfold start
      split <;> simp_all [isName.ne_nil, isName.ne_dot]
    rw [joined, empty, single, last, begins]
    rfl
  · have slashed : segments directory.toList = segments before ++ [[]] := by
      rw [ends, segments_append]
      rfl
    have none : [([] : List Char)].filterMap component? = [] := rfl
    rw [joined, slashed, segments_append, single, List.filterMap_append, last,
      List.filterMap_append, none, List.append_nil,
      start_append (segments_ne_nil before) name.toList [], List.append_assoc]
  · rw [joined, segments_append, single, List.filterMap_append, last,
      start_append_of_ne (segments_ne_nil _) (segments_ne_singleton_nil some), List.append_assoc]

theorem endsInDirectory_join (isName : IsName name) (directory : String) :
    endsInDirectory (join directory name) = false := by
  have single := segments_of_noSlash isName.noSlash
  have last : (segments (join directory name).toList).getLast? = some name.toList := by
    rcases toList_join isName directory with ⟨_, joined⟩ | ⟨before, _, joined⟩ | ⟨_, joined⟩
    · rw [joined, single]
      rfl
    · rw [joined, segments_append, single, List.getLast?_concat]
    · rw [joined, segments_append, single, List.getLast?_concat]
  rw [endsInDirectory, last]
  split
  case h_1 same => exact absurd (Option.some.inj same) isName.ne_nil
  case h_2 same => exact absurd (Option.some.inj same) isName.ne_dot
  case h_3 => rfl

theorem join_ne_empty (isName : IsName name) (directory : String) : join directory name ≠ "" := by
  intro empty
  have none : (join directory name).toList = [] := by rw [empty]; rfl
  rcases toList_join isName directory with ⟨_, joined⟩ | ⟨before, _, joined⟩ | ⟨_, joined⟩
  · exact isName.ne_nil (joined.symm.trans none)
  · simp [none] at joined
  · simp [none] at joined

end Path

namespace Store

open JsxTracking.Path

/-- The bytes of the file that names lead to. -/
def file? (store : Store) (names : List String) : Option ByteArray :=
  match store.entry? names with
  | some (.file bytes) => some bytes
  | _ => none

theorem file?_eq_some {store : Store} {names : List String} {bytes : ByteArray} :
    store.file? names = some bytes ↔ store.entry? names = some (.file bytes) := by
  unfold file?
  split
  case h_1 found => simp [found]
  case h_2 other => simpa using fun found => other _ found

/-! ## Changes -/

theorem lookup_filter (entries : List (List String × Entry)) (dropped : List String → Bool)
    {names : List String} (kept : dropped names = false) :
    (entries.filter fun item => !dropped item.1).lookup names = entries.lookup names := by
  induction entries with
  | nil => rfl
  | cons item more ih =>
    obtain ⟨place, entry⟩ := item
    by_cases same : names = place
    · subst same
      simp [kept]
    · have differs : (names == place) = false := by simpa using same
      cases gone : dropped place <;> simp [gone, List.lookup_cons, differs, ih]

theorem lookup_filter_dropped (entries : List (List String × Entry))
    (dropped : List String → Bool) {names : List String} (gone : dropped names = true) :
    (entries.filter fun item => !dropped item.1).lookup names = none := by
  rw [List.lookup_eq_none_iff]
  rintro ⟨place, entry⟩ kept
  have keeps := (List.mem_filter.mp kept).2
  have other : names ≠ place := by
    rintro rfl
    simp [gone] at keeps
  simpa using other

variable {store : Store} {names target : List String}

theorem entry?_put_self (entry : Entry) (some : target ≠ []) :
    Store.entry? (store.put target entry) target = .some entry := by
  simp [put, some, entry?]

theorem entry?_put_of_ne (entry : Entry) (other : names ≠ target) :
    Store.entry? (store.put target entry) names = store.entry? names := by
  have differs : (names == target) = false := by simpa using other
  have same := lookup_filter store.entries (fun place => place = target) (by simpa using other)
  simp only [put, entry?, List.lookup_cons, differs, ne_eq, decide_not, same]

theorem entry?_drop_of_not_below (apart : ¬ target <+: names) :
    Store.entry? (store.drop target) names = store.entry? names := by
  have kept : target.isPrefixOf names = false := by
    rwa [Bool.eq_false_iff, ne_eq, List.isPrefixOf_iff_prefix]
  have same := lookup_filter store.entries target.isPrefixOf kept
  simp only [drop, entry?, same]

theorem entry?_drop_self (some : target ≠ []) :
    Store.entry? (store.drop target) target = none := by
  have within : target.isPrefixOf target = true := by simp
  have gone := lookup_filter_dropped store.entries target.isPrefixOf within
  simp only [drop, entry?, some, ↓reduceIte, gone]

/-! ## Following paths -/

theorem follow_append (start components : List Path.Component) :
    store.follow names (start ++ components) = (store.follow names start).bind fun names =>
      store.follow names components := by
  induction start generalizing names with
  | nil => rfl
  | cons component more ih =>
    rw [List.cons_append, follow, follow]
    split
    · rfl
    · rfl
    · split
      · exact ih
      · rfl

/-- Where components lead does not depend on what is there. -/
theorem follow_ok {components : List Path.Component} {place : List String}
    (followed : store.follow names components = .ok place) :
    place = components.foldl step names := by
  induction components generalizing names with
  | nil => exact (Except.ok.inj followed).symm
  | cons component more ih =>
    rw [follow] at followed
    split at followed
    · cases followed
    · cases followed
    · split at followed
      · exact ih followed
      · cases followed

/-- Whether the directories that names lead through are there. -/
def IsReached (store : Store) (names : List String) : Prop :=
  ∀ above, above <+: names → above ≠ names → store.entry? above = some .directory

theorem isReached_root : store.IsReached [] := by
  intro above within other
  exact absurd (List.prefix_nil.mp within) other

theorem IsReached.of_above (reached : store.IsReached names)
    (isDirectory : store.entry? names = some .directory) {above : List String}
    (within : above <+: names) : store.entry? above = some .directory := by
  by_cases same : above = names
  · rw [same, isDirectory]
  · exact reached above within same

theorem IsReached.step (reached : store.IsReached names)
    (isDirectory : store.entry? names = some .directory) (component : Path.Component) :
    store.IsReached (step names component) := by
  intro above within other
  cases component with
  | root => exact absurd (List.prefix_nil.mp within) other
  | current => exact reached above within other
  | parent =>
    have shorter := List.dropLast_prefix names
    exact reached.of_above isDirectory (within.trans shorter)
  | name name =>
    rcases List.prefix_concat_iff.mp within with whole | within
    · exact absurd whole other
    · exact reached.of_above isDirectory within

/-- A path leads to the same place as long as the directories that it can pass stay. -/
theorem follow_of_stays {other : Store}
    (stays : ∀ place, store.IsReached place → store.entry? place = some .directory →
      other.entry? place = some .directory)
    {components : List Path.Component} {place : List String} (reached : store.IsReached names)
    (followed : store.follow names components = .ok place) :
    other.follow names components = .ok place := by
  induction components generalizing names with
  | nil => exact followed
  | cons component more ih =>
    rw [follow] at followed ⊢
    split at followed
    · cases followed
    · cases followed
    case h_3 isDirectory =>
      rw [stays names reached isDirectory]
      split at followed
      case isTrue usable =>
        rw [if_pos usable]
        exact ih (reached.step isDirectory component) followed
      case isFalse => cases followed

theorem stays_put {entry : Entry} (free : store.entry? target ≠ some .directory) {place : List String}
    (isDirectory : store.entry? place = some .directory) :
    Store.entry? (store.put target entry) place = some .directory := by
  rw [entry?_put_of_ne entry, isDirectory]
  rintro rfl
  exact free isDirectory

theorem stays_drop (free : store.entry? target ≠ some .directory) {place : List String}
    (reached : store.IsReached place) (isDirectory : store.entry? place = some .directory) :
    Store.entry? (store.drop target) place = some .directory := by
  rw [entry?_drop_of_not_below, isDirectory]
  intro below
  exact free (reached.of_above isDirectory below)

/-! ## Directories -/

/-- Whether the directory of a path is there. -/
structure HasDirectory (store : Store) (path : String) (place : List String) : Prop where
  followed : store.follow [] (components path) = .ok place
  isDirectory : store.entry? place = some .directory

/-- Making directories leaves files as they are. -/
structure Extends (store other : Store) : Prop where
  keeps : ∀ {names entry}, store.entry? names = some entry → other.entry? names = some entry
  adds : ∀ {names bytes}, other.entry? names = some (.file bytes) →
    store.entry? names = some (.file bytes)

theorem extends_refl (store : Store) : store.Extends store := ⟨id, id⟩

theorem Extends.trans {other further : Store} (first : store.Extends other)
    (next : other.Extends further) : store.Extends further :=
  ⟨fun found => next.keeps (first.keeps found), fun found => first.adds (next.adds found)⟩

theorem extends_put_directory (free : store.entry? target = none) :
    store.Extends (store.put target .directory) := by
  have some : target ≠ [] := by
    rintro rfl
    cases free
  constructor
  · intro names entry found
    by_cases same : names = target
    · rw [same, free] at found
      cases found
    · rw [entry?_put_of_ne _ same, found]
  · intro names bytes found
    by_cases same : names = target
    · rw [same, entry?_put_self _ some] at found
      cases found
    · rwa [entry?_put_of_ne _ same] at found

theorem Extends.file? {other : Store} (extended : store.Extends other) (names : List String) :
    other.file? names = store.file? names := by
  apply Option.ext
  intro bytes
  rw [file?_eq_some, file?_eq_some]
  exact ⟨extended.adds, extended.keeps⟩

/-- Once directories are made, the components lead to a directory. -/
theorem makeDirectoriesFrom_spec {components : List Path.Component} {after : Store}
    (isDirectory : store.entry? names = some .directory)
    (made : store.makeDirectoriesFrom names components = (.ok (), after)) :
    store.Extends after ∧ ∃ place, after.follow names components = .ok place ∧
      after.entry? place = some .directory := by
  induction components generalizing store names with
  | nil =>
    obtain ⟨-, rfl⟩ := Prod.mk.inj made
    exact ⟨extends_refl store, names, rfl, isDirectory⟩
  | cons component more ih =>
    rw [makeDirectoriesFrom] at made
    split at made
    case isFalse => cases (Prod.mk.inj made).1
    case isTrue usable =>
      have onward {middle : Store} (extended : store.Extends middle)
          (next : middle.entry? (step names component) = some .directory)
          (made : middle.makeDirectoriesFrom (step names component) more = (.ok (), after)) :
          store.Extends after ∧ ∃ place, after.follow names (component :: more) = .ok place ∧
            after.entry? place = some .directory := by
        obtain ⟨further, place, followed, isPlace⟩ := ih next made
        refine ⟨extended.trans further, place, ?_, isPlace⟩
        rw [follow, further.keeps (extended.keeps isDirectory)]
        simp only [usable, ↓reduceIte, followed]
      split at made
      case h_1 free =>
        have some : step names component ≠ [] := by
          intro empty
          rw [empty] at free
          cases free
        exact onward (extends_put_directory free) (entry?_put_self _ some) made
      case h_2 found => exact onward (extends_refl store) found made
      case h_3 => cases (Prod.mk.inj made).1

theorem makeDirectories_spec {path : String} {after : Store}
    (made : store.makeDirectories path = (.ok (), after)) :
    store.Extends after ∧ after.HasDirectory path ((components path).foldl step []) := by
  rw [makeDirectories] at made
  split at made
  case isFalse => cases (Prod.mk.inj made).1
  case isTrue =>
    have root : store.entry? [] = some .directory := rfl
    obtain ⟨extended, place, followed, isPlace⟩ := makeDirectoriesFrom_spec root made
    obtain rfl := follow_ok followed
    exact ⟨extended, followed, isPlace⟩

/-! ## Files of a directory -/

variable {directory name : String} {place : List String}

/-- A path below a directory can be resolved if the directory is there and the path is not too
long. -/
theorem resolve_join (isName : IsName name) :
    store.resolve (join directory name) =
      if isUsable (join directory name) then
        (store.follow [] (components directory)).bind fun names => store.follow names [.name name]
      else .error store.refused := by
  rw [resolve, if_neg (join_ne_empty isName directory), components_join isName, follow_append,
    endsInDirectory_join isName]
  cases isUsable (join directory name) with
  | true =>
    cases (store.follow [] (components directory)).bind fun names =>
      store.follow names [.name name] <;> rfl
  | false => rfl

theorem HasDirectory.resolve_join (isName : IsName name)
    (there : store.HasDirectory directory place) (usable : isUsable (join directory name) = true)
    (short : isUsableName (.name name) = true) :
    store.resolve (join directory name) = .ok (place ++ [name]) := by
  rw [Store.resolve_join isName, if_pos usable, there.followed]
  change store.follow place [.name name] = _
  rw [follow, there.isDirectory]
  simp [short, follow, step]

/-- What a resolved path tells. -/
theorem resolve_join_ok (isName : IsName name) {names : List String}
    (resolved : store.resolve (join directory name) = .ok names) :
    (∃ place, store.HasDirectory directory place ∧ names = place ++ [name]) ∧
      isUsable (join directory name) = true ∧ isUsableName (.name name) = true := by
  rw [Store.resolve_join isName] at resolved
  split at resolved
  case isFalse => cases resolved
  case isTrue usable =>
    cases followed : store.follow [] (components directory) with
    | error error =>
      rw [followed] at resolved
      cases resolved
    | ok place =>
      rw [followed] at resolved
      change store.follow place [.name name] = _ at resolved
      rw [follow] at resolved
      split at resolved
      · cases resolved
      · cases resolved
      case h_3 isDirectory =>
        split at resolved
        case isFalse => cases resolved
        case isTrue short =>
          exact ⟨⟨place, ⟨followed, isDirectory⟩, (Except.ok.inj resolved).symm⟩, usable, short⟩

theorem HasDirectory.unique {other : List String} (there : store.HasDirectory directory place)
    (again : store.HasDirectory directory other) : place = other :=
  Except.ok.inj (there.followed.symm.trans again.followed)

/-- The directories above the one that a path leads to are there. -/
theorem isReached_of_follow {components : List Path.Component} (reached : store.IsReached names)
    (followed : store.follow names components = .ok place) : store.IsReached place := by
  induction components generalizing names with
  | nil => exact Except.ok.inj followed ▸ reached
  | cons component more ih =>
    rw [follow] at followed
    split at followed
    · cases followed
    · cases followed
    case h_3 isDirectory =>
      split at followed
      case isTrue => exact ih (reached.step isDirectory component) followed
      case isFalse => cases followed

theorem HasDirectory.of_stays (there : store.HasDirectory directory place) {other : Store}
    (stays : ∀ place, store.IsReached place → store.entry? place = some .directory →
      other.entry? place = some .directory) : other.HasDirectory directory place where
  followed := follow_of_stays stays isReached_root there.followed
  isDirectory :=
    stays place (isReached_of_follow isReached_root there.followed) there.isDirectory

theorem HasDirectory.put (there : store.HasDirectory directory place) {entry : Entry}
    (free : store.entry? target ≠ some .directory) :
    (store.put target entry).HasDirectory directory place :=
  there.of_stays fun _ _ isDirectory => stays_put free isDirectory

theorem HasDirectory.drop (there : store.HasDirectory directory place)
    (free : store.entry? target ≠ some .directory) :
    (store.drop target).HasDirectory directory place :=
  there.of_stays fun _ reached isDirectory => stays_drop free reached isDirectory

/-- A written file is the only one that has changed. -/
theorem writeBytes_join (isName : IsName name) {bytes : ByteArray} {after : Store}
    (written : store.writeBytes (join directory name) bytes = (.ok (), after)) :
    ∃ place, after.HasDirectory directory place ∧
      (isUsable (join directory name) = true ∧ isUsableName (.name name) = true) ∧
      after.file? (place ++ [name]) = some bytes ∧
      ∀ names, names ≠ place ++ [name] → after.file? names = store.file? names := by
  rw [writeBytes] at written
  split at written
  case h_1 => cases (Prod.mk.inj written).1
  case h_2 names resolved =>
    obtain ⟨⟨place, there, rfl⟩, usable⟩ := resolve_join_ok isName resolved
    have change (free : store.entry? (place ++ [name]) ≠ some .directory)
        (same : store.put (place ++ [name]) (.file bytes) = after) :
        ∃ place, after.HasDirectory directory place ∧
          (isUsable (join directory name) = true ∧ isUsableName (.name name) = true) ∧
          after.file? (place ++ [name]) = some bytes ∧
          ∀ names, names ≠ place ++ [name] → after.file? names = store.file? names := by
      subst same
      refine ⟨place, there.put free, usable, ?_, ?_⟩
      · rw [file?_eq_some, entry?_put_self _ (by simp)]
      · intro names other
        simp only [file?, entry?_put_of_ne _ other]
    split at written
    case h_1 => cases (Prod.mk.inj written).1
    case h_2 _ found => exact change (by simp [found]) (Prod.mk.inj written).2
    case h_3 found => exact change (by simp [found]) (Prod.mk.inj written).2

/-- A removed file was there and is the only one that has gone. -/
theorem removeFile_join (isName : IsName name) {after : Store}
    (removed : store.removeFile (join directory name) = (.ok (), after)) :
    ∃ place, after.HasDirectory directory place ∧ after.file? (place ++ [name]) = none ∧
      ∀ other, other ≠ name → after.file? (place ++ [other]) = store.file? (place ++ [other]) := by
  rw [removeFile] at removed
  split at removed
  case h_1 => cases (Prod.mk.inj removed).1
  case h_2 names resolved =>
    obtain ⟨⟨place, there, rfl⟩, -, -⟩ := resolve_join_ok isName resolved
    split at removed
    case h_1 _ found =>
      obtain ⟨-, rfl⟩ := Prod.mk.inj removed
      refine ⟨place, there.drop (by simp [found]), ?_, ?_⟩
      · simp only [file?, entry?_drop_self (by simp : place ++ [name] ≠ [])]
      · intro other differs
        have apart : ¬ place ++ [name] <+: place ++ [other] := by
          rw [List.prefix_append_right_inj]
          simpa using Ne.symm differs
        simp only [file?, entry?_drop_of_not_below apart]
    case h_2 => cases (Prod.mk.inj removed).1
    case h_3 => cases (Prod.mk.inj removed).1

theorem fromUTF8?_toUTF8 (text : String) : String.fromUTF8? text.toUTF8 = some text :=
  dif_pos text.isValidUTF8

/-- The text of what names lead to. -/
def textAt (store : Store) (names : List String) : Except HostError String :=
  match store.entry? names with
  | some (.file bytes) => (String.fromUTF8? bytes).elim (.error store.refused) .ok
  | some .directory => .error store.refused
  | none => .error store.missing

theorem readText_of_resolve {path : String} (resolved : store.resolve path = .ok names) :
    store.readText path = store.textAt names := by
  simp only [readText, readBytes, resolved, textAt, bind, Except.bind]
  cases store.entry? names with
  | none => rfl
  | some entry =>
    cases entry with
    | directory => rfl
    | file bytes =>
      simp only [pure, Except.pure]
      cases String.fromUTF8? bytes <;> rfl

theorem textAt_of_file {bytes : ByteArray} (holds : store.file? names = some bytes) :
    store.textAt names = (String.fromUTF8? bytes).elim (.error store.refused) .ok := by
  rw [textAt, file?_eq_some.mp holds]

theorem readText_of_unresolved {path : String} {error : HostError}
    (unresolved : store.resolve path = .error error) : store.readText path = .error error := by
  rw [readText, readBytes, unresolved]
  rfl

/-- A text that is read is the text of a file in the directory. -/
theorem readText_join_ok (isName : IsName name) {text : String}
    (read : store.readText (join directory name) = .ok text) :
    ∃ place bytes, store.HasDirectory directory place ∧
      store.file? (place ++ [name]) = some bytes ∧ String.fromUTF8? bytes = some text := by
  cases resolved : store.resolve (join directory name) with
  | error error =>
    rw [readText_of_unresolved resolved] at read
    cases read
  | ok names =>
    obtain ⟨⟨place, there, rfl⟩, -, -⟩ := resolve_join_ok isName resolved
    rw [readText_of_resolve resolved, textAt] at read
    split at read
    case h_1 bytes found =>
      refine ⟨place, bytes, there, file?_eq_some.mpr found, ?_⟩
      cases decoded : String.fromUTF8? bytes with
      | none =>
        rw [decoded] at read
        cases read
      | some decoded =>
        rw [decoded] at read
        rw [Except.ok.inj read]
    case h_2 => cases read
    case h_3 => cases read

/-- A text that is not found is not in the directory, and its path is not too long. -/
theorem readText_join_missing (isName : IsName name) {error : HostError}
    (read : store.readText (join directory name) = .error error) (missing : error.notFound = true) :
    isUsable (join directory name) = true ∧
      ∀ place, store.HasDirectory directory place → store.file? (place ++ [name]) = none := by
  have usable : isUsable (join directory name) = true := by
    by_cases usable : isUsable (join directory name) = true
    · exact usable
    · have refused : store.resolve (join directory name) = .error store.refused := by
        rw [Store.resolve_join isName, if_neg usable]
      rw [readText_of_unresolved refused] at read
      cases Except.error.inj read
      cases missing
  refine ⟨usable, fun place there => ?_⟩
  by_cases short : isUsableName (.name name) = true
  · rw [readText_of_resolve (there.resolve_join isName usable short)] at read
    cases found : store.file? (place ++ [name]) with
    | none => rfl
    | some bytes =>
      rw [textAt_of_file found] at read
      cases decoded : String.fromUTF8? bytes with
      | none =>
        rw [decoded] at read
        cases Except.error.inj read
        cases missing
      | some text =>
        rw [decoded] at read
        cases read
  · have refused : store.resolve (join directory name) = .error store.refused := by
      rw [Store.resolve_join isName, if_pos usable, there.followed]
      change store.follow place [.name name] = _
      rw [follow, there.isDirectory]
      simp only [short, Bool.false_eq_true, ↓reduceIte]
    rw [readText_of_unresolved refused] at read
    cases Except.error.inj read
    cases missing

end Store

end JsxTracking
