import Mathlib.Data.List.Induction
import Mathlib.Data.Nat.Find
import Mathlib.Order.Bounds.Basic
import JsxTracking.Marker

/-! # What a scan of attributes finds

The markers of an element are found attribute by attribute (`ElementMarkers.add`). The last
attribute of a kind alone decides on the value of the kind (`value?_scan`) and on whether the kind
is missing (`mem_missing_scan`); the order of the missing kinds is that in which their trailing runs
of attributes without a usable value begin (`missing_scan_ordered`). A scan finds something exactly
when stripping the markers takes something away, and then nothing is left to find. -/

namespace JsxTracking

/-- The value that an attribute gives to its marker, if it has a usable one. -/
def Tree.markerValue? (attr : Tree) : Option MarkerValue :=
  MarkerValue.ofAttributeValue? (attr.get .value)

namespace MarkerKind

variable {kind other : MarkerKind} {attributes : List Tree} {attr : Tree} {index start : Nat}

/-- The attributes of the kind, in their order. -/
def carriers (kind : MarkerKind) (attributes : List Tree) : List Tree :=
  attributes.filter fun attr => attr.markerKind? = some kind

/-- At an index stands an attribute of the kind, and no attribute of the kind from there on has a
usable value. -/
structure ValuelessFrom (kind : MarkerKind) (attributes : List Tree) (index : Nat) : Prop where
  carried : ∃ attr, attributes[index]? = some attr ∧ attr.markerKind? = some kind
  valueless : ∀ later attr, index ≤ later → attributes[later]? = some attr →
    attr.markerKind? = some kind → attr.markerValue? = none

/-- The trailing run of attributes of the kind without a usable value begins at an index. -/
def TrailsFrom (kind : MarkerKind) (attributes : List Tree) (start : Nat) : Prop :=
  IsLeast {index | kind.ValuelessFrom attributes index} start

/-- The trailing run of one kind begins before that of another. -/
def TrailsBefore (attributes : List Tree) (kind other : MarkerKind) : Prop :=
  ∃ first second, kind.TrailsFrom attributes first ∧ other.TrailsFrom attributes second ∧
    first < second

theorem getLast?_carriers_concat (kind : MarkerKind) (attributes : List Tree) (attr : Tree) :
    (kind.carriers (attributes ++ [attr])).getLast? =
      if attr.markerKind? = some kind then some attr else (kind.carriers attributes).getLast? := by
  rw [carriers, List.filter_append]
  split
  case isTrue carries =>
    rw [List.filter_cons_of_pos (by simpa using carries), List.filter_nil, List.getLast?_concat]
  case isFalse carriesNot =>
    rw [List.filter_cons_of_neg (by simpa using carriesNot), List.filter_nil, List.append_nil]
    rfl

theorem getElem?_concat_eq_some {found : Tree} :
    (attributes ++ [attr])[index]? = some found ↔
      attributes[index]? = some found ∨ index = attributes.length ∧ attr = found := by
  rcases Nat.lt_trichotomy index attributes.length with before | rfl | after
  · simp [List.getElem?_append_left before, Nat.ne_of_lt before]
  · simp
  · have beyond : attributes[index]? = none := List.getElem?_eq_none after.le
    have outside : (attributes ++ [attr])[index]? = none := by
      refine List.getElem?_eq_none ?_
      rw [List.length_append, List.length_singleton]
      exact after
    rw [beyond, outside]
    simp only [reduceCtorEq, Nat.ne_of_gt after, false_and, or_self]

theorem ValuelessFrom.lt (trails : kind.ValuelessFrom attributes index) :
    index < attributes.length := by
  obtain ⟨_, present, -⟩ := trails.carried
  exact (List.getElem?_eq_some_iff.mp present).1

/-- One more attribute ends a run, prolongs it, or begins one of its own. -/
theorem valuelessFrom_concat_iff : kind.ValuelessFrom (attributes ++ [attr]) index ↔
    kind.ValuelessFrom attributes index ∧
        (attr.markerKind? = some kind → attr.markerValue? = none) ∨
      index = attributes.length ∧ attr.markerKind? = some kind ∧ attr.markerValue? = none := by
  constructor
  · intro trails
    have last (carries : attr.markerKind? = some kind) (upTo : index ≤ attributes.length) :
        attr.markerValue? = none :=
      trails.valueless _ attr upTo List.getElem?_concat_length carries
    obtain ⟨found, present, carries⟩ := trails.carried
    obtain inside | ⟨rfl, rfl⟩ := getElem?_concat_eq_some.mp present
    · have within := (List.getElem?_eq_some_iff.mp inside).1
      refine .inl ⟨⟨⟨found, inside, carries⟩, ?_⟩, fun carries => last carries within.le⟩
      exact fun later attr onward there =>
        trails.valueless later attr onward (getElem?_concat_eq_some.mpr (.inl there))
    · exact .inr ⟨rfl, carries, last carries (Nat.le_refl _)⟩
  · rintro (⟨⟨⟨found, present, carries⟩, valueless⟩, goesOn⟩ | ⟨rfl, carries, without⟩)
    · refine ⟨⟨found, getElem?_concat_eq_some.mpr (.inl present), carries⟩, ?_⟩
      intro later attr' onward there
      obtain inside | ⟨-, rfl⟩ := getElem?_concat_eq_some.mp there
      · exact valueless later attr' onward inside
      · exact goesOn
    · refine ⟨⟨attr, List.getElem?_concat_length, carries⟩, ?_⟩
      intro later attr' onward there _
      obtain inside | ⟨-, rfl⟩ := getElem?_concat_eq_some.mp there
      · exact absurd (List.getElem?_eq_some_iff.mp inside).1 (Nat.not_lt.mpr onward)
      · exact without

/-- There is a trailing run exactly when the last attribute of the kind has no usable value. -/
theorem exists_valuelessFrom_iff : (∃ index, kind.ValuelessFrom attributes index) ↔
    ∃ attr ∈ (kind.carriers attributes).getLast?, attr.markerValue? = none := by
  induction attributes using List.reverseRecOn with
  | nil =>
    refine ⟨fun trails => ?_, fun found => ?_⟩
    · obtain ⟨index, trails⟩ := trails
      exact absurd trails.lt (Nat.not_lt_zero index)
    · obtain ⟨attr, inNone, -⟩ := found
      exact absurd inNone (Option.not_mem_none attr)
  | append_singleton attributes attr ih =>
    simp only [valuelessFrom_concat_iff, exists_or, exists_and_right, ih, exists_eq, true_and,
      getLast?_carriers_concat]
    split
    case isTrue carries => simp [carries]
    case isFalse carriesNot => simp [carriesNot]

theorem exists_trailsFrom (runs : ∃ index, kind.ValuelessFrom attributes index) :
    ∃ start, kind.TrailsFrom attributes start := by
  classical
  exact ⟨Nat.find runs, Nat.find_spec runs, fun _ further => Nat.find_min' runs further⟩

/-- A run goes on through a further attribute that does not end it. -/
theorem TrailsFrom.concat (trails : kind.TrailsFrom attributes start)
    (goesOn : attr.markerKind? = some kind → attr.markerValue? = none) :
    kind.TrailsFrom (attributes ++ [attr]) start := by
  refine ⟨valuelessFrom_concat_iff.mpr (.inl ⟨trails.1, goesOn⟩), fun index further => ?_⟩
  obtain ⟨before, -⟩ | ⟨rfl, -⟩ := valuelessFrom_concat_iff.mp further
  · exact trails.2 before
  · exact trails.1.lt.le

theorem TrailsBefore.concat (runs : TrailsBefore attributes kind other)
    (goesOn : attr.markerKind? = some kind → attr.markerValue? = none)
    (otherGoesOn : attr.markerKind? = some other → attr.markerValue? = none) :
    TrailsBefore (attributes ++ [attr]) kind other := by
  obtain ⟨first, second, trails, otherTrails, earlier⟩ := runs
  exact ⟨first, second, trails.concat goesOn, otherTrails.concat otherGoesOn, earlier⟩

/-- A run begins at an attribute that prolongs none. -/
theorem trailsFrom_length (fresh : ∀ index, ¬ kind.ValuelessFrom attributes index)
    (carries : attr.markerKind? = some kind) (without : attr.markerValue? = none) :
    kind.TrailsFrom (attributes ++ [attr]) attributes.length := by
  refine ⟨valuelessFrom_concat_iff.mpr (.inr ⟨rfl, carries, without⟩), fun index further => ?_⟩
  obtain ⟨before, -⟩ | ⟨rfl, -⟩ := valuelessFrom_concat_iff.mp further
  · exact absurd before (fresh index)
  · exact Nat.le_refl _

end MarkerKind

namespace ElementMarkers

variable {kind other : MarkerKind} {attributes : List Tree} {attr : Tree}
  {markers : ElementMarkers}

open MarkerKind

theorem scan_concat (attributes : List Tree) (attr : Tree) :
    scan (attributes ++ [attr]) = (scan attributes).add attr := by
  rw [scan, List.foldl_append]
  rfl

/-! ### One attribute -/

theorem value?_setValue (markers : ElementMarkers) (kind other : MarkerKind)
    (value : Option MarkerValue) :
    (markers.setValue other value).value? kind = if other = kind then value
      else markers.value? kind := by
  cases kind <;> cases other <;> rfl

theorem value?_add (markers : ElementMarkers) (attr : Tree) (kind : MarkerKind) :
    (markers.add attr).value? kind =
      if attr.markerKind? = some kind then attr.markerValue? else markers.value? kind := by
  rw [add]
  split
  case h_1 unmarked => rw [unmarked, if_neg (Option.some_ne_none kind).symm]
  case h_2 other carries =>
    simp only [carries, Option.some_inj, Tree.markerValue?]
    split
    case h_1 value given => rw [given, ← value?_setValue]; cases kind <;> rfl
    case h_2 without => rw [without, ← value?_setValue]; cases kind <;> rfl

/-- What an attribute does to the list of missing kinds. -/
inductive Misses (attr : Tree) : List MarkerKind → List MarkerKind → Prop
  | unmarked {missing : List MarkerKind} (none : attr.markerKind? = none) :
      Misses attr missing missing
  | valued {missing : List MarkerKind} {kind : MarkerKind} {value : MarkerValue}
      (carries : attr.markerKind? = some kind) (usable : attr.markerValue? = some value) :
      Misses attr missing (missing.filter fun other => other ≠ kind)
  | again {missing : List MarkerKind} {kind : MarkerKind} (carries : attr.markerKind? = some kind)
      (without : attr.markerValue? = none) (known : kind ∈ missing) : Misses attr missing missing
  | first {missing : List MarkerKind} {kind : MarkerKind} (carries : attr.markerKind? = some kind)
      (without : attr.markerValue? = none) (unknown : kind ∉ missing) :
      Misses attr missing (missing ++ [kind])

theorem add_misses (markers : ElementMarkers) (attr : Tree) :
    Misses attr markers.missing (markers.add attr).missing := by
  rw [add]
  split
  case h_1 unmarked => exact .unmarked unmarked
  case h_2 kind carries =>
    split
    case h_1 value usable => exact .valued carries usable
    case h_2 without =>
      dsimp only
      split
      case isTrue known => exact .again carries without known
      case isFalse unknown => exact .first carries without unknown

variable {before after : List MarkerKind}

theorem Misses.mem_iff (misses : Misses attr before after) : kind ∈ after ↔
    if attr.markerKind? = some kind then attr.markerValue? = none else kind ∈ before := by
  cases misses with
  | unmarked unmarked => simp [unmarked]
  | @valued other value carries usable =>
    by_cases same : other = kind
    · simp [carries, usable, same]
    · simp [carries, same, Ne.symm same]
  | @again other carries without known =>
    by_cases same : other = kind
    · simpa [carries, without, same] using same ▸ known
    · simp [carries, same]
  | @first other carries without unknown =>
    by_cases same : other = kind
    · simp [carries, without, same]
    · simp [carries, same, Ne.symm same]

/-- A run goes on at an attribute that leaves its kind missing. -/
theorem Misses.goesOn (misses : Misses attr before after) (missing : kind ∈ after)
    (carries : attr.markerKind? = some kind) : attr.markerValue? = none := by
  simpa only [if_pos carries] using misses.mem_iff.mp missing

theorem Misses.nodup (misses : Misses attr before after) (once : before.Nodup) : after.Nodup := by
  cases misses with
  | unmarked => exact once
  | valued => exact once.filter _
  | again => exact once
  | @first kind _ _ unknown =>
    refine List.nodup_append.mpr
      ⟨once, List.pairwise_singleton _ kind, fun other known last added => ?_⟩
    rintro rfl
    exact unknown (List.mem_singleton.mp added ▸ known)

/-! ### All attributes -/

/-- The last attribute of a kind gives the kind its value, or none. -/
theorem value?_scan (attributes : List Tree) (kind : MarkerKind) :
    (scan attributes).value? kind =
      (kind.carriers attributes).getLast?.bind Tree.markerValue? := by
  induction attributes using List.reverseRecOn with
  | nil => cases kind <;> rfl
  | append_singleton attributes attr ih =>
    rw [scan_concat, value?_add, getLast?_carriers_concat, ih]
    split <;> rfl

/-- A kind is missing exactly when its last attribute has no usable value. -/
theorem mem_missing_scan : kind ∈ (scan attributes).missing ↔
    ∃ attr ∈ (kind.carriers attributes).getLast?, attr.markerValue? = none := by
  induction attributes using List.reverseRecOn with
  | nil => simp [scan, carriers]
  | append_singleton attributes attr ih =>
    rw [scan_concat, (add_misses _ attr).mem_iff, getLast?_carriers_concat]
    split
    case isTrue => simp
    case isFalse => exact ih

theorem nodup_missing_scan (attributes : List Tree) : (scan attributes).missing.Nodup := by
  induction attributes using List.reverseRecOn with
  | nil => exact List.nodup_nil
  | append_singleton attributes attr ih =>
    rw [scan_concat]
    exact (add_misses _ attr).nodup ih

theorem mem_missing_scan_iff_run :
    kind ∈ (scan attributes).missing ↔ ∃ index, kind.ValuelessFrom attributes index :=
  mem_missing_scan.trans exists_valuelessFrom_iff.symm

/-- A further attribute keeps the missing kinds in the order in which their runs begin. -/
theorem Misses.ordered (misses : Misses attr before after)
    (runs : ∀ {kind}, kind ∈ before ↔ ∃ index, kind.ValuelessFrom attributes index)
    (ordered : before.Pairwise (TrailsBefore attributes)) :
    after.Pairwise (TrailsBefore (attributes ++ [attr])) := by
  have goesOn {kind : MarkerKind} (missing : kind ∈ after) := misses.goesOn missing
  have kept {kinds : List MarkerKind} (old : kinds.Pairwise (TrailsBefore attributes))
      (still : ∀ kind ∈ kinds, kind ∈ after) :
      kinds.Pairwise (TrailsBefore (attributes ++ [attr])) :=
    old.imp_of_mem fun here there runs => runs.concat (goesOn (still _ here))
      (goesOn (still _ there))
  cases misses with
  | unmarked => exact kept ordered fun _ => id
  | valued => exact kept (ordered.filter _) fun _ => id
  | again => exact kept ordered fun _ => id
  | @first kind carries without unknown =>
    refine List.pairwise_append.mpr ⟨kept ordered fun _ => List.mem_append_left _,
      List.pairwise_singleton _ kind, fun other known last added => ?_⟩
    -- The run of the kind that is added begins at the new attribute, behind all others.
    obtain rfl := List.mem_singleton.mp added
    obtain ⟨start, trails⟩ := exists_trailsFrom (runs.mp known)
    have begins := trailsFrom_length (not_exists.mp (mt runs.mpr unknown)) carries without
    exact ⟨start, _, trails.concat (goesOn (List.mem_append_left _ known)), begins,
      trails.1.lt⟩

/-- The missing kinds stand in the order in which their trailing runs begin. -/
theorem missing_scan_ordered (attributes : List Tree) :
    (scan attributes).missing.Pairwise (TrailsBefore attributes) := by
  induction attributes using List.reverseRecOn with
  | nil => exact List.Pairwise.nil
  | append_singleton attributes attr ih =>
    rw [scan_concat]
    exact (add_misses _ attr).ordered mem_missing_scan_iff_run ih

theorem any_iff : markers.any = true ↔
    ∃ kind, (markers.value? kind).isSome = true ∨ kind ∈ markers.missing := by
  rw [any, Bool.or_eq_true, Bool.or_eq_true, Bool.not_eq_true', List.isEmpty_eq_false_iff_exists_mem]
  constructor
  · rintro ((visible | click) | ⟨kind, missing⟩)
    · exact ⟨.visible, .inl visible⟩
    · exact ⟨.click, .inl click⟩
    · exact ⟨kind, .inr missing⟩
  · rintro ⟨kind, valued | missing⟩
    · cases kind with
      | visible => exact .inl (.inl valued)
      | click => exact .inl (.inr valued)
    · exact .inr ⟨kind, missing⟩

/-- A scan finds something of a kind exactly when there is an attribute of the kind. -/
theorem value?_or_missing_iff : ((scan attributes).value? kind).isSome = true ∨
    kind ∈ (scan attributes).missing ↔ ∃ attr, attr ∈ kind.carriers attributes := by
  rw [value?_scan, mem_missing_scan]
  cases last : (kind.carriers attributes).getLast? with
  | none => simp [List.getLast?_eq_none_iff.mp last]
  | some attr =>
    refine iff_of_true ?_ ⟨attr, List.mem_of_getLast? last⟩
    cases usable : attr.markerValue? with
    | some value => exact .inl (by rw [Option.bind_some, usable, Option.isSome_some])
    | none => exact .inr ⟨attr, rfl, usable⟩

theorem any_scan_iff :
    (scan attributes).any = true ↔ ∃ attr ∈ attributes, attr.isMarker = true := by
  rw [any_iff, exists_congr fun kind => value?_or_missing_iff, exists_comm]
  simp only [carriers, List.mem_filter, decide_eq_true_eq, exists_and_left, Tree.isMarker,
    Option.isSome_iff_exists]

theorem eq_empty_of_any (nothing : markers.any = false) : markers = {} := by
  cases markers
  simp only [any, Bool.or_eq_false_iff, Option.isSome_eq_false_iff, Option.isNone_iff_eq_none,
    Bool.not_eq_false', List.isEmpty_iff] at nothing
  obtain ⟨⟨rfl, rfl⟩, rfl⟩ := nothing
  rfl

/-- What the markers of an element say of its attributes. -/
structure Describes (markers : ElementMarkers) (attributes : List Tree) : Prop where
  /-- A kind has a value exactly when its last attribute has, and the same. -/
  value : ∀ kind value, markers.value? kind = some value ↔
    ∃ attr ∈ (kind.carriers attributes).getLast?, attr.markerValue? = some value
  /-- A kind is missing exactly when its last attribute has no usable value. -/
  missing : ∀ kind, kind ∈ markers.missing ↔
    ∃ attr ∈ (kind.carriers attributes).getLast?, attr.markerValue? = none
  once : markers.missing.Nodup
  /-- The missing kinds are those with a trailing run … -/
  trails : ∀ kind, kind ∈ markers.missing ↔ ∃ start, kind.TrailsFrom attributes start
  /-- … and stand in the order in which the runs begin. -/
  ordered : markers.missing.Pairwise (TrailsBefore attributes)

theorem scan_describes (attributes : List Tree) : (scan attributes).Describes attributes where
  value kind value := by rw [value?_scan, Option.bind_eq_some_iff]; rfl
  missing kind := mem_missing_scan
  once := nodup_missing_scan attributes
  trails kind := mem_missing_scan_iff_run.trans
    ⟨exists_trailsFrom, Exists.imp fun _ trails => trails.1⟩
  ordered := missing_scan_ordered attributes

end ElementMarkers

/-! ### Markers taken away -/

theorem stripMarkers_length_lt_iff (attributes : List Tree) :
    (stripMarkers attributes).length < attributes.length ↔
      ∃ attr ∈ attributes, attr.isMarker = true := by
  simp only [stripMarkers, List.length_filter_lt_length_iff_exists, Bool.not_eq_true',
    Bool.not_eq_false]

theorem count_stripMarkers (attributes : List Tree) (attr : Tree) :
    (stripMarkers attributes).count attr =
      if attr.isMarker = true then 0 else attributes.count attr := by
  rw [stripMarkers]
  split
  case isTrue marker =>
    refine List.count_eq_zero.mpr fun present => ?_
    simpa [marker] using (List.mem_filter.mp present).2
  case isFalse other => exact List.count_filter (by simpa using other)

theorem scan_stripMarkers (attributes : List Tree) :
    ElementMarkers.scan (stripMarkers attributes) = {} := by
  refine ElementMarkers.eq_empty_of_any (Bool.eq_false_iff.mpr fun found => ?_)
  obtain ⟨attr, kept, marker⟩ := ElementMarkers.any_scan_iff.mp found
  simpa [marker] using (List.mem_filter.mp kept).2

/-- **The markers found on an element are those of the last attributes of each kind, and stripping
takes exactly the markers away.** A kind does not depend on the attributes of the other one. -/
theorem markers_scanned_and_stripped (attributes : List Tree) :
    (ElementMarkers.scan attributes).Describes attributes ∧
      (∀ (kind : MarkerKind) (others : List Tree),
        kind.carriers others = kind.carriers attributes →
          (ElementMarkers.scan others).value? kind = (ElementMarkers.scan attributes).value? kind) ∧
      ((ElementMarkers.scan attributes).any = true ↔
        (stripMarkers attributes).length < attributes.length) ∧
      (stripMarkers attributes).Sublist attributes ∧
      (∀ attr, (stripMarkers attributes).count attr =
        if attr.isMarker = true then 0 else attributes.count attr) ∧
      stripMarkers (stripMarkers attributes) = stripMarkers attributes ∧
      ElementMarkers.scan (stripMarkers attributes) = {} := by
  refine ⟨ElementMarkers.scan_describes attributes, fun kind others alike => ?_,
    ElementMarkers.any_scan_iff.trans (stripMarkers_length_lt_iff attributes).symm,
    List.filter_sublist, count_stripMarkers attributes, stripMarkers_idempotent attributes,
    scan_stripMarkers attributes⟩
  rw [ElementMarkers.value?_scan, ElementMarkers.value?_scan, alike]

end JsxTracking
