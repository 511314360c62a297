import JsxTracking.Options
import JsxTracking.Proofs.JsonUnambiguous
import JsxTracking.Proofs.StoredRecords

/-! # What the text of options says

Options are given by an object: its members may come in any order, with any blanks, and among any
others, which do not matter. Each option that is told is taken over and the others have their
defaults; an option that is told twice, or by a value of another type, makes the whole text one that
gives no options (`Options.given_by_members`). A file says of options what its text says. -/

namespace JsxTracking

open Json (Document)
open Json.Reader

namespace Json

variable {α : Type} {text rest behind : List Char}

namespace Document

/-- The truth value that a document is. -/
def bool? : Document → Option Bool
  | bool value => some value
  | _ => none

theorem bool?_eq_some_iff {document : Document} {value : Bool} :
    document.bool? = some value ↔ document = .bool value := by
  cases document <;> simp [bool?]

theorem text?_eq_some_iff {document : Document} {value : String} :
    document.text? = some value ↔ document = .string (some value) := by
  cases document <;> simp [text?]

/-- The values of the members with a name. -/
def under (name : String) (members : List (String × Document)) : List Document :=
  (members.filter fun member => member.1 = name).map Prod.snd

/-- More than one value is told under a name, or one that is not of the type that it should be. -/
def Mistold (make : α → Document) (name : String) (members : List (String × Document)) : Prop :=
  1 < (under name members).length ∨
    ∃ document ∈ under name members, ∀ value, document ≠ make value

/-- A name is mistold unless at most one value is told under it. -/
theorem not_mistold_iff {make : α → Document} {name : String} {members : List (String × Document)} :
    ¬ Mistold make name members ↔
      ∃ value? : Option α, under name members = (value?.map make).toList := by
  simp only [Mistold, not_or, Nat.not_lt, not_exists, not_and, not_forall, not_ne_iff]
  cases under name members with
  | nil => exact iff_of_true ⟨Nat.zero_le 1, by simp⟩ ⟨none, rfl⟩
  | cons document others =>
    constructor
    · rintro ⟨alone, made⟩
      obtain ⟨value, rfl⟩ := made document List.mem_cons_self
      cases others with
      | nil => exact ⟨some value, rfl⟩
      | cons => simp at alone
    · rintro ⟨value?, same⟩
      cases value? with
      | none => cases same
      | some value =>
        obtain ⟨rfl, rfl⟩ := List.cons.inj same
        exact ⟨Nat.le_refl 1, by simp⟩

end Document

namespace Reader

theorem understands_bool : Understands bool Document.bool? := by
  intro text rest value
  rw [bool]
  constructor
  · intro read
    obtain ⟨c, behind, dropped, given⟩ := of_run_peek_bind read run_fail_ne
    have begins := begins_of_dropWhile dropped
    split at given
    case h_1 none => cases none
    case h_2 same =>
      obtain rfl := Option.some.inj same
      rw [run_advance_bind] at given
      obtain ⟨_, middle, word, made⟩ := of_run_bind given
      obtain rfl := run_word_iff.mp word
      obtain ⟨rfl, rfl⟩ := Prod.mk.inj (Except.ok.inj made)
      exact ⟨_, .truth begins, rfl⟩
    case h_3 same =>
      obtain rfl := Option.some.inj same
      rw [run_advance_bind] at given
      obtain ⟨_, middle, word, made⟩ := of_run_bind given
      obtain rfl := run_word_iff.mp word
      obtain ⟨rfl, rfl⟩ := Prod.mk.inj (Except.ok.inj made)
      exact ⟨_, .falsehood begins, rfl⟩
    case h_4 => exact absurd given run_mismatch_ne
  · rintro ⟨document, spells, means⟩
    obtain rfl := Document.bool?_eq_some_iff.mp means
    cases spells with
    | truth begins | falsehood begins =>
      rw [run_peek_bind, begins.dropWhile rfl]
      refine (run_advance_bind _ _ _).trans ?_
      exact run_bind_ok (run_word_iff.mpr rfl)

/-- A part that has not been read is told by the members with its key. -/
theorem RecordPart.told_iff {σ : Type} {part : RecordPart σ} {make : part.Value → Document}
    (inverse : ∀ {document value}, part.meaning? document = some value ↔ document = make value)
    {members : List (String × Document)} {state last : σ} (unread : part.part state = none) :
    part.Told members state last ↔
      Document.under part.key members = ((part.part last).map make).toList := by
  unfold Told Document.under
  cases members.filter fun member => member.1 = part.key with
  | nil => cases part.part last <;> simp [unread]
  | cons member others =>
    cases others with
    | nil => cases part.part last <;> simp [unread, inverse]
    | cons => cases part.part last <;> simp

end Reader

end Json

namespace GivenOptions

/-- The parts of options. -/
def parts : List (RecordPart GivenOptions) :=
  [⟨_, "emitManifests", emitManifests?, _,
      fun given value => { given with emitManifests? := some value }, _, understands_bool⟩,
    ⟨_, "trackingDir", trackingDir?, _,
      fun given value => { given with trackingDir? := some value }, _, understands_string⟩,
    ⟨_, "runtimeUrl", runtimeUrl?, _,
      fun given value => { given with runtimeUrl? := some value }, _, understands_string⟩,
    ⟨_, "runtimeGlobal", runtimeGlobal?, _,
      fun given value => { given with runtimeGlobal? := some value }, _, understands_string⟩,
    ⟨_, "outputTransformedFiles", outputTransformedFiles?, _,
      fun given value => { given with outputTransformedFiles? := some value }, _, understands_bool⟩]

theorem independent_parts : Independent parts where
  keys := by decide
  stored := by simp [parts]
  others := by simp [parts]
  determined := by
    rintro ⟨⟩ ⟨⟩ same
    simpa [parts] using same

/-- Members tell the options that are given, each once, and no others. -/
structure IsToldBy (given : GivenOptions) (members : List (String × Document)) : Prop where
  emitManifests : Document.under "emitManifests" members =
    (given.emitManifests?.map Document.bool).toList
  trackingDir : Document.under "trackingDir" members =
    (given.trackingDir?.map fun value => Document.string (some value)).toList
  runtimeUrl : Document.under "runtimeUrl" members =
    (given.runtimeUrl?.map fun value => Document.string (some value)).toList
  runtimeGlobal : Document.under "runtimeGlobal" members =
    (given.runtimeGlobal?.map fun value => Document.string (some value)).toList
  outputTransformedFiles : Document.under "outputTransformedFiles" members =
    (given.outputTransformedFiles?.map Document.bool).toList

variable {members : List (String × Document)} {given : GivenOptions}

theorem isToldBy_iff : given.IsToldBy members ↔
    ∀ part ∈ parts, part.Told members ({} : GivenOptions) given := by
  simp only [parts, List.forall_mem_cons, List.not_mem_nil, false_implies, implies_true, and_true]
  rw [RecordPart.told_iff Document.bool?_eq_some_iff rfl,
    RecordPart.told_iff Document.text?_eq_some_iff rfl,
    RecordPart.told_iff Document.text?_eq_some_iff rfl,
    RecordPart.told_iff Document.text?_eq_some_iff rfl,
    RecordPart.told_iff Document.bool?_eq_some_iff rfl]
  constructor
  · rintro ⟨emit, directory, url, globalName, output⟩
    exact ⟨emit, directory, url, globalName, output⟩
  · rintro ⟨emit, directory, url, globalName, output⟩
    exact ⟨emit, directory, url, globalName, output⟩

/-- Some option is told twice or by a value of another type. -/
def AreMistold (members : List (String × Document)) : Prop :=
  (∃ name ∈ ["emitManifests", "outputTransformedFiles"], Document.Mistold .bool name members) ∨
    ∃ name ∈ ["trackingDir", "runtimeUrl", "runtimeGlobal"],
      Document.Mistold (fun value : String => .string (some value)) name members

/-- Members tell options unless an option is mistold. -/
theorem exists_isToldBy_iff :
    (∃ given : GivenOptions, given.IsToldBy members) ↔ ¬ AreMistold members := by
  simp only [AreMistold, not_or, not_exists, not_and, Document.not_mistold_iff,
    List.forall_mem_cons, List.not_mem_nil, false_implies, implies_true, and_true]
  constructor
  · rintro ⟨given, told⟩
    exact ⟨⟨⟨_, told.emitManifests⟩, _, told.outputTransformedFiles⟩, ⟨_, told.trackingDir⟩,
      ⟨_, told.runtimeUrl⟩, _, told.runtimeGlobal⟩
  · rintro ⟨⟨⟨emit?, emit⟩, output?, output⟩, ⟨directory?, directory⟩, ⟨url?, url⟩, global?, global⟩
    exact ⟨⟨emit?, directory?, url?, global?, output?⟩, emit, directory, url, global, output⟩

end GivenOptions

namespace Options

variable {text : String} {members : List (String × Document)}

theorem understands_reader : Understands reader fun document =>
    (takeRecord? GivenOptions.parts {} document).bind fun given => some given.complete :=
  Understands.complete (understands_record GivenOptions.parts {}) fun given => some given.complete

/-- An object is not blank. -/
theorem ofText_eq_readText {named : List (Option String × Document)}
    (isObject : Json.IsDocument text.toList (.object named)) :
    ofText text = readText reader text := by
  obtain ⟨rest, spells, -⟩ := isObject
  obtain ⟨behind, blanks, -, whole⟩ := spells.begins_object
  refine if_neg fun blank => ?_
  rw [whole] at blank
  -- Blank texts give the defaults without being read, but an object has a brace in it.
  have brace := List.all_eq_true.mp blank '{' (by simp)
  exact absurd brace (by decide)

/-- What the members of an object make of the options. -/
theorem takeRecord?_eq_some_iff_isToldBy {given : GivenOptions} :
    takeRecord? GivenOptions.parts {} (.object (members.map fun member => (some member.1, member.2))) =
      some given ↔ given.IsToldBy members := by
  rw [takeRecord?_eq_some_iff GivenOptions.independent_parts (by simp [GivenOptions.parts]),
    GivenOptions.isToldBy_iff]
  constructor
  · rintro ⟨told, named, tells⟩
    obtain rfl : members = told := Option.some.inj ((textMembers?_map_some members).symm.trans named)
    exact tells
  · exact fun tells => ⟨members, textMembers?_map_some members, tells⟩

theorem ofText_eq_ok_iff {named : List (Option String × Document)}
    (isObject : Json.IsDocument text.toList (.object named)) {options : Options} :
    ofText text = .ok options ↔ ∃ given : GivenOptions,
      takeRecord? GivenOptions.parts {} (.object named) = some given ∧ given.complete = options := by
  rw [ofText_eq_readText isObject, understands_reader.readText_eq_ok_iff isObject,
    Option.bind_eq_some_iff]
  simp only [Option.some.injEq]

theorem ofJson_of_ofText {options : Options} (read : ofText text = .ok options) :
    ofJson text = .ok options := by
  rw [ofJson, read]
  rfl

/-- A text that gives no options is an error of the configuration. -/
theorem ofJson_eq_config (refused : ∀ options, ofText text ≠ .ok options) :
    ∃ cause, ofJson text = .error (.config cause) := by
  rw [ofJson]
  cases outcome : ofText text with
  | ok options => exact absurd outcome (refused options)
  | error fault => exact ⟨.json fault, rfl⟩

/-- A file gives the options that its text gives. -/
theorem run_ofFile {store : Store} {path : String}
    (found : store.find? path = some (.file text.toUTF8)) :
    Action.run (ofFile path).run store =
      ((ofText text).mapError fun fault => .json path (.json fault), store) := by
  have read : store.readText path = .ok text := by
    rw [Store.readText_of_find? found, Store.fromUTF8?_toUTF8]
    rfl
  have answered : (Action.perform (.readText path)).run store = (.ok text, store) :=
    Prod.ext read rfl
  rw [ofFile]
  change Action.run ((FallibleAction.attempt _ _).run >>= ExceptT.bindCont _) store = _
  rw [Action.run_bind, FallibleAction.attempt, ExceptT.run_mk, Action.run_bind, answered]
  rfl

/-- **What options a text gives.** The text is an object whose members are named by texts, in any order
and with any blanks. If they tell the options that are given, each once, the text gives these and the
defaults for all others; it gives none exactly if an option is told twice or by a value of another
type. A file with the text gives the same options, or fails for the same cause. -/
theorem given_by_members
    (isObject : Json.IsDocument text.toList
      (.object (members.map fun member => (some member.1, member.2)))) :
    (∀ given : GivenOptions, given.IsToldBy members →
        ofJson text = .ok
          { emitManifests := given.emitManifests?.getD true
            trackingDir := given.trackingDir?.getD ".tracking"
            runtimeUrl := given.runtimeUrl?.getD "http://localhost:3000/tracking.js"
            runtimeGlobal := given.runtimeGlobal?.getD "tracking"
            outputTransformedFiles := given.outputTransformedFiles?.getD false }) ∧
      (GivenOptions.AreMistold members ↔ ∃ cause, ofJson text = .error (.config cause)) ∧
      ∀ (path : String) (store : Store), store.find? path = some (.file text.toUTF8) →
        (∀ options, ofJson text = .ok options →
          Action.run (ofFile path).run store = (.ok options, store)) ∧
        ∀ cause, ofJson text = .error (.config cause) →
          Action.run (ofFile path).run store = (.error (.json path cause), store) := by
  have told {given : GivenOptions} (tells : given.IsToldBy members) :
      ofJson text = .ok given.complete :=
    ofJson_of_ofText ((ofText_eq_ok_iff isObject).mpr
      ⟨given, takeRecord?_eq_some_iff_isToldBy.mpr tells, rfl⟩)
  refine ⟨fun given tells => told tells, ⟨fun mistold => ?_, fun failed => ?_⟩,
    fun path store found => ?_⟩
  · refine ofJson_eq_config fun options read => ?_
    obtain ⟨given, taken, -⟩ := (ofText_eq_ok_iff isObject).mp read
    exact GivenOptions.exists_isToldBy_iff.mp
      ⟨given, takeRecord?_eq_some_iff_isToldBy.mp taken⟩ mistold
  · obtain ⟨cause, failed⟩ := failed
    by_contra properly
    obtain ⟨given, tells⟩ := GivenOptions.exists_isToldBy_iff.mpr properly
    rw [told tells] at failed
    cases failed
  · rw [run_ofFile found, ofJson]
    cases ofText text with
    | ok options =>
      constructor
      · rintro _ ⟨⟩
        rfl
      · rintro _ ⟨⟩
    | error fault =>
      constructor
      · rintro _ ⟨⟩
      · rintro _ ⟨⟩
        rfl

/-- An option is told among members that do not matter, with blanks and an escape. -/
theorem given_by_members_mixed :
    ofJson "\x7b\"x\":[],\"runtimeUrl\" : \"\\u0061\",\"x\":\x7b\x7d\x7d" = .ok
      { emitManifests := true, trackingDir := ".tracking", runtimeUrl := "a",
        runtimeGlobal := "tracking", outputTransformedFiles := false } := by
  have x : Json.Quotes ['x'] (some "x") :=
    .text (.plain (by decide) (by decide) (by decide) .nil)
  have url : Json.Quotes "runtimeUrl".toList (some "runtimeUrl") := by
    refine .text ?_
    repeat refine .plain (by decide) (by decide) (by decide) ?_
    exact .nil
  have escaped : Json.Quotes ['\\', 'u', '0', '0', '6', '1'] (some "a") :=
    .text (@Json.Unescapes.unit '0' '0' '6' '1' 97 [] [] rfl (by decide) .nil)
  have spelled : "\x7b\"x\":[],\"runtimeUrl\" : \"\\u0061\",\"x\":\x7b\x7d\x7d".toList =
      ['{', '"', 'x', '"', ':', '[', ']', ',', '"', 'r', 'u', 'n', 't', 'i', 'm', 'e', 'U', 'r', 'l',
        '"', ' ', ':', ' ', '"', '\\', 'u', '0', '0', '6', '1', '"', ',', '"', 'x', '"', ':', '{', '}',
        '}'] := rfl
  have isObject : Json.IsDocument
      "\x7b\"x\":[],\"runtimeUrl\" : \"\\u0061\",\"x\":\x7b\x7d\x7d".toList
      (.object ([("x", .list []), ("runtimeUrl", .string (some "a")), ("x", .object [])].map
        fun member => (some member.1, member.2))) := by
    rw [spelled]
    refine ⟨[], ?_, rfl⟩
    refine .object ⟨[], rfl, by rfl⟩ (.member ⟨[], rfl, by rfl⟩ x ⟨[], rfl, by rfl⟩
      (.emptyList ⟨[], rfl, by rfl⟩ ⟨[], rfl, by rfl⟩)) ?_
    refine .nextMember ⟨[], rfl, by rfl⟩ (.member ⟨[], rfl, by rfl⟩ url ⟨[' '], rfl, by rfl⟩
      (.string ⟨[' '], rfl, by rfl⟩ escaped)) ?_
    refine .nextMember ⟨[], rfl, by rfl⟩ (.member ⟨[], rfl, by rfl⟩ x ⟨[], rfl, by rfl⟩
      (.emptyObject ⟨[], rfl, by rfl⟩ ⟨[], rfl, by rfl⟩)) ?_
    exact .endOfMembers ⟨[], rfl, by rfl⟩
  exact (given_by_members isObject).1 ⟨none, none, some "a", none, none⟩
    ⟨rfl, rfl, rfl, rfl, rfl⟩

end Options

end JsxTracking
