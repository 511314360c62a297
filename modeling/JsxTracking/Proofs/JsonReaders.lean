import JsxTracking.Proofs.SkippedValues

/-! # What readers understand

A reader *understands* documents if it takes a value off a text exactly when the text spells a document
that means the value (`Json.Reader.Understands`). This says what is read, what is refused, and where
reading stops, for every text. Strings, natural numbers and lists are understood. -/

namespace JsxTracking.Json

variable {α : Type} {text rest behind : List Char} {c : Char}

/-! ## What documents mean -/

namespace Document

/-- The text that a document is. -/
def text? : Document → Option String
  | string value? => value?
  | _ => none

/-- The natural number of at most 64 bits that a document is. -/
def natural? : Document → Option Nat
  | number (some value) => if value < 2 ^ 64 then some value else none
  | _ => none

/-- The list that a document is. -/
def list? (item? : Document → Option α) : Document → Option (List α)
  | list items => items.mapM item?
  | _ => none

end Document

theorem Begins.of_solid (solid : isBlank c = false) (begins : Begins text c rest) :
    Begins (text.dropWhile isBlank) c rest := by
  rw [begins.dropWhile solid]
  exact ⟨[], rfl, rfl⟩

/-- The blanks before a value may be dropped. -/
theorem Spells.dropWhile {document : Document} (spells : Spells text (.value document) rest) :
    Spells (text.dropWhile isBlank) (.value document) rest := by
  cases spells with
  | null begins => exact .null (begins.of_solid rfl)
  | truth begins => exact .truth (begins.of_solid rfl)
  | falsehood begins => exact .falsehood (begins.of_solid rfl)
  | number blank number =>
    obtain ⟨c, more, rfl, starts⟩ := number.head
    rw [dropWhile_blanks blank (isBlank_of_starts starts)]
    exact @Spells.number [] _ _ _ rfl number
  | string begins quotes => exact .string (begins.of_solid rfl) quotes
  | emptyList begins ends => exact .emptyList (begins.of_solid rfl) ends
  | list begins first more => exact .list (begins.of_solid rfl) first more
  | emptyObject begins ends => exact .emptyObject (begins.of_solid rfl) ends
  | object begins first more => exact .object (begins.of_solid rfl) first more

namespace Reader

/-- A reader takes a value off a text exactly when the text spells a document that means the value. -/
def Understands (reader : Reader α) (meaning? : Document → Option α) : Prop :=
  ∀ {text rest : List Char} {value : α}, reader.run text = .ok (value, rest) ↔
    ∃ document, Spells text (.value document) rest ∧ meaning? document = some value

/-! ## Values -/

theorem run_string_iff {value : String} : string.run text = .ok (value, rest) ↔
    ∃ contents, Quotes contents (some value) ∧ Begins text '"' (contents ++ '"' :: rest) := by
  rw [string]
  constructor
  · intro read
    obtain ⟨c, behind, dropped, read⟩ := of_run_peek_bind read run_fail_ne
    split at read
    case h_1 none => cases none
    case h_2 same =>
      obtain rfl := Option.some.inj same
      rw [run_advance_bind] at read
      obtain ⟨chars, middle, given, made⟩ := of_run_bind read
      obtain ⟨rfl, rfl⟩ := Prod.mk.inj (Except.ok.inj made)
      rw [run_lifted, ← String.toList_ofList (l := chars)] at given
      obtain ⟨contents, quotes, rfl⟩ := stringChars_iff_quotes.mp given
      exact ⟨contents, quotes, begins_of_dropWhile dropped⟩
    case h_3 => exact absurd read run_mismatch_ne
  · rintro ⟨contents, quotes, begins⟩
    rw [run_peek_bind, begins.dropWhile rfl]
    refine (run_advance_bind _ _ _).trans ?_
    have read : stringChars (contents ++ '"' :: rest) = .ok (value.toList, rest) :=
      stringChars_iff_quotes.mpr ⟨contents, quotes, rfl⟩
    exact (run_bind_ok (run_lift read)).trans (by rw [String.ofList_toList]; rfl)

theorem understands_string : Understands string Document.text? := by
  intro text rest value
  rw [run_string_iff]
  constructor
  · rintro ⟨contents, quotes, begins⟩
    exact ⟨_, .string begins quotes, rfl⟩
  · rintro ⟨document, spells, means⟩
    cases spells with
    | @string _ contents _ value? begins quotes =>
      obtain rfl : value? = some value := means
      exact ⟨contents, quotes, begins⟩
    | _ => cases means

theorem understands_natural : Understands natural Document.natural? := by
  intro text rest value
  rw [natural]
  constructor
  · intro read
    obtain ⟨c, behind, dropped, read⟩ := of_run_peek_bind read run_fail_ne
    dsimp only at read
    split at read
    case isTrue =>
      obtain ⟨value?, middle, given, made⟩ := of_run_bind read
      cases value? with
      | none => exact absurd made run_fail_ne
      | some found =>
        obtain ⟨rfl, rfl⟩ := Prod.mk.inj (Except.ok.inj made)
        obtain ⟨number, fits⟩ := run_number_iff.mp given
        rw [← dropped] at number
        have spells := Spells.number (areBlank_takeWhile text) number
        rw [List.takeWhile_append_dropWhile] at spells
        exact ⟨_, spells, if_pos fits⟩
    case isFalse => exact absurd read run_mismatch_ne
  · rintro ⟨document, spells, means⟩
    cases spells with
    | @number blanks text _ natural? blank number =>
      cases natural? with
      | none => cases means
      | some found =>
        change (if found < 2 ^ 64 then some found else none) = some value at means
        by_cases fits : found < 2 ^ 64
        · rw [if_pos fits] at means
          obtain rfl := Option.some.inj means
          have read := run_number_iff.mpr ⟨number, fits⟩
          obtain ⟨c, more, rfl, starts⟩ := number.head
          rw [run_peek_bind, dropWhile_blanks blank (isBlank_of_starts starts)]
          dsimp only [List.head?_cons]
          rw [if_pos starts, run_bind_ok read]
          rfl
        · rw [if_neg fits] at means
          cases means
    | _ => cases means

/-! ## Lists -/

theorem run_endOfList_iff : endOfList.run text = .ok ((), rest) ↔ Begins text ']' rest := by
  rw [endOfList]
  constructor
  · intro read
    obtain ⟨c, behind, dropped, given⟩ := of_run_peek_bind read run_fail_ne
    split at given
    case h_1 same =>
      obtain rfl := Option.some.inj same
      obtain rfl : behind = rest := (Prod.mk.inj (Except.ok.inj given)).2
      exact begins_of_dropWhile dropped
    case h_2 => exact absurd given run_fail_ne
    case h_3 => exact absurd given run_fail_ne
  · intro begins
    rw [run_peek_bind, begins.dropWhile rfl]
    rfl

/-- Nothing but blanks is dropped before the first element of a list. -/
theorem of_run_moreItems_first {more : Bool} {middle : List Char}
    (read : (moreItems true).run text = .ok (more, middle)) : middle = text.dropWhile isBlank := by
  rw [moreItems] at read
  obtain ⟨c, behind, dropped, given⟩ := of_run_peek_bind read run_fail_ne
  split at given
  case h_1 none => cases none
  case h_2 =>
    obtain ⟨rfl, rfl⟩ := Prod.mk.inj (Except.ok.inj given)
    exact dropped.symm
  case h_3 =>
    obtain ⟨rfl, rfl⟩ := Prod.mk.inj (Except.ok.inj given)
    exact dropped.symm

/-- What comes after an element of a list is its end, or a comma and another element. -/
theorem of_run_moreItems {more : Bool} {middle : List Char}
    (read : (moreItems false).run text = .ok (more, middle)) :
    if more then ∃ behind, Begins text ',' behind ∧ middle = behind.dropWhile isBlank
    else middle = text.dropWhile isBlank := by
  rw [moreItems] at read
  obtain ⟨c, behind, dropped, given⟩ := of_run_peek_bind read run_fail_ne
  split at given
  case h_1 none => cases none
  case h_2 same =>
    obtain ⟨rfl, rfl⟩ := Prod.mk.inj (Except.ok.inj given)
    exact dropped.symm
  case h_3 same =>
    obtain rfl := Option.some.inj same
    rw [if_neg Bool.false_ne_true] at given
    split at given
    case isTrue comma =>
      subst comma
      rw [run_advance_bind] at given
      obtain ⟨next, later, opened, made⟩ := of_run_peek_bind given run_fail_ne
      split at made
      case h_1 => exact absurd made run_fail_ne
      case h_2 =>
        obtain ⟨rfl, rfl⟩ := Prod.mk.inj (Except.ok.inj made)
        exact ⟨behind, begins_of_dropWhile dropped, opened.symm⟩
      case h_3 => exact absurd made run_fail_ne
    case isFalse => exact absurd given run_fail_ne

theorem run_moreItems_of_end {first : Bool} (ends : Begins text ']' rest) :
    (moreItems first).run text = .ok (false, ']' :: rest) := by
  obtain ⟨blanks, blank, rfl⟩ := ends
  exact run_moreItems_end first blank rest

theorem run_moreItems_of_first {document : Document} (spells : Spells text (.value document) rest) :
    (moreItems true).run text = .ok (true, text.dropWhile isBlank) := by
  obtain ⟨c, more, dropped, isItem⟩ := spells.value_head
  obtain ⟨blanks, blank, rfl⟩ := begins_of_dropWhile dropped
  have solid := isBlank_of_dropWhile dropped
  rw [run_moreItems_first blank solid isItem, dropped]

theorem run_moreItems_of_next {document : Document} (begins : Begins text ',' behind)
    (spells : Spells behind (.value document) rest) :
    (moreItems false).run text = .ok (true, behind.dropWhile isBlank) := by
  obtain ⟨c, more, dropped, isItem⟩ := spells.value_head
  obtain ⟨blanks, blank, rfl⟩ := begins_of_dropWhile dropped
  have solid := isBlank_of_dropWhile dropped
  have next := run_moreItems_next blank solid isItem more
  obtain ⟨outer, outerBlank, rfl⟩ := begins
  rw [moreItems, run_peek_bind, dropWhile_blanks outerBlank rfl, dropped]
  rw [moreItems, run_peek_bind] at next
  exact next

variable {item : Reader α} {meaning? : Document → Option α}

/-- The elements of a list after the first are read up to its end. -/
theorem run_items_iff (understands : Understands item meaning?) {fuel : Nat} {values : List α}
    (enough : text.length < fuel) :
    (items item fuel false).run text = .ok (values, rest) ↔
      ∃ documents, Spells text (.items documents) rest ∧ documents.mapM meaning? = some values := by
  induction fuel generalizing text values with
  | zero => omega
  | succ fuel ih =>
    rw [items]
    constructor
    · intro read
      obtain ⟨more, middle, given, onward⟩ := of_run_bind read
      have place := of_run_moreItems given
      cases more with
      | false =>
        obtain ⟨_, last, ended, made⟩ := of_run_bind onward
        obtain ⟨rfl, rfl⟩ := Prod.mk.inj (Except.ok.inj made)
        have ends := run_endOfList_iff.mp ended
        rw [place] at ends
        exact ⟨[], .endOfItems ends.of_dropWhile, rfl⟩
      | true =>
        obtain ⟨behind, begins, rfl⟩ := place
        obtain ⟨value, next, first, onward⟩ := of_run_bind onward
        obtain ⟨others, last, later, made⟩ := of_run_bind onward
        obtain ⟨rfl, rfl⟩ := Prod.mk.inj (Except.ok.inj made)
        obtain ⟨document, spells, means⟩ := understands.mp first
        have shorter := begins.length_lt
        have shortest := spells.of_dropWhile.length_lt
        obtain ⟨documents, more, meanings⟩ := (ih (by omega)).mp later
        refine ⟨document :: documents, .nextItem begins spells.of_dropWhile more, ?_⟩
        rw [List.mapM_cons, means, meanings]
        rfl
    · rintro ⟨documents, spells, means⟩
      cases spells with
      | endOfItems ends =>
        obtain rfl : [] = values := Option.some.inj means
        rw [run_bind_ok (run_moreItems_of_end ends)]
        rfl
      | @nextItem _ behind next _ document documents begins spelled more =>
        rw [List.mapM_cons] at means
        obtain ⟨value, first, means⟩ := Option.bind_eq_some_iff.mp means
        obtain ⟨others, later, made⟩ := Option.bind_eq_some_iff.mp means
        obtain rfl := Option.some.inj made
        have shorter := begins.length_lt
        have shortest := spelled.length_lt
        rw [run_bind_ok (run_moreItems_of_next begins spelled)]
        refine (run_bind_ok (understands.mpr ⟨document, spelled.dropWhile, first⟩)).trans ?_
        exact run_bind_ok ((ih (by omega)).mpr ⟨documents, more, later⟩)

theorem understands_list (understands : Understands item meaning?) :
    Understands (list item) (Document.list? meaning?) := by
  intro text rest values
  rw [list]
  constructor
  · intro read
    obtain ⟨c, behind, dropped, given⟩ := of_run_peek_bind read run_fail_ne
    have begins := begins_of_dropWhile dropped
    split at given
    case h_1 none => cases none
    case h_2 same =>
      obtain rfl := Option.some.inj same
      rw [run_advance_bind] at given
      change (items item (behind.length + 1) true).run behind = _ at given
      rw [items] at given
      obtain ⟨more, middle, opened, onward⟩ := of_run_bind given
      obtain rfl := of_run_moreItems_first opened
      cases more with
      | false =>
        obtain ⟨_, last, ended, made⟩ := of_run_bind onward
        obtain ⟨rfl, rfl⟩ := Prod.mk.inj (Except.ok.inj made)
        exact ⟨_, .emptyList begins (run_endOfList_iff.mp ended).of_dropWhile, rfl⟩
      | true =>
        obtain ⟨value, next, first, onward⟩ := of_run_bind onward
        obtain ⟨others, last, later, made⟩ := of_run_bind onward
        obtain ⟨rfl, rfl⟩ := Prod.mk.inj (Except.ok.inj made)
        obtain ⟨document, spells, means⟩ := understands.mp first
        have shorter := spells.of_dropWhile.length_lt
        obtain ⟨documents, more, meanings⟩ := (run_items_iff understands shorter).mp later
        refine ⟨_, .list begins spells.of_dropWhile more, ?_⟩
        rw [Document.list?, List.mapM_cons, means, meanings]
        rfl
    case h_3 => exact absurd given run_mismatch_ne
  · rintro ⟨document, spells, means⟩
    cases spells with
    | @emptyList _ behind _ begins ends =>
      obtain rfl : [] = values := Option.some.inj means
      rw [run_peek_bind, begins.dropWhile rfl]
      refine (run_advance_bind _ _ _).trans ?_
      change (items item (behind.length + 1) true).run behind = _
      rw [items, run_bind_ok (run_moreItems_of_end ends)]
      rfl
    | @list _ behind next _ document documents begins spelled more =>
      rw [Document.list?, List.mapM_cons] at means
      obtain ⟨value, first, means⟩ := Option.bind_eq_some_iff.mp means
      obtain ⟨others, later, made⟩ := Option.bind_eq_some_iff.mp means
      obtain rfl := Option.some.inj made
      rw [run_peek_bind, begins.dropWhile rfl]
      refine (run_advance_bind _ _ _).trans ?_
      change (items item (behind.length + 1) true).run behind = _
      rw [items, run_bind_ok (run_moreItems_of_first spelled)]
      refine (run_bind_ok (understands.mpr ⟨document, spelled.dropWhile, first⟩)).trans ?_
      exact run_bind_ok ((run_items_iff understands spelled.length_lt).mpr ⟨documents, more, later⟩)
    | _ => cases means

/-- A whole text is read if it is a document that is understood. -/
theorem Understands.readText_iff {reader : Reader α} {meaning? : Document → Option α}
    (understands : Understands reader meaning?) {text : String} {value : α} :
    readText reader text = .ok value ↔
      ∃ document, IsDocument text.toList document ∧ meaning? document = some value := by
  unfold readText
  constructor
  · intro read
    split at read
    case h_1 => cases read
    case h_2 given =>
      split at read
      case isTrue blank =>
        obtain rfl := Except.ok.inj read
        obtain ⟨document, spells, means⟩ := understands.mp given
        exact ⟨document, ⟨_, spells, blank⟩, means⟩
      case isFalse => cases read
  · rintro ⟨document, ⟨rest, spells, blank⟩, means⟩
    rw [understands.mpr ⟨document, spells, means⟩]
    exact if_pos blank

end Reader

end JsxTracking.Json
