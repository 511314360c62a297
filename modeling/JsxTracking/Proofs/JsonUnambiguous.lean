import JsxTracking.Proofs.JsonRecords

/-! # One document for each text

The grammar of JSON is unambiguous: a text is at most one document (`Json.IsDocument.unique`). Which
form a phrase has is decided by the first character of its first token (`Json.Spells.form`), and from
there on the parts of the phrase and the places where they end are decided one after another. So what
is not understood in the document of a text is not read from the text at all
(`Json.Reader.Understands.readText_eq_ok_iff`). -/

namespace JsxTracking.Json

variable {α : Type} {text rest : List Char} {c : Char}

/-! ## Forms -/

/-- The forms of phrases, one for each way of spelling them. -/
inductive Form where
  | null
  | truth
  | falsehood
  | number
  | string
  | list
  | object
  | endOfItems
  | nextItem
  | member
  | endOfMembers
  | nextMember

/-- What may be asked for at a place in a text. -/
inductive Place where
  | value
  | items
  | member
  | members

namespace Phrase

/-- What a phrase is an answer to. -/
def place : Phrase → Place
  | value _ => .value
  | items _ => .items
  | member _ _ => .member
  | members _ => .members

def form : Phrase → Form
  | value .null => .null
  | value (.bool true) => .truth
  | value (.bool false) => .falsehood
  | value (.number _) => .number
  | value (.string _) => .string
  | value (.list _) => .list
  | value (.object _) => .object
  | items [] => .endOfItems
  | items (_ :: _) => .nextItem
  | member _ _ => .member
  | members [] => .endOfMembers
  | members (_ :: _) => .nextMember

end Phrase

/-- The form of the phrase that a character begins at a place. -/
def Place.formAt : Place → Char → Form
  | value, c =>
    if c = 'n' then .null
    else if c = 't' then .truth
    else if c = 'f' then .falsehood
    else if c = '"' then .string
    else if c = '[' then .list
    else if c = '{' then .object
    else .number
  | items, c => if c = ']' then .endOfItems else .nextItem
  | member, _ => .member
  | members, c => if c = '}' then .endOfMembers else .nextMember

theorem formAt_of_starts (starts : (c = '-' || c.isDigit) = true) :
    Place.value.formAt c = .number := by
  have other {d : Char} (different : (d = '-' || d.isDigit) = false) : c ≠ d := by
    rintro rfl
    rw [different] at starts
    cases starts
  simp only [Place.formAt, other (d := 'n') rfl, other (d := 't') rfl, other (d := 'f') rfl,
    other (d := '"') rfl, other (d := '[') rfl, other (d := '{') rfl, ↓reduceIte]

/-- The first character of a phrase decides on its form. -/
theorem Spells.form {phrase : Phrase} (spells : Spells text phrase rest) :
    (text.dropWhile isBlank).head?.map phrase.place.formAt = some phrase.form := by
  have opened {c : Char} {behind : List Char} (solid : isBlank c = false)
      (begins : Begins text c behind) (form : phrase.place.formAt c = phrase.form) :
      (text.dropWhile isBlank).head?.map phrase.place.formAt = some phrase.form := by
    rw [begins.dropWhile solid, List.head?_cons, Option.map_some, form]
  cases spells with
  | null begins | truth begins | falsehood begins => exact opened rfl begins rfl
  | string begins | emptyList begins | list begins => exact opened rfl begins rfl
  | emptyObject begins | object begins => exact opened rfl begins rfl
  | endOfItems begins | nextItem begins => exact opened rfl begins rfl
  | endOfMembers begins | nextMember begins | member begins => exact opened rfl begins rfl
  | number blank number =>
    obtain ⟨c, more, rfl, starts⟩ := number.head
    exact opened (isBlank_of_starts starts) ⟨_, blank, rfl⟩ (formAt_of_starts starts)

theorem Spells.form_eq {phrase other : Phrase} {behind : List Char}
    (spells : Spells text phrase rest) (again : Spells text other behind)
    (alike : phrase.place = other.place) : phrase.form = other.form := by
  have same := spells.form.symm.trans (alike ▸ again.form)
  exact Option.some.inj same

/-! ## Tokens -/

/-- The contents of a string end in one place, and have one value. -/
theorem Quotes.unique {contents others behind : List Char} {value? other? : Option String}
    (quotes : Quotes contents value?) (again : Quotes others other?)
    (same : contents ++ '"' :: rest = others ++ '"' :: behind) : value? = other? ∧ rest = behind := by
  have skipped : skipString (contents ++ '"' :: rest) = .ok rest :=
    skipString_iff_quotes.mpr ⟨_, _, quotes, rfl⟩
  have skippedAgain := skipString_iff_quotes.mpr ⟨_, _, again, same⟩
  obtain rfl := Except.ok.inj (skipped.symm.trans skippedAgain)
  obtain rfl := List.append_cancel_right same
  refine ⟨?_, rfl⟩
  cases quotes with
  | units _ noText =>
    cases again with
    | units => rfl
    | text unescapes => exact absurd unescapes (noText _)
  | text unescapes =>
    cases again with
    | units _ noText => exact absurd unescapes (noText _)
    | text unescapesAgain =>
      have read := stringChars_iff.mpr ⟨_, unescapes, same⟩
      have readAgain := stringChars_iff.mpr ⟨_, unescapesAgain, same⟩
      have chars := Except.ok.inj (read.symm.trans readAgain)
      exact congrArg some (String.toList_inj.mp (Prod.mk.inj chars).1)

theorem Number.unique {behind : List Char} {natural? other? : Option Nat}
    (number : Number text natural? rest) (again : Number text other? behind) :
    natural? = other? ∧ rest = behind := by
  obtain ⟨parts, read, rfl⟩ : ∃ parts, signedParts .malformed text = .ok (parts, rest) ∧
      parts.value? = natural? := signedParts_iff.mpr number
  obtain ⟨others, readAgain, rfl⟩ : ∃ parts, signedParts .malformed text = .ok (parts, behind) ∧
      parts.value? = other? := signedParts_iff.mpr again
  obtain ⟨rfl, rfl⟩ := Prod.mk.inj (Except.ok.inj (read.symm.trans readAgain))
  exact ⟨rfl, rfl⟩

/-! ## Texts -/

theorem Begins.word_unique {word behind : List Char} (begins : Begins text c (word ++ rest))
    (again : Begins text c (word ++ behind)) (solid : isBlank c = false) : rest = behind :=
  List.append_cancel_left (begins.unique again solid)

theorem Begins.not_value {behind : List Char} {document : Document} (ends : Begins text ']' rest) :
    ¬ Spells text (.value document) behind := by
  intro spells
  obtain ⟨c, more, dropped, other⟩ := spells.value_head
  rw [ends.dropWhile rfl] at dropped
  exact other (List.cons.inj dropped).1.symm

theorem Begins.not_member {behind : List Char} {key? : Option String} {document : Document}
    (ends : Begins text '}' rest) : ¬ Spells text (.member key? document) behind := by
  intro spells
  cases spells with
  | member begins =>
    have same := (ends.dropWhile rfl).symm.trans (begins.dropWhile rfl)
    cases (List.cons.inj same).1

/-- **A text spells one phrase of a kind only**, and goes on in one place. -/
theorem Spells.unique {phrase other : Phrase} {behind : List Char}
    (spells : Spells text phrase rest) (again : Spells text other behind)
    (alike : phrase.place = other.place) : phrase = other ∧ rest = behind := by
  -- Both spellings have one form, so in each case only a phrase of that form is left to compare.
  have same := spells.form_eq again alike
  induction spells generalizing other behind with
  | null begins =>
    cases again with
    | null opened => exact ⟨rfl, begins.word_unique opened rfl⟩
    | _ => cases same
  | truth begins =>
    cases again with
    | truth opened => exact ⟨rfl, begins.word_unique opened rfl⟩
    | _ => cases same
  | falsehood begins =>
    cases again with
    | falsehood opened => exact ⟨rfl, begins.word_unique opened rfl⟩
    | _ => cases same
  | @number blanks text _ _ blank number =>
    generalize whole : blanks ++ text = start at again
    cases again with
    | number blankAgain numberAgain =>
      obtain ⟨c, more, rfl, starts⟩ := number.head
      obtain ⟨d, others, rfl, startsAgain⟩ := numberAgain.head
      have dropped := congrArg (List.dropWhile isBlank) whole
      rw [dropWhile_blanks blank (isBlank_of_starts starts),
        dropWhile_blanks blankAgain (isBlank_of_starts startsAgain)] at dropped
      obtain ⟨rfl, rfl⟩ := number.unique (dropped ▸ numberAgain)
      exact ⟨rfl, rfl⟩
    | _ => cases same
  | string begins quotes =>
    cases again with
    | string opened quoted =>
      obtain ⟨rfl, rfl⟩ := quotes.unique quoted (begins.unique opened rfl)
      exact ⟨rfl, rfl⟩
    | _ => cases same
  | emptyList begins ends =>
    cases again with
    | emptyList opened closed =>
      obtain rfl := begins.unique opened rfl
      exact ⟨rfl, ends.unique closed rfl⟩
    | list opened first =>
      obtain rfl := begins.unique opened rfl
      exact absurd first ends.not_value
    | _ => cases same
  | list begins first more ihFirst ihMore =>
    cases again with
    | list opened firstAgain moreAgain =>
      obtain rfl := begins.unique opened rfl
      obtain ⟨⟨⟩, rfl⟩ := ihFirst firstAgain rfl (first.form_eq firstAgain rfl)
      obtain ⟨⟨⟩, rfl⟩ := ihMore moreAgain rfl (more.form_eq moreAgain rfl)
      exact ⟨rfl, rfl⟩
    | emptyList opened ends =>
      obtain rfl := begins.unique opened rfl
      exact absurd first ends.not_value
    | _ => cases same
  | emptyObject begins ends =>
    cases again with
    | emptyObject opened closed =>
      obtain rfl := begins.unique opened rfl
      exact ⟨rfl, ends.unique closed rfl⟩
    | object opened first =>
      obtain rfl := begins.unique opened rfl
      exact absurd first ends.not_member
    | _ => cases same
  | object begins first more ihFirst ihMore =>
    cases again with
    | object opened firstAgain moreAgain =>
      obtain rfl := begins.unique opened rfl
      obtain ⟨⟨⟩, rfl⟩ := ihFirst firstAgain rfl (first.form_eq firstAgain rfl)
      obtain ⟨⟨⟩, rfl⟩ := ihMore moreAgain rfl (more.form_eq moreAgain rfl)
      exact ⟨rfl, rfl⟩
    | emptyObject opened ends =>
      obtain rfl := begins.unique opened rfl
      exact absurd first ends.not_member
    | _ => cases same
  | endOfItems ends =>
    cases again with
    | endOfItems closed => exact ⟨rfl, ends.unique closed rfl⟩
    | _ => cases same
  | nextItem begins item more ihItem ihMore =>
    cases again with
    | nextItem opened itemAgain moreAgain =>
      obtain rfl := begins.unique opened rfl
      obtain ⟨⟨⟩, rfl⟩ := ihItem itemAgain rfl (item.form_eq itemAgain rfl)
      obtain ⟨⟨⟩, rfl⟩ := ihMore moreAgain rfl (more.form_eq moreAgain rfl)
      exact ⟨rfl, rfl⟩
    | _ => cases same
  | endOfMembers ends =>
    cases again with
    | endOfMembers closed => exact ⟨rfl, ends.unique closed rfl⟩
    | _ => cases same
  | nextMember begins member more ihMember ihMore =>
    cases again with
    | nextMember opened memberAgain moreAgain =>
      obtain rfl := begins.unique opened rfl
      obtain ⟨⟨⟩, rfl⟩ := ihMember memberAgain rfl (member.form_eq memberAgain rfl)
      obtain ⟨⟨⟩, rfl⟩ := ihMore moreAgain rfl (more.form_eq moreAgain rfl)
      exact ⟨rfl, rfl⟩
    | _ => cases same
  | member begins quotes colon value ih =>
    cases again with
    | member opened quoted colonAgain valueAgain =>
      obtain ⟨rfl, rfl⟩ := quotes.unique quoted (begins.unique opened rfl)
      obtain rfl := colon.unique colonAgain rfl
      obtain ⟨⟨⟩, rfl⟩ := ih valueAgain rfl (value.form_eq valueAgain rfl)
      exact ⟨rfl, rfl⟩
    | _ => cases same

/-- A text is one document at most. -/
theorem IsDocument.unique {document other : Document} (isDocument : IsDocument text document)
    (again : IsDocument text other) : document = other := by
  obtain ⟨_, spells, -⟩ := isDocument
  obtain ⟨_, spellsAgain, -⟩ := again
  obtain ⟨⟨⟩, -⟩ := spells.unique spellsAgain rfl
  rfl

namespace Reader

variable {reader : Reader α} {meaning? : Document → Option α} {document : Document}

/-- What is read of a text is what its document means. -/
theorem Understands.readText_eq_ok_iff (understands : Understands reader meaning?) {text : String}
    (isDocument : IsDocument text.toList document) {value : α} :
    readText reader text = .ok value ↔ meaning? document = some value := by
  rw [understands.readText_iff]
  constructor
  · rintro ⟨other, isOther, means⟩
    rwa [isDocument.unique isOther]
  · exact fun means => ⟨document, isDocument, means⟩

end Reader

end JsxTracking.Json
