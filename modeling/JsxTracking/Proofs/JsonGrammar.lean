import JsxTracking.Proofs.RecordedText
import Mathlib.Data.List.DropRight
import Mathlib.Data.List.TakeWhile

/-! # The grammar of JSON

What a JSON text is does not depend on who reads it. A text *spells* a document if it starts with the
spelling of it, and then goes on with the rest (`Spells`): blanks may stand before each token, and each
form starts with a character of its own, so there is nothing to try out. A number ends where the text
cannot go on with it. Of numbers only natural ones are told apart, and a string has a value unless
half of a surrogate pair stands alone in it.

Readers are compared with the grammar in both directions: what they take off a text is spelled there,
and what is spelled there they take off. This module does so for strings (`stringChars_iff`,
`skipString_iff`). -/

namespace JsxTracking.Json

/-! ## Documents -/

/-- A JSON document. -/
inductive Document where
  | null
  | bool (value : Bool)
  /-- A number; it has a value if it is spelled by digits alone. -/
  | number (natural? : Option Nat)
  /-- A string; it has no value if half of a surrogate pair stands alone in it. -/
  | string (value? : Option String)
  | list (items : List Document)
  | object (members : List (Option String × Document))
  deriving Inhabited

/-- What is spelled by a stretch of text. -/
inductive Phrase where
  | value (document : Document)
  /-- The elements of a list after the first, and its end. -/
  | items (documents : List Document)
  | member (key? : Option String) (document : Document)
  /-- The members of an object after the first, and its end. -/
  | members (members : List (Option String × Document))

/-! ### Strings -/

/-- What may stand between the quotes of a string. -/
inductive IsEscaped : List Char → Prop where
  | nil : IsEscaped []
  | plain {c : Char} {contents : List Char} (unquoted : c ≠ '"') (unslashed : c ≠ '\\')
      (visible : 0x20 ≤ c.toNat) (more : IsEscaped contents) : IsEscaped (c :: contents)
  | letter {letter : Char} {contents : List Char} (known : (unescape? letter).isSome = true)
      (more : IsEscaped contents) : IsEscaped ('\\' :: letter :: contents)
  | unit {a b c d : Char} {contents : List Char} (known : (hexUnit? a b c d).isSome = true)
      (more : IsEscaped contents) : IsEscaped ('\\' :: 'u' :: a :: b :: c :: d :: contents)

/-- The characters for which the contents of a string stand. -/
inductive Unescapes : List Char → List Char → Prop where
  | nil : Unescapes [] []
  | plain {c : Char} {contents chars : List Char} (unquoted : c ≠ '"') (unslashed : c ≠ '\\')
      (visible : 0x20 ≤ c.toNat) (more : Unescapes contents chars) :
      Unescapes (c :: contents) (c :: chars)
  | letter {letter c : Char} {contents chars : List Char} (known : unescape? letter = some c)
      (more : Unescapes contents chars) : Unescapes ('\\' :: letter :: contents) (c :: chars)
  | unit {a b c d : Char} {unit : Nat} {contents chars : List Char}
      (known : hexUnit? a b c d = some unit) (alone : unit < 0xD800 ∨ 0xDFFF < unit)
      (more : Unescapes contents chars) :
      Unescapes ('\\' :: 'u' :: a :: b :: c :: d :: contents) (Char.ofNat unit :: chars)
  | pair {a b c d e f g h : Char} {high low : Nat} {contents chars : List Char}
      (first : hexUnit? a b c d = some high) (isHigh : 0xD800 ≤ high ∧ high < 0xDC00)
      (second : hexUnit? e f g h = some low) (isLow : 0xDC00 ≤ low ∧ low ≤ 0xDFFF)
      (more : Unescapes contents chars) :
      Unescapes
        ('\\' :: 'u' :: a :: b :: c :: d :: '\\' :: 'u' :: e :: f :: g :: h :: contents)
        (Char.ofNat ((high - 0xD800) * 0x400 + (low - 0xDC00) + 0x10000) :: chars)

/-- The value of a string with some contents. -/
inductive Quotes : List Char → Option String → Prop where
  | text {contents : List Char} {value : String} (unescapes : Unescapes contents value.toList) :
      Quotes contents (some value)
  | units {contents : List Char} (escaped : IsEscaped contents)
      (noText : ∀ chars, ¬ Unescapes contents chars) : Quotes contents none

/-! ### Numbers -/

/-- A run of digits, as long as it goes. -/
structure Digits (text digits rest : List Char) : Prop where
  whole : text = digits ++ rest
  nonempty : digits ≠ []
  all : ∀ c ∈ digits, c.isDigit = true
  ends : rest.head?.all (fun c => !c.isDigit) = true

/-- The digits before the point; a zero at the start stands alone. -/
structure WholeDigits (text digits rest : List Char) : Prop extends Digits text digits rest where
  zero : digits.head? = some '0' → digits = ['0']

/-- The digits of a fraction, if there is a point. -/
inductive Fraction : List Char → List Char → List Char → Prop where
  | none {text : List Char} (pointless : text.head? ≠ some '.') : Fraction text [] text
  | some {text digits rest : List Char} (run : Digits text digits rest) :
      Fraction ('.' :: text) digits rest

/-- An exponent, if there is a letter for one. -/
inductive Exponent : List Char → Bool → List Char → Prop where
  | none {text : List Char} (small : text.head? ≠ some 'e') (large : text.head? ≠ some 'E') :
      Exponent text false text
  | some {letter : Char} {sign text digits rest : List Char} (isLetter : letter = 'e' ∨ letter = 'E')
      (isSign : sign = [] ∨ sign = ['+'] ∨ sign = ['-']) (run : Digits text digits rest) :
      Exponent (letter :: (sign ++ text)) true rest

/-- A number without a sign, and its digits if it has no other parts. -/
inductive Unsigned : List Char → Option (List Char) → List Char → Prop where
  | parts {text whole middle fraction behind rest : List Char} {marked : Bool}
      (run : WholeDigits text whole middle) (fractionRun : Fraction middle fraction behind)
      (exponent : Exponent behind marked rest) :
      Unsigned text (if fraction.isEmpty && !marked then some whole else none) rest

/-- A number, and its value if it is spelled by digits alone. -/
inductive Number : List Char → Option Nat → List Char → Prop where
  | unsigned {text rest : List Char} {digits? : Option (List Char)}
      (number : Unsigned text digits? rest) :
      Number text (digits?.map fun digits => Nat.ofDigitChars 10 digits 0) rest
  | negative {text rest : List Char} {digits? : Option (List Char)}
      (number : Unsigned text digits? rest) : Number ('-' :: text) none rest

/-! ### Texts -/

/-- After any blanks, a text goes on with a character. -/
def Begins (text : List Char) (c : Char) (rest : List Char) : Prop :=
  ∃ blanks, areBlank blanks = true ∧ text = blanks ++ c :: rest

/-- A text starts with the spelling of a phrase and goes on with the rest. -/
inductive Spells : List Char → Phrase → List Char → Prop where
  | null {text rest : List Char} (begins : Begins text 'n' ("ull".toList ++ rest)) :
      Spells text (.value .null) rest
  | truth {text rest : List Char} (begins : Begins text 't' ("rue".toList ++ rest)) :
      Spells text (.value (.bool true)) rest
  | falsehood {text rest : List Char} (begins : Begins text 'f' ("alse".toList ++ rest)) :
      Spells text (.value (.bool false)) rest
  | number {blanks text rest : List Char} {natural? : Option Nat}
      (blank : areBlank blanks = true) (number : Number text natural? rest) :
      Spells (blanks ++ text) (.value (.number natural?)) rest
  | string {text contents rest : List Char} {value? : Option String}
      (begins : Begins text '"' (contents ++ '"' :: rest)) (quotes : Quotes contents value?) :
      Spells text (.value (.string value?)) rest
  | emptyList {text behind rest : List Char} (begins : Begins text '[' behind)
      (ends : Begins behind ']' rest) : Spells text (.value (.list [])) rest
  | list {text behind next rest : List Char} {document : Document} {documents : List Document}
      (begins : Begins text '[' behind) (first : Spells behind (.value document) next)
      (more : Spells next (.items documents) rest) :
      Spells text (.value (.list (document :: documents))) rest
  | emptyObject {text behind rest : List Char} (begins : Begins text '{' behind)
      (ends : Begins behind '}' rest) : Spells text (.value (.object [])) rest
  | object {text behind next rest : List Char} {key? : Option String} {document : Document}
      {members : List (Option String × Document)} (begins : Begins text '{' behind)
      (first : Spells behind (.member key? document) next)
      (more : Spells next (.members members) rest) :
      Spells text (.value (.object ((key?, document) :: members))) rest
  | endOfItems {text rest : List Char} (ends : Begins text ']' rest) : Spells text (.items []) rest
  | nextItem {text behind next rest : List Char} {document : Document} {documents : List Document}
      (begins : Begins text ',' behind) (item : Spells behind (.value document) next)
      (more : Spells next (.items documents) rest) :
      Spells text (.items (document :: documents)) rest
  | endOfMembers {text rest : List Char} (ends : Begins text '}' rest) :
      Spells text (.members []) rest
  | nextMember {text behind next rest : List Char} {key? : Option String} {document : Document}
      {members : List (Option String × Document)} (begins : Begins text ',' behind)
      (member : Spells behind (.member key? document) next)
      (more : Spells next (.members members) rest) :
      Spells text (.members ((key?, document) :: members)) rest
  | member {text contents behind next rest : List Char} {key? : Option String} {document : Document}
      (begins : Begins text '"' (contents ++ '"' :: behind)) (quotes : Quotes contents key?)
      (colon : Begins behind ':' next) (value : Spells next (.value document) rest) :
      Spells text (.member key? document) rest

/-- A text is a document, with blanks around it. -/
def IsDocument (text : List Char) (document : Document) : Prop :=
  ∃ rest, Spells text (.value document) rest ∧ areBlank rest = true

variable {text rest behind : List Char} {c : Char}

/-! ## Where phrases begin -/

theorem Begins.length_lt (begins : Begins text c rest) : rest.length < text.length := by
  obtain ⟨blanks, -, rfl⟩ := begins
  simp only [List.length_append, List.length_cons]
  omega

theorem Begins.prepend {blanks : List Char} (blank : areBlank blanks = true)
    (begins : Begins text c rest) : Begins (blanks ++ text) c rest := by
  obtain ⟨more, moreBlank, rfl⟩ := begins
  refine ⟨blanks ++ more, ?_, by rw [List.append_assoc]⟩
  rw [areBlank, List.all_append]
  exact Bool.and_eq_true_iff.mpr ⟨blank, moreBlank⟩

/-- A token is what comes first once blanks are dropped. -/
theorem Begins.dropWhile (begins : Begins text c rest) (solid : isBlank c = false) :
    text.dropWhile isBlank = c :: rest := by
  obtain ⟨blanks, blank, rfl⟩ := begins
  exact dropWhile_blanks blank solid rest

theorem areBlank_takeWhile (text : List Char) : areBlank (text.takeWhile isBlank) = true :=
  List.all_eq_true.mpr fun _ => List.mem_takeWhile_imp

theorem begins_of_dropWhile (dropped : text.dropWhile isBlank = c :: rest) : Begins text c rest := by
  refine ⟨text.takeWhile isBlank, areBlank_takeWhile text, ?_⟩
  rw [← dropped, List.takeWhile_append_dropWhile]

theorem Begins.of_dropWhile (begins : Begins (text.dropWhile isBlank) c rest) :
    Begins text c rest := by
  have whole := begins.prepend (areBlank_takeWhile text)
  rwa [List.takeWhile_append_dropWhile] at whole

theorem isBlank_of_dropWhile (dropped : text.dropWhile isBlank = c :: rest) : isBlank c = false := by
  have found := text.find?_not_eq_head?_dropWhile isBlank
  rw [dropped] at found
  simpa using List.find?_some found

/-- Blanks may be put before any phrase. -/
theorem Spells.prepend {blanks : List Char} (blank : areBlank blanks = true) {phrase : Phrase}
    (spells : Spells text phrase rest) : Spells (blanks ++ text) phrase rest := by
  cases spells with
  | null begins => exact .null (begins.prepend blank)
  | truth begins => exact .truth (begins.prepend blank)
  | falsehood begins => exact .falsehood (begins.prepend blank)
  | number more number =>
    rw [← List.append_assoc]
    refine .number ?_ number
    rw [areBlank, List.all_append]
    exact Bool.and_eq_true_iff.mpr ⟨blank, more⟩
  | string begins quotes => exact .string (begins.prepend blank) quotes
  | emptyList begins ends => exact .emptyList (begins.prepend blank) ends
  | list begins first more => exact .list (begins.prepend blank) first more
  | emptyObject begins ends => exact .emptyObject (begins.prepend blank) ends
  | object begins first more => exact .object (begins.prepend blank) first more
  | endOfItems ends => exact .endOfItems (ends.prepend blank)
  | nextItem begins item more => exact .nextItem (begins.prepend blank) item more
  | endOfMembers ends => exact .endOfMembers (ends.prepend blank)
  | nextMember begins member more => exact .nextMember (begins.prepend blank) member more
  | member begins quotes colon value => exact .member (begins.prepend blank) quotes colon value

theorem Spells.of_dropWhile {phrase : Phrase} (spells : Spells (text.dropWhile isBlank) phrase rest) :
    Spells text phrase rest := by
  have whole := spells.prepend (areBlank_takeWhile text)
  rwa [List.takeWhile_append_dropWhile] at whole

theorem Digits.length_lt {digits : List Char} (run : Digits text digits rest) :
    rest.length < text.length := by
  have some := List.length_pos_of_ne_nil run.nonempty
  rw [run.whole, List.length_append]
  omega

theorem Fraction.length_le {digits : List Char} (fraction : Fraction text digits rest) :
    rest.length ≤ text.length := by
  cases fraction with
  | none => exact Nat.le_refl _
  | some run => exact Nat.le_succ_of_le run.length_lt.le

theorem Exponent.length_le {marked : Bool} (exponent : Exponent text marked rest) :
    rest.length ≤ text.length := by
  cases exponent with
  | none => exact Nat.le_refl _
  | some _ _ run =>
    have shorter := run.length_lt
    simp only [List.length_cons, List.length_append]
    omega

theorem Number.length_lt {natural? : Option Nat} (number : Number text natural? rest) :
    rest.length < text.length := by
  have unsigned {text : List Char} {digits? : Option (List Char)}
      (unsigned : Unsigned text digits? rest) : rest.length < text.length := by
    cases unsigned with
    | parts run fraction exponent =>
      have first := run.length_lt
      have second := fraction.length_le
      have third := exponent.length_le
      omega
  cases number with
  | unsigned number => exact unsigned number
  | negative number => exact Nat.lt_succ_of_lt (unsigned number)

/-- Every phrase takes something off a text. -/
theorem Spells.length_lt {phrase : Phrase} (spells : Spells text phrase rest) :
    rest.length < text.length := by
  induction spells with
  | null begins | truth begins | falsehood begins =>
    have shorter := begins.length_lt
    rw [List.length_append] at shorter
    omega
  | number blank number =>
    rw [List.length_append]
    exact Nat.lt_add_left _ number.length_lt
  | string begins quotes =>
    have shorter := begins.length_lt
    rw [List.length_append, List.length_cons] at shorter
    omega
  | emptyList begins ends | emptyObject begins ends =>
    exact ends.length_lt.trans begins.length_lt
  | list begins _ _ first more | object begins _ _ first more
  | nextItem begins _ _ first more | nextMember begins _ _ first more =>
    exact more.trans (first.trans begins.length_lt)
  | endOfItems ends | endOfMembers ends => exact ends.length_lt
  | member begins _ colon _ value =>
    have shorter := begins.length_lt
    rw [List.length_append, List.length_cons] at shorter
    have later := value.trans colon.length_lt
    omega

theorem Unsigned.head {digits? : Option (List Char)} (unsigned : Unsigned text digits? rest) :
    ∃ c more, text = c :: more ∧ c.isDigit = true := by
  obtain ⟨run, -, -⟩ := unsigned
  obtain ⟨c, more, rfl⟩ := List.exists_cons_of_ne_nil run.nonempty
  exact ⟨c, _, run.whole, run.all c List.mem_cons_self⟩

/-- A number starts with its sign or a digit. -/
theorem Number.head {natural? : Option Nat} (number : Number text natural? rest) :
    ∃ c more, text = c :: more ∧ (c = '-' || c.isDigit) = true := by
  cases number with
  | unsigned unsigned =>
    obtain ⟨c, more, rfl, digit⟩ := unsigned.head
    exact ⟨c, more, rfl, by rw [digit, Bool.or_true]⟩
  | negative => exact ⟨'-', _, rfl, rfl⟩

theorem isBlank_of_starts (starts : (c = '-' || c.isDigit) = true) : isBlank c = false := by
  rcases Bool.or_eq_true_iff.mp starts with sign | digit
  · rw [of_decide_eq_true sign]
    rfl
  · exact Reader.isBlank_of_isDigit digit

/-- A value does not begin like the end of a list. -/
theorem Spells.value_head {document : Document} (spells : Spells text (.value document) rest) :
    ∃ c more, text.dropWhile isBlank = c :: more ∧ c ≠ ']' := by
  have other {c : Char} {rest : List Char} (solid : isBlank c = false) (differs : c ≠ ']')
      (begins : Begins text c rest) :
      ∃ c more, text.dropWhile isBlank = c :: more ∧ c ≠ ']' :=
    ⟨c, rest, begins.dropWhile solid, differs⟩
  cases spells with
  | null begins => exact other rfl (by decide) begins
  | truth begins => exact other rfl (by decide) begins
  | falsehood begins => exact other rfl (by decide) begins
  | string begins => exact other rfl (by decide) begins
  | emptyList begins => exact other rfl (by decide) begins
  | list begins => exact other rfl (by decide) begins
  | emptyObject begins => exact other rfl (by decide) begins
  | object begins => exact other rfl (by decide) begins
  | number blank number =>
    obtain ⟨c, more, rfl, starts⟩ := number.head
    have solid := isBlank_of_starts starts
    refine other solid ?_ ⟨_, blank, rfl⟩
    rintro rfl
    exact absurd starts (by decide)

/-! ## Reading strings -/

theorem unescape?_ne_u {letter : Char} (known : (unescape? letter).isSome = true) : letter ≠ 'u' := by
  rintro rfl
  exact absurd known (by decide)

/-- What follows the closing quote of a string is left, if its contents are escaped as they should be. -/
theorem skipString_iff :
    skipString text = .ok rest ↔ ∃ contents, IsEscaped contents ∧ text = contents ++ '"' :: rest := by
  constructor
  · intro skipped
    fun_induction skipString text with
    | case2 behind => exact ⟨[], .nil, by rw [Except.ok.inj skipped, List.nil_append]⟩
    | case4 a b c d behind known ih =>
      obtain ⟨contents, escaped, rfl⟩ := ih skipped
      exact ⟨_, .unit known escaped, rfl⟩
    | case7 letter behind _ _ known ih =>
      obtain ⟨contents, escaped, rfl⟩ := ih skipped
      exact ⟨_, .letter known escaped, rfl⟩
    | case10 c behind unquoted atEnd _ _ before visible ih =>
      have unslashed : c ≠ '\\' := by
        intro slash
        cases behind with
        | nil => exact atEnd slash rfl
        | cons letter more => exact before letter more slash rfl
      obtain ⟨contents, escaped, rfl⟩ := ih skipped
      exact ⟨_, .plain unquoted unslashed (Nat.le_of_not_lt visible) escaped, rfl⟩
    | _ => cases skipped
  · rintro ⟨contents, escaped, rfl⟩
    induction escaped with
    | nil => rfl
    | plain unquoted unslashed visible _ ih =>
      rw [List.cons_append, skipString, if_neg (Nat.not_lt.mpr visible), ih]
      · exact unquoted
      · exact fun slash _ => unslashed slash
      · exact fun _ _ _ _ _ slash _ => unslashed slash
      · exact fun _ slash _ => unslashed slash
      · exact fun _ _ slash _ => unslashed slash
    | letter known _ ih =>
      have other := unescape?_ne_u known
      rw [List.cons_append, List.cons_append, skipString, if_pos known, ih]
      · exact fun _ _ _ _ _ same _ => other same
      · exact fun same => other same
    | unit known _ ih =>
      simp only [List.cons_append]
      rw [skipString, if_pos known, ih]

/-- A character is put before the ones that are read. -/
theorem map_cons_eq_ok {read : Except Fault (List Char × List Char)} {chars : List Char} :
    (read.map fun (chars, rest) => (c :: chars, rest)) = .ok (chars, rest) ↔
      ∃ more, read = .ok (more, rest) ∧ chars = c :: more := by
  cases read with
  | error fault => simp [Except.map]
  | ok given =>
    simp only [Except.map, Except.ok.injEq, Prod.ext_iff]
    constructor
    · rintro ⟨rfl, rfl⟩
      exact ⟨_, ⟨rfl, rfl⟩, rfl⟩
    · rintro ⟨more, ⟨rfl, rfl⟩, rfl⟩
      exact ⟨rfl, rfl⟩

/-- The characters of a string are those for which its contents stand. -/
theorem stringChars_iff {chars : List Char} :
    stringChars text = .ok (chars, rest) ↔
      ∃ contents, Unescapes contents chars ∧ text = contents ++ '"' :: rest := by
  constructor
  · intro read
    fun_induction stringChars text generalizing chars with
    | case2 behind =>
      obtain ⟨rfl, rfl⟩ := Prod.mk.inj (Except.ok.inj read)
      exact ⟨[], .nil, rfl⟩
    | case5 a b c d behind unit known alone ih =>
      obtain ⟨more, later, rfl⟩ := map_cons_eq_ok.mp read
      obtain ⟨contents, unescapes, rfl⟩ := ih later
      exact ⟨_, .unit known alone unescapes, rfl⟩
    | case9 a b c d high first paired isHigh e f g h behind low second isLow code =>
      rename_i ih
      obtain ⟨more, later, rfl⟩ := map_cons_eq_ok.mp read
      obtain ⟨contents, unescapes, rfl⟩ := ih later
      exact ⟨_, .pair first ⟨by omega, by omega⟩ second ⟨by omega, by omega⟩ unescapes, rfl⟩
    | case16 letter behind _ _ c known ih =>
      obtain ⟨more, later, rfl⟩ := map_cons_eq_ok.mp read
      obtain ⟨contents, unescapes, rfl⟩ := ih later
      exact ⟨_, .letter known unescapes, rfl⟩
    | case18 c behind unquoted atEnd _ _ before visible ih =>
      have unslashed : c ≠ '\\' := by
        intro slash
        cases behind with
        | nil => exact atEnd slash rfl
        | cons letter more => exact before letter more slash rfl
      obtain ⟨more, later, rfl⟩ := map_cons_eq_ok.mp read
      obtain ⟨contents, unescapes, rfl⟩ := ih later
      exact ⟨_, .plain unquoted unslashed (Nat.le_of_not_lt visible) unescapes, rfl⟩
    | _ => cases read
  · rintro ⟨contents, unescapes, rfl⟩
    induction unescapes with
    | nil => rfl
    | plain unquoted unslashed visible _ ih =>
      rw [List.cons_append, stringChars, if_neg (Nat.not_lt.mpr visible), ih]
      · rfl
      · exact unquoted
      · exact fun slash _ => unslashed slash
      · exact fun _ _ _ _ _ slash _ => unslashed slash
      · exact fun _ slash _ => unslashed slash
      · exact fun _ _ slash _ => unslashed slash
    | letter known _ ih =>
      have other := unescape?_ne_u (Option.isSome_of_eq_some known)
      rw [List.cons_append, List.cons_append, stringChars, known]
      · exact map_cons_eq_ok.mpr ⟨_, ih, rfl⟩
      · exact fun _ _ _ _ _ same _ => other same
      · exact fun same => other same
    | unit known alone _ ih =>
      simp only [List.cons_append]
      rw [stringChars, known]
      simp only [alone, ↓reduceIte]
      exact map_cons_eq_ok.mpr ⟨_, ih, rfl⟩
    | @pair _ _ _ _ _ _ _ _ high low _ _ first isHigh second isLow _ ih =>
      simp only [List.cons_append]
      rw [stringChars, first]
      have paired : ¬ (high < 0xD800 ∨ 0xDFFF < high) := by omega
      have found : ¬ (low < 0xDC00 ∨ 0xDFFF < low) := by omega
      simp only [paired, Nat.not_le.mpr isHigh.2, second, found, ↓reduceIte]
      exact map_cons_eq_ok.mpr ⟨_, ih, rfl⟩

theorem Unescapes.isEscaped {contents chars : List Char} (unescapes : Unescapes contents chars) :
    IsEscaped contents := by
  induction unescapes with
  | nil => exact .nil
  | plain unquoted unslashed visible _ ih => exact .plain unquoted unslashed visible ih
  | letter known _ ih => exact .letter (Option.isSome_of_eq_some known) ih
  | unit known _ _ ih => exact .unit (Option.isSome_of_eq_some known) ih
  | pair first _ second _ _ ih =>
    exact .unit (Option.isSome_of_eq_some first) (.unit (Option.isSome_of_eq_some second) ih)

theorem Quotes.isEscaped {contents : List Char} {value? : Option String}
    (quotes : Quotes contents value?) : IsEscaped contents := by
  cases quotes with
  | text unescapes => exact unescapes.isEscaped
  | units escaped => exact escaped

theorem IsEscaped.quotes {contents : List Char} (escaped : IsEscaped contents) :
    ∃ value?, Quotes contents value? := by
  by_cases text : ∃ chars, Unescapes contents chars
  · obtain ⟨chars, unescapes⟩ := text
    exact ⟨some (String.ofList chars), .text (by rwa [String.toList_ofList])⟩
  · exact ⟨none, .units escaped fun chars unescapes => text ⟨chars, unescapes⟩⟩

/-- A string is skipped if it is one. -/
theorem skipString_iff_quotes :
    skipString text = .ok rest ↔
      ∃ contents value?, Quotes contents value? ∧ text = contents ++ '"' :: rest := by
  rw [skipString_iff]
  constructor
  · rintro ⟨contents, escaped, rfl⟩
    obtain ⟨value?, quotes⟩ := escaped.quotes
    exact ⟨contents, value?, quotes, rfl⟩
  · rintro ⟨contents, value?, quotes, rfl⟩
    exact ⟨contents, quotes.isEscaped, rfl⟩

/-- A string is read if it has a value. -/
theorem stringChars_iff_quotes {value : String} :
    stringChars text = .ok (value.toList, rest) ↔
      ∃ contents, Quotes contents (some value) ∧ text = contents ++ '"' :: rest := by
  rw [stringChars_iff]
  apply exists_congr
  intro contents
  apply and_congr_left
  intro _
  constructor
  · exact .text
  · rintro ⟨unescapes⟩
    exact unescapes

end JsxTracking.Json
