import JsxTracking.Manifest
import Mathlib.Algebra.GroupWithZero.Nat
import Mathlib.Data.List.Forall2

/-! # Reading what was written

A record of a build is written as JSON over several lines and read again by the next build. Reading
undoes writing: a reader *reads* a value from its JSON form if it takes the text of that form off the
front of any text, whatever level of indentation it is written at (`Json.Reader.Reads`). Members of
objects and elements of lists are read one after another (`Json.Reader.reads_record`,
`Json.Reader.reads_list`), so records are read if what they hold is. The one text that is not read back
is that of a summary whose total takes more than 64 bits (`Summary.ofText_pretty_rejected`). -/

namespace JsxTracking

namespace Json

/-- Whether a text may stand behind a value: it is empty, ends the line or goes on with a comma. -/
def isDelimited (rest : List Char) : Bool :=
  rest.head?.all fun c => c = ',' || c = '\n'

/-- Whether all characters may stand between tokens. -/
def areBlank (blanks : List Char) : Bool :=
  blanks.all isBlank

theorem areBlank_newline (level : Nat) : areBlank (newline level) = true := by
  simp [areBlank, newline, isBlank]

theorem dropWhile_blanks {blanks : List Char} (blank : areBlank blanks = true) {c : Char}
    (solid : isBlank c = false) (rest : List Char) :
    (blanks ++ c :: rest).dropWhile isBlank = c :: rest := by
  induction blanks with
  | nil => rw [List.nil_append, List.dropWhile_cons_of_neg (by simp [solid])]
  | cons b more ih =>
    simp only [areBlank, List.all_cons, Bool.and_eq_true] at blank ih
    rw [List.cons_append, List.dropWhile_cons_of_pos blank.1, ih blank.2]

/-! ## Strings -/

/-- The escape of a control character is read as its code. -/
theorem hexUnit?_control : ∀ code < 0x20,
    hexUnit? '0' '0' (hexDigit (code / 16)) (hexDigit (code % 16)) = some code := by
  decide

/-- An escaped character is read as the character. -/
theorem stringChars_escape (c : Char) (rest : List Char) :
    stringChars (escape c ++ rest) =
      (stringChars rest).map fun (chars, rest) => (c :: chars, rest) := by
  unfold escape
  split_ifs with quoted slashed feed carriage tab backspace form control
  · subst quoted
    rfl
  · subst slashed
    rfl
  · subst feed
    rfl
  · subst carriage
    rfl
  · subst tab
    rfl
  · subst backspace
    rfl
  · subst form
    rfl
  · have unit := hexUnit?_control c.toNat control
    have plane : c.toNat < 0xD800 ∨ 0xDFFF < c.toNat := .inl (by omega)
    simp only [List.cons_append, List.nil_append, stringChars, unit, plane, ↓reduceIte,
      Char.ofNat_toNat]
  · -- No form that starts with a quote or a backslash applies.
    rw [List.singleton_append, stringChars]
    · exact if_neg control
    · exact quoted
    · exact fun same _ => slashed same
    · exact fun _ _ _ _ _ same _ => slashed same
    · exact fun _ same _ => slashed same
    · exact fun _ _ same _ => slashed same

/-- The text of a string is read up to its closing quote. -/
theorem stringChars_quote (chars rest : List Char) :
    stringChars (chars.flatMap escape ++ '"' :: rest) = .ok (chars, rest) := by
  induction chars with
  | nil => rfl
  | cons c more ih =>
    rw [List.flatMap_cons, List.append_assoc, stringChars_escape, ih]
    rfl

namespace Reader

variable {α β σ : Type}

theorem run_bind_ok {read : Reader α} {next : α → Reader β} {text rest : List Char} {value : α}
    (ok : read.run text = .ok (value, rest)) :
    (read >>= next).run text = (next value).run rest := by
  rw [StateT.run_bind, ok]
  rfl

theorem run_peek {blanks : List Char} (blank : areBlank blanks = true) {c : Char}
    (solid : isBlank c = false) (rest : List Char) :
    peek.run (blanks ++ c :: rest) = .ok (some c, c :: rest) := by
  have dropped := dropWhile_blanks blank solid rest
  change Except.ok (((blanks ++ c :: rest).dropWhile isBlank).head?,
    (blanks ++ c :: rest).dropWhile isBlank) = _
  rw [dropped]
  rfl

theorem run_peek_next {c : Char} (solid : isBlank c = false) (rest : List Char) :
    peek.run (c :: rest) = .ok (some c, c :: rest) :=
  @run_peek [] rfl c solid rest

theorem run_advance (c : Char) (rest : List Char) :
    advance.run (c :: rest) = .ok ((), rest) := rfl

theorem run_get (text : List Char) : (get : Reader (List Char)).run text = .ok (text, text) := rfl

theorem run_lift {read : List Char → Except Fault (α × List Char)} {text rest : List Char}
    {value : α} (ok : read text = .ok (value, rest)) : (lift read).run text = .ok (value, rest) :=
  ok

theorem run_lifted (read : List Char → Except Fault (α × List Char)) (text : List Char) :
    (lift read).run text = read text := rfl

theorem run_string {blanks : List Char} (blank : areBlank blanks = true) (value : String)
    (rest : List Char) : string.run (blanks ++ quote value ++ rest) = .ok (value, rest) := by
  have shape : blanks ++ quote value ++ rest =
      blanks ++ '"' :: (value.toList.flatMap escape ++ '"' :: rest) := by
    simp [quote]
  rw [shape, string, run_bind_ok (run_peek blank rfl _)]
  simp only
  rw [run_bind_ok (run_advance _ _), run_bind_ok (run_lift (stringChars_quote value.toList rest)),
    String.ofList_toList]
  rfl

/-- A reader reads a value from a JSON form: it takes the text of the form, with blanks before it, off
the front of any text in which the form may end there. -/
def Reads (reader : Reader α) (json : Json) (value : α) : Prop :=
  ∀ (level : Nat) {blanks rest : List Char}, areBlank blanks = true → isDelimited rest = true →
    reader.run (blanks ++ (prettyChars level json ++ rest)) = .ok (value, rest)

/-- A value is read where its form begins. -/
theorem Reads.run_next {reader : Reader α} {json : Json} {value : α} (reads : Reads reader json value)
    (level : Nat) {rest : List Char} (delimited : isDelimited rest = true) :
    reader.run (prettyChars level json ++ rest) = .ok (value, rest) :=
  @reads level [] rest rfl delimited

theorem reads_string (value : String) : Reads string (.str value) value := by
  intro level blanks rest blank _
  rw [← List.append_assoc]
  exact run_string blank value rest

/-- What is read is passed on. -/
theorem Reads.map {reader : Reader α} {json : Json} {value : α} (reads : Reads reader json value)
    {next : α → Reader β} {result : β} (gives : ∀ rest, (next value).run rest = .ok (result, rest)) :
    Reads (reader >>= next) json result := by
  intro level blanks rest blank delimited
  rw [run_bind_ok (reads level blank delimited), gives]

/-! ## Numbers -/

theorem head?_toDigits {n : Nat} (positive : 0 < n) : (Nat.toDigits 10 n).head? ≠ some '0' := by
  induction n using Nat.strongRecOn with
  | ind n ih =>
    by_cases small : n < 10
    · rw [Nat.toDigits_of_lt_base small]
      have digits : ∀ digit < 10, 0 < digit → Nat.digitChar digit ≠ '0' := by decide
      simpa using digits n small positive
    · have large : 10 ≤ n := Nat.le_of_not_lt small
      rw [Nat.toDigits_of_base_le (by decide) large, List.head?_append_of_ne_nil]
      · exact ih (n / 10) (by omega) (by omega)
      · exact Nat.toDigits_ne_nil

theorem digitsValue_toDigits (n : Nat) : digitsValue (Nat.toDigits 10 n) = n := by
  have value := @Nat.ofDigitChars_ten_toDigits n
  simpa only [Nat.ofDigitChars, digitsValue, Nat.mul_comm 10] using value

/-- A run of digits is read up to what follows it. -/
theorem someDigits_append {digits rest : List Char} (some : digits ≠ [])
    (all : ∀ c ∈ digits, c.isDigit = true)
    (ends : rest.head?.all (fun c => !c.isDigit) = true) (atEnd : Fault) :
    someDigits atEnd (digits ++ rest) = .ok (digits, rest) := by
  have stops : rest.takeWhile Char.isDigit = [] ∧ rest.dropWhile Char.isDigit = rest := by
    cases rest with
    | nil => exact ⟨rfl, rfl⟩
    | cons c more =>
      have other : ¬ c.isDigit = true := by simpa using ends
      exact ⟨List.takeWhile_cons_of_neg other, List.dropWhile_cons_of_neg other⟩
  have front : (digits ++ rest).takeWhile Char.isDigit = digits := by
    rw [List.takeWhile_append_of_pos all, stops.1, List.append_nil]
  have back : (digits ++ rest).dropWhile Char.isDigit = rest := by
    rw [List.dropWhile_append_of_pos all, stops.2]
  obtain ⟨c, more, rfl⟩ := List.exists_cons_of_ne_nil some
  unfold someDigits
  rw [front]
  exact congrArg (fun rest => Except.ok (c :: more, rest)) back

/-- The digits of a number are read up to what follows it. -/
theorem wholeDigits_toDigits (n : Nat) {rest : List Char}
    (ends : rest.head?.all (fun c => !c.isDigit) = true) (atEnd : Fault) :
    wholeDigits atEnd (Nat.toDigits 10 n ++ rest) = .ok (Nat.toDigits 10 n, rest) := by
  have read := someDigits_append Nat.toDigits_ne_nil
    (fun c among => Nat.isDigit_of_mem_toDigits (b := 10) (n := n) (by decide) (Nat.le_refl _) among)
    ends atEnd
  rw [wholeDigits, read]
  split
  case h_1 second more other same =>
    -- Only zero is written with a leading zero, and its text has one digit.
    have digits : Nat.toDigits 10 n = '0' :: second :: more := congrArg Prod.fst (Except.ok.inj same)
    cases n with
    | zero => cases digits
    | succ n => exact absurd (congrArg List.head? digits) (head?_toDigits n.succ_pos)
  case h_2 => rfl

/-- What may stand behind a value does not go on with a number. -/
theorem numberParts_toDigits (n : Nat) {rest : List Char} (delimited : isDelimited rest = true)
    (atEnd : Fault) :
    numberParts false atEnd (Nat.toDigits 10 n ++ rest) =
      .ok (⟨false, Nat.toDigits 10 n, [], 0, true⟩, rest) := by
  have ends : rest.head?.all (fun c => !c.isDigit) = true := by
    cases rest with
    | nil => rfl
    | cons c more =>
      rcases (by simpa [isDelimited] using delimited : c = ',' ∨ c = '\n') with rfl | rfl <;> rfl
  rw [numberParts, wholeDigits_toDigits n ends]
  cases rest with
  | nil => rfl
  | cons c more =>
    rcases (by simpa [isDelimited] using delimited : c = ',' ∨ c = '\n') with rfl | rfl <;> rfl

theorem isBlank_of_isDigit {c : Char} (digit : c.isDigit = true) : isBlank c = false := by
  have other : ∀ blank : Char, blank.isDigit = false → c ≠ blank := by
    rintro blank none rfl
    exact absurd digit (by simp [none])
  simp [isBlank, other ' ' rfl, other '\t' rfl, other '\n' rfl, other '\r' rfl]

/-- Digits are read as a number, if they are not too many for one. -/
theorem run_digits (value : Nat) {rest : List Char} (delimited : isDelimited rest = true) :
    number.run (Nat.toDigits 10 value ++ rest) =
      (NumberParts.natural? ⟨false, Nat.toDigits 10 value, [], 0, true⟩).map (·, rest) := by
  have parts := numberParts_toDigits value delimited .truncated
  obtain ⟨c, more, digits⟩ :=
    List.exists_cons_of_ne_nil (Nat.toDigits_ne_nil (n := value) (b := 10))
  have unsigned : c ≠ '-' := by
    rintro rfl
    have digit : ('-' : Char).isDigit = true :=
      Nat.isDigit_of_mem_toDigits (by decide) (Nat.le_refl _) (digits ▸ List.mem_cons_self)
    exact absurd digit (by decide)
  refine (run_lifted _ _).trans ?_
  rw [digits, List.cons_append] at parts ⊢
  dsimp only
  split
  case h_1 _ _ same => exact absurd (List.cons.inj same).1 unsigned
  case h_2 =>
    rw [parts]
    change (do return (← NumberParts.natural? ⟨false, c :: more, [], 0, true⟩, rest)) = _
    cases NumberParts.natural? ⟨false, c :: more, [], 0, true⟩ <;> rfl

theorem run_number {value : Nat} (fits : value < 2 ^ 64) {rest : List Char}
    (delimited : isDelimited rest = true) :
    number.run (Nat.toDigits 10 value ++ rest) = .ok (some value, rest) := by
  have natural : NumberParts.natural? ⟨false, Nat.toDigits 10 value, [], 0, true⟩ =
      .ok (some value) := by
    rw [NumberParts.natural?, digitsValue_toDigits]
    exact if_pos (by simpa using fits)
  rw [run_digits value delimited, natural]
  rfl

theorem run_natural {blanks rest : List Char} (blank : areBlank blanks = true) {value : Nat}
    (fits : value < 2 ^ 64) (delimited : isDelimited rest = true) :
    natural.run (blanks ++ (Nat.toDigits 10 value ++ rest)) = .ok (value, rest) := by
  have read := run_number fits delimited
  obtain ⟨c, more, digits⟩ :=
    List.exists_cons_of_ne_nil (Nat.toDigits_ne_nil (n := value) (b := 10))
  have digit : c.isDigit = true :=
    Nat.isDigit_of_mem_toDigits (by decide) (Nat.le_refl _) (digits ▸ List.mem_cons_self)
  rw [digits, List.cons_append] at read ⊢
  rw [natural, run_bind_ok (run_peek blank (isBlank_of_isDigit digit) _)]
  simp only [digit, Bool.or_true, ↓reduceIte]
  rw [run_bind_ok read]
  rfl

theorem reads_natural {value : Nat} (fits : value < 2 ^ 64) :
    Reads natural (.nat value) value := by
  intro level blanks rest blank delimited
  have digits : prettyChars level (.nat value) = Nat.toDigits 10 value := by
    rw [Json.nat, prettyChars, Nat.toString_eq_repr, Nat.toList_repr]
  rw [digits]
  exact run_natural blank fits delimited

/-! ## Lists -/

/-- Whether a form opens with a character that is neither blank nor the end of a list. -/
def Opens (json : Json) : Prop :=
  ∀ level, ∃ c more, prettyChars level json = c :: more ∧ isBlank c = false ∧ c ≠ ']'

theorem opens_obj (members : List (String × Json)) : Opens (.obj members) := by
  intro level
  cases members with
  | nil => exact ⟨'{', ['}'], by rw [prettyChars], rfl, by decide⟩
  | cons member more => exact ⟨'{', _, by rw [prettyChars], rfl, by decide⟩

theorem isDelimited_prettyItems (level : Nat) (items : List Json) (outer : Nat)
    (rest : List Char) : isDelimited (prettyItems level items ++ (newline outer ++ rest)) = true := by
  cases items with
  | nil => simp [prettyItems, newline, isDelimited]
  | cons item more => simp [prettyItems, isDelimited]

theorem length_le_prettyItems (level : Nat) (items : List Json) :
    items.length ≤ (prettyItems level items).length := by
  induction items with
  | nil => exact Nat.zero_le _
  | cons item more ih =>
    simp only [prettyItems, List.length_cons, List.length_append]
    omega

theorem run_moreItems_end (first : Bool) {blanks : List Char} (blank : areBlank blanks = true)
    (rest : List Char) :
    (moreItems first).run (blanks ++ ']' :: rest) = .ok (false, ']' :: rest) := by
  rw [moreItems, run_bind_ok (run_peek blank rfl rest)]
  rfl

theorem run_moreItems_first {blanks : List Char} (blank : areBlank blanks = true) {c : Char}
    (solid : isBlank c = false) (item : c ≠ ']') (rest : List Char) :
    (moreItems true).run (blanks ++ c :: rest) = .ok (true, c :: rest) := by
  rw [moreItems, run_bind_ok (run_peek blank solid rest)]
  split
  case h_1 none => cases none
  case h_2 same => exact absurd (Option.some.inj same) item
  case h_3 => rfl

theorem run_moreItems_next {blanks : List Char} (blank : areBlank blanks = true) {c : Char}
    (solid : isBlank c = false) (item : c ≠ ']') (rest : List Char) :
    (moreItems false).run (',' :: (blanks ++ c :: rest)) = .ok (true, c :: rest) := by
  rw [moreItems, run_bind_ok (run_peek_next rfl _)]
  refine (run_bind_ok (run_advance _ _)).trans ?_
  rw [run_bind_ok (run_peek blank solid rest)]
  split
  case h_1 same => exact absurd (Option.some.inj same) item
  case h_2 => rfl
  case h_3 none => cases none

theorem run_endOfList (rest : List Char) : endOfList.run (']' :: rest) = .ok ((), rest) := by
  rw [endOfList, run_bind_ok (run_peek_next rfl rest)]
  rfl

/-- The elements after the first are read up to the end of the list. -/
theorem run_items {item : Reader α} {jsons : List Json} {values : List α}
    (reads : List.Forall₂ (Reads item) jsons values) (opens : ∀ json ∈ jsons, Opens json)
    (level outer : Nat) (rest : List Char) {fuel : Nat} (enough : jsons.length < fuel) :
    (items item fuel false).run
      (prettyItems level jsons ++ (newline outer ++ ']' :: rest)) = .ok (values, rest) := by
  induction reads generalizing fuel with
  | nil =>
    obtain ⟨fuel, rfl⟩ := Nat.exists_eq_add_of_lt enough
    rw [prettyItems, List.nil_append, List.length_nil, Nat.zero_add, items,
      run_bind_ok (run_moreItems_end false (areBlank_newline outer) rest)]
    simp only [Bool.false_eq_true, ↓reduceIte]
    rw [run_bind_ok (run_endOfList rest)]
    rfl
  | @cons json value jsons values head tail ih =>
    obtain ⟨fuel, rfl⟩ : ∃ less, fuel = less + 1 := ⟨fuel - 1, by simp at enough; omega⟩
    obtain ⟨c, more, begins, solid, isItem⟩ := opens json List.mem_cons_self level
    have shorter : jsons.length < fuel := by simpa using enough
    have later := ih (fun json among => opens json (List.mem_cons_of_mem _ among)) shorter
    have read := head.run_next level (isDelimited_prettyItems level jsons outer (']' :: rest))
    rw [begins, List.cons_append] at read
    simp only [prettyItems, begins, List.append_assoc, List.cons_append]
    rw [items, run_bind_ok (run_moreItems_next (areBlank_newline level) solid isItem _)]
    simp only [↓reduceIte]
    rw [run_bind_ok read, run_bind_ok later]
    rfl

/-- A list is read if its elements are. -/
theorem reads_list {item : Reader α} {jsons : List Json} {values : List α}
    (reads : List.Forall₂ (Reads item) jsons values) (opens : ∀ json ∈ jsons, Opens json) :
    Reads (list item) (.arr jsons) values := by
  intro level blanks rest blank delimited
  cases reads with
  | nil =>
    have ends : (moreItems true).run (']' :: rest) = .ok (false, ']' :: rest) :=
      @run_moreItems_end true [] rfl rest
    simp only [prettyChars, List.cons_append, List.nil_append]
    rw [list, run_bind_ok (run_peek blank rfl _)]
    refine (run_bind_ok (run_advance _ _)).trans ?_
    refine (run_bind_ok (run_get _)).trans ?_
    rw [items, run_bind_ok ends]
    refine (run_bind_ok (run_endOfList rest)).trans ?_
    rfl
  | @cons json value jsons values head tail =>
    obtain ⟨c, more, begins, solid, isItem⟩ := opens json List.mem_cons_self (level + 1)
    have read := head.run_next (level + 1)
      (isDelimited_prettyItems (level + 1) jsons level (']' :: rest))
    rw [begins, List.cons_append] at read
    simp only [prettyChars, begins, List.append_assoc, List.cons_append, List.nil_append]
    rw [list, run_bind_ok (run_peek blank rfl _)]
    refine (run_bind_ok (run_advance _ _)).trans ?_
    refine (run_bind_ok (run_get _)).trans ?_
    rw [items, run_bind_ok (run_moreItems_first (areBlank_newline (level + 1)) solid isItem _)]
    refine (run_bind_ok read).trans ?_
    have count := length_le_prettyItems (level + 1) jsons
    refine (run_bind_ok (run_items tail (fun json among => opens json (List.mem_cons_of_mem _ among))
      (level + 1) level rest ?_)).trans ?_
    · simp only [List.length_append, List.length_cons]
      omega
    · rfl

/-! ## Records -/

variable {record : List (Member σ)}

/-- The members of an object are read into a state, one after another: each is a member of the record
that has not been read yet. -/
inductive ReadsMembers (record : List (Member σ)) : σ → List (String × Json) → σ → Prop where
  | nil (state : σ) : ReadsMembers record state [] state
  | cons {state next last : σ} {key : String} {json : Json} {members : List (String × Json)}
      {member : Member σ} (found : record.find? (fun member => member.key = key) = some member)
      (unread : member.isRead state = false) (reads : Reads (member.read state) json next)
      (rest : ReadsMembers record next members last) :
      ReadsMembers record state ((key, json) :: members) last

theorem isDelimited_prettyMembers (level : Nat) (members : List (String × Json)) (outer : Nat)
    (rest : List Char) :
    isDelimited (prettyMembers level members ++ (newline outer ++ rest)) = true := by
  cases members with
  | nil => simp [prettyMembers, newline, isDelimited]
  | cons member more => simp [prettyMembers, isDelimited]

theorem length_le_prettyMembers (level : Nat) (members : List (String × Json)) :
    members.length ≤ (prettyMembers level members).length := by
  induction members with
  | nil => exact Nat.zero_le _
  | cons member more ih =>
    simp only [prettyMembers, List.length_cons, List.length_append]
    omega

theorem run_moreMembers_end (first : Bool) {blanks : List Char} (blank : areBlank blanks = true)
    (rest : List Char) :
    (moreMembers first).run (blanks ++ '}' :: rest) = .ok (false, '}' :: rest) := by
  rw [moreMembers, run_bind_ok (run_peek blank rfl rest)]
  rfl

theorem run_moreMembers_first {blanks : List Char} (blank : areBlank blanks = true)
    (rest : List Char) : (moreMembers true).run (blanks ++ '"' :: rest) = .ok (true, rest) := by
  rw [moreMembers, run_bind_ok (run_peek blank rfl rest)]
  rfl

theorem run_moreMembers_next {blanks : List Char} (blank : areBlank blanks = true)
    (rest : List Char) :
    (moreMembers false).run (',' :: (blanks ++ '"' :: rest)) = .ok (true, rest) := by
  rw [moreMembers, run_bind_ok (run_peek_next rfl _)]
  refine (run_bind_ok (run_advance _ _)).trans ?_
  rw [run_bind_ok (run_peek blank rfl rest)]
  rfl

theorem run_colon (rest : List Char) : colon.run (':' :: rest) = .ok ((), rest) := by
  rw [colon, run_bind_ok (run_peek_next rfl rest)]
  rfl

/-- A member is read from its key on. -/
theorem run_members_member {first : Bool} {text tail : List Char} {fuel level : Nat}
    {state next : σ} {key : String} {json : Json} {member : Member σ}
    (more : (moreMembers first).run text = .ok (true,
      key.toList.flatMap escape ++ '"' :: ':' :: ' ' :: (prettyChars level json ++ tail)))
    (found : record.find? (fun member => member.key = key) = some member)
    (unread : member.isRead state = false) (reads : Reads (member.read state) json next)
    (delimited : isDelimited tail = true) :
    (members record (fuel + 1) first state).run text =
      (members record fuel false next).run tail := by
  have value : (member.read state).run (' ' :: (prettyChars level json ++ tail)) =
      .ok (next, tail) := @reads level [' '] tail rfl delimited
  rw [members, run_bind_ok more]
  refine (run_bind_ok (run_lift (stringChars_quote key.toList _))).trans ?_
  simp only [String.ofList_toList, found, unread, Bool.false_eq_true, ↓reduceIte]
  rw [run_bind_ok (run_colon _), run_bind_ok value]

/-- The members after the first are read up to the end of the object. -/
theorem run_members {state last : σ} {jsons : List (String × Json)}
    (reads : ReadsMembers record state jsons last) (level outer : Nat) (rest : List Char)
    {fuel : Nat} (enough : jsons.length < fuel) :
    (members record fuel false state).run
      (prettyMembers level jsons ++ (newline outer ++ '}' :: rest)) = .ok (last, rest) := by
  induction reads generalizing fuel with
  | nil =>
    obtain ⟨fuel, rfl⟩ := Nat.exists_eq_add_of_lt enough
    rw [prettyMembers, List.nil_append, List.length_nil, Nat.zero_add, members,
      run_bind_ok (run_moreMembers_end false (areBlank_newline outer) rest)]
    rfl
  | @cons state next last key json jsons member found unread value _ ih =>
    obtain ⟨fuel, rfl⟩ : ∃ less, fuel = less + 1 := ⟨fuel - 1, by simp at enough; omega⟩
    simp only [prettyMembers, quote, List.append_assoc, List.cons_append, List.nil_append]
    refine (run_members_member (run_moreMembers_next (areBlank_newline level) _) found unread value
      (isDelimited_prettyMembers level jsons outer ('}' :: rest))).trans ?_
    exact ih (by simpa using enough)

/-- A record is read if its members are. -/
theorem reads_record {state last : σ} {jsons : List (String × Json)}
    (reads : ReadsMembers record state jsons last) :
    Reads (Reader.record record state) (.obj jsons) last := by
  intro level blanks rest blank delimited
  cases reads with
  | nil =>
    have ends : (moreMembers true).run ('}' :: rest) = .ok (false, '}' :: rest) :=
      @run_moreMembers_end true [] rfl rest
    simp only [prettyChars, List.cons_append, List.nil_append]
    rw [Reader.record, run_bind_ok (run_peek blank rfl _)]
    refine (run_bind_ok (run_advance _ _)).trans ?_
    refine (run_bind_ok (run_get _)).trans ?_
    rw [members, run_bind_ok ends]
    rfl
  | @cons _ next _ key json jsons member found unread value more =>
    simp only [prettyChars, quote, List.append_assoc, List.cons_append, List.nil_append]
    rw [Reader.record, run_bind_ok (run_peek blank rfl _)]
    refine (run_bind_ok (run_advance _ _)).trans ?_
    refine (run_bind_ok (run_get _)).trans ?_
    refine (run_members_member (run_moreMembers_first (areBlank_newline (level + 1)) _) found unread
      value (isDelimited_prettyMembers (level + 1) jsons level ('}' :: rest))).trans ?_
    have count := length_le_prettyMembers (level + 1) jsons
    apply run_members more
    simp only [List.length_append, List.length_cons]
    omega

/-- A member whose value is kept is read if its value is. -/
theorem reads_stored {key : String} {part : σ → Option α} {value : Reader α} {store : σ → α → σ}
    {json : Json} {read : α} (reads : Reads value json read) (state : σ) :
    Reads ((Member.stored key part value store).read state) json (store state read) :=
  reads.map fun _ => rfl

theorem reads_complete {reader : Reader σ} {complete? : σ → Option α} {json : Json} {state : σ}
    {value : α} (reads : Reads reader json state) (made : complete? state = some value) :
    Reads (do complete (complete? (← reader))) json value := by
  apply reads.map
  intro rest
  rw [made]
  rfl

/-- A text that was written is read back. -/
theorem readText_pretty {reader : Reader α} {json : Json} {value : α}
    (reads : Reads reader json value) : readText reader json.pretty = .ok value := by
  have read : reader.run (prettyChars 0 json) = .ok (value, []) := by
    have whole : reader.run (prettyChars 0 json ++ []) = .ok (value, []) := reads.run_next 0 rfl
    rwa [List.append_nil] at whole
  rw [readText, pretty, String.toList_ofList, read]
  rfl

/-! ## Numbers that do not fit -/

theorem run_bind_error {read : Reader α} {next : α → Reader β} {text : List Char} {fault : Fault}
    (failed : read.run text = .error fault) : (read >>= next).run text = .error fault := by
  rw [StateT.run_bind, failed]
  rfl

/-- A reader stops at a JSON form wherever it finds it. -/
def Rejects (reader : Reader α) (json : Json) : Prop :=
  ∀ level {blanks rest : List Char}, areBlank blanks = true → isDelimited rest = true →
    ∃ fault, reader.run (blanks ++ (prettyChars level json ++ rest)) = .error fault

theorem rejects_natural {value : Nat} (large : 2 ^ 64 ≤ value) : Rejects natural (.nat value) := by
  intro level blanks rest blank delimited
  have digits : prettyChars level (.nat value) = Nat.toDigits 10 value := by
    rw [Json.nat, prettyChars, Nat.toString_eq_repr, Nat.toList_repr]
  have read := run_digits value delimited
  have noValue : ∀ found, NumberParts.natural? ⟨false, Nat.toDigits 10 value, [], 0, true⟩ ≠
      .ok (some found) := by
    intro found
    rw [NumberParts.natural?, digitsValue_toDigits, if_neg (by simpa using large)]
    split <;> simp
  obtain ⟨c, more, begins⟩ :=
    List.exists_cons_of_ne_nil (Nat.toDigits_ne_nil (n := value) (b := 10))
  have digit : c.isDigit = true :=
    Nat.isDigit_of_mem_toDigits (by decide) (Nat.le_refl _) (begins ▸ List.mem_cons_self)
  rw [digits, natural]
  rw [begins] at noValue
  rw [begins, List.cons_append] at read ⊢
  rw [run_bind_ok (run_peek blank (isBlank_of_isDigit digit) _)]
  simp only [digit, Bool.or_true, ↓reduceIte]
  cases natural : NumberParts.natural? ⟨false, c :: more, [], 0, true⟩ with
  | error fault =>
    rw [natural] at read
    exact ⟨fault, run_bind_error read⟩
  | ok value? =>
    rw [natural] at read
    cases value? with
    | some found => exact absurd natural (noValue found)
    | none => exact ⟨.unexpected, run_bind_ok read⟩

/-- Reading stops at a member that is rejected. -/
theorem run_members_rejected {first : Bool} {text tail : List Char} {fuel level : Nat} {state : σ}
    {key : String} {json : Json} {member : Member σ}
    (more : (moreMembers first).run text = .ok (true,
      key.toList.flatMap escape ++ '"' :: ':' :: ' ' :: (prettyChars level json ++ tail)))
    (found : record.find? (fun member => member.key = key) = some member)
    (unread : member.isRead state = false) (rejects : Rejects (member.read state) json)
    (delimited : isDelimited tail = true) :
    ∃ fault, (members record (fuel + 1) first state).run text = .error fault := by
  obtain ⟨fault, failed⟩ := @rejects level [' '] tail rfl delimited
  refine ⟨fault, ?_⟩
  rw [members, run_bind_ok more]
  refine (run_bind_ok (run_lift (stringChars_quote key.toList _))).trans ?_
  simp only [String.ofList_toList, found, unread, Bool.false_eq_true, ↓reduceIte]
  rw [run_bind_ok (run_colon _)]
  exact run_bind_error failed

/-- A record is rejected if its second member is. -/
theorem rejects_record {state next : σ} {key second : String} {json other : Json}
    {jsons : List (String × Json)} {member behind : Member σ}
    (found : record.find? (fun member => member.key = key) = some member)
    (unread : member.isRead state = false) (reads : Reads (member.read state) json next)
    (foundSecond : record.find? (fun member => member.key = second) = some behind)
    (unreadSecond : behind.isRead next = false) (rejects : Rejects (behind.read next) other) :
    Rejects (Reader.record record state) (.obj ((key, json) :: (second, other) :: jsons)) := by
  intro level blanks rest blank delimited
  simp only [prettyChars, prettyMembers, quote, List.append_assoc, List.cons_append,
    List.nil_append]
  rw [Reader.record, run_bind_ok (run_peek blank rfl _)]
  refine Exists.imp (fun fault failed => (run_bind_ok (run_advance _ _)).trans
    ((run_bind_ok (run_get _)).trans ((run_members_member
      (run_moreMembers_first (areBlank_newline (level + 1)) _) found unread reads rfl).trans
        failed))) ?_
  rw [List.length_append, List.length_cons, ← Nat.add_assoc]
  exact run_members_rejected (run_moreMembers_next (areBlank_newline (level + 1)) _) foundSecond
    unreadSecond rejects (isDelimited_prettyMembers (level + 1) jsons level ('}' :: rest))

theorem readText_pretty_rejected {reader : Reader α} {json : Json} (rejects : Rejects reader json) :
    ∃ fault, readText reader json.pretty = .error fault := by
  obtain ⟨fault, failed⟩ := @rejects 0 [] [] rfl rfl
  rw [List.nil_append, List.append_nil] at failed
  refine ⟨fault, ?_⟩
  rw [readText, pretty, String.toList_ofList, failed]

theorem Rejects.complete {reader : Reader σ} {json : Json} (rejects : Rejects reader json)
    (complete? : σ → Option α) : Rejects (do complete (complete? (← reader))) json := by
  intro level blanks rest blank delimited
  obtain ⟨fault, failed⟩ := rejects level blank delimited
  exact ⟨fault, run_bind_error failed⟩

end Reader

end Json

/-! ## The records of a build -/

open Json.Reader

namespace MarkerKind

/-- A kind is read by its name. -/
theorem reads_label (kind : MarkerKind) : Reads reader (.str kind.label) kind := by
  intro level blanks rest blank _
  have name : string.run (Json.quote kind.label ++ rest) = .ok (kind.label, rest) :=
    @run_string [] rfl kind.label rest
  have known : ofLabel? kind.label = some kind := by cases kind <;> rfl
  rw [Json.prettyChars]
  refine (run_bind_ok (run_peek blank rfl _)).trans ?_
  refine (run_bind_ok name).trans ?_
  rw [known]
  rfl

end MarkerKind

/-- What a record keeps of a point. -/
def TrackingPoint.recorded (point : TrackingPoint) : TrackingPoint :=
  { point with file := "", dynamic := false }

/-- What a record keeps of a manifest. -/
def Manifest.recorded (manifest : Manifest) : Manifest :=
  { manifest with tracking := manifest.tracking.map TrackingPoint.recorded }

/-- What a record keeps of a summary. -/
def Summary.recorded (summary : Summary) : Summary :=
  { summary with files := summary.files.map Manifest.recorded }

@[simp] theorem TrackingPoint.toJson_recorded (point : TrackingPoint) :
    point.recorded.toJson = point.toJson := rfl

@[simp] theorem Manifest.toJson_recorded (manifest : Manifest) :
    manifest.recorded.toJson = manifest.toJson := by
  simp [Manifest.toJson, Manifest.recorded]

@[simp] theorem Summary.toJson_recorded (summary : Summary) :
    summary.recorded.toJson = summary.toJson := by
  simp [Summary.toJson, Summary.recorded]

theorem TrackingPoint.reads_toJson (point : TrackingPoint) :
    Reads TrackingPoint.reader point.toJson point.recorded :=
  reads_complete
    (reads_record
      (.cons rfl rfl (reads_stored (MarkerKind.reads_label point.kind) _)
        (.cons rfl rfl (reads_stored (reads_string point.name) _)
          (.cons rfl rfl (reads_stored (reads_string point.elementName) _) (.nil _)))))
    rfl

/-- Listed records are read one by one. -/
theorem reads_listed {α : Type} {reader : Json.Reader α} {toJson : α → Json} {recorded : α → α}
    (reads : ∀ value, Reads reader (toJson value) (recorded value))
    (opens : ∀ value, Opens (toJson value)) (values : List α) :
    Reads (list reader) (.arr (values.map toJson)) (values.map recorded) := by
  apply reads_list
  · rw [List.forall₂_map_left_iff, List.forall₂_map_right_iff]
    exact List.forall₂_same.mpr fun value _ => reads value
  · intro json listed
    obtain ⟨value, _, rfl⟩ := List.mem_map.mp listed
    exact opens value

theorem Manifest.reads_toJson (manifest : Manifest) :
    Reads Manifest.reader manifest.toJson manifest.recorded :=
  reads_complete
    (reads_record
      (.cons rfl rfl (reads_stored (reads_string manifest.file) _)
        (.cons rfl rfl (reads_stored (reads_string manifest.timestamp) _)
          (.cons rfl rfl
            (reads_stored
              (reads_listed TrackingPoint.reads_toJson (fun _ => opens_obj _) manifest.tracking) _)
            (.nil _)))))
    rfl

theorem Summary.reads_toJson {summary : Summary} (fits : summary.totalTracking < 2 ^ 64) :
    Reads Summary.reader summary.toJson summary.recorded :=
  reads_complete
    (reads_record
      (.cons rfl rfl
        (reads_stored (reads_listed Manifest.reads_toJson (fun _ => opens_obj _) summary.files) _)
        (.cons rfl rfl (reads_stored (reads_natural fits) _)
          (.cons rfl rfl (reads_stored (reads_string summary.lastUpdated) _) (.nil _)))))
    rfl

/-- A summary whose total does not fit is not read back. -/
theorem Summary.ofText_pretty_rejected {summary : Summary} (large : 2 ^ 64 ≤ summary.totalTracking) :
    ∃ fault, Summary.ofText summary.toJson.pretty = .error fault := by
  refine readText_pretty_rejected ((rejects_record rfl rfl
    (reads_stored (reads_listed Manifest.reads_toJson (fun _ => opens_obj _) summary.files) _)
    rfl rfl ?_).complete _)
  intro level blanks rest blank delimited
  obtain ⟨fault, failed⟩ := rejects_natural large level blank delimited
  exact ⟨fault, run_bind_error failed⟩

/-- **Records survive being written.** What is written of a manifest or a summary is read back, up to
what no record keeps of a point: its file, and whether its name stands for a dynamic value. Written
again, what was read gives the same text. -/
theorem records_read_back (manifest : Manifest) (summary : Summary)
    (fits : summary.totalTracking < 2 ^ 64) :
    (Manifest.ofText manifest.toJson.pretty = .ok manifest.recorded ∧
      manifest.recorded.toJson.pretty = manifest.toJson.pretty) ∧
    (Summary.ofText summary.toJson.pretty = .ok summary.recorded ∧
      summary.recorded.toJson.pretty = summary.toJson.pretty) := by
  refine ⟨⟨?_, ?_⟩, ?_, ?_⟩
  · exact readText_pretty manifest.reads_toJson
  · rw [Manifest.toJson_recorded]
  · exact readText_pretty (Summary.reads_toJson fits)
  · rw [Summary.toJson_recorded]

/-- Quotes, backslashes, control characters and letters beyond ASCII, in a summary whose total is not
that of its points. -/
theorem records_read_back_escaped :
    let point : TrackingPoint := ⟨.click, "\"buy\"\n\x01", "Ünit.Button", "src/ä.tsx", true⟩
    let manifest : Manifest := ⟨"src\\ä.tsx", "2024-01-01T00:00:00Z", [point]⟩
    let summary : Summary := ⟨[manifest, ⟨"", "", []⟩], 2 ^ 64 - 1, "\x7f\x0c"⟩
    summary.totalTracking < 2 ^ 64 ∧
      Manifest.ofText manifest.toJson.pretty =
        .ok { manifest with tracking := [{ point with file := "", dynamic := false }] } ∧
      Summary.ofText summary.toJson.pretty =
        .ok { summary with
          files := [{ manifest with tracking := [{ point with file := "", dynamic := false }] },
            ⟨"", "", []⟩] } := by
  intro point manifest summary
  have fits : summary.totalTracking < 2 ^ 64 := by decide
  have read := records_read_back manifest summary fits
  exact ⟨fits, read.1.1, read.2.1⟩

end JsxTracking
