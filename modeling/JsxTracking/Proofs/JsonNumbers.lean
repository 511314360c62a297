import JsxTracking.Proofs.JsonGrammar

/-! # Numbers of JSON texts

A number is read in parts: the digits before the point, those behind it, and an exponent, each as long
as it goes. What is read is a number of the grammar, and a number of the grammar is read to its end
(`numberParts_sound`, `numberParts_complete`). Only a number that is spelled by digits alone and takes
no more than 64 bits is read as a natural one (`Reader.run_number_iff`). -/

namespace JsxTracking.Json

variable {text rest behind : List Char} {c : Char}

theorem someDigits_iff {atEnd : Fault} {digits : List Char} :
    someDigits atEnd text = .ok (digits, rest) ↔ Digits text digits rest := by
  constructor
  · intro read
    have whole := text.takeWhile_append_dropWhile (p := Char.isDigit)
    have all : ∀ c ∈ text.takeWhile Char.isDigit, c.isDigit = true :=
      fun c => List.mem_takeWhile_imp
    have ends : (text.dropWhile Char.isDigit).head?.all (fun c => !c.isDigit) = true := by
      rw [← List.find?_not_eq_head?_dropWhile]
      cases found : text.find? fun c => !c.isDigit with
      | none => rfl
      | some c => exact (List.find?_some found :)
    unfold someDigits at read
    cases run : text.takeWhile Char.isDigit with
    | nil =>
      rw [run] at read
      cases text with
      | nil => cases read
      | cons c more => cases read
    | cons c more =>
      rw [run] at read whole all
      obtain ⟨rfl, rfl⟩ := Prod.mk.inj (Except.ok.inj read)
      exact ⟨whole.symm, List.cons_ne_nil _ _, all, ends⟩
  · rintro ⟨rfl, nonempty, all, ends⟩
    exact Reader.someDigits_append nonempty all ends atEnd

theorem wholeDigits_iff {atEnd : Fault} {digits : List Char} :
    wholeDigits atEnd text = .ok (digits, rest) ↔ WholeDigits text digits rest := by
  unfold wholeDigits
  constructor
  · intro read
    split at read
    case h_1 => cases read
    case h_2 alone =>
      refine ⟨someDigits_iff.mp read, fun zero => ?_⟩
      cases digits with
      | nil => cases zero
      | cons first more =>
        obtain rfl := Option.some.inj zero
        cases more with
        | nil => rfl
        | cons second more => exact absurd read (alone _ _ _)
  · rintro ⟨run, zero⟩
    rw [someDigits_iff.mpr run]
    split
    case h_1 second more _ same =>
      obtain ⟨rfl, -⟩ := Prod.mk.inj (Except.ok.inj same)
      cases zero rfl
    case h_2 => rfl

/-- The digits of a fraction and what follows them. -/
def fractionDigits (atEnd : Fault) (text : List Char) : Except Fault (List Char × List Char) :=
  match text with
  | '.' :: rest => someDigits atEnd rest
  | text => .ok ([], text)

/-- The sign of an exponent, and what follows it. -/
def exponentSign : List Char → Int × List Char
  | '+' :: rest => (1, rest)
  | '-' :: rest => (-1, rest)
  | rest => (1, rest)

/-- An exponent, if there is one, and what follows it. -/
def exponent? (atEnd : Fault) (text : List Char) : Except Fault (Option Int × List Char) :=
  match text with
  | 'e' :: rest | 'E' :: rest => do
    let (exponent, behind) ← someDigits atEnd (exponentSign rest).2
    return (some ((exponentSign rest).1 * digitsValue exponent), behind)
  | text => .ok (none, text)

theorem exponent?_some {atEnd : Fault} {letter : Char} (isLetter : letter = 'e' ∨ letter = 'E')
    (text : List Char) :
    exponent? atEnd (letter :: text) = (someDigits atEnd (exponentSign text).2).map
      fun (exponent, rest) => (some ((exponentSign text).1 * digitsValue exponent), rest) := by
  rcases isLetter with rfl | rfl
  · change (someDigits atEnd (exponentSign text).2 >>= _) = _
    cases someDigits atEnd (exponentSign text).2 <;> rfl
  · change (someDigits atEnd (exponentSign text).2 >>= _) = _
    cases someDigits atEnd (exponentSign text).2 <;> rfl

theorem exponent?_none {atEnd : Fault} (small : ∀ rest, text ≠ 'e' :: rest)
    (large : ∀ rest, text ≠ 'E' :: rest) : exponent? atEnd text = .ok (none, text) := by
  unfold exponent?
  split
  case h_1 => exact absurd rfl (small _)
  case h_2 => exact absurd rfl (large _)
  case h_3 => rfl

theorem fractionDigits_none {atEnd : Fault} (pointless : ∀ rest, text ≠ '.' :: rest) :
    fractionDigits atEnd text = .ok ([], text) := by
  unfold fractionDigits
  split
  case h_1 => exact absurd rfl (pointless _)
  case h_2 => rfl

/-- The parts of a number are read one after another. -/
theorem numberParts_eq (negative : Bool) (atEnd : Fault) (text : List Char) :
    numberParts negative atEnd text = do
      let (whole, middle) ← wholeDigits atEnd text
      let (fraction, behind) ← fractionDigits atEnd middle
      let (exponent?, rest) ← exponent? atEnd behind
      return (⟨negative, whole, fraction, exponent?.getD 0,
        exponent?.isNone && fraction.isEmpty⟩, rest) := by
  unfold numberParts
  apply bind_congr
  rintro ⟨whole, middle⟩
  dsimp only
  split
  case h_1 pointed =>
    change (someDigits atEnd pointed >>= _) = (someDigits atEnd pointed >>= _)
    apply bind_congr
    rintro ⟨fraction, behind⟩
    dsimp only
    split
    case h_1 marked =>
      change (someDigits atEnd (exponentSign marked).2 >>= _) = _
      rw [exponent?_some (.inl rfl)]
      cases someDigits atEnd (exponentSign marked).2 <;> rfl
    case h_2 marked =>
      change (someDigits atEnd (exponentSign marked).2 >>= _) = _
      rw [exponent?_some (.inr rfl)]
      cases someDigits atEnd (exponentSign marked).2 <;> rfl
    case h_3 small large =>
      rw [exponent?_none small large]
      rfl
  case h_2 pointless =>
    rw [fractionDigits_none pointless]
    dsimp only [bind, Except.bind]
    split
    case h_1 marked =>
      change (someDigits atEnd (exponentSign marked).2 >>= _) = _
      rw [exponent?_some (.inl rfl)]
      cases someDigits atEnd (exponentSign marked).2 <;> rfl
    case h_2 marked =>
      change (someDigits atEnd (exponentSign marked).2 >>= _) = _
      rw [exponent?_some (.inr rfl)]
      cases someDigits atEnd (exponentSign marked).2 <;> rfl
    case h_3 small large =>
      rw [exponent?_none small large]
      rfl

theorem fractionDigits_iff {atEnd : Fault} {digits : List Char} :
    fractionDigits atEnd text = .ok (digits, rest) ↔ Fraction text digits rest := by
  constructor
  · intro read
    unfold fractionDigits at read
    split at read
    case h_1 => exact .some (someDigits_iff.mp read)
    case h_2 pointless =>
      obtain ⟨rfl, rfl⟩ := Prod.mk.inj (Except.ok.inj read)
      apply Fraction.none
      cases text with
      | nil => exact fun impossible => by cases impossible
      | cons c more => exact fun point => pointless more (by rw [Option.some.inj point])
  · intro fraction
    cases fraction with
    | none pointless =>
      apply fractionDigits_none
      rintro rest rfl
      exact pointless rfl
    | some run => exact someDigits_iff.mpr run

/-- The sign of an exponent is apart from its digits. -/
theorem exponentSign_iff {digits : List Char} (run : Digits behind digits rest) :
    (exponentSign text).2 = behind ↔
      ∃ sign, (sign = [] ∨ sign = ['+'] ∨ sign = ['-']) ∧ text = sign ++ behind := by
  constructor
  · rintro rfl
    unfold exponentSign
    split
    · exact ⟨_, .inr (.inl rfl), rfl⟩
    · exact ⟨_, .inr (.inr rfl), rfl⟩
    · exact ⟨[], .inl rfl, rfl⟩
  · rintro ⟨sign, isSign, rfl⟩
    rcases isSign with rfl | rfl | rfl
    · have digit : ∀ c ∈ behind.head?, c.isDigit = true := by
        intro c first
        obtain ⟨d, more, rfl⟩ := List.exists_cons_of_ne_nil run.nonempty
        rw [run.whole] at first
        exact run.all c (by simp at first; simp [first])
      rw [List.nil_append]
      unfold exponentSign
      split
      · exact absurd (digit _ rfl) (by decide)
      · exact absurd (digit _ rfl) (by decide)
      · rfl
    · rfl
    · rfl

theorem exponent?_iff {atEnd : Fault} {marked : Bool} :
    (∃ value?, exponent? atEnd text = .ok (value?, rest) ∧ value?.isSome = marked) ↔
      Exponent text marked rest := by
  constructor
  · rintro ⟨value?, read, rfl⟩
    by_cases isMarked : ∃ letter more, (letter = 'e' ∨ letter = 'E') ∧ text = letter :: more
    · obtain ⟨letter, more, isLetter, rfl⟩ := isMarked
      rw [exponent?_some isLetter] at read
      cases run : someDigits atEnd (exponentSign more).2 with
      | error fault =>
        rw [run] at read
        cases read
      | ok given =>
        obtain ⟨digits, behind⟩ := given
        rw [run] at read
        obtain ⟨rfl, rfl⟩ := Prod.mk.inj (Except.ok.inj read)
        have digitsRun := someDigits_iff.mp run
        obtain ⟨sign, isSign, signed⟩ := (exponentSign_iff digitsRun).mp rfl
        rw [signed]
        exact .some isLetter isSign digitsRun
    · have small : ∀ rest, text ≠ 'e' :: rest := fun rest same =>
        isMarked ⟨_, rest, .inl rfl, same⟩
      have large : ∀ rest, text ≠ 'E' :: rest := fun rest same =>
        isMarked ⟨_, rest, .inr rfl, same⟩
      rw [exponent?_none small large] at read
      obtain ⟨rfl, rfl⟩ := Prod.mk.inj (Except.ok.inj read)
      refine .none (fun first => ?_) fun first => ?_
      · obtain ⟨more, same⟩ := List.head?_eq_some_iff.mp first
        exact small more same
      · obtain ⟨more, same⟩ := List.head?_eq_some_iff.mp first
        exact large more same
  · intro exponent
    cases exponent with
    | none small large =>
      refine ⟨none, exponent?_none ?_ ?_, rfl⟩
      · rintro rest rfl
        exact small rfl
      · rintro rest rfl
        exact large rfl
    | some isLetter isSign run =>
      rw [exponent?_some isLetter, (exponentSign_iff run).mpr ⟨_, isSign, rfl⟩,
        someDigits_iff.mpr run]
      exact ⟨_, rfl, rfl⟩

/-- What is read as the parts of a number is one. -/
theorem numberParts_sound {negative : Bool} {atEnd : Fault} {parts : NumberParts}
    (read : numberParts negative atEnd text = .ok (parts, rest)) :
    parts.negative = negative ∧
      Unsigned text (if parts.isWhole then some parts.whole else none) rest := by
  rw [numberParts_eq] at read
  cases wholeRun : wholeDigits atEnd text with
  | error fault =>
    rw [wholeRun] at read
    cases read
  | ok given =>
    obtain ⟨whole, middle⟩ := given
    cases fractionRun : fractionDigits atEnd middle with
    | error fault =>
      simp only [wholeRun, fractionRun, bind, Except.bind] at read
      cases read
    | ok given =>
      obtain ⟨fraction, behind⟩ := given
      cases exponentRun : exponent? atEnd behind with
      | error fault =>
        simp only [wholeRun, fractionRun, exponentRun, bind, Except.bind] at read
        cases read
      | ok given =>
        obtain ⟨value?, after⟩ := given
        simp only [wholeRun, fractionRun, exponentRun, bind, Except.bind] at read
        obtain ⟨rfl, rfl⟩ := Prod.mk.inj (Except.ok.inj read)
        have unsigned := Unsigned.parts (wholeDigits_iff.mp wholeRun)
          (fractionDigits_iff.mp fractionRun) (exponent?_iff.mp ⟨value?, exponentRun, rfl⟩)
        rw [Option.not_isSome, Bool.and_comm] at unsigned
        exact ⟨rfl, unsigned⟩

/-- A number without a sign is read to its end. -/
theorem numberParts_complete {digits? : Option (List Char)} (unsigned : Unsigned text digits? rest)
    (negative : Bool) (atEnd : Fault) :
    ∃ parts, numberParts negative atEnd text = .ok (parts, rest) ∧ parts.negative = negative ∧
      (if parts.isWhole then some parts.whole else none) = digits? := by
  cases unsigned with
  | @parts whole middle fraction behind _ marked run fractionRun exponent =>
    obtain ⟨value?, exponentRun, rfl⟩ := (@exponent?_iff behind rest atEnd marked).mpr exponent
    rw [numberParts_eq, wholeDigits_iff.mpr run]
    refine ⟨⟨negative, whole, fraction, value?.getD 0, value?.isNone && fraction.isEmpty⟩,
      ?_, rfl, ?_⟩
    · simp only [fractionDigits_iff.mpr fractionRun, exponentRun, bind, Except.bind]
      rfl
    · rw [Option.not_isSome, Bool.and_comm]

theorem digitsValue_eq (digits : List Char) : digitsValue digits = Nat.ofDigitChars 10 digits 0 := by
  simp only [Nat.ofDigitChars, digitsValue, Nat.mul_comm 10]

/-- The parts of a number with its sign, and what follows it. -/
def signedParts (atEnd : Fault) (text : List Char) : Except Fault (NumberParts × List Char) :=
  match text with
  | '-' :: rest => numberParts true atEnd rest
  | text => numberParts false atEnd text

/-- The value of the parts of a number, if it is spelled by digits alone. -/
def NumberParts.value? (parts : NumberParts) : Option Nat :=
  if parts.isWhole && !parts.negative then some (digitsValue parts.whole) else none

theorem signedParts_of_unsigned {atEnd : Fault} (unsigned : ∀ rest, text = '-' :: rest → False) :
    signedParts atEnd text = numberParts false atEnd text := by
  unfold signedParts
  split
  case h_1 rest => exact (unsigned rest rfl).elim
  case h_2 => rfl

theorem signedParts_iff {atEnd : Fault} {natural? : Option Nat} :
    (∃ parts, signedParts atEnd text = .ok (parts, rest) ∧ parts.value? = natural?) ↔
      Number text natural? rest := by
  constructor
  · rintro ⟨parts, read, rfl⟩
    unfold signedParts at read
    split at read
    case h_1 behind =>
      obtain ⟨negative, unsigned⟩ := numberParts_sound read
      have none : parts.value? = none := by
        rw [NumberParts.value?, negative, Bool.not_true, Bool.and_false, if_neg Bool.false_ne_true]
      rw [none]
      exact .negative unsigned
    case h_2 =>
      obtain ⟨negative, unsigned⟩ := numberParts_sound read
      have value : parts.value? = (if parts.isWhole then some parts.whole else none).map
          fun digits => Nat.ofDigitChars 10 digits 0 := by
        rw [NumberParts.value?, negative, Bool.not_false, Bool.and_true, digitsValue_eq]
        cases parts.isWhole <;> rfl
      rw [value]
      exact .unsigned unsigned
  · intro number
    cases number with
    | unsigned unsigned =>
      obtain ⟨parts, read, negative, rfl⟩ := numberParts_complete unsigned false atEnd
      obtain ⟨c, more, rfl, digit⟩ := unsigned.head
      refine ⟨parts, ?_, ?_⟩
      · unfold signedParts
        split
        case h_1 same =>
          obtain ⟨rfl, -⟩ := List.cons.inj same
          exact absurd digit (by decide)
        case h_2 => exact read
      · rw [NumberParts.value?, negative, Bool.not_false, Bool.and_true, digitsValue_eq]
        cases parts.isWhole <;> rfl
    | negative unsigned =>
      obtain ⟨parts, read, negative, -⟩ := numberParts_complete unsigned true atEnd
      refine ⟨parts, read, ?_⟩
      rw [NumberParts.value?, negative, Bool.not_true, Bool.and_false, if_neg Bool.false_ne_true]

/-- A natural number has the value of its parts, if that takes no more than 64 bits. -/
theorem NumberParts.natural?_eq_ok_some {parts : NumberParts} {value : Nat} :
    parts.natural? = .ok (some value) ↔ parts.value? = some value ∧ value < 2 ^ 64 := by
  have bits : Nat.pow 2 64 = 2 ^ 64 := rfl
  unfold natural? value?
  rw [bits]
  cases parts.isWhole with
  | false =>
    simp only [Bool.false_and, Bool.false_eq_true, ↓reduceIte, reduceCtorEq, false_and, iff_false]
    split <;> simp
  | true =>
    by_cases fits : digitsValue parts.whole < 2 ^ 64
    · simp only [fits, decide_true, Bool.and_self, ↓reduceIte, Bool.true_and]
      cases parts.negative with
      | true => simp
      | false =>
        simp only [Bool.false_eq_true, ↓reduceIte, Except.ok.injEq, Option.some.injEq, Bool.not_false]
        constructor
        · rintro rfl
          exact ⟨rfl, fits⟩
        · exact And.left
    · simp only [fits, decide_false, Bool.and_false, Bool.false_eq_true, ↓reduceIte, Bool.true_and]
      constructor
      · intro same
        split at same <;> cases same
      · rintro ⟨same, small⟩
        split at same
        · obtain rfl := Option.some.inj same
          exact absurd small fits
        · cases same

namespace Reader

variable {α β : Type}

theorem run_skipNumber_iff :
    skipNumber.run text = .ok ((), rest) ↔ ∃ natural?, Number text natural? rest := by
  have steps : skipNumber.run text =
      (signedParts .malformed text).bind fun given => .ok ((), given.2) := by
    unfold skipNumber
    rw [run_lifted]
    split
    case h_1 => rfl
    case h_2 unsigned =>
      rw [signedParts_of_unsigned unsigned]
      rfl
  rw [steps]
  constructor
  · intro skipped
    cases read : signedParts .malformed text with
    | error fault =>
      rw [read] at skipped
      cases skipped
    | ok given =>
      rw [read] at skipped
      obtain ⟨-, rfl⟩ := Prod.mk.inj (Except.ok.inj skipped)
      exact ⟨_, signedParts_iff.mp ⟨given.1, read, rfl⟩⟩
  · rintro ⟨natural?, number⟩
    obtain ⟨parts, read, -⟩ := (@signedParts_iff text rest .malformed natural?).mpr number
    rw [read]
    rfl

/-- A natural number of at most 64 bits is read if it is spelled by digits alone. -/
theorem run_number_iff {value : Nat} :
    number.run text = .ok (some value, rest) ↔ Number text (some value) rest ∧ value < 2 ^ 64 := by
  have steps : number.run text = (signedParts .truncated text).bind fun given =>
      given.1.natural?.map fun value? => (value?, given.2) := by
    unfold number
    rw [run_lifted]
    split
    case h_1 behind =>
      change (numberParts true .truncated behind).bind _ = (numberParts true .truncated behind).bind _
      cases numberParts true .truncated behind with
      | error fault => rfl
      | ok given =>
        change given.1.natural?.bind _ = given.1.natural?.map _
        cases given.1.natural? <;> rfl
    case h_2 unsigned =>
      rw [signedParts_of_unsigned unsigned]
      change (numberParts false .truncated text).bind _ = (numberParts false .truncated text).bind _
      cases numberParts false .truncated text with
      | error fault => rfl
      | ok given =>
        change given.1.natural?.bind _ = given.1.natural?.map _
        cases given.1.natural? <;> rfl
  rw [steps]
  constructor
  · intro found
    cases read : signedParts .truncated text with
    | error fault =>
      rw [read] at found
      cases found
    | ok given =>
      obtain ⟨parts, behind⟩ := given
      rw [read] at found
      change (NumberParts.natural? parts).map _ = _ at found
      cases natural : parts.natural? with
      | error fault =>
        rw [natural] at found
        cases found
      | ok value? =>
        rw [natural] at found
        obtain ⟨rfl, rfl⟩ := Prod.mk.inj (Except.ok.inj found)
        obtain ⟨same, fits⟩ := NumberParts.natural?_eq_ok_some.mp natural
        exact ⟨signedParts_iff.mp ⟨parts, read, same⟩, fits⟩
  · rintro ⟨natural, fits⟩
    obtain ⟨parts, read, same⟩ := (@signedParts_iff text rest .truncated (some value)).mpr natural
    rw [read]
    change (NumberParts.natural? parts).map _ = _
    rw [NumberParts.natural?_eq_ok_some.mpr ⟨same, fits⟩]
    rfl

end Reader

end JsxTracking.Json
