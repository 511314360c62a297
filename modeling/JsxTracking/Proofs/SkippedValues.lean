import JsxTracking.Proofs.JsonNumbers

/-! # Values that are skipped

A value that does not matter is skipped without recursion into it: what is open around the present
place is kept on a stack of brackets, and every step takes at least one character off the text. A text
behind a value *closes* the brackets if it goes on with the rest of each, the innermost first (`Closes`).
What is skipped is spelled so (`Reader.skipsSpelled`, by induction on the steps), and what is spelled so
is skipped, whatever is nested in it (`Reader.run_skipPhrase`, by induction on the spelling). -/

namespace JsxTracking.Json

variable {text rest behind : List Char} {c : Char}

namespace Reader

variable {α β : Type}

/-! ## Reading tokens -/

theorem of_run_bind {read : Reader α} {next : α → Reader β} {value : β}
    (ok : (read >>= next).run text = .ok (value, rest)) :
    ∃ first middle, read.run text = .ok (first, middle) ∧
      (next first).run middle = .ok (value, rest) := by
  rw [StateT.run_bind] at ok
  cases outcome : read.run text with
  | error fault =>
    rw [outcome] at ok
    cases ok
  | ok given =>
    rw [outcome] at ok
    exact ⟨given.1, given.2, rfl, ok⟩

theorem run_fail_ne {fault : Fault} {result : α × List Char} :
    (fail fault : Reader α).run text ≠ .ok result :=
  fun ok => by cases ok

/-- Looking at the next character drops the blanks before it. -/
theorem run_peek_bind (next : Option Char → Reader α) (text : List Char) :
    (peek >>= next).run text =
      (next (text.dropWhile isBlank).head?).run (text.dropWhile isBlank) := rfl

/-- What is read after looking at the next character, if nothing is read at the end of a text. -/
theorem of_run_peek_bind {next : Option Char → Reader α} {result : α × List Char}
    (ok : (peek >>= next).run text = .ok result) (atEnd : (next none).run [] ≠ .ok result) :
    ∃ c behind, text.dropWhile isBlank = c :: behind ∧
      (next (some c)).run (c :: behind) = .ok result := by
  rw [run_peek_bind] at ok
  cases dropped : text.dropWhile isBlank with
  | nil =>
    rw [dropped] at ok
    exact absurd ok atEnd
  | cons c behind =>
    rw [dropped] at ok
    exact ⟨c, behind, rfl, ok⟩

theorem run_advance_bind (next : Reader α) (c : Char) (rest : List Char) :
    (advance >>= fun _ => next).run (c :: rest) = next.run rest := rfl

theorem run_word_iff {chars : List Char} : (word chars).run text = .ok ((), rest) ↔ text = chars ++ rest := by
  induction chars generalizing text with
  | nil =>
    constructor
    · intro read
      exact (Prod.mk.inj (Except.ok.inj read)).2
    · rintro rfl
      rfl
  | cons expected more ih =>
    cases text with
    | nil =>
      constructor
      · intro read
        cases read
      · intro impossible
        cases impossible
    | cons c behind =>
      have step : (word (expected :: more)).run (c :: behind) =
          if c = expected then (word more).run behind else .error .malformed := by
        change StateT.run (if c = expected then _ else _) _ = _
        split <;> rfl
      rw [step, List.cons_append, List.cons.injEq]
      by_cases same : c = expected
      · rw [if_pos same, ih]
        exact (and_iff_right same).symm
      · rw [if_neg same]
        constructor
        · intro read
          cases read
        · exact fun whole => absurd whole.1 same

/-- A value of another type than expected is never read. -/
theorem run_mismatch_ne {result : α × List Char} : (mismatch : Reader α).run text ≠ .ok result := by
  intro read
  obtain ⟨chars, middle, -, read⟩ := of_run_bind read
  split at read
  case h_1 | h_2 | h_3 | h_4 =>
    obtain ⟨_, _, -, read⟩ := of_run_bind read
    obtain ⟨_, _, -, read⟩ := of_run_bind read
    exact run_fail_ne read
  case h_5 | h_6 => exact run_fail_ne read
  case h_7 =>
    split at read
    · obtain ⟨_, _, -, read⟩ := of_run_bind read
      exact run_fail_ne read
    · exact run_fail_ne read
  case h_8 => exact run_fail_ne read

end Reader

/-! ## Skipping values -/

/-- What follows a value within brackets closes them, the innermost first. -/
inductive Closes : List Char → List Reader.Bracket → List Char → Prop where
  | done (text : List Char) : Closes text [] text
  | list {text middle rest : List Char} {documents : List Document}
      {brackets : List Reader.Bracket} (items : Spells text (.items documents) middle)
      (outer : Closes middle brackets rest) : Closes text (.list :: brackets) rest
  | object {text middle rest : List Char} {members : List (Option String × Document)}
      {brackets : List Reader.Bracket} (more : Spells text (.members members) middle)
      (outer : Closes middle brackets rest) : Closes text (.object :: brackets) rest

theorem Closes.cons_item {middle : List Char} {document : Document}
    {brackets : List Reader.Bracket} (begins : Begins text ',' behind)
    (item : Spells behind (.value document) middle) (closes : Closes middle (.list :: brackets) rest) :
    Closes text (.list :: brackets) rest := by
  cases closes with
  | list items outer => exact .list (.nextItem begins item items) outer

theorem Closes.cons_member {middle : List Char} {key? : Option String} {document : Document}
    {brackets : List Reader.Bracket} (begins : Begins text ',' behind)
    (member : Spells behind (.member key? document) middle)
    (closes : Closes middle (.object :: brackets) rest) :
    Closes text (.object :: brackets) rest := by
  cases closes with
  | object more outer => exact .object (.nextMember begins member more) outer

namespace Reader

theorem run_skippedString_iff :
    (lift fun text => (skipString text).map ((), ·)).run text = .ok ((), rest) ↔
      ∃ contents value?, Quotes contents value? ∧ text = contents ++ '"' :: rest := by
  rw [run_lifted, ← skipString_iff_quotes]
  cases skipString text with
  | error fault =>
    constructor
    · intro read
      cases read
    · intro read
      cases read
  | ok behind =>
    constructor
    · intro read
      obtain ⟨-, rfl⟩ := Prod.mk.inj (Except.ok.inj read)
      rfl
    · intro read
      obtain rfl := Except.ok.inj read
      rfl

/-- What is skipped with some fuel is spelled as it should be. -/
structure SkipsSpelled (fuel : Nat) : Prop where
  value : ∀ {text rest : List Char} {brackets : List Bracket},
    (skipValue fuel brackets).run text = .ok ((), rest) →
      ∃ document middle, Spells text (.value document) middle ∧ Closes middle brackets rest
  member : ∀ {text rest : List Char} {brackets : List Bracket},
    (skipMember fuel brackets).run text = .ok ((), rest) →
      ∃ key? document middle, Spells text (.member key? document) middle ∧
        Closes middle (.object :: brackets) rest
  after : ∀ {text rest : List Char} {brackets : List Bracket},
    (skipAfter fuel brackets).run text = .ok ((), rest) → Closes text brackets rest

variable {fuel : Nat} {brackets : List Bracket}

theorem SkipsSpelled.value_succ (sound : SkipsSpelled fuel)
    (skipped : (skipValue (fuel + 1) brackets).run text = .ok ((), rest)) :
    ∃ document middle, Spells text (.value document) middle ∧ Closes middle brackets rest := by
  rw [skipValue] at skipped
  obtain ⟨c, behind, dropped, skipped⟩ := of_run_peek_bind skipped run_fail_ne
  have begins := begins_of_dropWhile dropped
  have afterWord {chars : List Char} {document : Document}
      (spells : ∀ middle, behind = chars ++ middle → Spells text (.value document) middle)
      (skipped : (do word chars; skipAfter fuel brackets).run behind = .ok ((), rest)) :
      ∃ document middle, Spells text (.value document) middle ∧ Closes middle brackets rest := by
    obtain ⟨_, middle, read, skipped⟩ := of_run_bind skipped
    exact ⟨document, middle, spells middle (run_word_iff.mp read), sound.after skipped⟩
  split at skipped
  case h_1 => exact absurd skipped run_fail_ne
  case h_2 same =>
    obtain rfl := Option.some.inj same
    exact afterWord (fun middle whole => .null (whole ▸ begins)) skipped
  case h_3 same =>
    obtain rfl := Option.some.inj same
    exact afterWord (fun middle whole => .truth (whole ▸ begins)) skipped
  case h_4 same =>
    obtain rfl := Option.some.inj same
    exact afterWord (fun middle whole => .falsehood (whole ▸ begins)) skipped
  case h_5 same =>
    obtain rfl := Option.some.inj same
    rw [run_advance_bind] at skipped
    obtain ⟨_, middle, read, later⟩ := of_run_bind skipped
    obtain ⟨contents, value?, quotes, rfl⟩ := run_skippedString_iff.mp read
    exact ⟨_, middle, .string begins quotes, sound.after later⟩
  case h_6 same =>
    obtain rfl := Option.some.inj same
    rw [run_advance_bind] at skipped
    obtain ⟨next, more, opened, skipped⟩ := of_run_peek_bind skipped run_fail_ne
    split at skipped
    case h_1 same =>
      obtain rfl := Option.some.inj same
      rw [run_advance_bind] at skipped
      exact ⟨_, more, .emptyList begins (begins_of_dropWhile opened), sound.after skipped⟩
    case h_2 =>
      obtain ⟨document, middle, first, closes⟩ := sound.value skipped
      rw [← opened] at first
      cases closes with
      | list items outer => exact ⟨_, _, .list begins first.of_dropWhile items, outer⟩
    case h_3 => exact absurd skipped run_fail_ne
  case h_7 same =>
    obtain rfl := Option.some.inj same
    rw [run_advance_bind] at skipped
    obtain ⟨next, more, opened, skipped⟩ := of_run_peek_bind skipped run_fail_ne
    split at skipped
    case h_1 same =>
      obtain rfl := Option.some.inj same
      rw [run_advance_bind] at skipped
      exact ⟨_, more, .emptyObject begins (begins_of_dropWhile opened), sound.after skipped⟩
    case h_2 =>
      obtain ⟨key?, document, middle, first, closes⟩ := sound.member skipped
      rw [← opened] at first
      cases closes with
      | object more outer => exact ⟨_, _, .object begins first.of_dropWhile more, outer⟩
    case h_3 => exact absurd skipped run_fail_ne
  case h_8 same =>
    obtain rfl := Option.some.inj same
    split at skipped
    case isTrue =>
      obtain ⟨_, middle, read, skipped⟩ := of_run_bind skipped
      obtain ⟨natural?, number⟩ := run_skipNumber_iff.mp read
      rw [← dropped] at number
      have spells := Spells.number (areBlank_takeWhile text) number
      rw [List.takeWhile_append_dropWhile] at spells
      exact ⟨_, middle, spells, sound.after skipped⟩
    case isFalse => exact absurd skipped run_fail_ne

theorem run_colon_iff : colon.run text = .ok ((), rest) ↔ Begins text ':' rest := by
  rw [colon]
  constructor
  · intro read
    obtain ⟨c, behind, dropped, read⟩ := of_run_peek_bind read run_fail_ne
    split at read
    case h_1 same =>
      obtain rfl := Option.some.inj same
      obtain rfl : behind = rest := (Prod.mk.inj (Except.ok.inj read)).2
      exact begins_of_dropWhile dropped
    case h_2 => exact absurd read run_fail_ne
    case h_3 => exact absurd read run_fail_ne
  · intro begins
    rw [run_peek_bind, begins.dropWhile rfl]
    rfl

theorem run_null_iff :
    null.run text = .ok ((), rest) ↔ Begins text 'n' ("ull".toList ++ rest) := by
  rw [null]
  constructor
  · intro read
    obtain ⟨c, behind, dropped, given⟩ := of_run_peek_bind read run_fail_ne
    split at given
    case h_1 none => cases none
    case h_2 same =>
      obtain rfl := Option.some.inj same
      rw [run_advance_bind] at given
      obtain rfl := run_word_iff.mp given
      exact begins_of_dropWhile dropped
    case h_3 => exact absurd given run_mismatch_ne
  · intro begins
    rw [run_peek_bind, begins.dropWhile rfl]
    exact run_word_iff.mpr rfl

theorem SkipsSpelled.member_succ (sound : SkipsSpelled fuel)
    (skipped : (skipMember (fuel + 1) brackets).run text = .ok ((), rest)) :
    ∃ key? document middle, Spells text (.member key? document) middle ∧
      Closes middle (.object :: brackets) rest := by
  rw [skipMember] at skipped
  obtain ⟨c, behind, dropped, skipped⟩ := of_run_peek_bind skipped run_fail_ne
  have begins := begins_of_dropWhile dropped
  split at skipped
  case h_1 same =>
    obtain rfl := Option.some.inj same
    rw [run_advance_bind] at skipped
    obtain ⟨_, middle, read, later⟩ := of_run_bind skipped
    obtain ⟨_, next, colon, last⟩ := of_run_bind later
    obtain ⟨contents, key?, quotes, rfl⟩ := run_skippedString_iff.mp read
    obtain ⟨document, last, value, closes⟩ := sound.value last
    exact ⟨key?, document, last, .member begins quotes (run_colon_iff.mp colon) value, closes⟩
  case h_2 => exact absurd skipped run_fail_ne
  case h_3 => exact absurd skipped run_fail_ne

theorem SkipsSpelled.after_succ (sound : SkipsSpelled fuel)
    (skipped : (skipAfter (fuel + 1) brackets).run text = .ok ((), rest)) :
    Closes text brackets rest := by
  cases brackets with
  | nil =>
    obtain rfl : text = rest := (Prod.mk.inj (Except.ok.inj skipped)).2
    exact .done text
  | cons bracket brackets =>
    rw [skipAfter] at skipped
    obtain ⟨c, behind, dropped, further⟩ :=
      of_run_peek_bind skipped (by cases bracket <;> exact run_fail_ne)
    have begins := begins_of_dropWhile dropped
    split at further
    case h_1 => exact absurd further run_fail_ne
    case h_2 same =>
      obtain rfl := Option.some.inj same
      exact .list (.endOfItems begins) (sound.after further)
    case h_3 same =>
      obtain rfl := Option.some.inj same
      exact .object (.endOfMembers begins) (sound.after further)
    case h_4 same =>
      obtain rfl := Option.some.inj same
      rw [run_advance_bind] at further
      obtain ⟨document, middle, item, closes⟩ := sound.value further
      exact closes.cons_item begins item
    case h_5 same =>
      obtain rfl := Option.some.inj same
      rw [run_advance_bind] at further
      obtain ⟨key?, document, middle, member, closes⟩ := sound.member further
      exact closes.cons_member begins member
    case h_6 => exact absurd further run_fail_ne

/-- Whatever is skipped is spelled as it should be. -/
theorem skipsSpelled (fuel : Nat) : SkipsSpelled fuel := by
  induction fuel with
  | zero =>
    refine ⟨fun skipped => absurd skipped run_fail_ne, fun skipped => absurd skipped run_fail_ne, ?_⟩
    intro text rest brackets skipped
    cases brackets with
    | nil =>
      obtain rfl : text = rest := (Prod.mk.inj (Except.ok.inj skipped)).2
      exact .done text
    | cons bracket brackets => exact absurd skipped run_fail_ne
  | succ fuel ih => exact ⟨ih.value_succ, ih.member_succ, ih.after_succ⟩

end Reader

/-! ### What is spelled is skipped -/

namespace Reader

/-- The step that skips a phrase. -/
def skipPhrase (fuel : Nat) (brackets : List Bracket) : Phrase → Reader Unit
  | .value _ => skipValue fuel brackets
  | .items _ => skipAfter fuel (.list :: brackets)
  | .member _ _ => skipMember fuel brackets
  | .members _ => skipAfter fuel (.object :: brackets)

/-- What is open behind a phrase. -/
def openBehind (brackets : List Bracket) : Phrase → List Bracket
  | .value _ | .items _ | .members _ => brackets
  | .member _ _ => .object :: brackets

theorem run_skipValue_dropWhile (fuel : Nat) (brackets : List Bracket) (text : List Char) :
    (skipValue fuel brackets).run (text.dropWhile isBlank) = (skipValue fuel brackets).run text := by
  cases fuel with
  | zero => rfl
  | succ fuel => rw [skipValue, run_peek_bind, run_peek_bind, List.dropWhile_idempotent]

theorem run_skipMember_dropWhile (fuel : Nat) (brackets : List Bracket) (text : List Char) :
    (skipMember fuel brackets).run (text.dropWhile isBlank) =
      (skipMember fuel brackets).run text := by
  cases fuel with
  | zero => rfl
  | succ fuel => rw [skipMember, run_peek_bind, run_peek_bind, List.dropWhile_idempotent]

section

variable (fuel : Nat) (brackets : List Bracket)

theorem run_skipValue_number {blanks : List Char} {natural? : Option Nat}
    (blank : areBlank blanks = true) (number : Number text natural? rest) :
    (skipValue (fuel + 1) brackets).run (blanks ++ text) = (skipAfter fuel brackets).run rest := by
  have read := run_skipNumber_iff.mpr ⟨_, number⟩
  obtain ⟨c, more, rfl, starts⟩ := number.head
  rw [skipValue, run_peek_bind, dropWhile_blanks blank (isBlank_of_starts starts)]
  have other {letter : Char} (differs : (letter = '-' || letter.isDigit) = false) : c ≠ letter := by
    rintro rfl
    rw [starts] at differs
    cases differs
  split
  case h_1 none => cases none
  case h_2 same => exact absurd (Option.some.inj same) (other (by decide))
  case h_3 same => exact absurd (Option.some.inj same) (other (by decide))
  case h_4 same => exact absurd (Option.some.inj same) (other (by decide))
  case h_5 same => exact absurd (Option.some.inj same) (other (by decide))
  case h_6 same => exact absurd (Option.some.inj same) (other (by decide))
  case h_7 same => exact absurd (Option.some.inj same) (other (by decide))
  case h_8 same =>
    obtain rfl := Option.some.inj same
    rw [if_pos starts]
    exact run_bind_ok read

theorem run_skipValue_string {contents : List Char} {value? : Option String}
    (begins : Begins text '"' (contents ++ '"' :: rest)) (quotes : Quotes contents value?) :
    (skipValue (fuel + 1) brackets).run text = (skipAfter fuel brackets).run rest := by
  rw [skipValue, run_peek_bind, begins.dropWhile rfl]
  refine (run_advance_bind _ _ _).trans ?_
  exact run_bind_ok (run_skippedString_iff.mpr ⟨_, _, quotes, rfl⟩)

theorem run_skipValue_emptyList (begins : Begins text '[' behind) (ends : Begins behind ']' rest) :
    (skipValue (fuel + 1) brackets).run text = (skipAfter fuel brackets).run rest := by
  rw [skipValue, run_peek_bind, begins.dropWhile rfl]
  refine (run_advance_bind _ _ _).trans ?_
  rw [run_peek_bind, ends.dropWhile rfl]
  rfl

theorem run_skipValue_list {document : Document} (begins : Begins text '[' behind)
    (first : Spells behind (.value document) rest) :
    (skipValue (fuel + 1) brackets).run text = (skipValue fuel (.list :: brackets)).run behind := by
  obtain ⟨c, later, opened, isItem⟩ := first.value_head
  rw [skipValue, run_peek_bind, begins.dropWhile rfl]
  refine (run_advance_bind _ _ _).trans ?_
  rw [run_peek_bind, ← run_skipValue_dropWhile, opened]
  split
  case h_1 same => exact absurd (Option.some.inj same) isItem
  case h_2 => rfl
  case h_3 none => cases none

theorem run_skipValue_emptyObject (begins : Begins text '{' behind)
    (ends : Begins behind '}' rest) :
    (skipValue (fuel + 1) brackets).run text = (skipAfter fuel brackets).run rest := by
  rw [skipValue, run_peek_bind, begins.dropWhile rfl]
  refine (run_advance_bind _ _ _).trans ?_
  rw [run_peek_bind, ends.dropWhile rfl]
  rfl

theorem run_skipValue_object {key? : Option String} {document : Document}
    (begins : Begins text '{' behind) (first : Spells behind (.member key? document) rest) :
    (skipValue (fuel + 1) brackets).run text = (skipMember fuel brackets).run behind := by
  rw [skipValue, run_peek_bind, begins.dropWhile rfl]
  refine (run_advance_bind _ _ _).trans ?_
  rw [run_peek_bind, ← run_skipMember_dropWhile]
  cases first with
  | member opened =>
    rw [opened.dropWhile rfl]
    rfl

theorem run_skipMember_key {contents : List Char} {key? : Option String}
    (begins : Begins text '"' (contents ++ '"' :: behind)) (quotes : Quotes contents key?)
    (separated : Begins behind ':' rest) :
    (skipMember (fuel + 1) brackets).run text =
      (skipValue fuel (.object :: brackets)).run rest := by
  rw [skipMember, run_peek_bind, begins.dropWhile rfl]
  refine (run_advance_bind _ _ _).trans ?_
  refine (run_bind_ok (run_skippedString_iff.mpr ⟨_, _, quotes, rfl⟩)).trans ?_
  exact run_bind_ok (run_colon_iff.mpr separated)

end

/-- A phrase is skipped with more fuel than the text has characters, and as much is left of the fuel
for the rest. -/
theorem run_skipPhrase {phrase : Phrase} (spells : Spells text phrase rest) (fuel : Nat)
    (brackets : List Bracket) (enough : text.length < fuel) :
    ∃ left, rest.length < left ∧ (skipPhrase fuel brackets phrase).run text =
      (skipAfter left (openBehind brackets phrase)).run rest := by
  induction spells generalizing fuel brackets with
  | null begins | truth begins | falsehood begins =>
    obtain ⟨fuel, rfl⟩ := Nat.exists_eq_add_one_of_ne_zero (Nat.ne_zero_of_lt enough)
    have shorter := begins.length_lt
    rw [List.length_append] at shorter
    refine ⟨fuel, by omega, ?_⟩
    change (skipValue (fuel + 1) brackets).run _ = _
    rw [skipValue, run_peek_bind, begins.dropWhile rfl]
    exact (run_advance_bind _ _ _).trans (run_bind_ok (run_word_iff.mpr rfl))
  | number blank number =>
    obtain ⟨fuel, rfl⟩ := Nat.exists_eq_add_one_of_ne_zero (Nat.ne_zero_of_lt enough)
    have shorter := number.length_lt
    rw [List.length_append] at enough
    exact ⟨fuel, by omega, run_skipValue_number fuel brackets blank number⟩
  | string begins quotes =>
    obtain ⟨fuel, rfl⟩ := Nat.exists_eq_add_one_of_ne_zero (Nat.ne_zero_of_lt enough)
    have shorter := begins.length_lt
    rw [List.length_append, List.length_cons] at shorter
    exact ⟨fuel, by omega, run_skipValue_string fuel brackets begins quotes⟩
  | emptyList begins ends =>
    obtain ⟨fuel, rfl⟩ := Nat.exists_eq_add_one_of_ne_zero (Nat.ne_zero_of_lt enough)
    have shorter := begins.length_lt
    have shortest := ends.length_lt
    exact ⟨fuel, by omega, run_skipValue_emptyList fuel brackets begins ends⟩
  | list begins first more ihFirst ihMore =>
    obtain ⟨fuel, rfl⟩ := Nat.exists_eq_add_one_of_ne_zero (Nat.ne_zero_of_lt enough)
    have shorter := begins.length_lt
    obtain ⟨left, leftEnough, run⟩ := ihFirst fuel (.list :: brackets) (by omega)
    obtain ⟨last, lastEnough, runMore⟩ := ihMore left brackets leftEnough
    exact ⟨last, lastEnough,
      (run_skipValue_list fuel brackets begins first).trans (run.trans runMore)⟩
  | emptyObject begins ends =>
    obtain ⟨fuel, rfl⟩ := Nat.exists_eq_add_one_of_ne_zero (Nat.ne_zero_of_lt enough)
    have shorter := begins.length_lt
    have shortest := ends.length_lt
    exact ⟨fuel, by omega, run_skipValue_emptyObject fuel brackets begins ends⟩
  | object begins first more ihFirst ihMore =>
    obtain ⟨fuel, rfl⟩ := Nat.exists_eq_add_one_of_ne_zero (Nat.ne_zero_of_lt enough)
    have shorter := begins.length_lt
    obtain ⟨left, leftEnough, run⟩ := ihFirst fuel brackets (by omega)
    obtain ⟨last, lastEnough, runMore⟩ := ihMore left brackets leftEnough
    exact ⟨last, lastEnough,
      (run_skipValue_object fuel brackets begins first).trans (run.trans runMore)⟩
  | endOfItems ends | endOfMembers ends =>
    obtain ⟨fuel, rfl⟩ := Nat.exists_eq_add_one_of_ne_zero (Nat.ne_zero_of_lt enough)
    have shorter := ends.length_lt
    refine ⟨fuel, by omega, ?_⟩
    change (skipAfter (fuel + 1) (_ :: brackets)).run _ = _
    rw [skipAfter, run_peek_bind, ends.dropWhile rfl]
    rfl
  | nextItem begins item more ihItem ihMore =>
    obtain ⟨fuel, rfl⟩ := Nat.exists_eq_add_one_of_ne_zero (Nat.ne_zero_of_lt enough)
    have shorter := begins.length_lt
    obtain ⟨left, leftEnough, run⟩ := ihItem fuel (.list :: brackets) (by omega)
    obtain ⟨last, lastEnough, runMore⟩ := ihMore left brackets leftEnough
    refine ⟨last, lastEnough, Eq.trans ?_ (run.trans runMore)⟩
    change (skipAfter (fuel + 1) (.list :: brackets)).run _ = _
    rw [skipAfter, run_peek_bind, begins.dropWhile rfl]
    rfl
  | nextMember begins member more ihMember ihMore =>
    obtain ⟨fuel, rfl⟩ := Nat.exists_eq_add_one_of_ne_zero (Nat.ne_zero_of_lt enough)
    have shorter := begins.length_lt
    obtain ⟨left, leftEnough, run⟩ := ihMember fuel brackets (by omega)
    obtain ⟨last, lastEnough, runMore⟩ := ihMore left brackets leftEnough
    refine ⟨last, lastEnough, Eq.trans ?_ (run.trans runMore)⟩
    change (skipAfter (fuel + 1) (.object :: brackets)).run _ = _
    rw [skipAfter, run_peek_bind, begins.dropWhile rfl]
    rfl
  | member begins quotes colon value ih =>
    obtain ⟨fuel, rfl⟩ := Nat.exists_eq_add_one_of_ne_zero (Nat.ne_zero_of_lt enough)
    have shorter := begins.length_lt
    have shortest := colon.length_lt
    rw [List.length_append, List.length_cons] at shorter
    obtain ⟨left, leftEnough, run⟩ := ih fuel (.object :: brackets) (by omega)
    exact ⟨left, leftEnough, (run_skipMember_key fuel brackets begins quotes colon).trans run⟩

/-- A value is skipped if it is one. -/
theorem run_skip_iff : skip.run text = .ok ((), rest) ↔
    ∃ document, Spells text (.value document) rest := by
  have started : skip.run text = (skipValue (2 * text.length + 2) []).run text := rfl
  rw [started]
  constructor
  · intro skipped
    obtain ⟨document, middle, spells, closes⟩ := (skipsSpelled _).value skipped
    cases closes
    exact ⟨document, spells⟩
  · rintro ⟨document, spells⟩
    obtain ⟨left, -, run⟩ := run_skipPhrase spells (2 * text.length + 2) [] (by omega)
    refine run.trans ?_
    cases left <;> rfl

end Reader

end JsxTracking.Json
