import JsxTracking.Hexadecimal

/-! # Reading JSON text

A reader takes a value of an expected type off the front of a text. It goes from left to right and
stops at the first problem, so a value of the wrong type is reported even when what follows it is
malformed. Problems are told apart as *faults*: the text is malformed, it is well formed so far but
says something else than expected, or it ends too early. -/

namespace JsxTracking.Json

/-- Why a text cannot be read. -/
inductive Fault where
  /-- The text is no JSON. -/
  | malformed
  /-- The text holds a value of another type, an unknown name, or too few or repeated members. -/
  | unexpected
  /-- The text ends within a value. -/
  | truncated
  deriving DecidableEq, Repr, Inhabited

/-- The wording of a fault. -/
def Fault.message : Fault → String
  | malformed => "malformed JSON"
  | unexpected => "unexpected JSON value"
  | truncated => "truncated JSON"

/-- A reader takes a value off the front of a text. -/
abbrev Reader := StateT (List Char) (Except Fault)

/-- Whether a character may stand between the tokens of a text. -/
def isBlank (c : Char) : Bool :=
  c = ' ' || c = '\t' || c = '\n' || c = '\r'

/-- The character an escape of one letter stands for. -/
def unescape? (letter : Char) : Option Char :=
  if letter = '"' then some '"'
  else if letter = '\\' then some '\\'
  else if letter = '/' then some '/'
  else if letter = 'b' then some '\x08'
  else if letter = 'f' then some '\x0c'
  else if letter = 'n' then some '\n'
  else if letter = 'r' then some '\r'
  else if letter = 't' then some '\t'
  else none

/-- The fault of an escape that lacks its four digits: it is truncated when fewer than four bytes
are left of the text. -/
def shortEscape (rest : List Char) : Fault :=
  if (String.ofList rest).utf8ByteSize < 4 then .truncated else .malformed

/-- The characters of a string up to its closing quote, and what follows it. Characters beyond the
first plane are escaped as two units, and a unit of such a pair may not stand alone. -/
def stringChars : List Char → Except Fault (List Char × List Char)
  | [] => .error .truncated
  | '"' :: rest => .ok ([], rest)
  | '\\' :: [] => .error .truncated
  | '\\' :: 'u' :: a :: b :: c :: d :: rest =>
    match hexUnit? a b c d with
    | none => .error .malformed
    | some unit =>
      if unit < 0xD800 ∨ 0xDFFF < unit then
        (stringChars rest).map fun (chars, rest) => (Char.ofNat unit :: chars, rest)
      else if 0xDC00 ≤ unit then .error .malformed
      else
        match rest with
        | '\\' :: 'u' :: a :: b :: c :: d :: rest =>
          match hexUnit? a b c d with
          | none => .error .malformed
          | some low =>
            if low < 0xDC00 ∨ 0xDFFF < low then .error .malformed
            else
              let code := (unit - 0xD800) * 0x400 + (low - 0xDC00) + 0x10000
              (stringChars rest).map fun (chars, rest) => (Char.ofNat code :: chars, rest)
        | '\\' :: 'u' :: rest => .error (shortEscape rest)
        | ['\\'] | [] => .error .truncated
        | _ => .error .malformed
  | '\\' :: 'u' :: rest => .error (shortEscape rest)
  | '\\' :: letter :: rest =>
    match unescape? letter with
    | none => .error .malformed
    | some c => (stringChars rest).map fun (chars, rest) => (c :: chars, rest)
  | c :: rest =>
    if c.toNat < 0x20 then .error .malformed
    else (stringChars rest).map fun (chars, rest) => (c :: chars, rest)

/-- What follows the closing quote of a string whose value does not matter. Units of a pair may
stand alone in it. -/
def skipString : List Char → Except Fault (List Char)
  | [] => .error .truncated
  | '"' :: rest => .ok rest
  | '\\' :: [] => .error .truncated
  | '\\' :: 'u' :: a :: b :: c :: d :: rest =>
    if (hexUnit? a b c d).isSome then skipString rest else .error .malformed
  | '\\' :: 'u' :: rest => .error (shortEscape rest)
  | '\\' :: letter :: rest =>
    if (unescape? letter).isSome then skipString rest else .error .malformed
  | c :: rest => if c.toNat < 0x20 then .error .malformed else skipString rest

/-- The value of a run of decimal digits. -/
def digitsValue (digits : List Char) : Nat :=
  digits.foldl (fun value digit => value * 10 + (digit.toNat - '0'.toNat)) 0

/-- The least number that no longer rounds to a finite number of double precision. -/
def doubleBound : Nat :=
  Nat.pow 2 1024 - Nat.pow 2 970

/-- Whether `digits · 10 ^ exponent` is too large for a number of double precision. The number of
digits decides unless it is near the bound. -/
def overflows (digits : List Char) (exponent : Int) : Bool :=
  let significant := digits.dropWhile (· = '0')
  let magnitude := significant.length + exponent
  if significant.isEmpty then false
  else if magnitude > 310 then true
  else if magnitude < 300 then false
  else if 0 ≤ exponent then doubleBound ≤ digitsValue significant * Nat.pow 10 exponent.toNat
  else doubleBound * Nat.pow 10 (-exponent).toNat ≤ digitsValue significant

/-- A run of digits that must not be empty, and what follows it. -/
def someDigits (atEnd : Fault) (text : List Char) : Except Fault (List Char × List Char) :=
  match text.takeWhile Char.isDigit, text with
  | [], [] => .error atEnd
  | [], _ => .error .malformed
  | digits, text => .ok (digits, text.dropWhile Char.isDigit)

/-- The digits before the point; a leading zero stands alone. -/
def wholeDigits (atEnd : Fault) (text : List Char) : Except Fault (List Char × List Char) :=
  match someDigits atEnd text with
  | .ok ('0' :: _ :: _, _) => .error .malformed
  | result => result

/-- The parts of a number in a text. -/
structure NumberParts where
  negative : Bool
  whole : List Char
  fraction : List Char
  exponent : Int
  /-- Whether there is neither a point nor an exponent. -/
  isWhole : Bool

/-- The parts of a number without its sign, and what follows it. `atEnd` is the fault of a text that
ends where a digit must come. -/
def numberParts (negative : Bool) (atEnd : Fault) (text : List Char) :
    Except Fault (NumberParts × List Char) := do
  let (whole, text) ← wholeDigits atEnd text
  let (fraction, text) ← match text with
    | '.' :: rest => someDigits atEnd rest
    | text => .ok ([], text)
  match text with
  | 'e' :: rest | 'E' :: rest =>
    let (sign, rest) := match rest with
      | '+' :: rest => ((1 : Int), rest)
      | '-' :: rest => (-1, rest)
      | rest => (1, rest)
    let (exponent, rest) ← someDigits atEnd rest
    return (⟨negative, whole, fraction, sign * digitsValue exponent, false⟩, rest)
  | text => return (⟨negative, whole, fraction, 0, fraction.isEmpty⟩, text)

/-- The value of a number that is natural and fits into 64 bits; none for any other number of
double precision. -/
def NumberParts.natural? (parts : NumberParts) : Except Fault (Option Nat) :=
  let value := digitsValue parts.whole
  if parts.isWhole && value < Nat.pow 2 64 then
    .ok (if parts.negative then none else some value)
  else if overflows (parts.whole ++ parts.fraction) (parts.exponent - parts.fraction.length) then
    .error .malformed
  else .ok none

namespace Reader

/-- Stop with a fault. -/
def fail {α : Type} (fault : Fault) : Reader α :=
  throw fault

/-- Run a function that takes a value off the front of a text. -/
def lift {α : Type} (read : List Char → Except Fault (α × List Char)) : Reader α :=
  fun text => read text

/-- The next character that is not blank; the blanks before it are dropped. -/
def peek : Reader (Option Char) := do
  modify (·.dropWhile isBlank)
  return (← get).head?

/-- Drop the next character. -/
def advance : Reader Unit :=
  modify (·.drop 1)

/-- The characters of a word that has begun. -/
def word : List Char → Reader Unit
  | [] => return
  | expected :: more => do
    match ← get with
    | [] => fail .truncated
    | c :: rest =>
      if c = expected then
        set rest
        word more
      else fail .malformed

/-- The number that comes next. -/
def number : Reader (Option Nat) :=
  lift fun text => do
    let (parts, rest) ← match text with
      | '-' :: rest => numberParts true .truncated rest
      | text => numberParts false .truncated text
    return (← parts.natural?, rest)

/-- Stop at a value that is of another type than expected. Words, numbers and strings are read
first. -/
def mismatch {α : Type} : Reader α := do
  match (← get).head? with
  | some 'n' => advance; word "ull".toList; fail .unexpected
  | some 't' => advance; word "rue".toList; fail .unexpected
  | some 'f' => advance; word "alse".toList; fail .unexpected
  | some '"' => advance; let _ ← lift stringChars; fail .unexpected
  | some '[' | some '{' => fail .unexpected
  | some c =>
    if c = '-' || c.isDigit then do
      let _ ← number
      fail .unexpected
    else fail .malformed
  | none => fail .malformed

/-- A truth value. -/
def bool : Reader Bool := do
  match ← peek with
  | none => fail .truncated
  | some 't' => advance; word "rue".toList; return true
  | some 'f' => advance; word "alse".toList; return false
  | some _ => mismatch

/-- The value null. -/
def null : Reader Unit := do
  match ← peek with
  | none => fail .truncated
  | some 'n' => advance; word "ull".toList
  | some _ => mismatch

/-- A string. -/
def string : Reader String := do
  match ← peek with
  | none => fail .truncated
  | some '"' => advance; return String.ofList (← lift stringChars)
  | some _ => mismatch

/-- A natural number of at most 64 bits. -/
def natural : Reader Nat := do
  match ← peek with
  | none => fail .truncated
  | some c =>
    if c = '-' || c.isDigit then
      match ← number with
      | some value => return value
      | none => fail .unexpected
    else mismatch

/-- The colon after the key of a member. -/
def colon : Reader Unit := do
  match ← peek with
  | some ':' => advance
  | some _ => fail .malformed
  | none => fail .truncated

/-- Whether another element follows in a list; the comma before it is dropped. -/
def moreItems (first : Bool) : Reader Bool := do
  match ← peek with
  | none => fail .truncated
  | some ']' => return false
  | some c =>
    if first then return true
    else if c = ',' then
      advance
      match ← peek with
      | some ']' => fail .malformed
      | some _ => return true
      | none => fail .truncated
    else fail .malformed

/-- Whether another member follows in an object; the comma and the quote before its key are
dropped. -/
def moreMembers (first : Bool) : Reader Bool := do
  match ← peek with
  | none => fail .truncated
  | some '}' => return false
  | some c =>
    if first then
      if c = '"' then advance; return true else fail .malformed
    else if c = ',' then
      advance
      match ← peek with
      | some '"' => advance; return true
      | some _ => fail .malformed
      | none => fail .truncated
    else fail .malformed

/-- The closing bracket of a list, after which no element may follow. -/
def endOfList : Reader Unit := do
  match ← peek with
  | some ']' => advance
  | some _ => fail .malformed
  | none => fail .truncated

/-- The elements of a list; `fuel` bounds their number. -/
def items {α : Type} (item : Reader α) : (fuel : Nat) → (first : Bool) → Reader (List α)
  | 0, _ => fail .truncated
  | fuel + 1, first => do
    if ← moreItems first then
      let value ← item
      let rest ← items item fuel false
      return value :: rest
    else
      endOfList
      return []

/-- A list. -/
def list {α : Type} (item : Reader α) : Reader (List α) := do
  match ← peek with
  | none => fail .truncated
  | some '[' =>
    advance
    items item ((← get).length + 1) true
  | some _ => mismatch

/-- What is open while values are skipped. -/
inductive Bracket where
  | list
  | object
  deriving DecidableEq

/-- Drop a number whose value does not matter. -/
def skipNumber : Reader Unit :=
  lift fun text => do
    let (_, rest) ← match text with
      | '-' :: rest => numberParts true .malformed rest
      | text => numberParts false .malformed text
    return ((), rest)

mutual

/-- Drop a value and what follows it up to the end of the outermost bracket; `fuel` bounds the
number of steps. -/
def skipValue : (fuel : Nat) → (brackets : List Bracket) → Reader Unit
  | 0, _ => fail .truncated
  | fuel + 1, brackets => do
    match ← peek with
    | none => fail .truncated
    | some 'n' => advance; word "ull".toList; skipAfter fuel brackets
    | some 't' => advance; word "rue".toList; skipAfter fuel brackets
    | some 'f' => advance; word "alse".toList; skipAfter fuel brackets
    | some '"' =>
      advance
      lift fun text => (skipString text).map ((), ·)
      skipAfter fuel brackets
    | some '[' =>
      advance
      match ← peek with
      | some ']' => advance; skipAfter fuel brackets
      | some _ => skipValue fuel (.list :: brackets)
      | none => fail .truncated
    | some '{' =>
      advance
      match ← peek with
      | some '}' => advance; skipAfter fuel brackets
      | some _ => skipMember fuel brackets
      | none => fail .truncated
    | some c =>
      if c = '-' || c.isDigit then
        skipNumber
        skipAfter fuel brackets
      else fail .malformed

/-- Drop the key of a member and go on with its value. -/
def skipMember : (fuel : Nat) → (brackets : List Bracket) → Reader Unit
  | 0, _ => fail .truncated
  | fuel + 1, brackets => do
    match ← peek with
    | some '"' =>
      advance
      lift fun text => (skipString text).map ((), ·)
      colon
      skipValue fuel (.object :: brackets)
    | some _ => fail .malformed
    | none => fail .truncated

/-- Go on after a value within brackets. -/
def skipAfter : (fuel : Nat) → (brackets : List Bracket) → Reader Unit
  | _, [] => return
  | 0, _ => fail .truncated
  | fuel + 1, bracket :: brackets => do
    match bracket, ← peek with
    | _, none => fail .truncated
    | .list, some ']' => advance; skipAfter fuel brackets
    | .object, some '}' => advance; skipAfter fuel brackets
    | .list, some ',' => advance; skipValue fuel (.list :: brackets)
    | .object, some ',' => advance; skipMember fuel brackets
    | _, some _ => fail .malformed

end

/-- Drop a value that does not matter. -/
def skip : Reader Unit := do
  skipValue (2 * (← get).length + 2) []

/-- Read a whole text; only blanks may follow the value. -/
def readText {α : Type} (reader : Reader α) (text : String) : Except Fault α :=
  match StateT.run reader text.toList with
  | .error fault => .error fault
  | .ok (value, rest) => if rest.all isBlank then .ok value else .error .malformed

end Reader

end JsxTracking.Json
