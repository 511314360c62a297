import JsxTracking.Hexadecimal
import JsxTracking.Source.Scanner
import JsxTracking.Syntax.Tree

/-! # Literals in source text

Numbers are kept as they are spelled. Strings and the pieces of templates are kept both as they are
spelled and with their escapes decoded. Modules are strict, so there are no octal numbers and no
octal escapes. -/

namespace JsxTracking.Source.Parser

variable {α : Type}

/-- A value together with the text that it was read from. -/
def spelled (parser : Parser α) : Parser (α × String) := do
  let before ← rest
  let value ← parser
  return (value, String.ofList (before.take (before.length - (← rest).length)))

/-- Some characters of a kind, of which there must be one. -/
def takeSome (holds : Char → Bool) : Parser (List Char) := do
  let taken ← takeWhile holds
  require !taken.isEmpty
  return taken

/-- The digits of a number in another base than ten, after its first two characters. -/
def prefixedDigits (letter : Char) : Parser Unit := do
  let _ ← match letter.toLower with
    | 'x' => takeSome fun c => (hexValue? c).isSome
    | 'o' => takeSome fun c => '0' ≤ c && c ≤ '7'
    | _ => takeSome fun c => c = '0' || c = '1'

/-- The exponent of a decimal number, if it has one. -/
def exponent : Parser Unit := do
  match ← rest with
  | 'e' :: sign :: _ | 'E' :: sign :: _ =>
    drop (if sign = '+' || sign = '-' then 2 else 1)
    let _ ← takeSome Char.isDigit
  | 'e' :: [] | 'E' :: [] => fail
  | _ => return

/-- A decimal number. -/
def decimal : Parser Unit := do
  let whole ← takeWhile Char.isDigit
  match whole with
  | '0' :: _ :: _ => fail
  | _ => pure ()
  match ← rest with
  | '.' :: _ =>
    drop 1
    let fraction ← takeWhile Char.isDigit
    require !(whole.isEmpty && fraction.isEmpty)
  | _ => require !whole.isEmpty
  exponent

/-- A number. No name may follow directly. -/
def number : Parser Tree := do
  let (_, numeral) ← spelled do
    match ← rest with
    | '0' :: letter :: _ =>
      if "xXoObB".toList.contains letter then
        drop 2
        prefixedDigits letter
      else decimal
    | _ => decimal
  match ← rest with
  | c :: _ => require !(startsName c)
  | [] => pure ()
  return .node .numericLiteral [(.value, .num numeral)]

/-- The character with a code; codes of half a pair of units stand for no character. -/
def character (code : Nat) : Parser Char :=
  if code ≤ 0x10FFFF then
    return if code.isValidChar then Char.ofNat code else '\uFFFD'
  else fail

/-- The code of an escape in hexadecimal digits, after its backslash and letter. -/
def escapedUnit : Parser Nat := do
  match ← rest with
  | '{' :: _ =>
    drop 1
    let digits ← takeSome fun c => (hexValue? c).isSome
    begins "\x7d"
    return digits.foldl (fun code digit => code * 16 + (hexValue? digit).getD 0) 0
  | a :: b :: c :: d :: _ =>
    drop 4
    match hexUnit? a b c d with
    | some unit => return unit
    | none => fail
  | _ => fail

/-- The character of an escape in hexadecimal digits. Two escapes may form a pair of units. -/
def escapedCharacter : Parser Char := do
  let unit ← escapedUnit
  let low? ← if 0xD800 ≤ unit && unit ≤ 0xDBFF then
      attempt? do
        begins "\\u"
        let low ← escapedUnit
        require (0xDC00 ≤ low && low ≤ 0xDFFF)
        return low
    else pure none
  match low? with
  | some low => character ((unit - 0xD800) * 0x400 + (low - 0xDC00) + 0x10000)
  | none => character unit

/-- What an escape stands for, after its backslash. A line end that is escaped stands for
nothing. -/
def escape : Parser (List Char) := do
  match ← rest with
  | [] => fail
  | '\r' :: '\n' :: _ =>
    drop 2
    return []
  | c :: following =>
    drop 1
    if c = 'n' then return ['\n']
    else if c = 't' then return ['\t']
    else if c = 'r' then return ['\r']
    else if c = 'b' then return ['\x08']
    else if c = 'f' then return ['\x0c']
    else if c = 'v' then return ['\x0b']
    else if c = 'u' then return [← escapedCharacter]
    else if c = 'x' then
      match following with
      | a :: b :: _ =>
        drop 2
        match hexUnit? '0' '0' a b with
        | some unit => return [← character unit]
        | none => fail
      | _ => fail
    else if c = '0' && !(following.head?.any Char.isDigit) then return ['\x00']
    else if c.isDigit then fail
    else if isLineEnd c then return []
    else return [c]

/-- The next character of a string in quotes, decoded; none before the closing quote. -/
def stringPiece (quote : Char) : Parser (Option (List Char)) := do
  match ← rest with
  | [] => fail
  | '\\' :: _ =>
    drop 1
    return (← escape)
  | c :: _ =>
    if c = quote then return none
    require (c ≠ '\n' && c ≠ '\r')
    drop 1
    return some [c]

/-- The literal of a string that is read in quotes by its pieces. -/
def quoted (piece : Char → Parser (Option (List Char))) : Parser Tree := do
  let (value, raw) ← spelled do
    match ← rest with
    | quote :: _ =>
      drop 1
      let pieces ← many (piece quote)
      drop 1
      return String.ofList pieces.flatten
    | [] => fail
  return .node .stringLiteral [(.value, .str value), (.raw, .str raw)]

/-- A string in quotes of either kind. -/
def string : Parser Tree :=
  quoted stringPiece

/-- The next character of a template, decoded; none before a substitution or the closing quote. A
line end of two characters stands for one. -/
def templatePiece : Parser (Option (List Char)) := do
  match ← rest with
  | [] => fail
  | '`' :: _ | '$' :: '{' :: _ => return none
  | '\\' :: _ =>
    drop 1
    return (← escape)
  | '\r' :: '\n' :: _ =>
    drop 2
    return some ['\n']
  | c :: _ =>
    drop 1
    return some [if c = '\r' then '\n' else c]

/-- The text of a template up to a substitution or the closing quote. -/
def templateElement : Parser Tree := do
  let (pieces, raw) ← spelled (many templatePiece)
  return .node .templateElement
    [(.cooked, .str (String.ofList pieces.flatten)), (.raw, .str raw)]

/-- A template whose substitutions are read by a parser. -/
def template (substitution : Parser Tree) : Parser Tree := do
  drop 1
  let first ← templateElement
  let more ← many do
    match ← rest with
    | '`' :: _ =>
      drop 1
      return none
    | _ =>
      drop 2
      let expression ← substitution
      begins "\x7d"
      return some (expression, ← templateElement)
  return .node .templateLiteral
    [(.expressions, .list (more.map Prod.fst)), (.quasis, .list (first :: more.map Prod.snd))]

end JsxTracking.Source.Parser
