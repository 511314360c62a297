import JsxTracking.Hexadecimal

/-! # JSON values and their text

Objects keep their members in order, and numbers are natural numbers or numerals as they are
spelled. `Json.pretty` writes a value over several lines: one member or element a line, two spaces
a level, a space after each colon, and empty lists and objects closed at once. In strings only
quotes, backslashes and control characters are escaped. -/

namespace JsxTracking

/-- A JSON value. -/
inductive Json where
  | null
  | bool (value : Bool)
  | num (numeral : String)
  | str (value : String)
  | arr (items : List Json)
  | obj (members : List (String × Json))
  deriving Repr, Inhabited

namespace Json

/-- A natural number. -/
def nat (value : Nat) : Json :=
  num (toString value)

/-- A character as it is written within a string. -/
def escape (c : Char) : List Char :=
  if c = '"' then ['\\', '"']
  else if c = '\\' then ['\\', '\\']
  else if c = '\n' then ['\\', 'n']
  else if c = '\r' then ['\\', 'r']
  else if c = '\t' then ['\\', 't']
  else if c = '\x08' then ['\\', 'b']
  else if c = '\x0c' then ['\\', 'f']
  else if c.toNat < 0x20 then
    ['\\', 'u', '0', '0', hexDigit (c.toNat / 16), hexDigit (c.toNat % 16)]
  else [c]

/-- A string in quotes. -/
def quote (value : String) : List Char :=
  '"' :: (value.toList.flatMap escape ++ ['"'])

/-- The end of a line and the indentation of the next. -/
def newline (level : Nat) : List Char :=
  '\n' :: List.replicate (2 * level) ' '

mutual

/-- The text of a value that starts at a level of indentation. -/
def prettyChars (level : Nat) : Json → List Char
  | null => "null".toList
  | bool true => "true".toList
  | bool false => "false".toList
  | num numeral => numeral.toList
  | str value => quote value
  | arr [] => ['[', ']']
  | arr (item :: rest) =>
    '[' :: (newline (level + 1) ++ prettyChars (level + 1) item ++
      prettyItems (level + 1) rest ++ newline level ++ [']'])
  | obj [] => ['{', '}']
  | obj ((key, value) :: rest) =>
    '{' :: (newline (level + 1) ++ quote key ++ [':', ' '] ++ prettyChars (level + 1) value ++
      prettyMembers (level + 1) rest ++ newline level ++ ['}'])

/-- The text of the elements of a list after the first. -/
def prettyItems (level : Nat) : List Json → List Char
  | [] => []
  | item :: rest => ',' :: (newline level ++ prettyChars level item ++ prettyItems level rest)

/-- The text of the members of an object after the first. -/
def prettyMembers (level : Nat) : List (String × Json) → List Char
  | [] => []
  | (key, value) :: rest =>
    ',' :: (newline level ++ quote key ++ [':', ' '] ++ prettyChars level value ++
      prettyMembers level rest)

end

/-- The text of a value over several lines. -/
def pretty (value : Json) : String :=
  String.ofList (prettyChars 0 value)

end Json

end JsxTracking
