import JsxTracking.Hexadecimal

/-! # Strings in generated code

A generated string stands in double quotes, or in single quotes if it holds more double quotes than
single ones. The quote it stands in, backslashes, control characters but the tab, and the characters
that other programs take for line ends or byte order marks are escaped. -/

namespace JsxTracking.Source.Quoted

/-- The quote that a string stands in. -/
def quote (value : List Char) : Char :=
  if value.count '\'' < value.count '"' then '\'' else '"'

/-- A character of a string as it is written before another. The null character is spelled out
before a digit. -/
def escape (quote c : Char) (next? : Option Char) : List Char :=
  if c = quote || c = '\\' then ['\\', c]
  else if c = '\n' then ['\\', 'n']
  else if c = '\r' then ['\\', 'r']
  else if c = '\x08' then ['\\', 'b']
  else if c = '\x0c' then ['\\', 'f']
  else if c = '\x0b' then ['\\', 'v']
  else if c = '\x00' && !(next?.any Char.isDigit) then ['\\', '0']
  else if c = '\t' then [c]
  else if c.toNat < 0x20 then ['\\', 'x', hexDigit (c.toNat / 16), hexDigit (c.toNat % 16)]
  else if c.toNat = 0x2028 then "\\u2028".toList
  else if c.toNat = 0x2029 then "\\u2029".toList
  else if c.toNat = 0xFEFF then "\\uFEFF".toList
  else [c]

/-- The characters of a string as they are written within quotes. -/
def body (quote : Char) : List Char → List Char
  | [] => []
  | c :: rest => escape quote c rest.head? ++ body quote rest

/-- A string in quotes. -/
def write (value : String) : List Char :=
  let quote := quote value.toList
  quote :: (body quote value.toList ++ [quote])

end JsxTracking.Source.Quoted
