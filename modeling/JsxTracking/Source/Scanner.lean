import JsxTracking.WhiteSpace

/-! # Scanning source text

A parser takes syntax off the front of a text, or stops where the text is no module. Between two
tokens stands a *gap* of blanks, line ends and comments; what matters of it are its comments and
whether a line ends in it. -/

namespace JsxTracking.Source

/-- The place at which a text stops being a module, by the number of characters from there on. -/
structure SyntaxFault where
  remaining : Nat
  deriving DecidableEq, Repr, Inhabited

/-- A parser takes syntax off the front of a text. -/
abbrev Parser := StateT (List Char) (Except SyntaxFault)

/-- Whether a character ends a line. -/
def isLineEnd (c : Char) : Bool :=
  c = '\n' || c = '\r' || c.toNat = 0x2028 || c.toNat = 0x2029

/-- Whether a character may stand between two tokens. Next to white space this is the byte order
mark; the control character "next line" is none. -/
def isBlank (c : Char) : Bool :=
  (isWhiteSpace c && c.toNat ≠ 0x85) || c.toNat = 0xFEFF

/-- The first and last characters of the blocks of letters beyond ASCII that names are made of. -/
def letterBlocks : List (Nat × Nat) :=
  [(0xAA, 0xAA), (0xB5, 0xB5), (0xBA, 0xBA), (0xC0, 0xD6), (0xD8, 0xF6), (0xF8, 0x2C1),
    (0x370, 0x373), (0x376, 0x377), (0x37B, 0x37D), (0x37F, 0x37F), (0x386, 0x386),
    (0x388, 0x481), (0x48A, 0x556), (0x561, 0x587), (0x5D0, 0x5EA), (0x620, 0x64A),
    (0x671, 0x6D3), (0x904, 0x939), (0xE01, 0xE30), (0x10A0, 0x10FF), (0x1100, 0x1248),
    (0x1E00, 0x1FBC), (0x3041, 0x3096), (0x30A1, 0x30FA), (0x3105, 0x312F), (0x3131, 0x318E),
    (0x3400, 0x4DBF), (0x4E00, 0x9FFF), (0xA000, 0xA48C), (0xAC00, 0xD7A3), (0xF900, 0xFAD9),
    (0xFF21, 0xFF3A), (0xFF41, 0xFF5A), (0xFF66, 0xFFBE), (0x20000, 0x323AF)]

/-- Whether a name may begin with a character. -/
def startsName (c : Char) : Bool :=
  c.isAlpha || c = '$' || c = '_' ||
    letterBlocks.any fun (first, last) => first ≤ c.toNat && c.toNat ≤ last

/-- Whether a name may go on with a character. -/
def continuesName (c : Char) : Bool :=
  startsName c || c.isDigit || c.toNat = 0x200C || c.toNat = 0x200D ||
    (0x300 ≤ c.toNat && c.toNat ≤ 0x36F)

/-- The symbols of source text, longer ones first. -/
def symbols : List String :=
  [">>>=", "...", "===", "!==", "**=", "<<=", ">>=", ">>>", "&&=", "||=", "??=", "=>", "==", "!=",
    "<=", ">=", "&&", "||", "??", "?.", "++", "--", "+=", "-=", "*=", "/=", "%=", "&=", "|=", "^=",
    "<<", ">>", "**", "\x7b", "\x7d", "(", ")", "[", "]", ";", ",", "<", ">", "+", "-", "*", "/",
    "%", "&", "|", "^", "!", "~", "?", ":", "=", ".", "@", "#"]

/-- The symbol at the front of a text: the longest there is. Before a digit, a question mark and a
point are two. -/
def symbolAt? (text : List Char) : Option String :=
  match text with
  | '?' :: '.' :: c :: _ => some (if c.isDigit then "?" else "?.")
  | text => symbols.find? fun symbol => symbol.toList.isPrefixOf text

/-- What stands between two tokens. -/
structure Gap where
  /-- The comments that begin on the line of the token before. -/
  onLine : List String := []
  /-- The comments that begin on a later line. -/
  below : List String := []
  /-- Whether a line ends in the gap. -/
  breaks : Bool := false
  deriving DecidableEq, Repr, Inhabited

namespace Gap

/-- The gap with one more comment at its end. -/
def comment (gap : Gap) (text : List Char) : Gap :=
  if gap.breaks then { gap with below := gap.below ++ [String.ofList text] }
  else { gap with onLine := gap.onLine ++ [String.ofList text] }

/-- The gap with a line end at its end. -/
def lineEnd (gap : Gap) : Gap :=
  { gap with breaks := true }

/-- Where a scan of a gap stands. The characters of a comment come last first. -/
inductive Place where
  | between
  | lineComment (reversed : List Char)
  /-- Within a comment in slashes and stars, which may go over several lines. -/
  | blockComment (reversed : List Char) (breaks : Bool)
  deriving Inhabited

/-- Scan a gap: what it is made of and the text behind it. -/
def scan : Place → Gap → List Char → Except SyntaxFault (Gap × List Char)
  | .between, gap, '/' :: '/' :: rest => scan (.lineComment ['/', '/']) gap rest
  | .between, gap, '/' :: '*' :: rest => scan (.blockComment ['*', '/'] false) gap rest
  | .between, gap, c :: rest =>
    if isLineEnd c then scan .between gap.lineEnd rest
    else if isBlank c then scan .between gap rest
    else .ok (gap, c :: rest)
  | .lineComment reversed, gap, c :: rest =>
    if isLineEnd c then scan .between (gap.comment reversed.reverse).lineEnd rest
    else scan (.lineComment (c :: reversed)) gap rest
  | .blockComment reversed breaks, gap, '*' :: '/' :: rest =>
    let gap := gap.comment ('/' :: '*' :: reversed).reverse
    scan .between (if breaks then gap.lineEnd else gap) rest
  | .blockComment reversed breaks, gap, c :: rest =>
    scan (.blockComment (c :: reversed) (breaks || isLineEnd c)) gap rest
  | .between, gap, [] => .ok (gap, [])
  | .lineComment reversed, gap, [] => .ok (gap.comment reversed.reverse, [])
  | .blockComment _ _, _, [] => .error ⟨0⟩

end Gap

namespace Parser

variable {α : Type}

/-- Stop here. -/
def fail : Parser α :=
  fun text => .error ⟨text.length⟩

/-- Stop here unless something holds. -/
def require (holds : Bool) : Parser Unit :=
  if holds then return else fail

/-- Run a function that takes something off the front of a text. -/
def lift (read : List Char → Except SyntaxFault (α × List Char)) : Parser α :=
  fun text => read text

/-- The gap that comes next. -/
def gap : Parser Gap :=
  lift (Gap.scan .between {})

/-- The text that comes next, without taking it. -/
def rest : Parser (List Char) :=
  get

/-- Drop some characters. -/
def drop (count : Nat) : Parser Unit :=
  modify (·.drop count)

/-- The characters that satisfy a condition, up to the first that does not. -/
def takeWhile (holds : Char → Bool) : Parser (List Char) :=
  modifyGet fun text => (text.takeWhile holds, text.dropWhile holds)

/-- A parser tried in vain takes nothing. -/
def attempt? (parser : Parser α) : Parser (Option α) :=
  fun text =>
    match parser text with
    | .ok (value, rest) => .ok (some value, rest)
    | .error _ => .ok (none, text)

/-- What a parser would take, without taking it. -/
def ahead (parser : Parser α) : Parser α :=
  fun text => (parser text).map fun (value, _) => (value, text)

/-- Whether what comes next begins with some text. The gap before it and the text are taken if so,
and nothing otherwise. -/
def begins? (text : String) : Parser Bool := do
  let before ← rest
  let _ ← gap
  if text.toList.isPrefixOf (← rest) then
    drop text.length
    return true
  else
    set before
    return false

/-- What comes next begins with some text, which is taken. -/
def begins (text : String) : Parser Unit := do
  require (← begins? text)

/-- The symbol that comes next, without taking it. -/
def nextSymbol? : Parser (Option String) :=
  ahead do
    let _ ← gap
    return symbolAt? (← rest)

/-- Whether the next token is a certain symbol, which is taken if so. -/
def symbol? (text : String) : Parser Bool := do
  if (← nextSymbol?) = some text then begins? text else return false

/-- The next token is a certain symbol, which is taken. -/
def symbol (text : String) : Parser Unit := do
  require (← symbol? text)

/-- The character that the next token begins with. -/
def nextChar? : Parser (Option Char) :=
  ahead do
    let _ ← gap
    return (← rest).head?

/-- The characters of a name, if a name comes next in the text. -/
def nameHere? : Parser (Option String) := do
  match ← rest with
  | c :: _ =>
    if startsName c then return some (String.ofList (← takeWhile continuesName))
    else return none
  | [] => return none

/-- The next token, if it is a name. -/
def name? : Parser (Option String) := do
  let before ← rest
  let _ ← gap
  match ← nameHere? with
  | some name => return some name
  | none =>
    set before
    return none

/-- The next token, which is a name. -/
def name : Parser String := do
  match ← name? with
  | some name => return name
  | none => fail

/-- The name that comes next, without taking it. -/
def nextName? : Parser (Option String) :=
  ahead name?

/-- Whether the next token is a certain word, which is taken if so. -/
def word? (word : String) : Parser Bool := do
  if (← nextName?) = some word then
    let _ ← name
    return true
  else return false

/-- The next token is a certain word, which is taken. -/
def word (word : String) : Parser Unit := do
  require (← word? word)

/-- Whether a line ends before the next token. -/
def breaksAhead : Parser Bool :=
  return (← ahead gap).breaks

/-- Try a token only where it is allowed. -/
def ifAllowed (allowed : Bool) (token? : Parser Bool) : Parser Bool :=
  if allowed then token? else return false

/-- Try a token only if no line ends before it. -/
def onSameLine (token? : Parser Bool) : Parser Bool := do
  if ← breaksAhead then return false else token?

/-- The end of a statement: a semicolon, which may be left out before a brace, at the end of the
text and at the end of a line. -/
def semicolon : Parser Unit := do
  if ← symbol? ";" then return
  match ← nextChar? with
  | none | some '}' => return
  | some _ => require (← breaksAhead)

/-- Repeat a parser as long as it has something to take; the text that is left bounds the number of
rounds. -/
def many (parser : Parser (Option α)) : Parser (List α) := do
  rounds ((← rest).length + 1)
where
  /-- At most so many rounds. -/
  rounds : Nat → Parser (List α)
    | 0 => return []
    | fuel + 1 => do
      match ← parser with
      | none => return []
      | some value => return value :: (← rounds fuel)

/-- Items with commas between them, and perhaps after the last, up to a closing symbol. -/
def separated (close : String) (item : Parser α) : Parser (List α) := do
  let items ← many do
    if ← ahead (symbol? close) then return none
    let value ← item
    if !(← ahead (symbol? close)) then symbol ","
    return some value
  symbol close
  return items

/-- Go on from a value as long as a parser has a next one. -/
def extend (start : α) (next : α → Parser (Option α)) : Parser α := do
  rounds ((← rest).length + 1) start
where
  /-- At most so many rounds. -/
  rounds : Nat → α → Parser α
    | 0, value => return value
    | fuel + 1, value => do
      match ← next value with
      | none => return value
      | some value => rounds fuel value

end Parser

end JsxTracking.Source
