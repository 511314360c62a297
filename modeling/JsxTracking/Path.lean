/-! # File paths

Paths are texts whose components are separated by slashes. Empty components and single dots do not
count, except for a dot at the start. A name is split at its last dot into stem and extension,
unless the dot comes first. Paths that come from elsewhere are normalized: backslashes become
slashes and a `file://` scheme is dropped. -/

namespace JsxTracking.Path

/-- The stretches of a text between slashes. -/
def segments : List Char → List (List Char)
  | [] => [[]]
  | c :: rest =>
    if c = '/' then [] :: segments rest
    else
      match segments rest with
      | [] => [[c]]
      | segment :: more => (c :: segment) :: more

/-- A component of a path. In an ordering of paths the forms come in this order. -/
inductive Component where
  | root
  | current
  | parent
  | name (name : String)
  deriving DecidableEq, Repr, Inhabited, Ord

/-- The component that a stretch between slashes stands for. -/
def component? (segment : List Char) : Option Component :=
  if segment = [] ∨ segment = ['.'] then none
  else if segment = ['.', '.'] then some .parent
  else some (.name (String.ofList segment))

/-- The components of a path. -/
def components (path : String) : List Component :=
  let parts := segments path.toList
  let start : List Component :=
    match parts with
    | ['.'] :: _ => [.current]
    | [] :: _ :: _ => [.root]
    | _ => []
  start ++ parts.filterMap component?

/-- The last component, if it is a name. -/
def fileName? (path : String) : Option String :=
  match (components path).getLast? with
  | some (.name name) => some name
  | _ => none

/-- Stem and extension of a name. -/
def splitName (name : String) : String × Option String :=
  let reversed := name.toList.reverse
  let extension := reversed.takeWhile (· ≠ '.')
  match reversed.dropWhile (· ≠ '.') with
  | '.' :: first :: stem =>
    (String.ofList (first :: stem).reverse, some (String.ofList extension.reverse))
  | _ => (name, none)

/-- The stem of the last component. -/
def fileStem? (path : String) : Option String :=
  (fileName? path).map fun name => (splitName name).1

/-- The extension of the last component. -/
def extension? (path : String) : Option String :=
  (fileName? path).bind fun name => (splitName name).2

/-- Whether a path can only stand for a directory, because it ends in a slash or a dot. -/
def endsInDirectory (path : String) : Bool :=
  match (segments path.toList).getLast? with
  | some [] | some ['.'] => true
  | _ => false

/-- A path below a directory. -/
def join (directory path : String) : String :=
  if path.toList.head? = some '/' then path
  else if directory.toList = [] ∨ directory.toList.getLast? = some '/' then directory ++ path
  else directory ++ "/" ++ path

/-- The directory that a path is directly below, without slashes at its end; none for a path of no
components. The directory of a name alone is the empty path. -/
def parent? (path : String) : Option String :=
  let isSlash (c : Char) : Bool := c = '/'
  match path.toList.reverse.dropWhile isSlash with
  | [] => none
  | reversed =>
    match (reversed.dropWhile (· ≠ '/')).dropWhile isSlash with
    | [] => some (if path.toList.head? = some '/' then "/" else "")
    | parent => some (String.ofList parent.reverse)

/-- Drop a prefix from a text that starts with it. -/
def dropPrefix? : (start text : List Char) → Option (List Char)
  | [], text => some text
  | _ :: _, [] => none
  | expected :: start, c :: text => if expected = c then dropPrefix? start text else none

/-- A path with forward slashes and without a `file://` scheme. -/
def normalize (path : String) : String :=
  let text := path.toList.map fun c => if c = '\\' then '/' else c
  match dropPrefix? "file:///".toList text with
  | some rest => String.ofList ('/' :: rest)
  | none =>
    match dropPrefix? "file://".toList text with
    | some rest => String.ofList rest
    | none => String.ofList text

/-- Whether a character may stand in the name of a file that the library writes. -/
def isSafe (c : Char) : Bool :=
  ('A' ≤ c && c ≤ 'Z') || ('a' ≤ c && c ≤ 'z') || ('0' ≤ c && c ≤ '9') || c = '.' || c = '_' ||
    c = '-'

/-- A name with every other character replaced. -/
def safeName (name : String) : String :=
  String.ofList (name.toList.map fun c => if isSafe c then c else '_')

end JsxTracking.Path
