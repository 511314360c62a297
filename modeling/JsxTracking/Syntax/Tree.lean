import JsxTracking.Syntax.Kind

/-! # Syntax trees

A module is a list of trees, one for each of its items. A tree is a node of some kind with named
parts in visiting order, a list of trees, or a scalar. A part that is missing reads as `Tree.null`.
Numerals are kept as they are spelled. -/

namespace JsxTracking

/-- A syntax tree. -/
inductive Tree where
  /-- An absent part, or a hole in an array. -/
  | null
  | bool (value : Bool)
  | num (numeral : String)
  | str (value : String)
  | list (items : List Tree)
  | node (kind : Kind) (fields : List (Field × Tree))
  deriving Repr, Inhabited

/-- The parts of a node. -/
abbrev Fields := List (Field × Tree)

/-- The part with a given name; `Tree.null` when there is none. -/
def Fields.get (fields : Fields) (field : Field) : Tree :=
  (fields.lookup field).getD .null

/-- The parts in the visiting order of a kind, those without a place in it last. -/
def Fields.arranged (fields : Fields) (kind : Kind) : Fields :=
  let placed := kind.layout.filterMap fun field => (fields.lookup field).map (field, ·)
  placed ++ fields.filter fun part => !kind.layout.contains part.1

namespace Tree

/-- The kind of a node. -/
def kind? : Tree → Option Kind
  | node kind _ => some kind
  | _ => none

/-- Whether the tree is a node of the given kind. -/
def isKind (tree : Tree) (kind : Kind) : Bool :=
  tree.kind? = some kind

/-- The part of a node with a given name; `Tree.null` when there is none. -/
def get (tree : Tree) (field : Field) : Tree :=
  match tree with
  | node _ fields => Fields.get fields field
  | _ => null

/-- The elements of a list. -/
def items : Tree → List Tree
  | list items => items
  | _ => []

/-- The text of a string scalar. -/
def text? : Tree → Option String
  | str value => some value
  | _ => none

/-- The spelling of an identifier of any of the three kinds, or the value of a string literal. -/
def value? (tree : Tree) : Option String :=
  (tree.get .value).text?

/-- Whether the tree is a flag that is raised. -/
def isTrue : Tree → Bool
  | bool value => value
  | _ => false

/-- Whether the tree stands for a missing part. -/
def isNull : Tree → Bool
  | null => true
  | _ => false

mutual

/-- Whether two trees are the same. -/
def same : Tree → Tree → Bool
  | null, null => true
  | bool a, bool b => a = b
  | num a, num b => a = b
  | str a, str b => a = b
  | list as, list bs => sameItems as bs
  | node k as, node l bs => k = l && sameFields as bs
  | _, _ => false

/-- Whether two lists hold the same trees. -/
def sameItems : List Tree → List Tree → Bool
  | [], [] => true
  | a :: as, b :: bs => same a b && sameItems as bs
  | _, _ => false

/-- Whether two nodes have the same parts. -/
def sameFields : List (Field × Tree) → List (Field × Tree) → Bool
  | [], [] => true
  | (f, a) :: as, (g, b) :: bs => f = g && same a b && sameFields as bs
  | _, _ => false

end

mutual

theorem same_iff : ∀ a b : Tree, same a b = true ↔ a = b
  | null, b => by cases b <;> simp [same]
  | bool _, b => by cases b <;> simp [same]
  | num _, b => by cases b <;> simp [same]
  | str _, b => by cases b <;> simp [same]
  | list as, b => by cases b <;> simp [same, sameItems_iff as]
  | node _ as, b => by cases b <;> simp [same, sameFields_iff as]

theorem sameItems_iff : ∀ as bs : List Tree, sameItems as bs = true ↔ as = bs
  | [], bs => by cases bs <;> simp [sameItems]
  | a :: as, bs => by cases bs <;> simp [sameItems, same_iff a, sameItems_iff as]

theorem sameFields_iff : ∀ as bs : List (Field × Tree), sameFields as bs = true ↔ as = bs
  | [], bs => by cases bs <;> simp [sameFields]
  | (f, a) :: as, bs => by
    cases bs with
    | nil => simp [sameFields]
    | cons b bs =>
      obtain ⟨g, b⟩ := b
      simp [sameFields, same_iff a, sameFields_iff as, and_assoc]

end

instance : DecidableEq Tree := fun a b => decidable_of_iff _ (same_iff a b)

end Tree

end JsxTracking
