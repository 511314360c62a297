import JsxTracking.Syntax.Tree

/-! # Names in a tree

`Tree.identifiers` lists the identifiers that occur in a tree, whether they refer to a variable,
bind one or are assigned to. Property, key and attribute names are no identifiers.
`Tree.elementName` is the written name of a JSX element. -/

namespace JsxTracking.Tree

mutual

/-- The identifiers that occur in a tree, in visiting order. -/
def identifiers : Tree → List String
  | node .identifier fields => (Fields.get fields .value).text?.toList
  | node .binding fields => (Fields.get fields .value).text?.toList ++ identifiersInFields fields
  | node _ fields => identifiersInFields fields
  | list items => identifiersInItems items
  | _ => []

/-- The identifiers that occur in a list of trees. -/
def identifiersInItems : List Tree → List String
  | [] => []
  | item :: rest => identifiers item ++ identifiersInItems rest

/-- The identifiers that occur in the parts of a node. -/
def identifiersInFields : List (Field × Tree) → List String
  | [] => []
  | (_, part) :: rest => identifiers part ++ identifiersInFields rest

end

mutual

/-- The name of a JSX element as it is written: `div`, `Menu.Item`, `svg:rect`. -/
def elementName : Tree → String
  | node .jsxMemberExpression fields =>
    objectName fields ++ "." ++ ((Fields.get fields .property).value?.getD "")
  | node .jsxNamespacedName fields =>
    (Fields.get fields .namespacePart).value?.getD "" ++ ":" ++
      (Fields.get fields .name).value?.getD ""
  | tree => tree.value?.getD ""

/-- The written name of the object of a member name. -/
def objectName : List (Field × Tree) → String
  | [] => ""
  | (.object, object) :: _ => elementName object
  | _ :: rest => objectName rest

end

end JsxTracking.Tree
