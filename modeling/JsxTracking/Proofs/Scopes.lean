import JsxTracking.Proofs.Ownership
import Mathlib.Data.List.Induction

/-! # Scopes

A scope binds names within some parts of a node: `scopesIn` lists the scopes that a node puts around
one of its parts. The free names of a tree are those of its identifiers that no scope within the tree
binds (`Tree.freeNames`), and a name is resolved by the innermost of the scopes around it
(`resolve`). Types are erased and bind or mention nothing.

The scan of a body records most binders, but not all: the unrecorded ones are kept apart in a
scope. -/

namespace JsxTracking

/-- The names that a scope binds. -/
structure Scope where
  /-- The names of declarations that the scan of a body records. -/
  recorded : List String := []
  /-- The names of other declarations. -/
  unrecorded : List String := []
  deriving DecidableEq, Repr, Inhabited

/-- All names that a scope binds. -/
def Scope.names (scope : Scope) : List String :=
  scope.recorded ++ scope.unrecorded

/-- A search for declarations: the parts of nodes it goes into and the names it finds at a node. -/
structure Search where
  enters : Kind → Fields → Field → Bool
  finds : Kind → Fields → List String

namespace Tree

mutual

/-- The names that a search finds in a tree. -/
def gather (search : Search) : Tree → List String
  | node kind fields =>
    search.finds kind fields ++ gatherInFields search (search.enters kind fields) fields
  | list items => gatherInItems search items
  | _ => []

/-- The names that a search finds in a list of trees. -/
def gatherInItems (search : Search) : List Tree → List String
  | [] => []
  | item :: rest => gather search item ++ gatherInItems search rest

/-- The names that a search finds in those parts of a node that it goes into. -/
def gatherInFields (search : Search) (enters : Field → Bool) : List (Field × Tree) → List String
  | [] => []
  | (field, part) :: rest =>
    (if enters field then gather search part else []) ++ gatherInFields search enters rest

end

end Tree

namespace Search

/-- The part of a pattern that holds its variables. -/
def entersPattern : Kind → Field → Bool
  | .arrayPattern, .elements | .objectPattern, .properties | .keyValuePatternProperty, .value
  | .assignmentPatternProperty, .key | .assignmentPattern, .left | .restElement, .argument
  | .parameter, .pat => true
  | .other tag, .param => tag = "TsParameterProperty"
  | _, _ => false

/-- Where a declaration stands for itself in a list of statements. -/
def entersStatement : Kind → Field → Bool
  | .exportDeclaration, .declaration | .switchCase, .consequent => true
  | _, _ => false

/-- Where `var` looks for the function it belongs to. -/
def entersBlock (kind : Kind) (fields : Fields) (field : Field) : Bool :=
  match kind, field with
  | .blockStatement, .stmts | .ifStatement, .consequent | .ifStatement, .alternate
  | .forStatement, .initializer | .forStatement, .body | .forInStatement, .body
  | .forOfStatement, .body | .whileStatement, .body | .doWhileStatement, .body
  | .labeledStatement, .body | .withStatement, .body | .tryStatement, .block
  | .tryStatement, .handler | .tryStatement, .finalizer | .catchClause, .body
  | .switchStatement, .cases => true
  | .forInStatement, .left | .forOfStatement, .left =>
    (fields.get .left).isKind .variableDeclaration
  | _, _ => entersStatement kind field

/-- Whether a declaration is one of the kind `var`. -/
def isVar (fields : Fields) : Bool :=
  fields.get .kind = .str "var"

/-- The variable that a node in a pattern binds. -/
def bindingName (kind : Kind) (fields : Fields) : List String :=
  if kind = .binding then (fields.get .value).text?.toList else []

/-- The variables of a pattern. -/
def pattern : Search where
  enters kind _ field := entersPattern kind field
  finds := bindingName

/-- The variables of `let`, `const` and `using` and the names of classes. -/
def guarded : Search where
  enters kind fields field :=
    match kind, field with
    | .variableDeclaration, .declarations => !isVar fields
    | .variableDeclarator, .id => true
    | .other tag, .other key => tag = "UsingDeclaration" && key = "decls"
    | _, _ => entersPattern kind field || entersStatement kind field
  finds kind fields :=
    if kind = .classDeclaration then (fields.get .identifier).value?.toList
    else bindingName kind fields

/-- The names of functions. -/
def functions : Search where
  enters kind _ field := entersStatement kind field
  finds kind fields :=
    if kind = .functionDeclaration then (fields.get .identifier).value?.toList else []

/-- The names of enumerations. -/
def enums : Search where
  enters kind _ field := entersStatement kind field
  finds kind fields := if kind = .tsEnumDeclaration then (fields.get .id).value?.toList else []

/-- The names of namespaces and of imports that stand for members of namespaces. -/
def namespaces : Search where
  enters kind _ field := entersStatement kind field
  finds kind fields :=
    if kind = .tsModuleDeclaration ∨ kind = .other "TsImportEqualsDeclaration" then
      (fields.get .id).value?.toList
    else []

/-- The variables of `var`. -/
def vars : Search where
  enters kind fields field :=
    match kind, field with
    | .variableDeclaration, .declarations => isVar fields
    | .variableDeclarator, .id => true
    | _, _ => entersPattern kind field || entersBlock kind fields field
  finds := bindingName

end Search

namespace Scope

/-- The scope of the declarations that stand in a list of statements. -/
def ofStatements (statements : List Tree) : Scope where
  recorded := Tree.gatherInItems .guarded statements ++ Tree.gatherInItems .functions statements
  unrecorded := Tree.gatherInItems .enums statements ++ Tree.gatherInItems .namespaces statements

/-- The scope of the `var` declarations in the body of a function. -/
def ofVars (body : Tree) : Scope where
  recorded := body.gather .vars

/-- The scope of the parameters of a function. An arrow function has no `arguments`. -/
def ofParameters (kind : Kind) (parts : Fields) : Scope where
  recorded := (parts.get .params).gather .pattern ++ (parts.get .param).gather .pattern
  unrecorded := if kind = .arrowFunctionExpression ∨ kind = .staticBlock then [] else ["arguments"]

/-- The scope of the name of a function expression or class. -/
def ofName (parts : Fields) : Scope where
  recorded := (parts.get .identifier).value?.toList

/-- The names of several scopes in one. -/
def merge (scopes : List Scope) : Scope where
  recorded := scopes.flatMap recorded
  unrecorded := scopes.flatMap unrecorded

end Scope

namespace Kind

/-- The kinds of nodes that have the parameters and body of a function. -/
def isCallable : Kind → Bool
  | functionDeclaration | functionExpression | function | arrowFunctionExpression | methodProperty
  | constructor | getterProperty | setterProperty => true
  | _ => false

/-- Whether a part of a node does not run where the node does: it belongs to a nested function, or is
the value of a member that the instances of a class get. -/
def defers (kind : Kind) (parts : Fields) (field : Field) : Bool :=
  match field with
  | .params | .param | .body => kind.isCallable
  | .value => (kind = classProperty || kind = privateProperty) &&
      !(parts.get (.other "isStatic")).isTrue
  | _ => false

end Kind

/-- The scopes that a function puts around one of its parts, the innermost first. -/
def functionScopes (kind : Kind) (parts : Fields) : Field → List Scope
  | .params | .param => [.ofParameters kind parts]
  | .body => [.ofVars (parts.get .body), .ofParameters kind parts]
  | _ => []

/-- The scopes that a node puts around one of its parts, the innermost first. -/
def scopesIn (kind : Kind) (parts : Fields) (field : Field) : List Scope :=
  match kind with
  | .functionDeclaration | .arrowFunctionExpression | .function | .methodProperty | .constructor
  | .getterProperty | .setterProperty | .staticBlock => functionScopes kind parts field
  | .functionExpression => functionScopes kind parts field ++ [.ofName parts]
  | .classDeclaration | .classExpression => [.ofName parts]
  | .blockStatement => if field = .stmts then [.ofStatements (parts.get .stmts).items] else []
  | .other tag =>
    if tag = "TsModuleBlock" ∧ field = .body then
      [.ofStatements (parts.get .body).items, .ofVars (parts.get .body)]
    else []
  | .switchStatement => if field = .cases then [.ofStatements (parts.get .cases).items] else []
  | .forStatement => [.ofStatements [parts.get .initializer]]
  | .forInStatement | .forOfStatement => [.ofStatements [parts.get .left]]
  | .catchClause => [{ recorded := (parts.get .param).gather .pattern }]
  | .tsEnumDeclaration =>
    if field = .members then
      [{ unrecorded := (parts.get .members).items.flatMap fun member =>
          (member.get .id).value?.toList }]
    else []
  | _ => []

/-- Whether the identifiers in a part of a node are names of variables. Those of types, labels and
intrinsic elements are not. -/
def mentionsVariables (kind : Kind) (parts : Fields) (field : Field) : Bool :=
  match kind, field with
  | .labeledStatement, .label | .breakStatement, _ | .continueStatement, _
  | .jsxClosingElement, _ | .tsInterfaceDeclaration, _ | .tsTypeAliasDeclaration, _ => false
  | .jsxOpeningElement, .name =>
    !((parts.get .name).value?.any fun name => (name.toList.head?.any Char.isLower))
  | _, .ascription | _, .typeParameters | _, .returnType | _, .typeArguments | _, .typeParams
  | _, .superTypeParams | _, .implements | _, .extendsClause => false
  | _, _ => true

namespace Tree

mutual

/-- The names of the identifiers in a tree that no scope within the tree binds. -/
def freeNames : Tree → List String
  | node .identifier fields => (Fields.get fields .value).text?.toList
  | node .binding fields => (Fields.get fields .value).text?.toList
  | node kind fields => freeInFields kind fields fields
  | list items => freeInItems items
  | _ => []

/-- The free names of a list of trees. -/
def freeInItems : List Tree → List String
  | [] => []
  | item :: rest => freeNames item ++ freeInItems rest

/-- The free names of a node in some of its parts. -/
def freeInFields (kind : Kind) (whole : Fields) : List (Field × Tree) → List String
  | [] => []
  | (field, part) :: rest =>
    (if mentionsVariables kind whole field then
      (freeNames part).filter fun name =>
        (scopesIn kind whole field).all fun scope => !scope.names.contains name
    else []) ++ freeInFields kind whole rest

end

mutual

/-- The free names of a tree are among its identifiers. -/
theorem freeNames_subset : ∀ tree : Tree, tree.freeNames ⊆ tree.identifiers
  | node kind fields => by
    by_cases isIdentifier : kind = .identifier
    · subst isIdentifier
      rw [freeNames, identifiers]
      exact List.Subset.refl _
    by_cases isBinding : kind = .binding
    · subst isBinding
      rw [freeNames, identifiers]
      exact List.subset_append_left _ _
    rw [freeNames.eq_3 kind fields isIdentifier isBinding,
      identifiers.eq_3 kind fields isIdentifier isBinding]
    exact freeInFields_subset kind fields fields
  | list items => freeInItems_subset items
  | null | bool _ | num _ | str _ => List.nil_subset _

theorem freeInItems_subset : ∀ items : List Tree, freeInItems items ⊆ identifiersInItems items
  | [] => List.nil_subset _
  | item :: rest => List.append_subset.mpr
    ⟨List.Subset.trans (freeNames_subset item) (List.subset_append_left _ _),
      List.Subset.trans (freeInItems_subset rest) (List.subset_append_right _ _)⟩

theorem freeInFields_subset (kind : Kind) (whole : Fields) :
    ∀ fields : List (Field × Tree), freeInFields kind whole fields ⊆ identifiersInFields fields
  | [] => List.nil_subset _
  | (field, part) :: rest => by
    refine List.append_subset.mpr ⟨fun name member => List.mem_append_left _ ?_,
      List.Subset.trans (freeInFields_subset kind whole rest) (List.subset_append_right _ _)⟩
    split at member
    · exact freeNames_subset part ((List.mem_filter.mp member).1)
    · exact absurd member List.not_mem_nil

end

end Tree

/-- The names that a node declares by itself, as the scan of a body records them. -/
def introduced (kind : Kind) (fields : Fields) : List String :=
  match kind with
  | .binding => (fields.get .value).text?.toList
  | .functionDeclaration | .functionExpression | .classDeclaration | .classExpression =>
    (fields.get .identifier).value?.toList
  | _ => []

namespace Tree

/-- The names recorded at a node are its own and those of its parts. -/
theorem declaredNames_node {kind : Kind} (notBinding : kind ≠ .binding)
    (notTarget : kind ≠ .assignmentExpression) (fields : Fields) :
    (node kind fields).declaredNames = introduced kind fields ++ declaredInFields fields := by
  cases kind <;>
    first
    | rfl
    | exact absurd rfl notBinding
    | exact absurd rfl notTarget

theorem introduced_subset (kind : Kind) (fields : Fields) :
    introduced kind fields ⊆ (node kind fields).declaredNames := by
  by_cases notBinding : kind = .binding
  · subst notBinding
    exact List.Subset.refl _
  by_cases notTarget : kind = .assignmentExpression
  · subst notTarget
    exact List.nil_subset _
  rw [declaredNames_node notBinding notTarget]
  exact List.subset_append_left _ _

theorem declaredInFields_of_mem {fields : Fields} {field : Field} {part : Tree}
    (member : (field, part) ∈ fields) : part.declaredNames ⊆ declaredInFields fields := by
  induction fields with
  | nil => exact absurd member List.not_mem_nil
  | cons first rest ih =>
    rcases List.mem_cons.mp member with rfl | later
    · exact List.subset_append_left _ _
    · exact List.Subset.trans (ih later) (List.subset_append_right _ _)

theorem declaredInFields_get (fields : Fields) (field : Field) :
    (Fields.get fields field).declaredNames ⊆ declaredInFields fields := by
  unfold Fields.get
  cases found : fields.lookup field with
  | none => exact List.nil_subset _
  | some part =>
    obtain ⟨before, after, rfl, -⟩ := List.lookup_eq_some_iff.mp found
    exact declaredInFields_of_mem (List.mem_append_right _ List.mem_cons_self)

theorem declaredInItems_of_mem {items : List Tree} {item : Tree} (member : item ∈ items) :
    item.declaredNames ⊆ declaredInItems items := by
  induction items with
  | nil => exact absurd member List.not_mem_nil
  | cons first rest ih =>
    rcases List.mem_cons.mp member with rfl | later
    · exact List.subset_append_left _ _
    · exact List.Subset.trans (ih later) (List.subset_append_right _ _)

theorem gatherInItems_of_mem {search : Search} {items : List Tree} {item : Tree}
    (member : item ∈ items) : item.gather search ⊆ gatherInItems search items := by
  induction items with
  | nil => exact absurd member List.not_mem_nil
  | cons first rest ih =>
    rcases List.mem_cons.mp member with rfl | later
    · exact List.subset_append_left _ _
    · exact List.Subset.trans (ih later) (List.subset_append_right _ _)

theorem mem_gatherInItems {search : Search} {items : List Tree} {name : String} :
    name ∈ gatherInItems search items ↔ ∃ item ∈ items, name ∈ item.gather search := by
  constructor
  · intro found
    induction items with
    | nil => exact absurd found List.not_mem_nil
    | cons first rest ih =>
      rcases List.mem_append.mp found with here | later
      · exact ⟨first, List.mem_cons_self, here⟩
      · obtain ⟨item, member, inside⟩ := ih later
        exact ⟨item, List.mem_cons_of_mem _ member, inside⟩
  · rintro ⟨item, member, inside⟩
    exact gatherInItems_of_mem member inside

theorem gatherInItems_items (search : Search) (tree : Tree) :
    gatherInItems search tree.items ⊆ tree.gather search := by
  cases tree with
  | list items => exact List.Subset.refl _
  | null | bool | num | str | node => exact List.nil_subset _

theorem mem_gatherInFields {search : Search} {enters : Field → Bool} {fields : Fields}
    {name : String} (found : name ∈ gatherInFields search enters fields) :
    ∃ field part, (field, part) ∈ fields ∧ enters field = true ∧ name ∈ part.gather search := by
  induction fields with
  | nil => exact absurd found List.not_mem_nil
  | cons first rest ih =>
    rcases List.mem_append.mp found with here | later
    · split at here
      case isTrue entered => exact ⟨first.1, first.2, List.mem_cons_self, entered, here⟩
      case isFalse => exact absurd here List.not_mem_nil
    · obtain ⟨field, part, member, entered, inside⟩ := ih later
      exact ⟨field, part, List.mem_cons_of_mem _ member, entered, inside⟩

theorem gatherInFields_of_not_enters (search : Search) {enters : Field → Bool}
    (never : ∀ field, enters field = false) (fields : Fields) :
    gatherInFields search enters fields = [] := by
  induction fields with
  | nil => rfl
  | cons first rest ih =>
    rw [gatherInFields, never, ih]
    rfl

end Tree

/-- What a search finds is recorded by the scan of a body. -/
structure Search.IsRecorded (search : Search) : Prop where
  finds : ∀ kind fields, search.finds kind fields ⊆ introduced kind fields
  enters : ∀ kind fields field, search.enters kind fields field = true →
    kind ≠ .binding ∧ kind ≠ .assignmentExpression

namespace Tree

variable {search : Search}

mutual

/-- What a search finds is among the declared names, if it looks for recorded names only. -/
theorem gather_subset (recorded : search.IsRecorded) :
    ∀ tree : Tree, tree.gather search ⊆ tree.declaredNames
  | node kind fields => by
    rw [gather]
    refine List.append_subset.mpr
      ⟨List.Subset.trans (recorded.finds kind fields) (introduced_subset kind fields), ?_⟩
    by_cases looks : ∃ field, search.enters kind fields field = true
    · obtain ⟨field, enters⟩ := looks
      obtain ⟨notBinding, notTarget⟩ := recorded.enters kind fields field enters
      rw [declaredNames_node notBinding notTarget]
      exact List.Subset.trans (gatherInFields_subset recorded _ fields)
        (List.subset_append_right _ _)
    · rw [gatherInFields_of_not_enters search fun field =>
        Bool.eq_false_iff.mpr fun enters => looks ⟨field, enters⟩]
      exact List.nil_subset _
  | list items => gatherInItems_subset recorded items
  | null | bool _ | num _ | str _ => List.nil_subset _

theorem gatherInItems_subset (recorded : search.IsRecorded) :
    ∀ items : List Tree, gatherInItems search items ⊆ declaredInItems items
  | [] => List.nil_subset _
  | item :: rest => List.append_subset.mpr
    ⟨List.Subset.trans (gather_subset recorded item) (List.subset_append_left _ _),
      List.Subset.trans (gatherInItems_subset recorded rest) (List.subset_append_right _ _)⟩

theorem gatherInFields_subset (recorded : search.IsRecorded) (enters : Field → Bool) :
    ∀ fields : List (Field × Tree), gatherInFields search enters fields ⊆ declaredInFields fields
  | [] => List.nil_subset _
  | (field, part) :: rest => by
    refine List.append_subset.mpr ⟨?_,
      List.Subset.trans (gatherInFields_subset recorded enters rest)
        (List.subset_append_right _ _)⟩
    split
    · exact List.Subset.trans (gather_subset recorded part) (List.subset_append_left _ _)
    · exact List.nil_subset _

end

end Tree

namespace Search

theorem bindingName_subset (kind : Kind) (fields : Fields) :
    bindingName kind fields ⊆ introduced kind fields := by
  unfold bindingName
  split
  case isTrue isBinding =>
    subst isBinding
    exact List.Subset.refl _
  case isFalse => exact List.nil_subset _

theorem entersPattern_kind {kind : Kind} {field : Field} (enters : entersPattern kind field = true) :
    kind ≠ .binding ∧ kind ≠ .assignmentExpression := by
  constructor <;> rintro rfl <;> cases field <;> cases enters

theorem entersStatement_kind {kind : Kind} {field : Field}
    (enters : entersStatement kind field = true) :
    kind ≠ .binding ∧ kind ≠ .assignmentExpression := by
  constructor <;> rintro rfl <;> cases field <;> cases enters

theorem pattern_recorded : pattern.IsRecorded where
  finds := bindingName_subset
  enters _ _ _ enters := entersPattern_kind enters

theorem functions_recorded : functions.IsRecorded where
  finds kind fields := by
    unfold functions
    simp only
    split
    case isTrue isFunction =>
      subst isFunction
      exact List.Subset.refl _
    case isFalse => exact List.nil_subset _
  enters _ _ _ enters := entersStatement_kind enters

theorem guarded_recorded : guarded.IsRecorded where
  finds kind fields := by
    unfold guarded
    simp only
    split
    case isTrue isClass =>
      subst isClass
      exact List.Subset.refl _
    case isFalse => exact bindingName_subset kind fields
  enters kind fields field enters := by
    constructor <;> rintro rfl <;> cases field <;> cases enters

theorem vars_recorded : vars.IsRecorded where
  finds := bindingName_subset
  enters kind fields field enters := by
    constructor <;> rintro rfl <;> cases field <;> cases enters

end Search

/-- The names that the scan of a body records for a statement, without the name of a function that is
declared by it. -/
def Tree.nestedNames : Tree → List String
  | .node .functionDeclaration fields => declaredInFields fields
  | tree => tree.declaredNames

theorem Tree.nestedNames_subset (tree : Tree) : tree.nestedNames ⊆ tree.declaredNames := by
  unfold nestedNames
  split
  · rw [declaredNames_node Kind.noConfusion Kind.noConfusion]
    exact List.subset_append_right _ _
  · exact List.Subset.refl _

theorem Tree.nestedNames_node {kind : Kind} (notBinding : kind ≠ .binding)
    (notTarget : kind ≠ .assignmentExpression) (fields : Fields) :
    declaredInFields fields ⊆ (node kind fields).nestedNames := by
  unfold nestedNames
  split
  case h_1 same =>
    obtain ⟨-, rfl⟩ := node.inj same
    exact List.Subset.refl _
  case h_2 =>
    rw [declaredNames_node notBinding notTarget]
    exact List.subset_append_right _ _

namespace Scope

theorem ofStatements_recorded (items : List Tree) :
    (ofStatements items).recorded ⊆ Tree.declaredInItems items :=
  List.append_subset.mpr ⟨Tree.gatherInItems_subset Search.guarded_recorded items,
    Tree.gatherInItems_subset Search.functions_recorded items⟩

theorem ofStatements_items_recorded (parts : Fields) (field : Field) :
    (ofStatements (parts.get field).items).recorded ⊆ Tree.declaredInFields parts := by
  refine List.Subset.trans (List.append_subset.mpr ⟨?_, ?_⟩) (Tree.declaredInFields_get parts field)
  · exact List.Subset.trans (Tree.gatherInItems_items _ _)
      (Tree.gather_subset Search.guarded_recorded _)
  · exact List.Subset.trans (Tree.gatherInItems_items _ _)
      (Tree.gather_subset Search.functions_recorded _)

theorem ofStatements_single_recorded (parts : Fields) (field : Field) :
    (ofStatements [parts.get field]).recorded ⊆ Tree.declaredInFields parts := by
  refine List.Subset.trans (ofStatements_recorded _) ?_
  rw [Tree.declaredInItems, Tree.declaredInItems, List.append_nil]
  exact Tree.declaredInFields_get parts field

theorem ofVars_recorded (parts : Fields) (field : Field) :
    (ofVars (parts.get field)).recorded ⊆ Tree.declaredInFields parts :=
  List.Subset.trans (Tree.gather_subset Search.vars_recorded _) (Tree.declaredInFields_get parts field)

theorem ofParameters_recorded (kind : Kind) (parts : Fields) :
    (ofParameters kind parts).recorded ⊆ Tree.declaredInFields parts :=
  List.append_subset.mpr
    ⟨List.Subset.trans (Tree.gather_subset Search.pattern_recorded _)
      (Tree.declaredInFields_get parts .params),
    List.Subset.trans (Tree.gather_subset Search.pattern_recorded _)
      (Tree.declaredInFields_get parts .param)⟩

theorem functionScopes_recorded {kind : Kind} {parts : Fields} {field : Field} {scope : Scope}
    (member : scope ∈ functionScopes kind parts field) :
    scope.recorded ⊆ Tree.declaredInFields parts := by
  unfold functionScopes at member
  split at member
  · obtain rfl := List.mem_singleton.mp member
    exact ofParameters_recorded kind parts
  · obtain rfl := List.mem_singleton.mp member
    exact ofParameters_recorded kind parts
  · rcases List.mem_cons.mp member with rfl | later
    · exact ofVars_recorded parts .body
    · obtain rfl := List.mem_singleton.mp later
      exact ofParameters_recorded kind parts
  · exact absurd member List.not_mem_nil

/-- A scope that a node puts around one of its parts has its recorded names from the node. -/
theorem scopesIn_recorded {kind : Kind} {parts : Fields} {field : Field} {scope : Scope}
    (member : scope ∈ scopesIn kind parts field) :
    scope.recorded ⊆ (Tree.node kind parts).nestedNames := by
  have named (isNamed : introduced kind parts = (parts.get .identifier).value?.toList)
      (notDeclared : (Tree.node kind parts).nestedNames = (Tree.node kind parts).declaredNames) :
      (ofName parts).recorded ⊆ (Tree.node kind parts).nestedNames := by
    rw [notDeclared, ofName, ← isNamed]
    exact Tree.introduced_subset kind parts
  unfold scopesIn at member
  split at member
  case h_1 | h_2 | h_3 | h_4 | h_5 | h_6 | h_7 | h_8 =>
    exact List.Subset.trans (functionScopes_recorded member)
      (Tree.nestedNames_node Kind.noConfusion Kind.noConfusion parts)
  case h_9 =>
    rcases List.mem_append.mp member with function | name
    · exact List.Subset.trans (functionScopes_recorded function)
        (Tree.nestedNames_node Kind.noConfusion Kind.noConfusion parts)
    · obtain rfl := List.mem_singleton.mp name
      exact named rfl rfl
  case h_10 | h_11 =>
    obtain rfl := List.mem_singleton.mp member
    exact named rfl rfl
  case h_12 =>
    split at member
    · obtain rfl := List.mem_singleton.mp member
      exact List.Subset.trans (ofStatements_items_recorded parts .stmts)
        (Tree.nestedNames_node Kind.noConfusion Kind.noConfusion parts)
    · exact absurd member List.not_mem_nil
  case h_13 =>
    split at member
    · rcases List.mem_cons.mp member with rfl | later
      · exact List.Subset.trans (ofStatements_items_recorded parts .body)
          (Tree.nestedNames_node Kind.noConfusion Kind.noConfusion parts)
      · obtain rfl := List.mem_singleton.mp later
        exact List.Subset.trans (ofVars_recorded parts .body)
          (Tree.nestedNames_node Kind.noConfusion Kind.noConfusion parts)
    · exact absurd member List.not_mem_nil
  case h_14 =>
    split at member
    · obtain rfl := List.mem_singleton.mp member
      exact List.Subset.trans (ofStatements_items_recorded parts .cases)
        (Tree.nestedNames_node Kind.noConfusion Kind.noConfusion parts)
    · exact absurd member List.not_mem_nil
  case h_15 | h_16 | h_17 =>
    obtain rfl := List.mem_singleton.mp member
    exact List.Subset.trans (ofStatements_single_recorded parts _)
      (Tree.nestedNames_node Kind.noConfusion Kind.noConfusion parts)
  case h_18 =>
    obtain rfl := List.mem_singleton.mp member
    exact List.Subset.trans (List.Subset.trans (Tree.gather_subset Search.pattern_recorded _)
      (Tree.declaredInFields_get parts .param))
      (Tree.nestedNames_node Kind.noConfusion Kind.noConfusion parts)
  case h_19 =>
    split at member
    · obtain rfl := List.mem_singleton.mp member
      exact List.nil_subset _
    · exact absurd member List.not_mem_nil
  case h_20 => exact absurd member List.not_mem_nil

theorem mem_merge_names {scopes : List Scope} {name : String} :
    name ∈ (merge scopes).names ↔ ∃ scope ∈ scopes, name ∈ scope.names := by
  simp only [names, merge, List.mem_append, List.mem_flatMap]
  constructor
  · rintro (⟨scope, member, found⟩ | ⟨scope, member, found⟩)
    · exact ⟨scope, member, Or.inl found⟩
    · exact ⟨scope, member, Or.inr found⟩
  · rintro ⟨scope, member, found | found⟩
    · exact Or.inl ⟨scope, member, found⟩
    · exact Or.inr ⟨scope, member, found⟩

end Scope

namespace Frame

/-- The scopes that a step from a node to one of its parts enters. -/
def scopes (frame : Frame) : List Scope :=
  scopesIn frame.kind frame.parts frame.field

/-- Whether the scan of a body does not look into the part of the node, which is the target of an
assignment. -/
def isTarget (frame : Frame) : Bool :=
  frame.kind = .binding || (frame.kind = .assignmentExpression && frame.field ≠ .right)

/-- Targets of assignments are in no scope of their own. -/
theorem scopes_of_isTarget {frame : Frame} (target : frame.isTarget = true) :
    frame.scopes = [] := by
  obtain ⟨kind, parts, field⟩ := frame
  rcases Bool.or_eq_true_iff.mp target with isBinding | isAssignment
  · obtain rfl : kind = .binding := of_decide_eq_true isBinding
    rfl
  · obtain rfl : kind = .assignmentExpression :=
      of_decide_eq_true (Bool.and_eq_true_iff.mp isAssignment).1
    rfl

/-- The names bound between a place and a node around it, given those bound between the place and a
part of the node. What is bound within the target of an assignment is not recorded. -/
def enclose (inside : Scope) (frame : Frame) : Scope :=
  if frame.isTarget then { unrecorded := inside.names }
  else
    { recorded := inside.recorded ++ (Scope.merge frame.scopes).recorded
      unrecorded := inside.unrecorded ++ (Scope.merge frame.scopes).unrecorded }

/-- The names that are bound along a way through nodes, which is listed from the inner ones to the
outer ones. -/
def bound (path : List Frame) : Scope :=
  path.foldl enclose {}

theorem bound_append_singleton (path : List Frame) (frame : Frame) :
    bound (path ++ [frame]) = enclose (bound path) frame := by
  rw [bound, List.foldl_append]
  rfl

theorem mem_enclose_names {inside : Scope} {frame : Frame} {name : String} :
    name ∈ (enclose inside frame).names ↔
      name ∈ inside.names ∨ ∃ scope ∈ frame.scopes, name ∈ scope.names := by
  unfold enclose
  split
  case isTrue target =>
    rw [scopes_of_isTarget target]
    simp [Scope.names]
  case isFalse =>
    rw [← Scope.mem_merge_names]
    simp only [Scope.names, List.mem_append]
    exact or_or_or_comm

/-- The names bound along a way are those of the scopes on it. -/
theorem mem_bound_names {path : List Frame} {name : String} :
    name ∈ (bound path).names ↔ ∃ scope ∈ path.flatMap scopes, name ∈ scope.names := by
  induction path using List.reverseRecOn with
  | nil => simp [bound, Scope.names]
  | append_singleton path frame ih =>
    rw [bound_append_singleton, mem_enclose_names, ih, List.flatMap_append, List.flatMap_singleton]
    simp only [List.mem_append]
    constructor
    · rintro (⟨scope, member, found⟩ | ⟨scope, member, found⟩)
      · exact ⟨scope, Or.inl member, found⟩
      · exact ⟨scope, Or.inr member, found⟩
    · rintro ⟨scope, member | member, found⟩
      · exact Or.inl ⟨scope, member, found⟩
      · exact Or.inr ⟨scope, member, found⟩

end Frame

/-- A scope that binds a name: in which part of a component it is, and how many scopes are around it
there. -/
structure Binding where
  part? : Option Field
  depth : Nat
  deriving DecidableEq, Repr, Inhabited

/-- Which scope binds a name, given the scopes around a place in a part of a component, the innermost
first. What none of them binds is bound around the component. -/
def resolve (part? : Option Field) : List Scope → String → Option Binding
  | [], _ => none
  | scope :: around, name =>
    if name ∈ scope.names then some ⟨part?, around.length⟩ else resolve part? around name

theorem resolve_eq_none (part? : Option Field) {chain : List Scope} {name : String} :
    resolve part? chain name = none ↔ ∀ scope ∈ chain, name ∉ scope.names := by
  induction chain with
  | nil => simp [resolve]
  | cons scope around ih =>
    rw [resolve]
    split
    case isTrue found => simp [found]
    case isFalse absent => simp [ih, absent]

theorem resolve_some {part? : Option Field} {chain : List Scope} {name : String} {binding : Binding}
    (found : resolve part? chain name = some binding) :
    binding.part? = part? ∧ binding.depth < chain.length := by
  induction chain with
  | nil => cases found
  | cons scope around ih =>
    rw [resolve] at found
    split at found
    · obtain rfl := Option.some.inj found
      exact ⟨rfl, Nat.lt_succ_self _⟩
    · obtain ⟨same, less⟩ := ih found
      exact ⟨same, Nat.lt_succ_of_lt less⟩

/-- Further scopes leave a name bound as it was if and only if they do not bind it. -/
theorem resolve_append_eq_iff {part? : Option Field} {inner around : List Scope} {name : String} :
    resolve part? (inner ++ around) name = resolve part? around name ↔
      ∀ scope ∈ inner, name ∉ scope.names := by
  induction inner with
  | nil => simp
  | cons scope rest ih =>
    rw [List.cons_append, resolve]
    split
    case isTrue found =>
      refine ⟨fun same => ?_, fun free => absurd found (free scope List.mem_cons_self)⟩
      have less := (resolve_some same.symm).2
      rw [List.length_append] at less
      exact absurd less (Nat.not_lt.mpr (Nat.le_add_left _ _))
    case isFalse absent =>
      rw [ih]
      simp [absent]

/-- In different parts of a component, only names bound around it are bound by the same scope. -/
theorem resolve_eq_iff_of_ne {part? other? : Option Field} (different : part? ≠ other?)
    {chain others : List Scope} {name : String} :
    resolve part? chain name = resolve other? others name ↔
      (∀ scope ∈ chain, name ∉ scope.names) ∧ ∀ scope ∈ others, name ∉ scope.names := by
  rw [← resolve_eq_none part?, ← resolve_eq_none other?]
  constructor
  · intro same
    cases found : resolve part? chain name with
    | none => exact ⟨rfl, same.symm.trans found⟩
    | some binding =>
      have here := (resolve_some found).1
      have there := (resolve_some (same.symm.trans found)).1
      exact absurd (here.symm.trans there) different
  · rintro ⟨unbound, alsoUnbound⟩
    rw [unbound, alsoUnbound]

end JsxTracking
