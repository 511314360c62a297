import JsxTracking.Proofs.Rewriting
import JsxTracking.Proofs.ValueScope

/-! # What scopes bind after instrumentation

Declarations stand where instrumentation changes nothing: no search for them goes into the body of a
function or into the attributes of an element (`Search.IsStable`). So it finds the same names in an
instrumented tree as in the module (`Rewriting.Allowed.gather_image`), and the scopes that a node puts
around its parts are the same as before (`scopesIn_congr`). -/

namespace JsxTracking

open JsxTracking.Tree

/-- Two trees are of the same kind, have the same text or spelling, and are raised flags alike. -/
structure Tree.SeemsLike (first second : Tree) : Prop where
  kind : first.kind? = second.kind?
  text : first.text? = second.text?
  value : first.value? = second.value?
  flag : first.isTrue = second.isTrue

/-- The parts of two nodes seem alike, bodies and attributes apart. -/
def Fields.SeemLike (first second : Fields) : Prop :=
  ∀ field, field ≠ .body → field ≠ .attributes → (first.get field).SeemsLike (second.get field)

theorem Tree.SeemsLike.isKind {first second : Tree} (alike : first.SeemsLike second) (kind : Kind) :
    first.isKind kind = second.isKind kind := by
  rw [Tree.isKind, Tree.isKind, alike.kind]

theorem Tree.text?_eq_some {tree : Tree} {text : String} :
    tree.text? = some text ↔ tree = .str text := by
  cases tree <;> simp [text?]

/-- A search for declarations does not go where instrumentation changes something, and tells nodes
with parts that seem alike not apart. -/
structure Search.IsStable (search : Search) : Prop where
  finds : ∀ kind {first second : Fields}, first.SeemLike second →
    search.finds kind first = search.finds kind second
  enters : ∀ kind {first second : Fields}, first.SeemLike second →
    search.enters kind first = search.enters kind second
  body : ∀ {kind} fields, kind.isFunction = true → search.enters kind fields .body = false
  opening : ∀ fields field, search.enters .jsxOpeningElement fields field = false

namespace Search

/-- Where the imports and the default export of a module bind names. Imports of types bind none. -/
def imported : Search where
  enters kind fields field :=
    match kind, field with
    | .importDeclaration, .specifiers => !(fields.get .typeOnly).isTrue
    | .exportDefaultDeclaration, .decl => true
    | _, _ => false
  finds kind fields :=
    match kind with
    | .importSpecifier | .importDefaultSpecifier | .importNamespaceSpecifier =>
      if (fields.get .typeOnly).isTrue then [] else (fields.get .localName).value?.toList
    | .functionExpression | .classExpression => (fields.get .identifier).value?.toList
    | _ => []

section

variable {first second : Fields} (alike : first.SeemLike second)
include alike

theorem bindingName_congr (kind : Kind) : bindingName kind first = bindingName kind second := by
  rw [bindingName, bindingName, (alike .value Field.noConfusion Field.noConfusion).text]

theorem isVar_congr : isVar first = isVar second := by
  have text := (alike .kind Field.noConfusion Field.noConfusion).text
  rw [isVar, isVar, Bool.eq_iff_iff, decide_eq_true_iff, decide_eq_true_iff, ← text?_eq_some, text,
    text?_eq_some]

end

theorem pattern_stable : pattern.IsStable where
  finds kind _ _ alike := bindingName_congr alike kind
  enters _ _ _ _ := rfl
  body fields isFunction := by
    rcases Kind.isFunction_cases isFunction with rfl | rfl | rfl | rfl | rfl <;> rfl
  opening _ _ := rfl

theorem guarded_stable : guarded.IsStable where
  finds kind _ _ alike := by
    simp only [guarded, bindingName_congr alike kind,
      (alike .identifier Field.noConfusion Field.noConfusion).value]
  enters kind _ _ alike := by
    funext field
    simp only [guarded, isVar_congr alike]
  body fields isFunction := by
    rcases Kind.isFunction_cases isFunction with rfl | rfl | rfl | rfl | rfl <;> rfl
  opening _ _ := rfl

theorem functions_stable : functions.IsStable where
  finds kind _ _ alike := by
    simp only [functions, (alike .identifier Field.noConfusion Field.noConfusion).value]
  enters _ _ _ _ := rfl
  body fields isFunction := by
    rcases Kind.isFunction_cases isFunction with rfl | rfl | rfl | rfl | rfl <;> rfl
  opening _ _ := rfl

theorem enums_stable : enums.IsStable where
  finds kind _ _ alike := by
    simp only [enums, (alike .id Field.noConfusion Field.noConfusion).value]
  enters _ _ _ _ := rfl
  body fields isFunction := by
    rcases Kind.isFunction_cases isFunction with rfl | rfl | rfl | rfl | rfl <;> rfl
  opening _ _ := rfl

theorem namespaces_stable : namespaces.IsStable where
  finds kind _ _ alike := by
    simp only [namespaces, (alike .id Field.noConfusion Field.noConfusion).value]
  enters _ _ _ _ := rfl
  body fields isFunction := by
    rcases Kind.isFunction_cases isFunction with rfl | rfl | rfl | rfl | rfl <;> rfl
  opening _ _ := rfl

theorem vars_stable : vars.IsStable where
  finds kind _ _ alike := bindingName_congr alike kind
  enters kind _ _ alike := by
    funext field
    simp only [vars, entersBlock, isVar_congr alike,
      (alike .left Field.noConfusion Field.noConfusion).isKind]
  body fields isFunction := by
    rcases Kind.isFunction_cases isFunction with rfl | rfl | rfl | rfl | rfl <;> rfl
  opening _ _ := rfl

theorem imported_stable : imported.IsStable where
  finds kind _ _ alike := by
    simp only [imported, (alike .typeOnly Field.noConfusion Field.noConfusion).flag,
      (alike .localName Field.noConfusion Field.noConfusion).value,
      (alike .identifier Field.noConfusion Field.noConfusion).value]
  enters kind _ _ alike := by
    funext field
    simp only [imported, (alike .typeOnly Field.noConfusion Field.noConfusion).flag]
  body fields isFunction := by
    rcases Kind.isFunction_cases isFunction with rfl | rfl | rfl | rfl | rfl <;> rfl
  opening _ _ := rfl

end Search

namespace Tree

theorem gatherInItems_eq_flatMap (search : Search) (items : List Tree) :
    gatherInItems search items = items.flatMap (gather search) := by
  induction items with
  | nil => rfl
  | cons item rest ih => rw [gatherInItems, ih, List.flatMap_cons]

theorem gatherInFields_eq_flatMap (search : Search) (enters : Field → Bool) (fields : Fields) :
    gatherInFields search enters fields =
      fields.flatMap fun part => if enters part.1 then part.2.gather search else [] := by
  induction fields with
  | nil => rfl
  | cons part rest ih => rw [gatherInFields, ih, List.flatMap_cons]

theorem gatherInFields_skip (search : Search) {enters : Field → Bool} {field : Field}
    (skipped : enters field = false) (early late : Fields) (part : Tree) :
    gatherInFields search enters (early ++ (field, part) :: late) =
      gatherInFields search enters (early ++ late) := by
  simp only [gatherInFields_eq_flatMap, List.flatMap_append, List.flatMap_cons, skipped,
    Bool.false_eq_true, ↓reduceIte, List.nil_append]

end Tree

namespace Rewriting

variable {runtimeGlobal : String} {rewriting : Rewriting}

/-- Instrumented trees seem like those they were made from. -/
theorem Allowed.seemsLike (allowed : rewriting.Allowed runtimeGlobal) :
    rewriting.image.SeemsLike rewriting.source where
  kind := allowed.kind?_image
  text := allowed.text?_image
  value := by
    obtain ⟨part, allowedPart, isPart, wasPart⟩ :=
      allowed.get .value Field.noConfusion Field.noConfusion
    rw [value?, value?, isPart, wasPart, allowedPart.text?_image]
  flag := by cases allowed <;> rfl

/-- The parts of instrumented nodes seem like those they were made from. -/
theorem Allowed.seemLike {kind : Kind} {sources images : Fields} {changes : List Change}
    (allowed : Allowed runtimeGlobal ⟨.node kind sources, .node kind images, changes⟩) :
    images.SeemLike sources := by
  intro field notBody notAttributes
  obtain ⟨part, allowedPart, isPart, wasPart⟩ := allowed.get field notBody notAttributes
  have alike := allowedPart.seemsLike
  rw [← isPart, ← wasPart] at alike
  exact alike

theorem imagesInParts_append (first second : List (Field × Rewriting)) :
    imagesInParts (first ++ second) = imagesInParts first ++ imagesInParts second :=
  List.map_append

theorem sourcesInParts_append (first second : List (Field × Rewriting)) :
    sourcesInParts (first ++ second) = sourcesInParts first ++ sourcesInParts second :=
  List.map_append

theorem sourcesInParts_cons (field : Field) (part : Rewriting) (rest : List (Field × Rewriting)) :
    sourcesInParts ((field, part) :: rest) = (field, part.source) :: sourcesInParts rest :=
  rfl

/-- Parts are searched alike if each of them is, or is not gone into. -/
theorem gatherInFields_images {search : Search} {enters : Field → Bool}
    {parts : List (Field × Rewriting)} (each : ∀ part ∈ parts, enters part.1 = true →
      part.2.image.gather search = part.2.source.gather search) :
    gatherInFields search enters (imagesInParts parts) =
      gatherInFields search enters (sourcesInParts parts) := by
  rw [gatherInFields_eq_flatMap, gatherInFields_eq_flatMap, imagesInParts, sourcesInParts,
    List.flatMap_map, List.flatMap_map]
  refine List.flatMap_congr fun part member => ?_
  cases entered : enters part.1 with
  | true => rw [if_pos rfl, if_pos rfl, each part member entered]
  | false => rfl

/-- A search for declarations finds the same names after instrumentation. -/
theorem Allowed.gather_image {search : Search} (stable : search.IsStable)
    (allowed : rewriting.Allowed runtimeGlobal) :
    rewriting.image.gather search = rewriting.source.gather search := by
  induction allowed with
  | unvisited | scalar => rfl
  | list each ih =>
    rw [gather, gather, gatherInItems_eq_flatMap, gatherInItems_eq_flatMap, List.flatMap_map,
      List.flatMap_map]
    exact List.flatMap_congr ih
  | node unattributed each ih =>
    have alike := (Allowed.node unattributed each).seemLike
    rw [gather, gather, stable.finds _ alike, stable.enters _ alike,
      gatherInFields_images fun part member _ => ih part member]
  | @component kind early late body elements hooks gained isFunction each arranged gains ih =>
    have alike := (Allowed.component isFunction each arranged gains).seemLike
    have around : gatherInFields search
        (search.enters kind (sourcesInParts (early ++ (.body, body) :: late)))
        (imagesInParts (early ++ late)) = gatherInFields search
        (search.enters kind (sourcesInParts (early ++ (.body, body) :: late)))
        (sourcesInParts (early ++ late)) :=
      gatherInFields_images fun part member _ => ih part (List.mem_append.mpr
        ((List.mem_append.mp member).imp_right (List.mem_cons_of_mem _)))
    rw [imagesInParts_append, sourcesInParts_append early late] at around
    rw [gather, gather, stable.finds _ alike, stable.enters _ alike,
      gatherInFields_skip search (stable.body _ isFunction), around, sourcesInParts_append,
      sourcesInParts_cons, gatherInFields_skip search (stable.body _ isFunction)]
  | opening others spread each eachWithin rewritten ih =>
    have alike := (Allowed.opening others spread each eachWithin rewritten).seemLike
    rw [gather, gather, stable.finds _ alike, stable.enters _ alike,
      gatherInFields_of_not_enters _ (stable.opening _),
      gatherInFields_of_not_enters _ (stable.opening _)]

end Rewriting

/-- Two trees declare the same names. -/
structure Tree.DeclaresLike (first second : Tree) : Prop where
  gather : ∀ search : Search, search.IsStable → first.gather search = second.gather search
  items : ∀ search : Search, search.IsStable →
    gatherInItems search first.items = gatherInItems search second.items
  value : first.value? = second.value?
  members : first.items.flatMap (fun member => (member.get .id).value?.toList) =
    second.items.flatMap fun member => (member.get .id).value?.toList

/-- Lists of statements that declare the same names have the same scope. -/
theorem Tree.DeclaresLike.ofStatements {first second : Tree} (alike : first.DeclaresLike second) :
    Scope.ofStatements first.items = Scope.ofStatements second.items := by
  rw [Scope.ofStatements, Scope.ofStatements, alike.items _ Search.guarded_stable,
    alike.items _ Search.functions_stable, alike.items _ Search.enums_stable,
    alike.items _ Search.namespaces_stable]

/-- A statement that declares the same names has the same scope. -/
theorem Tree.DeclaresLike.ofStatement {first second : Tree} (alike : first.DeclaresLike second) :
    Scope.ofStatements [first] = Scope.ofStatements [second] := by
  simp only [Scope.ofStatements, gatherInItems, alike.gather _ Search.guarded_stable,
    alike.gather _ Search.functions_stable, alike.gather _ Search.enums_stable,
    alike.gather _ Search.namespaces_stable]

theorem Scope.ofParameters_congr (kind : Kind) {first second : Fields}
    (alike : ∀ field, field ≠ .body → (first.get field).DeclaresLike (second.get field)) :
    ofParameters kind first = ofParameters kind second := by
  rw [ofParameters, ofParameters,
    (alike .params Field.noConfusion).gather _ Search.pattern_stable,
    (alike .param Field.noConfusion).gather _ Search.pattern_stable]

/-- Functions put the same scopes around their parts if those declare the same names. Of a body, only
its variables count. -/
theorem functionScopes_congr (kind : Kind) {first second : Fields} (field : Field)
    (alike : ∀ field, field ≠ .body → (first.get field).DeclaresLike (second.get field))
    (body : (first.get .body).gather .vars = (second.get .body).gather .vars) :
    functionScopes kind first field = functionScopes kind second field := by
  have parameters := Scope.ofParameters_congr kind alike
  unfold functionScopes
  split
  · rw [parameters]
  · rw [parameters]
  · rw [parameters, Scope.ofVars, Scope.ofVars, body]
  · rfl

/-- Nodes put the same scopes around their parts if those declare the same names. -/
theorem scopesIn_congr (kind : Kind) {first second : Fields} (field : Field)
    (alike : ∀ field, field ≠ .body → (first.get field).DeclaresLike (second.get field))
    (body : (first.get .body).gather .vars = (second.get .body).gather .vars)
    (others : kind.isFunction = false → (first.get .body).DeclaresLike (second.get .body)) :
    scopesIn kind first field = scopesIn kind second field := by
  have name : Scope.ofName first = Scope.ofName second := by
    rw [Scope.ofName, Scope.ofName, (alike .identifier Field.noConfusion).value]
  unfold scopesIn
  split
  case h_1 | h_2 | h_3 | h_4 | h_5 | h_6 | h_7 | h_8 =>
    exact functionScopes_congr _ field alike body
  case h_9 => rw [functionScopes_congr _ field alike body, name]
  case h_10 | h_11 => rw [name]
  case h_12 => rw [(alike .stmts Field.noConfusion).ofStatements]
  case h_13 => rw [(others rfl).ofStatements, Scope.ofVars, Scope.ofVars, body]
  case h_14 => rw [(alike .cases Field.noConfusion).ofStatements]
  case h_15 => rw [(alike .initializer Field.noConfusion).ofStatement]
  case h_16 | h_17 => rw [(alike .left Field.noConfusion).ofStatement]
  case h_18 => rw [(alike .param Field.noConfusion).gather _ Search.pattern_stable]
  case h_19 => rw [(alike .members Field.noConfusion).members]
  case h_20 => rfl

namespace Rewriting

variable {runtimeGlobal : String} {rewriting : Rewriting}

/-- Instrumented trees declare the names that they declared before. -/
theorem Allowed.declaresLike (allowed : rewriting.Allowed runtimeGlobal) :
    rewriting.image.DeclaresLike rewriting.source where
  gather _ stable := allowed.gather_image stable
  items search stable := by
    cases allowed with
    | unvisited | scalar => rfl
    | list each => exact (Allowed.list each).gather_image stable
    | node | component | opening => rfl
  value := allowed.seemsLike.value
  members := by
    cases allowed with
    | unvisited | scalar => rfl
    | list each =>
      simp only [items, List.flatMap_map]
      refine List.flatMap_congr fun item member => ?_
      obtain ⟨part, allowedPart, isPart, wasPart⟩ :=
        (each item member).get .id Field.noConfusion Field.noConfusion
      rw [isPart, wasPart, allowedPart.seemsLike.value]
    | node | component | opening => rfl

/-- A node puts the same scopes around its parts when these are instrumented. -/
theorem scopesIn_images {parts : List (Field × Rewriting)}
    (each : ∀ part ∈ parts, part.2.Allowed runtimeGlobal) (kind : Kind) (field : Field) :
    scopesIn kind (imagesInParts parts) field = scopesIn kind (sourcesInParts parts) field := by
  have alike (field : Field) : (Fields.get (imagesInParts parts) field).DeclaresLike
      (Fields.get (sourcesInParts parts) field) := by
    obtain ⟨part, allowed, isPart, wasPart⟩ := get_inParts each field
    rw [isPart, wasPart]
    exact allowed.declaresLike
  exact scopesIn_congr kind field (fun field _ => alike field)
    ((alike .body).gather _ Search.vars_stable) fun _ => alike .body

end Rewriting

end JsxTracking
