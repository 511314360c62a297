import JsxTracking.Proofs.ValueScope

/-! # Values that are refused for a name

A value is refused if it uses a name that is declared in the body of the component where its hooks
may not see it. The scan of the body knows of a name only where it is declared, and not which of the
declarations a use of it refers to; a declaration in any nested scope makes the name doubtful, and so
does one that is behind the hooks (`BodyScan.unready_iff`). So a name that is in reach of the hooks is
refused for another one that is spelled alike (`out_of_scope_iff`). -/

namespace JsxTracking

namespace Tree

/-- The names that a statement declares at the top level of a body, as the scan has them. Those of
functions are left aside. -/
def ownNames : Tree → List String
  | node .variableDeclaration fields =>
    (Fields.get fields .declarations).items.flatMap fun declarator =>
      (declarator.get .id).declaredNames
  | node .classDeclaration fields => (Fields.get fields .identifier).value?.toList
  | _ => []

/-- The names that a statement declares in nested scopes, as the scan has them. -/
def innerNames : Tree → List String
  | node .variableDeclaration fields =>
    (Fields.get fields .declarations).items.flatMap fun declarator =>
      (declarator.get .initializer).declaredNames
  | node .functionDeclaration fields | node .classDeclaration fields => declaredInFields fields
  | statement => statement.declaredNames

end Tree

namespace DeclarationSite

theorem mem_nested {names : List String} {site : DeclarationSite} :
    site ∈ nested names ↔ site.statement? = none ∧ site.name ∈ names := by
  obtain ⟨name, statement?⟩ := site
  simp [nested, and_comm, eq_comm]

theorem mem_direct {index : Nat} {names : List String} {site : DeclarationSite} :
    site ∈ direct index names ↔ site.statement? = some index ∧ site.name ∈ names := by
  obtain ⟨name, statement?⟩ := site
  simp [direct, and_comm, eq_comm]

/-- The sites of a statement are those of its own names and those in its nested scopes. -/
theorem mem_ofStatement {index : Nat} {statement : Tree} {site : DeclarationSite} :
    site ∈ ofStatement index statement ↔
      site.statement? = some index ∧ site.name ∈ statement.ownNames ∨
        site.statement? = none ∧ site.name ∈ statement.innerNames := by
  unfold ofStatement
  split
  case h_1 fields =>
    simp only [List.mem_flatMap, List.mem_append, mem_direct, mem_nested, Tree.ownNames,
      Tree.innerNames]
    constructor
    · rintro ⟨declarator, among, ⟨own, named⟩ | ⟨inner, named⟩⟩
      · exact Or.inl ⟨own, declarator, among, named⟩
      · exact Or.inr ⟨inner, declarator, among, named⟩
    · rintro (⟨own, declarator, among, named⟩ | ⟨inner, declarator, among, named⟩)
      · exact ⟨declarator, among, Or.inl ⟨own, named⟩⟩
      · exact ⟨declarator, among, Or.inr ⟨inner, named⟩⟩
  case h_2 fields => simp [mem_nested, Tree.ownNames, Tree.innerNames]
  case h_3 fields => rw [List.mem_append, mem_direct, mem_nested, Tree.ownNames, Tree.innerNames]
  case h_4 notVariable notFunction notClass =>
    have own : statement.ownNames = [] := by
      unfold Tree.ownNames
      split
      · exact absurd rfl (notVariable _)
      · exact absurd rfl (notClass _)
      · rfl
    have inner : statement.innerNames = statement.declaredNames := by
      unfold Tree.innerNames
      split
      · exact absurd rfl (notVariable _)
      · exact absurd rfl (notFunction _)
      · exact absurd rfl (notClass _)
      · rfl
    rw [mem_nested, own, inner]
    simp

theorem mem_ofStatements_iff {statements : List Tree} {start : Nat} {site : DeclarationSite} :
    site ∈ ofStatements start statements ↔ ∃ (index : Nat) (statement : Tree),
      statements[index]? = some statement ∧ site ∈ ofStatement (start + index) statement := by
  refine ⟨fun member => ?_, fun ⟨index, statement, found, member⟩ => mem_ofStatements found member⟩
  induction statements generalizing start with
  | nil => exact absurd member List.not_mem_nil
  | cons first rest ih =>
    rcases List.mem_append.mp member with here | later
    · exact ⟨0, first, rfl, here⟩
    · obtain ⟨index, statement, found, inside⟩ := ih later
      refine ⟨index + 1, statement, found, ?_⟩
      rwa [Nat.add_right_comm, Nat.add_assoc] at inside

end DeclarationSite

/-- A name is declared in a nested scope of a body, or at its top level by a statement that is not
before a position. -/
def Redeclared (statements : List Tree) (position : Nat) (name : String) : Prop :=
  ∃ (index : Nat) (statement : Tree), statements[index]? = some statement ∧
    (name ∈ statement.innerNames ∨ position ≤ index ∧ name ∈ statement.ownNames)

/-- The scan takes a name for one that is not ready if it is redeclared. -/
theorem BodyScan.unready_iff {statements : List Tree} {position : Nat} {name : String} :
    (ofStatements statements).Unready position name ↔ Redeclared statements position name := by
  constructor
  · rintro ⟨⟨_, statement?⟩, member, rfl, late⟩
    obtain ⟨index, statement, found, sited⟩ := DeclarationSite.mem_ofStatements_iff.mp member
    refine ⟨index, statement, found, ?_⟩
    rcases DeclarationSite.mem_ofStatement.mp sited with ⟨own, named⟩ | ⟨-, named⟩
    · refine Or.inr ⟨?_, named⟩
      obtain rfl : statement? = some (0 + index) := own
      have behind := of_decide_eq_false (p := 0 + index < position) late
      omega
    · exact Or.inl named
  · rintro ⟨index, statement, found, inner | ⟨behind, own⟩⟩
    · exact ⟨⟨name, none⟩, DeclarationSite.mem_ofStatements found
        (DeclarationSite.mem_ofStatement.mpr (Or.inr ⟨rfl, inner⟩)), rfl, rfl⟩
    · refine ⟨⟨name, some (0 + index)⟩, DeclarationSite.mem_ofStatements found
        (DeclarationSite.mem_ofStatement.mpr (Or.inl ⟨rfl, own⟩)), rfl, ?_⟩
      exact decide_eq_false (by omega)

theorem mem_insertName {name other : String} {names : List String} :
    name ∈ insertName other names ↔ name = other ∨ name ∈ names := by
  induction names with
  | nil => simp [insertName]
  | cons first rest ih =>
    unfold insertName
    split
    case isTrue same => simp [same]
    case isFalse =>
      split
      · exact List.mem_cons
      · rw [List.mem_cons, ih, List.mem_cons]
        exact or_left_comm

theorem mem_sortedNames {name : String} {names : List String} :
    name ∈ sortedNames names ↔ name ∈ names := by
  induction names with
  | nil => rfl
  | cons first rest ih => rw [sortedNames, List.foldr_cons, mem_insertName, ← sortedNames, ih,
      List.mem_cons]

/-- The names that a value is refused for are those that it uses and does not declare itself, and that
are not ready. -/
theorem BodyScan.mem_unboundAt {scan : BodyScan} {value : Tree} {position : Nat} {name : String} :
    name ∈ scan.unboundAt value position ↔
      name ∈ value.identifiers ∧ name ∉ value.declaredNames ∧ scan.Unready position name := by
  rw [unboundAt, mem_sortedNames, List.mem_filter]
  simp [Unready]

/-- The names for which values are refused: one of them uses the name and does not declare it itself,
and it is redeclared in the body. -/
def Doubtful (values statements : List Tree) (position : Nat) (name : String) : Prop :=
  ∃ value ∈ values, name ∈ value.identifiers ∧ name ∉ value.declaredNames ∧
    Redeclared statements position name

/-- What becomes of the markers of an element that has a component and a dynamic value: they are
refused for something else than names, or for exactly the doubtful names, or they are placed and there
are no such names. -/
theorem Enclosure.place_cases {enclosure : Enclosure} {statements : List Tree} {index : Nat}
    (home : enclosure.home? = some (.ofStatements statements, index)) {markers : ElementMarkers}
    (dynamic : markers.dynamicExpressions ≠ []) (attributes : List Tree) :
    let position := (BodyScan.ofStatements statements).dynamicPosition index
    (∃ reason, enclosure.place markers attributes = .error reason ∧
      ∀ names, reason ≠ .outOfScope names) ∨
    (∃ names, enclosure.place markers attributes = .error (.outOfScope names) ∧ names ≠ [] ∧
      ∀ name, name ∈ names ↔ Doubtful markers.dynamicExpressions statements position name) ∨
    enclosure.place markers attributes = .ok position ∧
      ∀ name, ¬Doubtful markers.dynamicExpressions statements position name := by
  intro position
  cases enclosure with
  | outside | classBody => cases home
  | component scan statement nested =>
    obtain ⟨rfl, rfl⟩ := Prod.mk.inj (Option.some.inj home)
    have doubtful_iff (name : String) : name ∈ sortedNames (markers.dynamicExpressions.flatMap
        ((BodyScan.ofStatements statements).unboundAt · position)) ↔
          Doubtful markers.dynamicExpressions statements position name := by
      rw [mem_sortedNames, List.mem_flatMap]
      simp only [BodyScan.mem_unboundAt, BodyScan.unready_iff, Doubtful]
    unfold place
    simp only
    split
    · exact Or.inl ⟨_, rfl, fun _ => PlacementProblem.noConfusion⟩
    split
    · exact Or.inl ⟨_, rfl, fun _ => PlacementProblem.noConfusion⟩
    split
    case h_1 nothing =>
      refine Or.inr (Or.inr ⟨rfl, fun name doubtful => ?_⟩)
      have among := (doubtful_iff name).mpr doubtful
      rw [nothing] at among
      exact List.not_mem_nil among
    case h_2 some => exact Or.inr (Or.inl ⟨_, rfl, some, doubtful_iff⟩)

/-- The markers of an element with a dynamic value are refused or instrumented, as they are placed. -/
theorem Treatment.Suits.outcome_of_dynamic {treatment : Treatment} {enclosure : Enclosure}
    {parts : Fields} (suits : treatment.Suits enclosure parts)
    (dynamic : treatment.markers.dynamicExpressions ≠ []) :
    (∃ reason, treatment.outcome = .refused reason ∧
      enclosure.place treatment.markers (parts.get .attributes).items = .error reason) ∨
    ∃ allocation position shared, treatment.outcome = .instrumented allocation position shared ∧
      enclosure.place treatment.markers (parts.get .attributes).items = .ok position := by
  have decision := suits.outcome
  cases outcome : treatment.outcome with
  | plain =>
    rw [outcome] at decision
    obtain ⟨value, among⟩ := List.exists_mem_of_ne_nil _ dynamic
    exact absurd (decision.symm.trans (ElementMarkers.hasValues_of_dynamic among))
      Bool.false_ne_true
  | refused reason =>
    rw [outcome] at decision
    exact Or.inl ⟨reason, rfl, decision.2⟩
  | instrumented allocation position shared =>
    rw [outcome] at decision
    exact Or.inr ⟨allocation, position, shared, rfl, decision.2.1⟩

namespace Woven

/-- A name of an element in a top-level statement of a component is in reach of the hooks at a position:
nothing binds it between the statement and the element, and the variables, classes and enumerations
of the body with that name are declared before the position. There need not be any, if the name is
bound by a function of the body, a parameter, or around the component. -/
structure InReach (component : Woven) (path : List Frame) (position : Nat) (name : String) :
    Prop where
  unshadowed : ∀ scope ∈ path.flatMap Frame.scopes, name ∉ scope.names
  before : ∀ index statement, component.body.blockStatements[index]? = some statement →
    name ∈ statement.gather .guarded ++ statement.gather .enums ++ statement.gather .vars →
    index < position

/-- A name that is in reach means the same to the hooks as to the element. -/
theorem InReach.resolvesAlike {component : Woven} {path : List Frame} {position : Nat} {name : String}
    (reach : component.InReach path position name)
    (function : component.hookScopes = Scope.ofBody component.body) {frame : Frame}
    (block : frame.scopes = [Scope.ofStatements component.body.blockStatements]) :
    component.ResolvesAlike (some .body) (path ++ [frame]) position name where
  binding := by
    rw [function, elementScopes, if_pos rfl, List.flatMap_append, List.flatMap_singleton, block,
      List.append_assoc]
    exact resolve_append_eq_iff.mpr reach.unshadowed
  declared index statement found declared :=
    reach.before index statement found (List.mem_append_left _ declared)

end Woven

/-- `const id = page.id; const ids = rows.map((id) => id); return <div data-track-click={id} />;` -/
def redeclaredStatements : List Tree :=
  [Code.constant "id" (Code.member (Code.reference "page") "id"),
    Code.constant "ids" (Code.methodCall (Code.reference "rows") "map"
      [Code.arrowTo [Code.binding "id"] (Code.reference "id")]),
    Code.returnValue (markedElement "div" "data-track-click" (Code.reference "id"))]

end JsxTracking
