import JsxTracking.Proofs.Carried
import JsxTracking.Proofs.HookPlacement
import JsxTracking.Proofs.Scopes

/-! # The names that the scan of a body records

The scan of a body records every name that a scope binds between an element and its component, unless
the binder is of a kind that it does not know or stands in the target of an assignment
(`Woven.Owned.bound_recorded`). A recorded name has a site in the scan
(`DeclarationSite.ofStatement_covers`), and a value that uses it is not placed before it is declared
(`BodyScan.unready_of_statement`, `Enclosure.place_ready`). -/

namespace JsxTracking

namespace Fields

/-- If no node has a part twice, a part is the one with its name. -/
theorem get_of_mem {fields : Fields} (distinct : (fields.map Prod.fst).Nodup) {field : Field}
    {part : Tree} (member : (field, part) ∈ fields) : fields.get field = part := by
  induction fields with
  | nil => exact absurd member List.not_mem_nil
  | cons first rest ih =>
    obtain ⟨other, held⟩ := first
    rw [List.map_cons, List.nodup_cons] at distinct
    obtain ⟨absent, distinct⟩ := distinct
    rw [get_cons]
    rcases List.mem_cons.mp member with same | later
    · obtain ⟨rfl, rfl⟩ := Prod.mk.inj same
      exact if_pos rfl
    · rw [if_neg, ih distinct later]
      rintro rfl
      exact absent (List.mem_map.mpr ⟨_, later, rfl⟩)

end Fields

namespace Tree

theorem declaredInRight_eq (fields : Fields) :
    declaredInRight fields = (Fields.get fields .right).declaredNames := by
  induction fields with
  | nil => rfl
  | cons first rest ih =>
    obtain ⟨field, part⟩ := first
    rw [Fields.get_cons]
    by_cases isRight : field = .right
    · subst isRight
      exact (if_pos rfl).symm ▸ rfl
    · rw [declaredInRight.eq_3 _ _ fun _ same => isRight (Prod.mk.inj same).1, ih,
        if_neg (Ne.symm isRight)]

/-- What a part of a node declares is recorded for the node, unless the part is the target of an
assignment. -/
theorem declaredNames_part {frame : Frame} (distinct : (frame.parts.map Prod.fst).Nodup)
    (looked : frame.isTarget = false) {part : Tree} (member : (frame.field, part) ∈ frame.parts) :
    part.declaredNames ⊆ (node frame.kind frame.parts).nestedNames := by
  obtain ⟨kind, parts, field⟩ := frame
  simp only [Frame.isTarget, Bool.or_eq_false_iff, Bool.and_eq_false_iff, decide_eq_false_iff_not,
    not_not] at looked
  obtain ⟨notBinding, notTarget⟩ := looked
  by_cases isAssignment : kind = .assignmentExpression
  · obtain rfl : field = .right := notTarget.resolve_left (fun other => other isAssignment)
    subst isAssignment
    change part.declaredNames ⊆ declaredInRight parts
    rw [declaredInRight_eq, Fields.get_of_mem distinct member]
    exact List.Subset.refl _
  · exact List.Subset.trans (declaredInFields_of_mem member)
      (nestedNames_node notBinding isAssignment parts)

/-- What the expression of a reference declares is recorded for its attribute. -/
theorem declaredNames_refExpression {attr expression : Tree} (named : attr.isRef = true)
    (found : attr.refExpression? = some expression) :
    expression.declaredNames ⊆ attr.declaredNames := by
  have whole {fields : Fields} (form : attr = .node .jsxAttribute fields) :
      expression.declaredNames ⊆ attr.declaredNames := by
    subst form
    unfold refExpression? at found
    split at found
    case h_1 parts value =>
      split at found
      · cases found
      · obtain rfl := Option.some.inj found
        refine List.Subset.trans (declaredInFields_get parts .expression) ?_
        change declaredNames (.node .jsxExpressionContainer parts) ⊆ declaredInFields fields
        rw [← value]
        exact declaredInFields_get fields .value
    case h_2 => cases found
  cases attr with
  | node kind fields =>
    by_cases isAttribute : kind = .jsxAttribute
    · subst isAttribute
      exact whole rfl
    · have unnamed : (node kind fields).attributeName? = none := by
        unfold attributeName?
        split
        case h_1 same => exact absurd (node.inj same).1 isAttribute
        case h_2 => rfl
      rw [isRef, unnamed] at named
      cases named
  | null | bool | num | str | list => cases named

end Tree

namespace Woven

/-- What the scan of a body records for a woven tree. Of a generated attribute, it knows the expression
that is replaced. -/
def recordedNames : Woven → List String
  | reference _ replaced _ => Tree.declaredInItems (sources replaced)
  | woven => woven.source.nestedNames

theorem recordedNames_of_ordinary {woven : Woven} (ordinary : woven.isGenerated = false) :
    woven.recordedNames = woven.source.nestedNames := by
  cases woven with
  | reference => cases ordinary
  | kept | list | statements | node | function | opening | removed => rfl

theorem recordedNames_subset {woven : Woven} (ordinary : woven.isGenerated = false) :
    woven.recordedNames ⊆ woven.source.declaredNames := by
  rw [recordedNames_of_ordinary ordinary]
  exact woven.source.nestedNames_subset

/-- What is recorded for the attributes of an element, the generated one among them, is recorded for
those it had. -/
theorem FollowsAttributes.recorded {enclosure : Enclosure} {attachment? : Option Attachment}
    {explicit? : Option Tree} {items : List Woven} {names : List String}
    (follows : FollowsAttributes enclosure attachment? explicit? items)
    (passed : ∀ attr ∈ explicit?, attr.isRef = true ∧ attr.declaredNames ⊆ names)
    (sourced : Tree.declaredInItems (sources items) ⊆ names) :
    ∀ item ∈ items, item.recordedNames ⊆ names := by
  induction items generalizing explicit? with
  | nil => exact fun item member => absurd member List.not_mem_nil
  | cons first rest ih =>
    intro item member
    cases first with
    | reference attachment within scan? =>
      obtain ⟨-, rfl, single, -, -⟩ := follows
      obtain rfl := List.mem_singleton.mp member
      rw [recordedNames, single]
      cases found : explicit?.bind Tree.refExpression? with
      | none => exact List.nil_subset _
      | some expression =>
        obtain ⟨attr, explicit, refers⟩ := Option.bind_eq_some_iff.mp found
        obtain ⟨isRef, declared⟩ := passed attr explicit
        rw [Option.toList_some, Tree.declaredInItems, Tree.declaredInItems, List.append_nil]
        exact List.Subset.trans (Tree.declaredNames_refExpression isRef refers) declared
    | removed attr =>
      obtain ⟨own, later⟩ := List.append_subset.mp sourced
      rcases List.mem_cons.mp member with rfl | among
      · exact List.Subset.trans (recordedNames_subset rfl) own
      · unfold FollowsAttributes at follows
        split at follows
        · exact ih follows passed later item among
        · refine ih follows.2.2.2.2 (fun other same => ?_) later item among
          obtain rfl := Option.some.inj same
          exact ⟨follows.1, own⟩
    | kept | list | statements | node | function | opening =>
      obtain ⟨own, later⟩ := List.append_subset.mp sourced
      rcases List.mem_cons.mp member with rfl | among
      · exact List.Subset.trans (recordedNames_subset rfl) own
      · exact ih follows.2.2 passed later item among

/-- A part of a node is woven from a part of what the node was woven from. -/
theorem Holds.source_part {whole item : Woven} {frame : Frame} {scan? : Option BodyScan}
    (held : whole.Holds (some frame) scan? item) :
    whole.isGenerated = false ∧ whole.source = .node frame.kind frame.parts ∧
      (frame.field, item.source) ∈ frame.parts := by
  cases held with
  | part member | opening member => exact ⟨rfl, rfl, mem_sourcesInParts member⟩
  | outer member => exact ⟨rfl, rfl, List.mem_append_left _ (mem_sourcesInParts member)⟩
  | inner member => exact ⟨rfl, rfl, List.mem_append_right _ (mem_sourcesInParts member)⟩

/-- What is recorded for a held tree is recorded for the whole, if no node lies between them. -/
theorem Decided.recorded_held {enclosure : Enclosure} {step : Step} {whole item : Woven}
    {scan? : Option BodyScan} (decided : Decided enclosure step whole)
    (held : whole.Holds none scan? item) : item.recordedNames ⊆ whole.recordedNames := by
  have among {items : List Woven} (member : item ∈ items) (ordinary : item.isGenerated = false) :
      item.recordedNames ⊆ Tree.declaredInItems (sources items) :=
    List.Subset.trans (recordedNames_subset ordinary)
      (Tree.declaredInItems_of_mem (mem_sources.mpr ⟨item, member, ordinary, rfl⟩))
  cases held with
  | item member =>
    cases decided with
    | follows follows =>
      cases step with
      | keep | statements => exact follows.elim
      | visit | announce | componentBody =>
        exact among member (FollowsItems.member follows member).ordinary.2
      | «attributes» attachment? =>
        exact FollowsAttributes.recorded follows
          (fun _ impossible => absurd impossible (Option.not_mem_none _)) (List.Subset.refl _)
          item member
  | statement member =>
    cases decided with
    | follows follows =>
      obtain ⟨rfl, within⟩ := follows
      obtain ⟨index, found⟩ := List.getElem?_of_mem member
      exact among member (within.getElem found).ordinary.2
  | replaced member =>
    cases decided with
    | follows follows => exact follows.elim
    | reference alone scanned within => exact among member (within.member member).ordinary.2

/-- The recorded names that are bound on the way to an owned tree are recorded for its owner. -/
theorem Owned.bound_recorded {part whole : Woven} {path : List Frame} (owned : part.Owned path whole)
    {enclosure : Enclosure} {step : Step} (decided : Decided enclosure step whole)
    (carries : Carries (fun tree => tree.isWellFormed = true) (fun _ => True) step whole) :
    (Frame.bound path).recorded ⊆ whole.recordedNames := by
  induction owned generalizing enclosure step with
  | self => exact List.nil_subset _
  | @step whole item frame? path held owned ih =>
    obtain ⟨_, _, decidedItem, carriesItem⟩ := decided.held_carries Tree.hereditary_isWellFormed
      carries (fun _ _ _ _ _ => trivial) held
    have inside := ih decidedItem carriesItem
    cases frame? with
    | none =>
      rw [Option.toList_none, List.append_nil]
      exact List.Subset.trans inside (decided.recorded_held held)
    | some frame =>
      obtain ⟨ordinary, source, member⟩ := held.source_part
      obtain ⟨distinct, -⟩ := Tree.isWellFormed_node (carries.node ordinary source)
      rw [Option.toList_some, Frame.bound_append_singleton, Frame.enclose,
        recordedNames_of_ordinary ordinary, source]
      split
      case isTrue => exact List.nil_subset _
      case isFalse looked =>
        refine List.append_subset.mpr ⟨?_, fun name merged => ?_⟩
        · have declared := Tree.declaredNames_part distinct (Bool.eq_false_iff.mpr looked) member
          exact List.Subset.trans (List.Subset.trans inside
            (recordedNames_subset (decided.part_ordinary held).2)) declared
        · obtain ⟨scope, entered, bound⟩ := List.mem_flatMap.mp merged
          exact Scope.scopesIn_recorded entered bound

end Woven

namespace Tree

theorem mem_declaredInItems {items : List Tree} {name : String}
    (declared : name ∈ declaredInItems items) : ∃ item ∈ items, name ∈ item.declaredNames := by
  induction items with
  | nil => exact absurd declared List.not_mem_nil
  | cons first rest ih =>
    rcases List.mem_append.mp declared with here | later
    · exact ⟨first, List.mem_cons_self, here⟩
    · obtain ⟨item, member, inside⟩ := ih later
      exact ⟨item, List.mem_cons_of_mem _ member, inside⟩

theorem mem_declaredInFields {fields : Fields} {name : String}
    (declared : name ∈ declaredInFields fields) :
    ∃ field part, (field, part) ∈ fields ∧ name ∈ part.declaredNames := by
  induction fields with
  | nil => exact absurd declared List.not_mem_nil
  | cons first rest ih =>
    rcases List.mem_append.mp declared with here | later
    · exact ⟨first.1, first.2, List.mem_cons_self, here⟩
    · obtain ⟨field, part, member, inside⟩ := ih later
      exact ⟨field, part, List.mem_cons_of_mem _ member, inside⟩

/-- A well-formed variable declaration declares names in the patterns and the initial values of its
declarators. -/
theorem exists_declarator {fields : Fields}
    (wellFormed : (node .variableDeclaration fields).isWellFormed = true) {name : String}
    (declared : name ∈ declaredInFields fields) :
    ∃ declarator ∈ (Fields.get fields .declarations).items,
      name ∈ (declarator.get .id).declaredNames ∨
        name ∈ (declarator.get .initializer).declaredNames := by
  obtain ⟨distinct, -, parts, declarators⟩ := isWellFormed_node wellFormed
  obtain ⟨field, part, member, inside⟩ := mem_declaredInFields declared
  have listed := List.all_eq_true.mp (declarators rfl) _ member
  split at listed
  case isFalse =>
    rw [List.isEmpty_iff.mp listed] at inside
    exact absurd inside List.not_mem_nil
  case isTrue isDeclarations =>
    obtain rfl : field = .declarations := isDeclarations
    rw [Fields.get_of_mem distinct member]
    obtain ⟨isList, allDeclarators⟩ := Bool.and_eq_true_iff.mp listed
    cases part with
    | null | bool | num | str | node => cases isList
    | list items =>
      obtain ⟨declarator, among, here⟩ := mem_declaredInItems inside
      refine ⟨declarator, among, ?_⟩
      have formed := itemsAreWellFormed_iff.mp (parts _ member) declarator among
      have isDeclarator := List.all_eq_true.mp allDeclarators declarator among
      unfold Tree.isDeclarator at isDeclarator
      split at isDeclarator
      case h_2 => cases isDeclarator
      case h_1 held =>
        change name ∈ declaredInFields held at here
        obtain ⟨distinctParts, -⟩ := isWellFormed_node formed
        obtain ⟨other, half, found, innermost⟩ := mem_declaredInFields here
        have role := List.all_eq_true.mp isDeclarator _ found
        simp only [Bool.or_eq_true, decide_eq_true_eq] at role
        rcases role with (isId | isInitializer) | silent
        · obtain rfl : other = .id := isId
          refine Or.inl ?_
          rw [Tree.get, Fields.get_of_mem distinctParts found]
          exact innermost
        · obtain rfl : other = .initializer := isInitializer
          refine Or.inr ?_
          rw [Tree.get, Fields.get_of_mem distinctParts found]
          exact innermost
        · rw [List.isEmpty_iff.mp silent] at innermost
          exact absurd innermost List.not_mem_nil

/-- A search that passes functions over finds no name of one. -/
theorem gather_subset_nestedNames {search : Search} (recorded : search.IsRecorded)
    (skips : ∀ fields, search.finds .functionDeclaration fields = [] ∧
      ∀ field, search.enters .functionDeclaration fields field = false) (tree : Tree) :
    tree.gather search ⊆ tree.nestedNames := by
  unfold nestedNames
  split
  case h_1 fields =>
    obtain ⟨finds, enters⟩ := skips fields
    rw [gather, finds, gatherInFields_of_not_enters search enters]
    exact List.nil_subset _
  case h_2 => exact gather_subset recorded _

theorem gather_guarded_subset (tree : Tree) : tree.gather .guarded ⊆ tree.nestedNames :=
  gather_subset_nestedNames Search.guarded_recorded
    (fun _ => ⟨rfl, fun field => by cases field <;> rfl⟩) tree

theorem gather_vars_subset (tree : Tree) : tree.gather .vars ⊆ tree.nestedNames :=
  gather_subset_nestedNames Search.vars_recorded
    (fun _ => ⟨rfl, fun field => by cases field <;> rfl⟩) tree

end Tree

namespace DeclarationSite

theorem mem_ofStatements {statements : List Tree} {start index : Nat} {statement : Tree}
    (found : statements[index]? = some statement) {site : DeclarationSite}
    (member : site ∈ ofStatement (start + index) statement) :
    site ∈ ofStatements start statements := by
  induction statements generalizing start index with
  | nil => cases found
  | cons first rest ih =>
    cases index with
    | zero =>
      obtain rfl := Option.some.inj found
      exact List.mem_append_left _ member
    | succ index =>
      rw [Nat.add_comm index 1, ← Nat.add_assoc] at member
      exact List.mem_append_right _ (ih found member)

/-- Every name that is recorded for a statement has a site: in a nested scope, or in the statement
itself, which is no directive. -/
theorem ofStatement_covers {statement : Tree} (wellFormed : statement.isWellFormed = true)
    {name : String} (declared : name ∈ statement.nestedNames) (index : Nat) :
    ∃ site ∈ ofStatement index statement, site.name = name ∧
      ∀ other ∈ site.statement?, other = index ∧ statement.isDirective = false := by
  have inner {names : List String} (member : name ∈ names) :
      ∃ site ∈ nested names, site.name = name ∧
        ∀ other ∈ site.statement?, other = index ∧ statement.isDirective = false :=
    ⟨_, List.mem_map.mpr ⟨name, member, rfl⟩, rfl,
      fun _ impossible => absurd impossible (Option.not_mem_none _)⟩
  have outer {names : List String} (ordinary : statement.isDirective = false)
      (member : name ∈ names) : ∃ site ∈ direct index names, site.name = name ∧
        ∀ other ∈ site.statement?, other = index ∧ statement.isDirective = false :=
    ⟨_, List.mem_map.mpr ⟨name, member, rfl⟩, rfl,
      fun _ same => ⟨(Option.some.inj same).symm, ordinary⟩⟩
  unfold ofStatement
  split
  case h_1 fields =>
    obtain ⟨declarator, among, place⟩ := Tree.exists_declarator wellFormed declared
    rcases place with inPattern | inValue
    · obtain ⟨site, member, covers⟩ := outer rfl inPattern
      exact ⟨site, List.mem_flatMap.mpr ⟨declarator, among, List.mem_append_left _ member⟩, covers⟩
    · obtain ⟨site, member, covers⟩ := inner inValue
      exact ⟨site, List.mem_flatMap.mpr ⟨declarator, among, List.mem_append_right _ member⟩, covers⟩
  case h_2 fields => exact inner declared
  case h_3 fields =>
    rcases List.mem_append.mp declared with name | within
    · obtain ⟨site, member, covers⟩ := outer rfl name
      exact ⟨site, List.mem_append_left _ member, covers⟩
    · obtain ⟨site, member, covers⟩ := inner within
      exact ⟨site, List.mem_append_right _ member, covers⟩
  case h_4 => exact inner (statement.nestedNames_subset declared)

end DeclarationSite

namespace BodyScan

/-- Hooks with an expression do not go behind a statement that holds the element, or a later one. -/
theorem dynamicPosition_le {statements : List Tree} {index : Nat} {statement : Tree}
    (found : statements[index]? = some statement) (ordinary : statement.isDirective = false)
    {around : Nat} (reached : around ≤ index) :
    (ofStatements statements).dynamicPosition around ≤ index := by
  have behind : prologueLength statements ≤ index := by
    rcases Nat.lt_or_ge index (prologueLength statements) with early | late
    · exact absurd ((isDirective_of_lt found early).symm.trans ordinary) Bool.true_eq_false.mp
    · exact late
  change max (min _ around) (prologueLength statements) ≤ index
  omega

/-- A name has a declaration in a body that has not run when the hooks at a position run. -/
def Unready (scan : BodyScan) (position : Nat) (name : String) : Prop :=
  ∃ site ∈ scan.sites, site.name = name ∧ site.precedes position = false

/-- The names recorded for a statement are not ready for hooks that do not go behind it. -/
theorem unready_of_statement {statements : List Tree} {index : Nat} {statement : Tree}
    (found : statements[index]? = some statement) (wellFormed : statement.isWellFormed = true)
    {around : Nat} (reached : around ≤ index ∨
      (ofStatements statements).dynamicPosition around ≤ index) {name : String}
    (declared : name ∈ statement.nestedNames) :
    Unready (ofStatements statements) ((ofStatements statements).dynamicPosition around) name := by
  obtain ⟨site, member, named, place⟩ :=
    DeclarationSite.ofStatement_covers wellFormed declared (0 + index)
  refine ⟨site, DeclarationSite.mem_ofStatements found member, named, ?_⟩
  unfold DeclarationSite.precedes
  cases site_ : site.statement? with
  | none => rfl
  | some other =>
    obtain ⟨rfl, ordinary⟩ := place other site_
    rw [Option.any_some, decide_eq_false_iff_not, Nat.zero_add, Nat.not_lt]
    exact reached.elim (dynamicPosition_le found ordinary) id

/-- The names recorded for the expression of an arrow function are never ready. -/
theorem unready_of_expression {expression : Tree} {name : String}
    (declared : name ∈ expression.declaredNames) (position : Nat) :
    Unready (ofExpression expression) position name :=
  ⟨_, List.mem_map.mpr ⟨name, declared, rfl⟩, rfl, rfl⟩

end BodyScan

theorem sortedNames_eq_nil {names : List String} (empty : sortedNames names = []) : names = [] := by
  cases names with
  | nil => rfl
  | cons first rest =>
    change insertName first (sortedNames rest) = [] at empty
    unfold insertName at empty
    split at empty
    · cases empty
    · split at empty
      · cases empty
      · split at empty <;> cases empty

/-- Where a dynamic value is placed, it uses no name that is not ready, except for those that it
declares itself. -/
theorem Enclosure.place_ready {enclosure : Enclosure} {markers : ElementMarkers}
    {attributes : List Tree} {position : Nat}
    (placed : enclosure.place markers attributes = .ok position) {value : Tree}
    (dynamic : value ∈ markers.dynamicExpressions) :
    ∃ scan statement, enclosure.home? = some (scan, statement) ∧
      position = scan.dynamicPosition statement ∧
      ∀ name ∈ value.identifiers, name ∉ value.declaredNames → ¬scan.Unready position name := by
  cases enclosure with
  | outside | classBody => cases placed
  | component scan statement nested =>
    refine ⟨scan, statement, rfl, ?_⟩
    unfold place at placed
    simp only at placed
    split at placed
    · cases placed
    split at placed
    · cases placed
    split at placed
    case h_1 noExpressions =>
      rw [noExpressions] at dynamic
      exact absurd dynamic List.not_mem_nil
    case h_2 =>
      split at placed
      case h_2 => cases placed
      case h_1 ready =>
        obtain rfl := Except.ok.inj placed
        refine ⟨rfl, fun name used foreign unready => ?_⟩
        have nothing := List.flatMap_eq_nil_iff.mp (sortedNames_eq_nil ready) value dynamic
        obtain ⟨site, member, named, late⟩ := unready
        have unbound := List.filter_eq_nil_iff.mp (sortedNames_eq_nil nothing) name used
        refine unbound (Bool.and_eq_true_iff.mpr ⟨?_, List.any_eq_true.mpr ⟨site, member, ?_⟩⟩)
        · simpa using foreign
        · simp [named, late]

end JsxTracking
