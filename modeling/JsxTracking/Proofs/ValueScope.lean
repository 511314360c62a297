import JsxTracking.Proofs.RecordedNames

/-! # Where the value of a marker is in scope

The value of a marker is evaluated by hooks in the body of the component around its element. The
hooks stand in other scopes than the element, so a name in the value may come to mean something else.
Which names do is said by `Woven.captured`, and they are told apart by whether the scan of the body
records them. A value with a recorded one is refused, unless the value itself declares the same name
somewhere; so a value that is instrumented changes its meaning by a binder that the scan does not
record, or by such a name (`value_resolves_iff`). -/

namespace JsxTracking

/-- The statements of a block. -/
def Tree.blockStatements : Tree → List Tree
  | .node .blockStatement fields => (Fields.get fields .stmts).items
  | _ => []

theorem Tree.blockStatements_of_not_block {body : Tree} (other : body.isKind .blockStatement = false) :
    body.blockStatements = [] := by
  unfold blockStatements
  split
  case h_1 => cases other
  case h_2 => rfl

namespace Scope

/-- The scopes at the top level of the body of a function. -/
def ofBody (body : Tree) : List Scope :=
  [ofStatements body.blockStatements, ofVars body]

/-- The scope in the function that forwards an element to the reference it had. -/
def ofForwarding : Scope where
  recorded := [ElementRef.forwardName]
  unrecorded := [ElementRef.nodeName]

/-- The variables, classes and enumerations that are not declared when the hooks at a position of a
body run. -/
def late (body : Tree) (position : Nat) : Scope where
  recorded := Tree.gatherInItems .guarded (body.blockStatements.drop position)
  unrecorded := Tree.gatherInItems .enums (body.blockStatements.drop position)

/-- The names bound in a body, which the parameters do not see. Its functions are hoisted, and the
scan does not record them. -/
def hidden (body : Tree) : Scope where
  recorded := Tree.gatherInItems .guarded body.blockStatements ++ body.gather .vars
  unrecorded := Tree.gatherInItems .functions body.blockStatements ++
    (ofStatements body.blockStatements).unrecorded

end Scope

namespace Woven

/-- The body of a component as the module has it. -/
def body : Woven → Tree
  | function _ outer _ inner => Fields.get (sourcesInParts outer ++ sourcesInParts inner) .body
  | _ => .null

/-- The scopes around the hooks of a component, as far as its parameters. -/
def hookScopes : Woven → List Scope
  | reference .. => [.ofForwarding]
  | component => Scope.ofBody component.body

/-- The scopes around an element that a component hosts, as far as the parameters of the component.
The forwarding function is not around the element. -/
def elementScopes (component : Woven) (field? : Option Field) (path : List Frame) : List Scope :=
  path.flatMap Frame.scopes ++
    if field? = some .body then [.ofVars component.body] else []

/-- A name means the same to the hooks at a position in the body of a component as it does to an
element, and if it is declared there by a `const`, `let`, class or enumeration, it is before them. -/
structure ResolvesAlike (component : Woven) (field? : Option Field) (path : List Frame)
    (position : Nat) (name : String) : Prop where
  binding : resolve field? (component.elementScopes field? path) name =
    resolve (some .body) component.hookScopes name
  declared : ∀ index statement, component.body.blockStatements[index]? = some statement →
    name ∈ statement.gather .guarded ++ statement.gather .enums → index < position

/-- The names that mean something else to the hooks at a position in the body of a component than to
an element, or are declared only after the hooks. -/
def captured (component : Woven) (field? : Option Field) (path : List Frame) (position : Nat) :
    Scope :=
  if field? = some .body then
    .merge [Frame.bound (if component.body.isKind .blockStatement then path.dropLast else path),
      .late component.body position]
  else if field? = none then .merge [Frame.bound path, .ofForwarding]
  else .merge [{ unrecorded := (Frame.bound path).names }, .hidden component.body]

end Woven

theorem Scope.mem_late_names {body : Tree} {position : Nat} {name : String} :
    name ∉ (late body position).names ↔
      ∀ index statement, body.blockStatements[index]? = some statement →
        name ∈ statement.gather .guarded ++ statement.gather .enums → index < position := by
  simp only [names, late, List.mem_append, Tree.mem_gatherInItems]
  constructor
  · intro absent index statement found declared
    by_contra behind
    have member : statement ∈ body.blockStatements.drop position := by
      refine List.mem_of_getElem? (i := index - position) ?_
      rw [List.getElem?_drop, Nat.add_sub_cancel' (Nat.not_lt.mp behind)]
      exact found
    exact absent (declared.imp (fun here => ⟨statement, member, here⟩)
      (fun here => ⟨statement, member, here⟩))
  · intro before declared
    have late {statement : Tree} (member : statement ∈ body.blockStatements.drop position)
        (here : name ∈ statement.gather .guarded ∨ name ∈ statement.gather .enums) : False := by
      obtain ⟨index, found⟩ := List.getElem?_of_mem member
      rw [List.getElem?_drop] at found
      exact absurd (before _ statement found here) (Nat.not_lt.mpr (Nat.le_add_right _ _))
    rcases declared with ⟨statement, member, here⟩ | ⟨statement, member, here⟩
    · exact late member (Or.inl here)
    · exact late member (Or.inr here)

theorem Scope.mem_merge_recorded {first second : Scope} {name : String} :
    name ∈ (merge [first, second]).recorded ↔ name ∈ first.recorded ∨ name ∈ second.recorded := by
  simp [merge]

theorem Scope.mem_hidden_names {body : Tree} {name : String} :
    name ∈ (hidden body).names ↔ ∃ scope ∈ ofBody body, name ∈ scope.names := by
  simp only [names, hidden, ofBody, ofStatements, ofVars, List.mem_append, List.mem_cons,
    List.not_mem_nil, or_false, exists_eq_or_imp, exists_eq_left]
  tauto

namespace Woven

/-- A name of an element in the body of a component means the same to the hooks if it is not
captured. -/
theorem resolvesAlike_iff_of_body {component : Woven} {path : List Frame} {position : Nat}
    {name : String} (function : component.hookScopes = Scope.ofBody component.body)
    (block : component.body.isKind .blockStatement = true → ∃ inner frame,
      path = inner ++ [frame] ∧
        frame.scopes = [Scope.ofStatements component.body.blockStatements]) :
    component.ResolvesAlike (some .body) path position name ↔
      name ∉ (component.captured (some .body) path position).names := by
  have between : ∀ inner,
      inner = (if component.body.isKind .blockStatement then path.dropLast else path) →
      (resolve (some .body) (component.elementScopes (some .body) path) name =
        resolve (some .body) component.hookScopes name ↔ name ∉ (Frame.bound inner).names) := by
    rintro inner rfl
    rw [Frame.mem_bound_names, function, elementScopes, if_pos rfl, Scope.ofBody]
    simp only [not_exists, not_and]
    cases isBlock : component.body.isKind .blockStatement with
    | true =>
      obtain ⟨inner, frame, rfl, scopes⟩ := block isBlock
      rw [if_pos rfl, List.dropLast_concat, List.flatMap_append, List.flatMap_singleton, scopes,
        List.append_assoc]
      exact resolve_append_eq_iff
    | false =>
      rw [if_neg Bool.false_ne_true, Tree.blockStatements_of_not_block isBlock]
      exact resolve_append_eq_iff
  rw [captured, if_pos rfl, Scope.mem_merge_names]
  simp only [List.mem_cons, List.not_mem_nil, or_false, exists_eq_or_imp, exists_eq_left, not_or]
  rw [← between _ rfl, Scope.mem_late_names]
  exact ⟨fun ⟨binding, declared⟩ => ⟨binding, declared⟩, fun ⟨binding, declared⟩ => ⟨binding, declared⟩⟩

/-- A name of an element in the parameters of a component means the same to the hooks if it is not
captured. -/
theorem resolvesAlike_iff_of_parameters {component : Woven} {field : Field} (other : field ≠ .body)
    {path : List Frame} {position : Nat} {name : String}
    (function : component.hookScopes = Scope.ofBody component.body) :
    component.ResolvesAlike (some field) path position name ↔
      name ∉ (component.captured (some field) path position).names := by
  have notBody : some field ≠ some Field.body := fun same => other (Option.some.inj same)
  have binding : resolve (some field) (component.elementScopes (some field) path) name =
      resolve (some .body) component.hookScopes name ↔
        name ∉ (Frame.bound path).names ∧ name ∉ (Scope.hidden component.body).names := by
    rw [resolve_eq_iff_of_ne notBody, Frame.mem_bound_names, Scope.mem_hidden_names, function,
      elementScopes, if_neg notBody, List.append_nil]
    simp only [not_exists, not_and]
  rw [captured, if_neg notBody, if_neg (Option.some_ne_none field), Scope.mem_merge_names]
  simp only [List.mem_cons, List.not_mem_nil, or_false, exists_eq_or_imp, exists_eq_left, not_or,
    Scope.names, List.nil_append] at binding ⊢
  rw [← binding]
  refine ⟨fun alike => alike.binding, fun same => ⟨same, fun index statement found declared => ?_⟩⟩
  -- The name is not declared in the body at all.
  refine absurd ?_ (binding.mp same).2
  have member := List.mem_of_getElem? found
  rcases List.mem_append.mp declared with guarded | enum
  · exact List.mem_append_left _ (List.mem_append_left _ (Tree.gatherInItems_of_mem member guarded))
  · exact List.mem_append_right _ (List.mem_append_right _ (List.mem_append_left _
      (Tree.gatherInItems_of_mem member enum)))

/-- A name of an element in a reference that is forwarded by a component means the same to the hooks
if it is not captured. -/
theorem resolvesAlike_iff_of_forwarding {attachment : Attachment} {replaced : List Woven}
    {scan? : Option BodyScan} {path : List Frame} {position : Nat} {name : String} :
    (reference attachment replaced scan?).ResolvesAlike none path position name ↔
      name ∉ ((reference attachment replaced scan?).captured none path position).names := by
  have apart : none ≠ some Field.body := (Option.some_ne_none _).symm
  have binding : resolve none ((reference attachment replaced scan?).elementScopes none path) name =
      resolve (some .body) (reference attachment replaced scan?).hookScopes name ↔
        name ∉ (Frame.bound path).names ∧ name ∉ Scope.ofForwarding.names := by
    rw [resolve_eq_iff_of_ne apart, Frame.mem_bound_names, elementScopes, if_neg apart,
      List.append_nil, hookScopes]
    simp only [not_exists, not_and]
    simp only [List.mem_singleton, forall_eq]
  rw [captured, if_neg apart, if_pos rfl, Scope.mem_merge_names]
  simp only [List.mem_cons, List.not_mem_nil, or_false, exists_eq_or_imp, exists_eq_left, not_or]
  rw [← binding]
  exact ⟨fun alike => alike.binding,
    fun same => ⟨same, fun _ _ found => absurd found (by simp [body, Tree.blockStatements])⟩⟩

/-- A dynamic value that is placed for an element uses no name that is not ready in the component
around the element, except for those that it declares itself. -/
theorem Owned.ready {treatment : Treatment} {parts : List (Field × Woven)} {path : List Frame}
    {woven : Woven} (owned : (opening treatment parts).Owned path woven) {enclosure : Enclosure}
    {step : Step} (decided : Decided enclosure step woven) {narrow : Bool}
    (ordinary : narrow = true → step.isOrdinary = true) {allocation : Allocation} {position : Nat}
    {shared : Bool} (outcome : treatment.outcome = .instrumented allocation position shared)
    {value : Tree} (dynamic : value ∈ treatment.markers.dynamicExpressions) :
    ∃ scan statement, enclosure.home?.map Prod.fst = some scan ∧
      (narrow = true → enclosure.home? = some (scan, statement)) ∧
      position = scan.dynamicPosition statement ∧
      ∀ name ∈ value.identifiers, name ∉ value.declaredNames → ¬scan.Unready position name := by
  obtain ⟨inner, next, decidedTag, near⟩ := owned.decided decided ordinary
  cases decidedTag with
  | follows treated =>
    obtain ⟨-, suits, -⟩ := treated
    have decision := suits.outcome
    rw [outcome] at decision
    obtain ⟨-, placed, -⟩ := decision
    obtain ⟨scan, statement, home, placement⟩ := Enclosure.place_ready placed dynamic
    rcases near with nowhere | ⟨component, same⟩
    · exact absurd (nowhere.symm.trans home) (Option.some_ne_none _).symm
    · refine ⟨scan, statement, ?_, fun asked => (same asked) ▸ home, placement⟩
      rw [← component, home]
      rfl

/-- What is left alone holds no elements. -/
theorem Follows.not_owned_of_keep {enclosure : Enclosure} {woven : Woven}
    (follows : woven.Follows enclosure .keep) {treatment : Treatment}
    {parts : List (Field × Woven)} {path : List Frame} :
    ¬(opening treatment parts).Owned path woven := by
  intro owned
  cases owned with
  | self => exact follows.1 rfl
  | step held owned =>
    cases held with
    | item | replaced => exact follows.elim
    | statement => cases follows.1
    | part | outer | inner | opening => exact follows.1 rfl

/-- An element in the block of a component stands in one of its statements. -/
theorem Owned.exists_statement {treatment : Treatment} {parts : List (Field × Woven)}
    {path : List Frame} {woven : Woven} (owned : (opening treatment parts).Owned path woven)
    {enclosure : Enclosure} (follows : woven.Follows enclosure .componentBody) {fields : Fields}
    (block : woven.source = .node .blockStatement fields)
    (wellFormed : (Tree.node .blockStatement fields).isWellFormed = true) :
    ∃ inner index statement, path = inner ++ [⟨.blockStatement, fields, .stmts⟩] ∧
      (Fields.get fields .stmts).items[index]? = some statement.source ∧
      (opening treatment parts).Owned inner statement ∧
      statement.Follows (enclosure.atStatement index) .visit := by
  cases owned with
  | self => cases block
  | step held owned =>
    cases held with
    | item | statement | opening => cases block
    | outer | inner =>
      obtain ⟨rfl, -⟩ := Tree.node.inj block
      cases follows.2.1
    | replaced => exact follows.elim
    | @part kind inside field item member =>
      obtain ⟨rfl, rfl⟩ := Tree.node.inj block
      obtain ⟨-, -, -, within⟩ := follows
      have visited := within.member member
      obtain ⟨distinct, listed, -⟩ := Tree.isWellFormed_node wellFormed
      have only : field = .stmts := by
        by_contra other
        have kept : Step.componentBody.within .blockStatement (sourcesInParts inside) field =
            .keep := by
          rw [Step.within, if_pos ⟨rfl, rfl⟩, if_neg other]
        rw [kept] at visited
        exact visited.not_owned_of_keep owned
      subst only
      have sourced := Fields.get_of_mem distinct (mem_sourcesInParts member)
      have isList := listed rfl
      rw [sourced] at isList
      have step : Step.componentBody.within .blockStatement (sourcesInParts inside) .stmts =
          .statements := by
        rw [Step.within, if_pos ⟨rfl, rfl⟩, if_pos rfl]
      rw [step] at visited
      obtain ⟨items, rfl, statements⟩ := visited.exists_statements isList
      cases owned with
      | step held owned =>
        cases held with
        | statement among =>
          obtain ⟨index, found⟩ := List.getElem?_of_mem among
          have ordinary : ∀ item ∈ items, item.isGenerated = false := by
            intro item member
            obtain ⟨index, found⟩ := List.getElem?_of_mem member
            exact (statements.getElem found).ordinary.2
          refine ⟨_, index, _, ?_, ?_, owned, ?_⟩
          · rw [Option.toList_none, List.append_nil, Option.toList_some]
          · rw [sourced]
            change (sources items)[index]? = _
            rw [getElem?_sources ordinary, found]
            rfl
          · have placed := statements.getElem found
            rwa [Nat.zero_add] at placed

/-- The scan of a function that is a component is that of its body. -/
theorem Follows.function_scan {kind : Kind} {outer : List (Field × Woven)} {scan : BodyScan}
    {inner : List (Field × Woven)} {enclosure : Enclosure} {step : Step}
    (follows : (function kind outer (some scan) inner).Follows enclosure step) :
    scan = .ofBody (function kind outer (some scan) inner).body := by
  obtain ⟨-, -, -, -, scanned, -⟩ := id follows
  rw [scanned scan rfl, body, Fields.get, Fields.get, List.lookup_append, lookup_sourcesInParts,
    lookup_sourcesInParts, follows.outer_body, Option.map_none, Option.none_or]

/-- The top-level statements of a component whose body is a block. -/
def topLevel : Woven → List Woven
  | function _ _ (some _) inner =>
    match inner.lookup .body with
    | some (node .blockStatement parts) =>
      match parts.lookup .stmts with
      | some (statements items) => items
      | _ => []
    | _ => []
  | _ => []

/-- An element stands in the top-level statement of a component at an index, and in no component
within that statement. -/
structure HostsAt (component : Woven) (treatment : Treatment) (index : Nat) (statement : Woven)
    (path : List Frame) : Prop where
  found : component.topLevel[index]? = some statement
  owned : ∃ tag, (opening treatment tag).Owned path statement

/-- What has top-level statements is a function with a block for its body. -/
theorem exists_block_of_topLevel {component statement : Woven} {index : Nat}
    (found : component.topLevel[index]? = some statement) :
    ∃ kind outer scan inner parts, component = function kind outer (some scan) inner ∧
      inner.lookup .body = some (.node .blockStatement parts) ∧
      parts.lookup .stmts = some (.statements component.topLevel) := by
  unfold topLevel at found ⊢
  split at found
  case h_2 => cases found
  case h_1 kind outer scan inner =>
    split at found
    case h_2 => cases found
    case h_1 parts block =>
      split at found
      case h_2 => cases found
      case h_1 items listed => exact ⟨kind, outer, scan, inner, parts, rfl, block, listed⟩

/-- A component hosts the elements in its top-level statements. -/
theorem HostsAt.hosts {component : Woven} {treatment : Treatment} {index : Nat} {statement : Woven}
    {path : List Frame} (hosts : component.HostsAt treatment index statement path) :
    ∃ fields, (Fields.get fields .stmts).items = sources component.topLevel ∧
      component.Hosts treatment (some .body) (path ++ [⟨.blockStatement, fields, .stmts⟩]) := by
  obtain ⟨found, tag, owned⟩ := hosts
  obtain ⟨kind, outer, scan, inner, parts, shape, block, listed⟩ := exists_block_of_topLevel found
  refine ⟨sourcesInParts parts, ?_, ?_⟩
  · rw [Fields.get, lookup_sourcesInParts, listed]
    rfl
  · have listedOwned := Owned.step (.statement (List.mem_of_getElem? found)) owned
    rw [Option.toList_none, List.append_nil] at listedOwned
    rw [shape]
    exact .intro (.inner (mem_of_lookup block)) (.step (.part (mem_of_lookup listed)) listedOwned)

/-- The top-level statements of a component are those of its body. -/
theorem Follows.blockStatements {kind : Kind} {outer : List (Field × Woven)} {scan : BodyScan}
    {inner : List (Field × Woven)} {enclosure : Enclosure} {step : Step}
    (follows : (function kind outer (some scan) inner).Follows enclosure step)
    {parts : List (Field × Woven)} {items : List Woven}
    (block : inner.lookup .body = some (.node .blockStatement parts))
    (listed : parts.lookup .stmts = some (.statements items)) :
    (function kind outer (some scan) inner).body.blockStatements = sources items := by
  have isBlock : (function kind outer (some scan) inner).body =
      .node .blockStatement (sourcesInParts parts) := by
    rw [body, Fields.get, List.lookup_append, lookup_sourcesInParts, lookup_sourcesInParts,
      follows.outer_body, Option.map_none, Option.none_or, block]
    rfl
  rw [isBlock, Tree.blockStatements, Fields.get, lookup_sourcesInParts, listed]
  rfl

end Woven

/-- A statement of a block. -/
theorem Tree.blockStatements_wellFormed {body statement : Tree} (wellFormed : body.isWellFormed = true)
    (member : statement ∈ body.blockStatements) : statement.isWellFormed = true := by
  unfold blockStatements at member
  split at member
  case h_1 fields =>
    have inside := hereditary_isWellFormed.get wellFormed .stmts
    change (Fields.get fields .stmts).isWellFormed = true at inside
    cases form : Fields.get fields .stmts with
    | list items =>
      rw [form] at inside member
      exact hereditary_isWellFormed.item inside member
    | null | bool | num | str | node =>
      rw [form] at member
      exact absurd member List.not_mem_nil
  case h_2 => exact absurd member List.not_mem_nil

/-- A body is scanned as its statements, if it is a block, and as an expression otherwise. -/
theorem BodyScan.ofBody_eq (body : Tree) :
    BodyScan.ofBody body = if body.isKind .blockStatement then .ofStatements body.blockStatements
      else .ofExpression body := by
  unfold ofBody
  split
  case h_1 => exact (if_pos rfl).symm
  case h_2 other =>
    rw [if_neg]
    intro isBlock
    cases body with
    | node kind fields =>
      obtain rfl : kind = .blockStatement := Option.some.inj (of_decide_eq_true isBlock)
      exact other fields rfl
    | null | bool | num | str | list => cases of_decide_eq_true isBlock

/-- The `var` declarations of a body are those of its statements. -/
theorem Tree.gather_vars_body {body : Tree} (wellFormed : body.isWellFormed = true)
    (block : body.isKind .blockStatement = true) {name : String} (found : name ∈ body.gather .vars) :
    ∃ statement ∈ body.blockStatements, name ∈ statement.gather .vars := by
  cases body with
  | null | bool | num | str | list => cases block
  | node kind fields =>
    obtain rfl : kind = .blockStatement := Option.some.inj (of_decide_eq_true block)
    obtain ⟨distinct, listed, -⟩ := isWellFormed_node wellFormed
    rcases List.mem_append.mp found with own | inParts
    · exact absurd own List.not_mem_nil
    · obtain ⟨field, part, member, enters, inside⟩ := mem_gatherInFields inParts
      obtain rfl : field = .stmts := by
        cases field <;> first | rfl | cases enters
      have isList := listed rfl
      have sourced := Fields.get_of_mem distinct member
      change ∃ statement ∈ (Fields.get fields .stmts).items, _
      rw [sourced] at isList ⊢
      cases part with
      | list items => exact mem_gatherInItems.mp inside
      | null | bool | num | str | node => cases isList

namespace BodyScan

/-- What is recorded for a statement of a body is not ready at a position that is not behind it. -/
theorem unready_of_body {body : Tree} (wellFormed : body.isWellFormed = true) {index : Nat}
    {statement : Tree} (found : body.blockStatements[index]? = some statement) {around : Nat}
    (reached : around ≤ index ∨ (BodyScan.ofBody body).dynamicPosition around ≤ index)
    {name : String} (declared : name ∈ statement.nestedNames) :
    (BodyScan.ofBody body).Unready ((BodyScan.ofBody body).dynamicPosition around) name := by
  have block : body.isKind .blockStatement = true := by
    cases isBlock : body.isKind .blockStatement with
    | true => rfl
    | false =>
      rw [Tree.blockStatements_of_not_block isBlock] at found
      cases found
  rw [ofBody_eq, if_pos block] at reached ⊢
  exact unready_of_statement found
    (Tree.blockStatements_wellFormed wellFormed (List.mem_of_getElem? found)) reached declared

/-- Late variables and classes are not ready. -/
theorem unready_of_late {body : Tree} (wellFormed : body.isWellFormed = true) {around : Nat}
    {name : String} (late : name ∈ (Scope.late body
      ((BodyScan.ofBody body).dynamicPosition around)).recorded) :
    (BodyScan.ofBody body).Unready ((BodyScan.ofBody body).dynamicPosition around) name := by
  obtain ⟨statement, member, declared⟩ := Tree.mem_gatherInItems.mp late
  obtain ⟨index, found⟩ := List.getElem?_of_mem member
  rw [List.getElem?_drop] at found
  exact unready_of_body wellFormed found (Or.inr (Nat.le_add_right _ _))
    (statement.gather_guarded_subset declared)

/-- At the first position for an element, nothing that a body declares is ready, except for its
functions. -/
theorem unready_of_hidden {body : Tree} (wellFormed : body.isWellFormed = true) {name : String}
    (hidden : name ∈ (Scope.hidden body).recorded) :
    (BodyScan.ofBody body).Unready ((BodyScan.ofBody body).dynamicPosition 0) name := by
  have ofStatement {statement : Tree} (member : statement ∈ body.blockStatements)
      (declared : name ∈ statement.nestedNames) :
      (BodyScan.ofBody body).Unready ((BodyScan.ofBody body).dynamicPosition 0) name := by
    obtain ⟨index, found⟩ := List.getElem?_of_mem member
    exact unready_of_body wellFormed found (Or.inl (Nat.zero_le _)) declared
  rcases List.mem_append.mp hidden with guarded | var
  · obtain ⟨statement, member, declared⟩ := Tree.mem_gatherInItems.mp guarded
    exact ofStatement member (statement.gather_guarded_subset declared)
  · cases block : body.isKind .blockStatement with
    | true =>
      obtain ⟨statement, member, declared⟩ := Tree.gather_vars_body wellFormed block var
      exact ofStatement member (statement.gather_vars_subset declared)
    | false =>
      rw [ofBody_eq, if_neg (Bool.eq_false_iff.mp block)]
      exact unready_of_expression (Tree.gather_subset Search.vars_recorded body var) _

end BodyScan

/-- The sites of the function that forwards an element: what the reference declares is in a nested
scope, and the variable for it is declared by the second statement. -/
theorem BodyScan.unready_of_forwarding {handle : ElementHandle} {reference : Tree} {name : String}
    (declared : name = ElementRef.forwardName ∨ name ∈ reference.declaredNames) :
    let scan := BodyScan.ofStatements (ElementRef.forwardingBody handle reference)
    scan.Unready (scan.dynamicPosition 1) name := by
  intro scan
  have position : scan.dynamicPosition 1 ≤ 1 := by
    change max (min _ 1) 0 ≤ 1
    omega
  have sited {site : DeclarationSite} (member : site ∈ DeclarationSite.direct 1
      [ElementRef.forwardName] ++ DeclarationSite.nested reference.declaredNames) :
      site ∈ scan.sites := by
    have second : (ElementRef.forwardingBody handle reference)[1]? =
        some (Code.constant ElementRef.forwardName reference) := rfl
    exact DeclarationSite.mem_ofStatements second (List.mem_append_left _ member)
  rcases declared with rfl | inside
  · refine ⟨⟨_, some 1⟩, sited (List.mem_append_left _ List.mem_cons_self), rfl, ?_⟩
    exact decide_eq_false (Nat.not_lt.mpr position)
  · exact ⟨⟨_, none⟩, sited (List.mem_append_right _ (List.mem_map.mpr ⟨name, inside, rfl⟩)), rfl,
      rfl⟩

/-- What the reference of an element declares is declared by what the element is forwarded to. -/
theorem ElementRef.declaredNames_forwarded {earlier reference : Tree} {spreads : List Tree}
    (found : forwarded? (some earlier) spreads = some reference) :
    earlier.declaredNames ⊆ reference.declaredNames := by
  induction spreads generalizing earlier with
  | nil =>
    obtain rfl := Option.some.inj found
    exact List.Subset.refl _
  | cons spread rest ih =>
    have whole : (Field.right, earlier) ∈
        ([(.left, Code.member spread "ref"), (.right, earlier), (.operator, .str "??")] : Fields) :=
      List.mem_cons_of_mem _ List.mem_cons_self
    exact List.Subset.trans (Tree.declaredInFields_of_mem whole) (ih found)

namespace Woven

/-- What is decided about a dynamic value: its names mean the same to the hooks unless they are
captured, and it uses no recorded name that is, unless it declares the name itself. -/
structure Judges (component : Woven) (field? : Option Field) (path : List Frame) (position : Nat)
    (value : Tree) : Prop where
  resolves : ∀ name, component.ResolvesAlike field? path position name ↔
    name ∉ (component.captured field? path position).names
  refuses : ∀ name ∈ value.identifiers, name ∉ value.declaredNames →
    name ∉ (component.captured field? path position).recorded

section

variable {treatment : Treatment} {parts : List (Field × Woven)} {path : List Frame} {item : Woven}
  (owned : (opening treatment parts).Owned path item) {allocation : Allocation} {position : Nat}
  {shared : Bool} (outcome : treatment.outcome = .instrumented allocation position shared)
  {value : Tree} (dynamic : value ∈ treatment.markers.dynamicExpressions)
include owned outcome dynamic

/-- The value of an element in the body of a component. -/
theorem Owned.judges_body {component : Woven} {enclosure : Enclosure}
    (function : component.hookScopes = Scope.ofBody component.body)
    (source : item.source = component.body) (wellFormed : component.body.isWellFormed = true)
    (follows : item.Follows (enclosure.enterFunction (some (.ofBody component.body))) .componentBody) :
    component.Judges (some .body) path position value := by
  cases block : component.body.isKind .blockStatement with
  | true =>
    obtain ⟨fields, form⟩ : ∃ fields, component.body = .node .blockStatement fields := by
      cases form : component.body with
      | node kind fields =>
        rw [form] at block
        obtain rfl : kind = .blockStatement := Option.some.inj (of_decide_eq_true block)
        exact ⟨fields, rfl⟩
      | null | bool | num | str | list =>
        rw [form] at block
        cases block
    obtain ⟨inner, index, statement, rfl, found, ownedStatement, visited⟩ :=
      owned.exists_statement follows (source.trans form) (form ▸ wellFormed)
    have at_ : component.body.blockStatements[index]? = some statement.source := by
      rw [form]
      exact found
    obtain ⟨scan, around, -, home, rfl, ready⟩ := ownedStatement.ready (.follows visited)
      (fun (_ : true = true) => rfl) outcome dynamic
    obtain ⟨rfl, rfl⟩ := Prod.mk.inj (Option.some.inj (home rfl))
    refine ⟨fun name => resolvesAlike_iff_of_body function fun _ => ⟨inner, _, rfl, ?_⟩,
      fun name used foreign captured => ready name used foreign ?_⟩
    · rw [form]
      rfl
    · rw [Woven.captured, if_pos rfl, if_pos block, List.dropLast_concat] at captured
      rcases Scope.mem_merge_recorded.mp captured with between | late
      · have recorded := ownedStatement.bound_recorded (.follows visited)
          (carries_of_source visited.ordinary.2 (fun _ => Step.noConfusion)
            (Tree.blockStatements_wellFormed wellFormed (List.mem_of_getElem? at_))) between
        rw [recordedNames_of_ordinary visited.ordinary.2] at recorded
        exact BodyScan.unready_of_body wellFormed at_ (Or.inl (Nat.le_refl _)) recorded
      · exact BodyScan.unready_of_late wellFormed late
  | false =>
    obtain ⟨scan, around, home, -, rfl, ready⟩ := owned.ready (.follows follows)
      (fun (narrow : false = true) => absurd narrow Bool.false_ne_true) outcome dynamic
    obtain rfl := Option.some.inj home
    refine ⟨fun name => resolvesAlike_iff_of_body function fun isBlock =>
        absurd (isBlock.symm.trans block) Bool.true_eq_false.mp,
      fun name used foreign captured => ready name used foreign ?_⟩
    rw [Woven.captured, if_pos rfl, if_neg (Bool.eq_false_iff.mp block)] at captured
    rcases Scope.mem_merge_recorded.mp captured with between | late
    · have recorded := owned.bound_recorded (.follows follows)
        (carries_of_source follows.ordinary.2 (fun _ => Step.noConfusion)
          (source ▸ wellFormed)) between
      rw [BodyScan.ofBody_eq, if_neg (Bool.eq_false_iff.mp block)]
      exact BodyScan.unready_of_expression
        (source ▸ recordedNames_subset follows.ordinary.2 recorded) _
    · rw [Scope.late, Tree.blockStatements_of_not_block block, List.drop_nil] at late
      exact absurd late List.not_mem_nil

/-- The value of an element in the parameters of a component. -/
theorem Owned.judges_parameters {component : Woven} {enclosure : Enclosure} {field : Field}
    (other : field ≠ .body) (function : component.hookScopes = Scope.ofBody component.body)
    (wellFormed : component.body.isWellFormed = true)
    (follows : item.Follows (enclosure.enterFunction (some (.ofBody component.body)))
      (Step.ofFunction (some (.ofBody component.body)) field)) :
    component.Judges (some field) path position value := by
  have ordinary : (Step.ofFunction (some (.ofBody component.body)) field).isOrdinary = true := by
    unfold Step.ofFunction
    split
    · rfl
    · rfl
    · exact absurd rfl other
    · rfl
  obtain ⟨scan, around, -, home, rfl, ready⟩ := owned.ready (.follows follows)
    (fun (_ : true = true) => ordinary) outcome dynamic
  obtain ⟨rfl, rfl⟩ := Prod.mk.inj (Option.some.inj (home rfl))
  refine ⟨fun name => resolvesAlike_iff_of_parameters other function,
    fun name used foreign captured => ready name used foreign ?_⟩
  rw [Woven.captured, if_neg fun same => other (Option.some.inj same),
    if_neg (Option.some_ne_none field)] at captured
  rcases Scope.mem_merge_recorded.mp captured with nothing | hidden
  · exact absurd nothing List.not_mem_nil
  · exact BodyScan.unready_of_hidden wellFormed hidden

end

/-- The value of an element in a reference that is forwarded by a component. -/
theorem Holds.judges_forwarding {attachment : Attachment} {replaced : List Woven} {scan : BodyScan}
    {frame? : Option Frame} {item : Woven}
    (held : (reference attachment replaced (some scan)).Holds frame? (some scan) item)
    {treatment : Treatment} {parts : List (Field × Woven)} {path : List Frame}
    (owned : (Woven.opening treatment parts).Owned path item) {allocation : Allocation}
    {position : Nat} {shared : Bool}
    (outcome : treatment.outcome = .instrumented allocation position shared) {value : Tree}
    (dynamic : value ∈ treatment.markers.dynamicExpressions) {enclosure : Enclosure} {step : Step}
    (decided : Decided enclosure step (reference attachment replaced (some scan)))
    (carries : Carries (fun tree => tree.isWellFormed = true) (fun _ => True) step
      (reference attachment replaced (some scan))) :
    (reference attachment replaced (some scan)).Judges none path position value := by
  cases held with
  | replaced member =>
    cases decided with
    | follows follows => exact follows.elim
    | reference alone scanned within =>
      have visited := within.member member
      have only : sources replaced = [item.source] := by
        obtain ⟨other, rfl⟩ := List.length_eq_one_iff.mp
          (Nat.le_antisymm alone (List.length_pos_of_mem member))
        obtain rfl := List.mem_singleton.mp member
        rw [sources, if_neg (Bool.eq_false_iff.mp visited.ordinary.2), sources]
      have same := scanned scan rfl
      rw [only, List.head?_cons, forwardingScan] at same
      obtain ⟨forwarded, found, rfl⟩ := Option.map_eq_some_iff.mp same.symm
      obtain ⟨scan, around, -, home, rfl, ready⟩ := owned.ready (.follows visited)
        (fun (_ : true = true) => rfl) outcome dynamic
      obtain ⟨rfl, rfl⟩ := Prod.mk.inj (Option.some.inj (home rfl))
      refine ⟨fun name => resolvesAlike_iff_of_forwarding,
        fun name used foreign captured => ready name used foreign ?_⟩
      rw [Woven.captured, if_neg (Option.some_ne_none _).symm, if_pos rfl] at captured
      refine BodyScan.unready_of_forwarding ?_
      rcases Scope.mem_merge_recorded.mp captured with between | own
      · have wellFormed := carries.2 item.source (only ▸ List.mem_singleton.mpr rfl)
        have recorded := owned.bound_recorded (.follows visited)
          (carries_of_source visited.ordinary.2 (fun _ => Step.noConfusion) wellFormed) between
        exact Or.inr (ElementRef.declaredNames_forwarded found
          (recordedNames_subset visited.ordinary.2 recorded))
      · exact Or.inl (List.mem_singleton.mp own)

/-- A component judges the values of the elements that it hosts. -/
theorem Hosts.judges {component : Woven} {treatment : Treatment} {field? : Option Field}
    {path : List Frame} (hosts : component.Hosts treatment field? path) {enclosure : Enclosure}
    {step : Step} (decided : Decided enclosure step component)
    (carries : Carries (fun tree => tree.isWellFormed = true) (fun _ => True) step component)
    {allocation : Allocation} {position : Nat} {shared : Bool}
    (outcome : treatment.outcome = .instrumented allocation position shared) {value : Tree}
    (dynamic : value ∈ treatment.markers.dynamicExpressions) :
    component.Judges field? path position value := by
  obtain ⟨held, owned⟩ := hosts
  cases held with
  | replaced member =>
    exact (Holds.replaced member).judges_forwarding owned outcome dynamic decided carries
  | @inner kind outer scan? inner field item member =>
    cases decided with
    | follows follows =>
      have wellFormed := carries.node rfl rfl
      have visited := follows.2.2.2.2.2.member member
      rw [follows.function_scan] at visited
      have bodyFormed := Tree.hereditary_isWellFormed.get wellFormed .body
      by_cases isBody : field = .body
      · subst isBody
        have source := Fields.get_of_mem (Tree.isWellFormed_node wellFormed).1
          (List.mem_append_right (sourcesInParts outer) (mem_sourcesInParts member))
        exact owned.judges_body outcome dynamic rfl source.symm bodyFormed visited
      · exact owned.judges_parameters outcome dynamic isBody rfl bodyFormed visited

end Woven

/-- An element with a dynamic value has a value. -/
theorem ElementMarkers.hasValues_of_dynamic {markers : ElementMarkers} {value : Tree}
    (dynamic : value ∈ markers.dynamicExpressions) : markers.hasValues = true := by
  obtain ⟨⟨kind, held⟩, valued, -⟩ := List.mem_filterMap.mp dynamic
  rcases List.mem_append.mp valued with visible | click
  · obtain ⟨found, same, -⟩ := Option.map_eq_some_iff.mp (Option.mem_toList.mp visible)
    rw [hasValues, same]
    rfl
  · obtain ⟨found, same, -⟩ := Option.map_eq_some_iff.mp (Option.mem_toList.mp click)
    rw [hasValues, same, Option.isSome_some, Bool.or_true]

/-- `const id = page.id; return <div data-track-show={id} />;` -/
def namedStatements : List Tree :=
  [Code.constant "id" (Code.member (Code.reference "page") "id"),
    Code.returnValue (markedElement "div" "data-track-show" (Code.reference "id"))]

/-- `return rows.map((row) => <li data-track-show={label((row) => row.id, row)} />);` -/
def rowStatements : List Tree :=
  [Code.returnValue (Code.methodCall (Code.reference "rows") "map"
    [Code.arrowTo [Code.binding "row"] (markedElement "li" "data-track-show"
      (Code.call (Code.reference "label")
        [Code.arrowTo [Code.binding "row"] (Code.member (Code.reference "row") "id"),
          Code.reference "row"]))])]

end JsxTracking
