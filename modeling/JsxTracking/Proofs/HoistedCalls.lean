import JsxTracking.Proofs.HandleScope
import JsxTracking.Proofs.ValueScope

/-! # Calls of hoisted functions

A function declared in the body of a component can be called by statements before it. An element in
such a function uses the variable of its handle when the function runs, and the variable is declared
by hooks, which do not stand behind the statement with the element. A caller in front of the function
may stand in front of the hooks as well: it does unless the hooks have to stand before it for another
reason, which is a statement that may leave the component (`initialized_before_calls_iff`). -/

namespace JsxTracking

namespace Tree

mutual

/-- The variable that an expression is, possibly in parentheses or with a type. -/
def calledVariable? : Tree → Option String
  | node .identifier fields => (Fields.get fields .value).text?
  | node .parenthesisExpression fields | node .tsAsExpression fields
  | node .tsSatisfiesExpression fields | node .tsNonNullExpression fields
  | node .tsTypeAssertion fields | node .tsConstAssertion fields => calledVariableInFields fields
  | _ => none

/-- The variable that is the expression among some parts. -/
def calledVariableInFields : List (Field × Tree) → Option String
  | [] => none
  | (.expression, expression) :: _ => calledVariable? expression
  | _ :: rest => calledVariableInFields rest

end

/-- The variable whose value a node calls, as a function, a constructor or a template tag. -/
def callee? (kind : Kind) (fields : Fields) : Option String :=
  match kind with
  | .callExpression | .optionalCall | .newExpression => (Fields.get fields .callee).calledVariable?
  | .taggedTemplateExpression => (Fields.get fields .tag).calledVariable?
  | _ => none

/-- Whether a part of a node runs when the node does. -/
def runsWith (kind : Kind) (fields : Fields) (field : Field) : Bool :=
  (match kind with
    | .other _ => true
    | _ => kind.layout.contains field) && !kind.defers fields field

mutual

/-- The variables around a tree that are called when the tree runs, nested functions left aside. -/
def calledNames : Tree → List String
  | node kind fields =>
    (callee? kind fields).toList ++ calledInFields kind fields (runsWith kind fields) fields
  | list items => calledInItems items
  | _ => []

/-- The variables that a list of trees calls. -/
def calledInItems : List Tree → List String
  | [] => []
  | item :: rest => calledNames item ++ calledInItems rest

/-- The variables that some parts of a node call, without those that the node binds for them. -/
def calledInFields (kind : Kind) (whole : Fields) (runs : Field → Bool) :
    List (Field × Tree) → List String
  | [] => []
  | (field, part) :: rest =>
    (if runs field then
      (calledNames part).filter fun name =>
        (scopesIn kind whole field).all fun scope => !scope.names.contains name
    else []) ++ calledInFields kind whole runs rest

end

/-- The name of the function that a statement declares. -/
def functionName? : Tree → Option String
  | node .functionDeclaration fields => (Fields.get fields .identifier).value?
  | _ => none

/-- The variables around a function that it calls when it is called itself. -/
def calledByBody : Tree → List String
  | node kind fields => calledInFields kind fields (kind.defers fields) fields
  | _ => []

/-- A directive calls nothing. -/
theorem calledNames_directive {statement : Tree} (wellFormed : statement.isWellFormed = true)
    (directive : statement.isDirective = true) : statement.calledNames = [] := by
  unfold isDirective at directive
  split at directive
  case h_2 => cases directive
  case h_1 fields =>
    obtain ⟨distinct, -⟩ := isWellFormed_node wellFormed
    have nothing {kind : Kind} {whole : Fields} {runs : Field → Bool} (parts : Fields)
        (silent : ∀ part ∈ parts, runs part.1 = true → part.2.calledNames = []) :
        calledInFields kind whole runs parts = [] := by
      induction parts with
      | nil => rfl
      | cons first rest ih =>
        rw [calledInFields, ih fun part member => silent part (List.mem_cons_of_mem _ member),
          List.append_nil]
        split
        case isTrue runs => rw [silent first List.mem_cons_self runs, List.filter_nil]
        case isFalse => rfl
    refine nothing fields fun ⟨field, part⟩ member runs => ?_
    obtain rfl : field = .expression :=
      List.mem_singleton.mp (List.contains_iff_mem.mp (Bool.and_eq_true_iff.mp runs).1)
    rw [Fields.get_of_mem distinct member] at directive
    cases part with
    | null | bool | num | str | list => cases directive
    | node kind inner =>
      obtain rfl : kind = .stringLiteral := Option.some.inj (of_decide_eq_true directive)
      exact nothing inner fun part _ runs => absurd runs Bool.false_ne_true

end Tree

/-- A name that is called in a body stands for the function that is declared at an index: the last one
of that name, as the others are replaced by it. -/
structure Hoists (statements : List Tree) (name : String) (index : Nat) : Prop where
  declares : statements[index]?.bind Tree.functionName? = some name
  last : ∀ later > index, statements[later]?.bind Tree.functionName? ≠ some name

/-- What calls the given names calls the function that is declared at an index of a body, be it through
other functions of the body. -/
inductive Calls (statements : List Tree) (index : Nat) : List String → Prop
  | directly {names : List String} {name : String} (called : name ∈ names)
      (hoists : Hoists statements name index) : Calls statements index names
  | through {names : List String} {name : String} {other : Nat} {declaration : Tree}
      (called : name ∈ names) (hoists : Hoists statements name other)
      (declared : statements[other]? = some declaration)
      (calls : Calls statements index declaration.calledByBody) : Calls statements index names

/-- All statements that call the function at an index of a body stand at or behind a position. -/
def CalledFrom (statements : List Tree) (index position : Nat) : Prop :=
  ∀ (caller : Nat) (statement : Tree), statements[caller]? = some statement →
    Calls statements index statement.calledNames → position ≤ caller

theorem not_calls_nil {statements : List Tree} {index : Nat} : ¬Calls statements index [] := by
  rintro (⟨called, -⟩ | ⟨called, -⟩) <;> exact List.not_mem_nil called

/-- The hooks of an element in a function come before all calls of the function if, and only if, every
caller stands behind the function or behind the first statement that may leave, or is that
statement. -/
theorem BodyScan.calledFrom_iff {statements : List Tree}
    (wellFormed : Tree.itemsAreWellFormed statements = true) (index : Nat) :
    CalledFrom statements index ((ofStatements statements).dynamicPosition index) ↔
      ∀ (caller : Nat) (statement : Tree), statements[caller]? = some statement →
        Calls statements index statement.calledNames → index ≤ caller ∨
          ∃ leaving ≤ caller, ∃ other : Tree, statements[leaving]? = some other ∧
            other.canExit = true := by
  constructor
  · intro behind caller statement found calls
    have reached := behind caller statement found calls
    unfold dynamicPosition at reached
    refine (Nat.lt_or_ge caller index).symm.imp_right fun early => ?_
    have exits : (ofStatements statements).firstExit ≤ caller := by omega
    obtain ⟨inside, -⟩ := List.getElem?_eq_some_iff.mp found
    have early : (ofStatements statements).firstExit < statements.length :=
      Nat.lt_of_le_of_lt exits inside
    exact ⟨_, exits, _, List.getElem?_eq_getElem early, List.findIdx_getElem⟩
  · intro behind caller statement found calls
    have reached : min (ofStatements statements).firstExit index ≤ caller := by
      rcases behind caller statement found calls with here | ⟨leaving, before, other, there, exits⟩
      · omega
      · have first : (ofStatements statements).firstExit ≤ leaving := by
          obtain ⟨inside, rfl⟩ := List.getElem?_eq_some_iff.mp there
          by_contra early
          exact absurd exits (Bool.eq_false_iff.mp (List.not_of_lt_findIdx (Nat.lt_of_not_le early)))
        omega
    -- A directive calls nothing.
    have behindDirectives : (ofStatements statements).prologue ≤ caller := by
      by_contra early
      have directive := isDirective_of_lt found (Nat.lt_of_not_le early)
      have formed := Tree.itemsAreWellFormed_iff.mp wellFormed statement (List.mem_of_getElem? found)
      rw [Tree.calledNames_directive formed directive] at calls
      exact not_calls_nil calls
    unfold dynamicPosition
    omega

namespace Woven

/-- Two trees of a list have a handle no more often than the list. -/
theorem sharers_add_le (handle : ElementHandle) {items : List Woven} {first second : Nat}
    {one other : Woven} (apart : first ≠ second) (found : items[first]? = some one)
    (alsoFound : items[second]? = some other) :
    sharers handle one.treatments + sharers handle other.treatments ≤
      sharers handle (treatmentsInItems items) := by
  induction items generalizing first second with
  | nil => cases found
  | cons item rest ih =>
    rw [treatmentsInItems, sharers_append]
    cases first with
    | zero =>
      obtain rfl := Option.some.inj found
      cases second with
      | zero => exact absurd rfl apart
      | succ second =>
        have among : other ∈ rest := List.mem_of_getElem? alsoFound
        exact Nat.add_le_add_left (sharers_le_items handle among) _
    | succ first =>
      cases second with
      | zero =>
        obtain rfl := Option.some.inj alsoFound
        have among : one ∈ rest := List.mem_of_getElem? found
        rw [Nat.add_comm]
        exact Nat.add_le_add_left (sharers_le_items handle among) _
      | succ second =>
        exact Nat.le_trans (ih (fun same => apart (congrArg _ same)) found alsoFound)
          (Nat.le_add_left _ _)

/-- The variable of a handle is spelled in no top-level statement but the one with its element. -/
theorem HostsAt.spelled_only (runtimeGlobal : String) {component : Woven} {treatment : Treatment}
    {index : Nat} {statement : Woven} {path : List Frame}
    (hosts : component.HostsAt treatment index statement path) {handle : ElementHandle}
    (given : treatment.handle? = some handle) (spares : Spares Kind.isVariable handle component)
    (unique : sharers handle component.treatments ≤ 1) {other : Nat} (apart : other ≠ index)
    {image : Tree} (found : (trees runtimeGlobal component.topLevel)[other]? = some image) :
    image.countNodes (Tree.spells Kind.isVariable handle.name) = 0 := by
  obtain ⟨kind, outer, scan, inner, parts, shape, block, listed⟩ :=
    exists_block_of_topLevel hosts.found
  rw [shape] at spares unique
  -- The top-level statements are spared, as the component is.
  have sparesBlock := spares.held (fun _ _ same => Woven.noConfusion same)
    (.inner (mem_of_lookup block))
  have sparesList := sparesBlock.held (fun _ _ same => Woven.noConfusion same)
    (.part (mem_of_lookup listed))
  have ordinary : ∀ item ∈ component.topLevel, item.isRemoved = false := by
    intro item member
    obtain ⟨_, _, decided, -⟩ := sparesList
    cases decided with
    | follows follows =>
      obtain ⟨place, found⟩ := List.getElem?_of_mem member
      exact (follows.2.getElem found).ordinary.1
  rw [getElem?_trees runtimeGlobal ordinary] at found
  obtain ⟨item, there, rfl⟩ := Option.map_eq_some_iff.mp found
  have member := List.mem_of_getElem? there
  -- The element with the handle is in the other statement.
  have here : 0 < sharers handle statement.treatments := by
    obtain ⟨tag, owned⟩ := hosts.owned
    rw [sharers_treatments]
    exact Nat.lt_of_lt_of_le (sharers_pos.mpr ⟨treatment, owned.mem_elements, given⟩)
      (Nat.le_add_right _ _)
  have listedFew := Nat.le_trans (sharers_le_parts handle (mem_of_lookup listed))
    (sharers_le_parts handle (mem_of_lookup block))
  have both := sharers_add_le handle apart there hosts.found
  have few : sharers handle item.treatments = 0 := by
    rw [treatments, sharers_append] at unique
    change sharers handle (treatmentsInItems component.topLevel) ≤ _ at listedFew
    omega
  have hosted := sharers_treatments handle item
  exact Spares.countNodes_tree runtimeGlobal (fun _ same => same) item
    (sparesList.held (fun _ _ same => Woven.noConfusion same) (.statement member))
    (fun _ => few) (by omega) (ordinary item member)

/-- The hooks of an element in a top-level statement stand in the body of its component, where the scan
of the body puts the hooks of that statement. -/
theorem HostsAt.hooksStand (runtimeGlobal : String) {component : Woven} {treatment : Treatment}
    {index : Nat} {statement : Woven} {path : List Frame}
    (hosts : component.HostsAt treatment index statement path) {enclosure : Enclosure} {step : Step}
    (decided : Decided enclosure step component) {allocation : Allocation} {position : Nat}
    {shared : Bool} (outcome : treatment.outcome = .instrumented allocation position shared)
    (dynamic : treatment.markers.dynamicExpressions ≠ []) :
    position = (BodyScan.ofStatements component.body.blockStatements).dynamicPosition index ∧
      HooksStand component.body.blockStatements (trees runtimeGlobal component.topLevel)
        (component.bodyStatements runtimeGlobal)
        (Hooks.ofElement allocation.handle runtimeGlobal treatment.markers) position := by
  obtain ⟨fields, -, inBody⟩ := hosts.hosts
  obtain ⟨found, tag, owned⟩ := hosts
  obtain ⟨kind, outer, scan, inner, parts, shape, block, listed⟩ := exists_block_of_topLevel found
  generalize component.topLevel = statements at found listed
  subst shape
  cases decided with
  | follows follows =>
    obtain ⟨scanned, visits⟩ := follows.topLevel block listed
    obtain ⟨spliced, body, becomes, holds, instrumented⟩ :=
      follows.statementsInstrumented runtimeGlobal block listed
    have whole : (function kind outer (some scan) inner).bodyStatements runtimeGlobal = body := by
      change ((((function kind outer (some scan) inner).tree runtimeGlobal).get .body).get
        .stmts).items = body
      rw [becomes, Tree.get, holds]
      rfl
    rw [follows.blockStatements block listed, whole]
    refine ⟨?_, (instrumented.hooks treatment inBody.mem_hosts allocation position shared outcome).1⟩
    obtain ⟨_, _, -, home, placed⟩ := owned.position (visits.getElem found) (fun _ => rfl) outcome
    obtain ⟨rfl, rfl⟩ := Prod.mk.inj (Option.some.inj (home rfl))
    rw [placed, if_neg dynamic, scanned, Nat.zero_add]

end Woven

/-- `function render() { return <div data-track-click={props.id} />; }` -/
def renderFunction : Tree :=
  .node .functionDeclaration
    [(.identifier, Code.reference "render"), (.params, .list []),
      (.body, Code.block [Code.returnValue (markedElement "div" "data-track-click"
        (Code.member (Code.reference "props") "id"))])]

/-- `function render() { … } return render();` -/
def calledLate : List Tree :=
  [renderFunction, Code.returnValue (Code.call (Code.reference "render") [])]

/-- `const item = render(); function render() { … } return item;` -/
def calledEarly : List Tree :=
  [Code.constant "item" (Code.call (Code.reference "render") []), renderFunction,
    Code.returnValue (Code.reference "item")]

end JsxTracking
