import JsxTracking.Proofs.Images

/-! # Where the hooks of a component stand

Hooks must run on every render, in the same order. They are put into the body of a component behind
its directives, so that no statement before them may leave the function and the statement that holds
their element comes after them. This holds in the instrumented module for every component whose body
is a block, whatever is instrumented inside of it (`component_hooks_placed`). -/

namespace JsxTracking

namespace BodyScan

/-- The number of directives at the start of some statements. -/
def prologueLength (statements : List Tree) : Nat :=
  (statements.takeWhile Tree.isDirective).length

/-- A statement before the end of the directives is one. -/
theorem isDirective_of_lt {statements : List Tree} {index : Nat} {statement : Tree}
    (found : statements[index]? = some statement) (early : index < prologueLength statements) :
    statement.isDirective = true := by
  have split : statements.takeWhile Tree.isDirective ++ statements.dropWhile Tree.isDirective =
      statements := List.takeWhile_append_dropWhile
  rw [← split, List.getElem?_append_left early] at found
  exact List.all_eq_true.mp List.all_takeWhile _ (List.mem_of_getElem? found)

/-- Before the places where hooks may go, only directives may leave the function. -/
theorem isDirective_or_not_exits {statements : List Tree} {index position : Nat} {statement : Tree}
    (found : statements[index]? = some statement)
    (bounded : position ≤ max (ofStatements statements).firstExit (prologueLength statements))
    (before : index < position) : statement.isDirective = true ∨ ¬statement.Exits := by
  rcases Nat.lt_or_ge index (prologueLength statements) with early | late
  · exact Or.inl (isDirective_of_lt found early)
  · refine Or.inr fun exits => ?_
    have first : index < statements.findIdx Tree.canExit := by
      have bound : index < max (statements.findIdx Tree.canExit) (prologueLength statements) :=
        Nat.lt_of_lt_of_le before bounded
      omega
    obtain ⟨inside, rfl⟩ := List.getElem?_eq_some_iff.mp found
    exact absurd exits.canExit (Bool.eq_false_iff.mp (List.not_of_lt_findIdx first))

/-- Hooks go behind the directives and not behind the first statement that may leave. -/
theorem position_bounds (scan : BodyScan) (markers : ElementMarkers) (statement : Nat) :
    let position := if markers.dynamicExpressions = [] then scan.literalPosition
      else scan.dynamicPosition statement
    scan.prologue ≤ position ∧ position ≤ max scan.firstExit scan.prologue := by
  simp only [literalPosition, dynamicPosition]
  split <;> omega

/-- Hooks do not go behind the statement that holds their element. -/
theorem position_le (scan : BodyScan) (markers : ElementMarkers) (statement : Nat) :
    (if markers.dynamicExpressions = [] then scan.literalPosition
      else scan.dynamicPosition statement) ≤ max statement scan.prologue := by
  simp only [literalPosition, dynamicPosition]
  split <;> omega

end BodyScan

/-- Hooks stand in an instrumented body at a position: behind exactly the statements before it. They
are behind the directives, and no statement before them may leave the function, be it rewritten or
not. -/
structure HooksStand (originals images body hooks : List Tree) (position : Nat) : Prop where
  split : ∃ before after earlier later, body = before ++ hooks ++ after ∧
    Interleaved (images.take position) earlier before ∧
    Interleaved (images.drop position) later after
  afterPrologue : BodyScan.prologueLength originals ≤ position
  unconditional : ∀ index < position, ∀ original image, originals[index]? = some original →
    images[index]? = some image →
    original.isDirective = true ∨ ¬original.Exits ∧ ¬image.Exits

/-- The top-level statements of a component are instrumented: the hooks of its elements are added and
nothing else, the directives stay in front, and all hooks stand where they run on every render and
before the statement that holds their element. -/
structure BodyInstrumented (runtimeGlobal : String) (originals images : List Tree)
    (elements : List Treatment) (elementsAt : Nat → List Treatment) (body : List Tree) : Prop where
  generated : ∃ groups : List HookGroup,
    groups.Perm (elements.filterMap (Treatment.group? runtimeGlobal)) ∧
      Interleaved images (groups.flatMap HookGroup.hooks) body
  prologue : images.take (BodyScan.prologueLength originals) <+: body
  directives : ∀ index < BodyScan.prologueLength originals, ∀ original,
    originals[index]? = some original → original.holdsElements = false →
    images[index]? = some original
  hooks : ∀ treatment ∈ elements, ∀ allocation position shared,
    treatment.outcome = .instrumented allocation position shared →
    HooksStand originals images body
        (Hooks.ofElement allocation.handle runtimeGlobal treatment.markers) position ∧
      ∀ index, treatment ∈ elementsAt index → ∀ original, originals[index]? = some original →
        original.isDirective = false → position ≤ index

namespace HookGroup

/-- Statements before all positions come first. -/
theorem merge_prefix {index count : Nat} {groups : List HookGroup}
    (later : ∀ group ∈ groups, index + count ≤ group.position) (statements : List Tree) :
    statements.take count <+: merge index groups statements := by
  induction statements generalizing index count groups with
  | nil =>
    rw [List.take_nil]
    exact List.nil_prefix
  | cons statement rest ih =>
    cases count with
    | zero => exact List.nil_prefix
    | succ count =>
      have noneDue : groups.takeWhile (fun group => group.position ≤ index) = [] := by
        cases groups with
        | nil => rfl
        | cons group _ =>
          have bound := later group List.mem_cons_self
          rw [List.takeWhile_cons, if_neg]
          simp only [decide_eq_true_eq]
          omega
      rw [merge_cons, noneDue, List.flatMap_nil, List.nil_append, List.take_succ_cons,
        List.prefix_cons_inj]
      refine ih fun group member => ?_
      have bound := later group ((List.dropWhile_sublist _).subset member)
      omega

/-- Statements before the positions of all groups come first. -/
theorem splice_prefix {count : Nat} {groups : List HookGroup}
    (later : ∀ group ∈ groups, count ≤ group.position) (statements : List Tree) :
    statements.take count <+: splice statements groups := by
  refine merge_prefix (fun group member => ?_) statements
  rw [Nat.zero_add]
  exact later group ((sorted_perm groups).mem_iff.mp member)

/-- Without hooks a body stays as it is. -/
theorem splice_nil (statements : List Tree) : splice statements [] = statements := by
  have merged (index : Nat) : merge index [] statements = statements := by
    induction statements generalizing index with
    | nil => rfl
    | cons statement rest ih =>
      rw [merge_cons]
      exact congrArg (statement :: ·) (ih (index + 1))
  exact merged 0

end HookGroup

/-- Splicing the hooks of some elements instruments a body if every position is one where hooks may
go. -/
theorem BodyInstrumented.of_splice {runtimeGlobal : String} {originals images : List Tree}
    {elements : List Treatment} {elementsAt : Nat → List Treatment}
    (placed : ∀ treatment ∈ elements, ∀ allocation position shared,
      treatment.outcome = .instrumented allocation position shared →
      BodyScan.prologueLength originals ≤ position ∧
        position ≤ max (BodyScan.ofStatements originals).firstExit
          (BodyScan.prologueLength originals))
    (inTime : ∀ treatment ∈ elements, ∀ allocation position shared,
      treatment.outcome = .instrumented allocation position shared → ∀ index,
      treatment ∈ elementsAt index → position ≤ max index (BodyScan.prologueLength originals))
    (stay : ∀ (index : Nat) (original image : Tree), originals[index]? = some original →
      images[index]? = some image → image.Exits → original.Exits)
    (plain : ∀ (index : Nat) (original : Tree), originals[index]? = some original →
      original.holdsElements = false → images[index]? = some original) :
    BodyInstrumented runtimeGlobal originals images elements elementsAt
      (HookGroup.splice images (elements.filterMap (Treatment.group? runtimeGlobal))) where
  generated := ⟨_, HookGroup.sorted_perm _, HookGroup.splice_interleaved images _⟩
  prologue := by
    refine HookGroup.splice_prefix (fun group member => ?_) images
    obtain ⟨treatment, found, grouped⟩ := List.mem_filterMap.mp member
    unfold Treatment.group? at grouped
    split at grouped
    case h_1 allocation position shared outcome =>
      rw [← Option.some.inj grouped]
      exact (placed treatment found allocation position shared outcome).1
    case h_2 => cases grouped
  directives := fun index _ original found holds => plain index original found holds
  hooks := by
    intro treatment member allocation position shared outcome
    obtain ⟨late, early⟩ := placed treatment member allocation position shared outcome
    have grouped : HookGroup.mk position
        (Hooks.ofElement allocation.handle runtimeGlobal treatment.markers) ∈
        elements.filterMap (Treatment.group? runtimeGlobal) := by
      refine List.mem_filterMap.mpr ⟨treatment, member, ?_⟩
      unfold Treatment.group?
      rw [outcome]
    refine ⟨⟨HookGroup.splice_split images grouped, late, ?_⟩, ?_⟩
    · intro index before original image found rewritten
      rcases BodyScan.isDirective_or_not_exits found early before with directive | stays
      · exact Or.inl directive
      · exact Or.inr ⟨stays, fun exits => stays (stay index original image found rewritten exits)⟩
    · intro index inside original found ordinary
      have behind : BodyScan.prologueLength originals ≤ index := by
        by_contra within
        have directive := BodyScan.isDirective_of_lt found (Nat.lt_of_not_le within)
        exact Bool.false_ne_true (ordinary.symm.trans directive)
      have bound := inTime treatment member allocation position shared outcome index inside
      omega

namespace Woven

variable (runtimeGlobal : String)

/-- The statements of a component are instrumented one by one. -/
theorem getElem?_trees {items : List Woven} (ordinary : ∀ item ∈ items, item.isRemoved = false)
    (index : Nat) : (trees runtimeGlobal items)[index]? = items[index]?.map (tree runtimeGlobal) := by
  induction items generalizing index with
  | nil => rfl
  | cons item rest ih =>
    rw [trees, if_neg (Bool.eq_false_iff.mp (ordinary item List.mem_cons_self))]
    cases index with
    | zero => rfl
    | succ index => exact ih (fun item member => ordinary item (List.mem_cons_of_mem _ member)) index

theorem getElem?_sources {items : List Woven}
    (ordinary : ∀ item ∈ items, item.isGenerated = false) (index : Nat) :
    (sources items)[index]? = items[index]?.map source := by
  induction items generalizing index with
  | nil => rfl
  | cons item rest ih =>
    rw [sources, if_neg (Bool.eq_false_iff.mp (ordinary item List.mem_cons_self))]
    cases index with
    | zero => rfl
    | succ index => exact ih (fun item member => ordinary item (List.mem_cons_of_mem _ member)) index

/-- The list of the top-level statements of a component, woven. -/
theorem Follows.exists_statements {enclosure : Enclosure} {woven : Woven}
    (follows : woven.Follows enclosure .statements) (listed : woven.source.isList = true) :
    ∃ items, woven = statements items ∧ FollowsStatements enclosure 0 items := by
  cases woven with
  | statements items => exact ⟨items, rfl, follows.2⟩
  | kept tree =>
    rcases follows with keep | scalar
    · cases keep
    · cases tree with
      | list | node => cases scalar
      | null | bool | num | str => cases listed
  | list items => exact follows.elim
  | node | function | opening => cases listed
  | removed | reference => exact follows.elim

/-- The block that is the body of a component, woven. -/
theorem Follows.componentBlock {enclosure : Enclosure} {body : Woven} {fields : Fields}
    {originals : List Tree} (follows : body.Follows enclosure .componentBody)
    (block : body.source = .node .blockStatement fields)
    (listed : Fields.get fields .stmts = .list originals) :
    ∃ parts statements, body = .node .blockStatement parts ∧
      parts.lookup .stmts = some (.statements statements) ∧ sources statements = originals ∧
      FollowsStatements enclosure 0 statements := by
  cases body with
  | kept tree =>
    obtain rfl : tree = .node .blockStatement fields := block
    rcases follows with keep | scalar
    · cases keep
    · exact absurd scalar Bool.false_ne_true
  | list items | statements items => cases block
  | function kind outer scan? inner =>
    injection block with same
    rw [same] at follows
    exact absurd follows.2.1 Bool.false_ne_true
  | opening treatment parts =>
    injection block with same
    cases same
  | removed attr | reference attachment replaced scan? => exact follows.elim
  | node kind parts =>
    injection block with same sameParts
    subst same sameParts
    obtain ⟨-, -, -, within⟩ := follows
    unfold Fields.get at listed
    rw [lookup_sourcesInParts] at listed
    cases found : parts.lookup .stmts with
    | none =>
      rw [found] at listed
      cases listed
    | some item =>
      rw [found] at listed
      have held := within.member (mem_of_lookup found)
      have isList : item.source.isList = true := congrArg Tree.isList listed
      obtain ⟨statements, rfl, visited⟩ := Follows.exists_statements held isList
      exact ⟨parts, statements, rfl, found, Tree.list.inj listed, visited⟩

end Woven

/-- Hooks are put among the statements of a block. -/
theorem HookGroup.spliceBody_block (groups : List HookGroup) {parts : Fields}
    {statements : List Tree} (listed : Fields.get parts .stmts = .list statements) :
    ∃ spliced, spliceBody groups (.node .blockStatement parts) = .node .blockStatement spliced ∧
      Fields.get spliced .stmts = .list (splice statements groups) := by
  by_cases empty : groups = []
  · refine ⟨parts, ?_, ?_⟩
    · rw [empty]
      rfl
    · rw [empty, splice_nil]
      exact listed
  · refine ⟨_, spliceBody_node empty parts, ?_⟩
    unfold Fields.get at listed ⊢
    rw [lookup_map_parts]
    cases found : parts.lookup .stmts with
    | none =>
      rw [found] at listed
      cases listed
    | some part =>
      rw [found] at listed
      obtain rfl : part = .list statements := listed
      rfl

namespace Woven

variable (runtimeGlobal : String)

/-- The elements in the top-level statement of a component at an index. -/
def elementsAt (statements : List Woven) (index : Nat) : List Treatment :=
  (statements[index]?.map elements).getD []

/-- The body of a function lies within it. -/
theorem Follows.outer_body {kind : Kind} {outer : List (Field × Woven)} {scan? : Option BodyScan}
    {inner : List (Field × Woven)} {enclosure : Enclosure} {step : Step}
    (follows : (function kind outer scan? inner).Follows enclosure step) :
    outer.lookup .body = none := by
  obtain ⟨-, -, keys, -⟩ := follows
  refine List.lookup_eq_none_iff.mpr fun part member => ?_
  rw [keys part member]
  rfl

/-- The top-level statements of a component are what its scan was made from, and they are visited in
it. -/
theorem Follows.topLevel {kind : Kind} {outer : List (Field × Woven)} {scan : BodyScan}
    {inner : List (Field × Woven)} {enclosure : Enclosure} {step : Step}
    (follows : (function kind outer (some scan) inner).Follows enclosure step)
    {parts : List (Field × Woven)} {items : List Woven}
    (block : inner.lookup .body = some (.node .blockStatement parts))
    (listed : parts.lookup .stmts = some (.statements items)) :
    scan = .ofStatements (sources items) ∧ FollowsStatements (.component scan 0 false) 0 items := by
  obtain ⟨-, -, -, -, scanned, within⟩ := follows
  refine ⟨?_, ((within.member (mem_of_lookup block)).2.2.2.member (mem_of_lookup listed)).2⟩
  have body : Fields.get (sourcesInParts parts) .stmts = .list (sources items) := by
    rw [Fields.get, lookup_sourcesInParts, listed]
    rfl
  rw [scanned scan rfl, Fields.get, lookup_sourcesInParts, block]
  change BodyScan.ofStatements (Fields.get (sourcesInParts parts) .stmts).items = _
  rw [body]
  rfl

/-- What becomes of the top-level statements of a component. -/
theorem Follows.statementsInstrumented {kind : Kind} {outer : List (Field × Woven)} {scan : BodyScan}
    {inner : List (Field × Woven)} {enclosure : Enclosure} {step : Step}
    (follows : (function kind outer (some scan) inner).Follows enclosure step)
    {parts : List (Field × Woven)} {items : List Woven}
    (block : inner.lookup .body = some (.node .blockStatement parts))
    (listed : parts.lookup .stmts = some (.statements items)) :
    ∃ spliced body, ((function kind outer (some scan) inner).tree runtimeGlobal).get .body =
        .node .blockStatement spliced ∧
      Fields.get spliced .stmts = .list body ∧
      BodyInstrumented runtimeGlobal (sources items) (trees runtimeGlobal items)
        (elementsInParts inner) (elementsAt items) body := by
  have outside := follows.outer_body
  obtain ⟨scan_eq, visits⟩ := follows.topLevel block listed
  obtain ⟨-, -, -, -, -, within⟩ := follows
  have prologue_eq : BodyScan.prologueLength (sources items) = scan.prologue := by
    rw [scan_eq]
    rfl
  -- The hooks of its elements are spliced into the statements.
  have rewritten : Fields.get (treesInParts runtimeGlobal parts) .stmts =
      .list (trees runtimeGlobal items) := by
    rw [Fields.get, lookup_treesInParts, listed]
    rfl
  obtain ⟨spliced, becomes, holds⟩ := HookGroup.spliceBody_block
    (groups runtimeGlobal (some scan) (elementsInParts inner)) rewritten
  refine ⟨spliced, _, ?_, holds, ?_⟩
  · change ((treesInParts runtimeGlobal outer ++ Fields.spliceBody _ _).lookup .body).getD .null = _
    rw [List.lookup_append, lookup_treesInParts, outside, Fields.lookup_spliceBody,
      lookup_treesInParts, block]
    exact becomes
  have visited : ∀ item ∈ items, ∃ inner, item.Follows inner .visit := by
    intro item member
    obtain ⟨index, at_⟩ := List.getElem?_of_mem member
    exact ⟨_, visits.getElem at_⟩
  have images := getElem?_trees runtimeGlobal fun item member =>
    ((visited item member).choose_spec).ordinary.1
  have origins := getElem?_sources fun item member =>
    ((visited item member).choose_spec).ordinary.2
  refine .of_splice ?_ ?_ ?_ ?_
  · intro treatment member allocation position shared outcome
    obtain ⟨field, item, held, inside, path, owned⟩ :=
      exists_owned_of_mem_elementsInParts inner member
    obtain ⟨found, statement, home, -, rfl⟩ :=
      owned.position (within.member held) (fun narrow => absurd narrow Bool.false_ne_true) outcome
    obtain rfl : scan = found := Option.some.inj home
    rw [prologue_eq, ← scan_eq]
    exact scan.position_bounds treatment.markers statement
  · intro treatment member allocation position shared outcome index inside
    unfold elementsAt at inside
    cases at_ : items[index]? with
    | none =>
      rw [at_] at inside
      exact absurd inside List.not_mem_nil
    | some item =>
      rw [at_] at inside
      obtain ⟨inside, path, owned⟩ := exists_owned_of_mem_elements item inside
      obtain ⟨found, statement, -, home, rfl⟩ :=
        owned.position (visits.getElem at_) (fun _ => rfl) outcome
      obtain ⟨rfl, rfl⟩ := Prod.mk.inj (Option.some.inj (home rfl))
      rw [prologue_eq, Nat.zero_add]
      exact scan.position_le treatment.markers index
  · intro index original image was is exits
    rw [origins] at was
    rw [images] at is
    obtain ⟨item, at_, rfl⟩ := Option.map_eq_some_iff.mp was
    rw [at_] at is
    exact exits_source runtimeGlobal exits (Option.some.inj is).symm (.follows (visits.getElem at_))
  · intro index original was plain
    rw [origins] at was
    obtain ⟨item, at_, rfl⟩ := Option.map_eq_some_iff.mp was
    rw [images, at_]
    exact congrArg some (tree_eq_source runtimeGlobal (fun _ => Step.noConfusion) item
      (visits.getElem at_) plain).1

/-- What becomes of a component whose body is a block. -/
theorem Follows.bodyInstrumented {kind : Kind} {outer : List (Field × Woven)} {scan : BodyScan}
    {inner : List (Field × Woven)} {enclosure : Enclosure} {step : Step}
    (follows : (function kind outer (some scan) inner).Follows enclosure step) {fields : Fields}
    {originals : List Tree}
    (block : (function kind outer (some scan) inner).source.get .body = .node .blockStatement fields)
    (listed : Fields.get fields .stmts = .list originals) :
    ∃ statements spliced body, sources statements = originals ∧
      ((function kind outer (some scan) inner).tree runtimeGlobal).get .body =
        .node .blockStatement spliced ∧
      Fields.get spliced .stmts = .list body ∧
      BodyInstrumented runtimeGlobal originals (trees runtimeGlobal statements)
        (elementsInParts inner) (elementsAt statements) body := by
  obtain ⟨-, -, -, -, -, within⟩ := id follows
  -- The body is woven from a block.
  obtain ⟨body, found, source⟩ : ∃ body, inner.lookup .body = some body ∧
      body.source = .node .blockStatement fields := by
    change ((sourcesInParts outer ++ sourcesInParts inner).lookup .body).getD .null = _ at block
    rw [List.lookup_append, lookup_sourcesInParts, lookup_sourcesInParts, follows.outer_body,
      Option.map_none, Option.none_or] at block
    cases found : inner.lookup .body with
    | none =>
      rw [found] at block
      cases block
    | some body =>
      rw [found] at block
      exact ⟨body, rfl, block⟩
  obtain ⟨parts, statements, rfl, foundStatements, rfl, -⟩ :=
    (within.member (mem_of_lookup found)).componentBlock source listed
  obtain ⟨spliced, body, becomes, holds, instrumented⟩ :=
    follows.statementsInstrumented runtimeGlobal found foundStatements
  exact ⟨statements, spliced, body, rfl, becomes, holds, instrumented⟩

end Woven

namespace Imports

theorem mem_insertAt {items : List Tree} {item : Tree} (member : item ∈ items) (index : Nat)
    (added : Tree) : item ∈ insertAt items index added := by
  rw [← List.take_append_drop index items] at member
  rcases List.mem_append.mp member with before | after
  · exact List.mem_append_left _ before
  · exact List.mem_append_right _ (List.mem_cons_of_mem _ after)

/-- Imports are added to what a module holds. -/
theorem mem_inject {items : List Tree} {item : Tree} (member : item ∈ items) (url : String) :
    item ∈ (inject url items).1 := by
  have loaded : item ∈ (withRuntime url items).1 := by
    unfold withRuntime
    split
    · exact member
    · exact mem_insertAt member _ _
  unfold inject
  simp only
  split
  · exact loaded
  · exact mem_insertAt loaded _ _

end Imports

/-- What is woven in a module stands, instrumented, in the instrumented module. -/
theorem mem_instrumentModule {options : Options} {file : String} {source? : Option String}
    {items : List Tree} {woven : Woven} (member : woven ∈ weaveModule source? items) :
    woven.tree options.runtimeGlobal ∈ (instrumentModule options file source? items).items := by
  have follows := weaveModule_follows source? items
  have kept : woven.tree options.runtimeGlobal ∈
      Woven.trees options.runtimeGlobal (weaveModule source? items) :=
    (Woven.mem_trees _).mpr ⟨woven, member, (follows.member member).ordinary.1, rfl⟩
  unfold instrumentModule
  simp only
  split
  · exact kept
  · exact Imports.mem_inject kept _

/-- A transformed module is the module itself, if it has no markers, and otherwise the instrumented
one. -/
theorem transformModule_items (options : Options) (registry : Registry) (file : String)
    (source? : Option String) (items : List Tree) :
    let output := (transformModule options registry file source? items).1
    (output.instrumented = false → output.items = items) ∧
      (output.instrumented = true →
        output.items = (instrumentModule options file source? items).items) := by
  unfold transformModule
  split
  · exact ⟨fun unmarked => absurd unmarked.symm Bool.false_ne_true, fun _ => rfl⟩
  · exact ⟨fun _ => rfl, fun marked => absurd marked Bool.false_ne_true⟩

open Woven in
/-- Every component with a block for its body has, in the transformed module, its hooks where they
run on every render: the module is unchanged, or the component stands in it with its body
instrumented. -/
theorem component_hooks_placed (options : Options) (registry : Registry) (file : String)
    (source? : Option String) (items : List Tree) {kind : Kind} {outer : List (Field × Woven)}
    {scan : BodyScan} {inner : List (Field × Woven)} {fields : Fields} {originals : List Tree}
    (within : ∃ item ∈ weaveModule source? items,
      (function kind outer (some scan) inner).Within item)
    (block : (function kind outer (some scan) inner).source.get .body = .node .blockStatement fields)
    (listed : Fields.get fields .stmts = .list originals) :
    let output := (transformModule options registry file source? items).1
    let component := (function kind outer (some scan) inner).tree options.runtimeGlobal
    (output.instrumented = false → output.items = items) ∧
      (output.instrumented = true →
        (∃ item ∈ output.items, component.Occurs item) ∧
        ∃ statements spliced body, sources statements = originals ∧
          component.get .body = .node .blockStatement spliced ∧
          Fields.get spliced .stmts = .list body ∧
          BodyInstrumented options.runtimeGlobal originals
            (trees options.runtimeGlobal statements) (elementsInParts inner)
            (elementsAt statements) body) := by
  intro output component
  obtain ⟨unmarked, marked⟩ := transformModule_items options registry file source? items
  refine ⟨unmarked, fun instrumented => ?_⟩
  obtain ⟨item, member, inside⟩ := within
  obtain ⟨after, weaves⟩ := weaveModule_weaves source? items
  have visited : Decided .outside .visit item := .follows (weaves.follows.member member)
  obtain ⟨enclosure, step, decided⟩ := inside.decided visited
  cases decided with
  | follows follows =>
    constructor
    · refine ⟨item.tree options.runtimeGlobal, ?_,
        inside.occurs _ rfl (Kind.ne_block_of_isFunction follows.2.1) rfl visited⟩
      rw [marked instrumented]
      exact mem_instrumentModule member
    · exact follows.bodyInstrumented options.runtimeGlobal block listed

/-- `<name marker={value} />` -/
def markedElement (name marker : String) (value : Tree) : Tree :=
  .node .jsxElement
    [(.opening, .node .jsxOpeningElement
      [(.name, Code.reference name), (.attributes, .list [Code.jsxAttribute marker value])])]

/-- `'use strict'; return <div data-track-click={"buy"} />;` -/
def trackedStatements : List Tree :=
  [Code.perform (Code.string "use strict"),
    Code.returnValue (markedElement "div" "data-track-click" (Code.string "buy"))]

/-- A component with the given statements. -/
def pageOf (statements : List Tree) : Tree :=
  .node .functionDeclaration
    [(.identifier, Code.reference "Page"), (.params, .list []), (.body, Code.block statements)]

theorem component_hooks_placed_page :
    ∃ kind outer scan inner,
      weaveModule none [pageOf trackedStatements] = [Woven.function kind outer (some scan) inner] ∧
      (let output := (transformModule {} {} "page.jsx" none [pageOf trackedStatements]).1
        let component := (Woven.function kind outer (some scan) inner).tree "tracking"
        output.instrumented = true ∧ (∃ item ∈ output.items, component.Occurs item) ∧
        ∃ statements spliced body, Woven.sources statements = trackedStatements ∧
          component.get .body = .node .blockStatement spliced ∧
          Fields.get spliced .stmts = .list body ∧
          BodyInstrumented "tracking" trackedStatements (Woven.trees "tracking" statements)
            (Woven.elementsInParts inner) (Woven.elementsAt statements) body) := by
  refine ⟨_, _, _, _, rfl, rfl, ?_⟩
  exact (component_hooks_placed {} {} "page.jsx" none [pageOf trackedStatements]
    ⟨_, List.mem_singleton.mpr rfl, .self⟩ rfl rfl).2 rfl

end JsxTracking
