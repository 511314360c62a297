import JsxTracking.Proofs.Carried
import JsxTracking.Proofs.NameCounts

/-! # Where the variable of a handle is used

Every element has its hooks in one component (`Woven.treatments_perm`). No node of the module is
spelled like the variable of its handle, so the variable occurs in the generated reference of the
element and in its hooks only. An instrumented tree without them does not spell it
(`Woven.Spares.countNodes_tree`), and of a tree that holds the component which hosts the element, only
that component does (`Woven.Within.countNodes_tree`). -/

namespace JsxTracking

namespace Woven

/-- The elements whose hooks go into the component itself. -/
def hosts : Woven → List Treatment
  | function _ _ (some _) inner => elementsInParts inner
  | reference _ replaced (some _) => elementsInItems replaced
  | _ => []

mutual

/-- The elements whose hooks go into components in a woven tree. -/
def hosted : Woven → List Treatment
  | kept _ | removed _ => []
  | list items | statements items => hostedInItems items
  | node _ parts | opening _ parts => hostedInParts parts
  | function _ outer none inner => hostedInParts outer ++ hostedInParts inner
  | function _ outer (some _) inner =>
    hostedInParts outer ++ (elementsInParts inner ++ hostedInParts inner)
  | reference _ replaced none => hostedInItems replaced
  | reference _ replaced (some _) => elementsInItems replaced ++ hostedInItems replaced

/-- The elements whose hooks go into components in a list of woven trees. -/
def hostedInItems : List Woven → List Treatment
  | [] => []
  | item :: rest => hosted item ++ hostedInItems rest

/-- The elements whose hooks go into components in the parts of a woven node. -/
def hostedInParts : List (Field × Woven) → List Treatment
  | [] => []
  | (_, part) :: rest => hosted part ++ hostedInParts rest

end

mutual

/-- Every element has its hooks in a component around the tree or in one inside of it. -/
theorem treatments_perm : ∀ woven : Woven,
    woven.treatments.Perm (woven.elements ++ woven.hosted)
  | kept _ | removed _ => .nil
  | list items | statements items => treatmentsInItems_perm items
  | node _ parts => treatmentsInParts_perm parts
  | opening _ parts => (treatmentsInParts_perm parts).cons _
  | function _ outer none inner => by
    refine ((treatmentsInParts_perm outer).append (treatmentsInParts_perm inner)).trans ?_
    simp only [elements, hosted, List.append_assoc]
    exact (List.perm_append_comm_assoc ..).append_left _
  | function _ outer (some _) inner => by
    refine ((treatmentsInParts_perm outer).append (treatmentsInParts_perm inner)).trans ?_
    simp only [elements, hosted, List.append_assoc]
    exact .refl _
  | reference _ replaced none => treatmentsInItems_perm replaced
  | reference _ replaced (some _) => treatmentsInItems_perm replaced

/-- `Woven.treatments_perm` for a list of woven trees. -/
theorem treatmentsInItems_perm : ∀ items : List Woven,
    (treatmentsInItems items).Perm (elementsInItems items ++ hostedInItems items)
  | [] => .nil
  | item :: rest => by
    refine ((treatments_perm item).append (treatmentsInItems_perm rest)).trans ?_
    simp only [elementsInItems, hostedInItems, List.append_assoc]
    exact (List.perm_append_comm_assoc ..).append_left _

/-- `Woven.treatments_perm` for the parts of a node. -/
theorem treatmentsInParts_perm : ∀ parts : List (Field × Woven),
    (treatmentsInParts parts).Perm (elementsInParts parts ++ hostedInParts parts)
  | [] => .nil
  | (_, part) :: rest => by
    refine ((treatments_perm part).append (treatmentsInParts_perm rest)).trans ?_
    simp only [elementsInParts, hostedInParts, List.append_assoc]
    exact (List.perm_append_comm_assoc ..).append_left _

end

theorem treatmentsInParts_append (first second : List (Field × Woven)) :
    treatmentsInParts (first ++ second) = treatmentsInParts first ++ treatmentsInParts second := by
  induction first with
  | nil => rfl
  | cons part rest ih => simp only [List.cons_append, treatmentsInParts, ih, List.append_assoc]

/-- How many elements have a handle. -/
def sharers (handle : ElementHandle) (treatments : List Treatment) : Nat :=
  (handles treatments).count handle

theorem sharers_append (handle : ElementHandle) (first second : List Treatment) :
    sharers handle (first ++ second) = sharers handle first + sharers handle second := by
  rw [sharers, handles, List.filterMap_append, List.count_append]
  rfl

/-- The element that has a handle has its hooks in one component. -/
theorem sharers_treatments (handle : ElementHandle) (woven : Woven) :
    sharers handle woven.treatments =
      sharers handle woven.elements + sharers handle woven.hosted := by
  rw [← sharers_append, sharers, sharers]
  exact ((treatments_perm woven).filterMap _).count_eq handle

theorem sharers_treatmentsInItems (handle : ElementHandle) (items : List Woven) :
    sharers handle (treatmentsInItems items) =
      sharers handle (elementsInItems items) + sharers handle (hostedInItems items) :=
  sharers_treatments handle (list items)

theorem sharers_treatmentsInParts (handle : ElementHandle) (parts : List (Field × Woven)) :
    sharers handle (treatmentsInParts parts) =
      sharers handle (elementsInParts parts) + sharers handle (hostedInParts parts) :=
  sharers_treatments handle (node .position parts)

theorem sharers_pos {handle : ElementHandle} {treatments : List Treatment} :
    0 < sharers handle treatments ↔ ∃ treatment ∈ treatments, treatment.handle? = some handle := by
  rw [sharers, List.count_pos_iff, handles, List.mem_filterMap]

theorem ne_of_sharers_eq_zero {handle : ElementHandle} {treatments : List Treatment}
    (none : sharers handle treatments = 0) : ∀ treatment ∈ treatments,
      treatment.handle? ≠ some handle := by
  intro treatment member same
  have some := sharers_pos.mpr ⟨treatment, member, same⟩
  omega

theorem sharers_le_items (handle : ElementHandle) {items : List Woven} {item : Woven}
    (member : item ∈ items) :
    sharers handle item.treatments ≤ sharers handle (treatmentsInItems items) := by
  obtain ⟨before, after, rfl⟩ := List.append_of_mem member
  rw [treatmentsInItems_append, treatmentsInItems, sharers_append, sharers_append]
  omega

theorem sharers_le_parts (handle : ElementHandle) {parts : List (Field × Woven)} {field : Field}
    {item : Woven} (member : (field, item) ∈ parts) :
    sharers handle item.treatments ≤ sharers handle (treatmentsInParts parts) := by
  obtain ⟨before, after, rfl⟩ := List.append_of_mem member
  rw [treatmentsInParts_append, treatmentsInParts, sharers_append, sharers_append]
  omega

/-- No more elements have a handle in a held tree than in the whole. -/
theorem Holds.sharers_le {whole item : Woven} {frame? : Option Frame} {scan? : Option BodyScan}
    (held : whole.Holds frame? scan? item) (handle : ElementHandle) :
    sharers handle item.treatments ≤ sharers handle whole.treatments := by
  cases held with
  | item member | statement member | replaced member => exact sharers_le_items handle member
  | part member => exact sharers_le_parts handle member
  | outer member =>
    have bound := sharers_le_parts handle member
    rw [treatments, sharers_append]
    omega
  | inner member =>
    have bound := sharers_le_parts handle member
    rw [treatments, sharers_append]
    omega
  | @opening treatment parts field _ member =>
    have bound := sharers_le_parts handle member
    have split : sharers handle (treatment :: treatmentsInParts parts) =
        sharers handle [treatment] + sharers handle (treatmentsInParts parts) :=
      sharers_append handle [treatment] _
    rw [treatments, split]
    omega

/-- No more elements have a handle in a part of a tree than in the whole. -/
theorem Within.sharers_le {part whole : Woven} (within : part.Within whole)
    (handle : ElementHandle) :
    sharers handle part.treatments ≤ sharers handle whole.treatments := by
  induction within with
  | self => exact Nat.le_refl _
  | step held _ ih => exact Nat.le_trans ih (held.sharers_le handle)

theorem hosted_le_items (handle : ElementHandle) {items : List Woven} {item : Woven}
    (member : item ∈ items) : sharers handle item.hosted ≤ sharers handle (hostedInItems items) := by
  induction items with
  | nil => exact absurd member List.not_mem_nil
  | cons first rest ih =>
    rw [hostedInItems, sharers_append]
    rcases List.mem_cons.mp member with rfl | later
    · exact Nat.le_add_right _ _
    · exact Nat.le_trans (ih later) (Nat.le_add_left _ _)

theorem hosted_le_parts (handle : ElementHandle) {parts : List (Field × Woven)} {field : Field}
    {item : Woven} (member : (field, item) ∈ parts) :
    sharers handle item.hosted ≤ sharers handle (hostedInParts parts) := by
  induction parts with
  | nil => exact absurd member List.not_mem_nil
  | cons first rest ih =>
    rw [hostedInParts, sharers_append]
    rcases List.mem_cons.mp member with rfl | later
    · exact Nat.le_add_right _ _
    · exact Nat.le_trans (ih later) (Nat.le_add_left _ _)

/-- What a component hosts is hosted in every tree in which the component stands. -/
theorem Within.hosted_le {component whole : Woven} (within : component.Within whole)
    (handle : ElementHandle) : sharers handle component.hosts ≤ sharers handle whole.hosted := by
  induction within with
  | self =>
    cases component with
    | function kind outer scan? inner =>
      cases scan? with
      | none => exact Nat.zero_le _
      | some scan =>
        simp only [hosts, hosted, sharers_append]
        omega
    | reference attachment replaced scan? =>
      cases scan? with
      | none => exact Nat.zero_le _
      | some scan =>
        simp only [hosts, hosted, sharers_append]
        omega
    | kept | list | statements | node | opening | removed => exact Nat.zero_le _
  | @step whole item frame? scan? held within ih =>
    refine Nat.le_trans ih ?_
    cases held with
    | item member | statement member => exact hosted_le_items handle member
    | part member | opening member => exact hosted_le_parts handle member
    | @outer _ _ entered? _ _ _ member =>
      have bound := hosted_le_parts handle member
      cases entered? <;> simp only [hosted, sharers_append] <;> omega
    | inner member =>
      have bound := hosted_le_parts handle member
      cases scan? <;> simp only [hosted, sharers_append] <;> omega
    | replaced member =>
      have bound := hosted_le_items handle member
      cases scan? <;> simp only [hosted, sharers_append] <;> omega

end Woven

/-- A well-formed tree in which no counted identifier has a name. -/
def Tree.Lacks (counted : Kind → Bool) (name : String) (tree : Tree) : Prop :=
  tree.isWellFormed = true ∧ tree.countNodes (spells counted name) = 0

namespace Tree

theorem hereditary_lacks (counted : Kind → Bool) (name : String) :
    Hereditary (Lacks counted name) :=
  hereditary_isWellFormed.without (spells counted name)

end Tree

namespace Woven

open JsxTracking.Tree

/-- A handle may be used where counted identifiers are, unless it is the given one. -/
def Elsewhere (counted : Kind → Bool) (handle own : ElementHandle) : Prop :=
  counted .identifier = true → own ≠ handle

section

variable (runtimeGlobal : String) {counted : Kind → Bool}
  (names : ∀ kind, counted kind = true → kind.isVariable = true) {handle : ElementHandle}
include names

/-- The hooks of some elements declare the variable of a handle as often as one of them has it. -/
theorem countNodesInItems_hooks {elements : List Treatment}
    (clean : ∀ treatment ∈ elements, ∀ expression ∈ treatment.markers.dynamicExpressions,
      expression.countNodes (spells counted handle.name) = 0)
    (elsewhere : counted .identifier = true → sharers handle elements = 0) :
    countNodesInItems (spells counted handle.name)
        ((elements.filterMap (Treatment.group? runtimeGlobal)).flatMap HookGroup.hooks) =
      (counted .binding).toNat * sharers handle elements := by
  induction elements with
  | nil => rfl
  | cons treatment rest ih =>
    have split : sharers handle (treatment :: rest) =
        sharers handle [treatment] + sharers handle rest := sharers_append handle [treatment] rest
    have later := ih (fun treatment member => clean treatment (List.mem_cons_of_mem _ member))
      fun uses => by
        have none := elsewhere uses
        omega
    rw [split, Nat.mul_add, ← later]
    unfold sharers handles
    cases outcome : treatment.outcome with
    | plain | refused reason =>
      simp [Treatment.group?, Treatment.handle?, Treatment.allocation?, outcome]
    | instrumented allocation position shared =>
      have own : treatment.handle? = some allocation.handle := by
        simp [Treatment.handle?, Treatment.allocation?, outcome]
      have apart : counted .identifier = true → allocation.handle ≠ handle := by
        rintro uses rfl
        have none := elsewhere uses
        have here := sharers_pos.mpr ⟨treatment, List.mem_singleton.mpr rfl, own⟩
        omega
      have hooks := Hooks.countNodesInItems_ofElement names apart runtimeGlobal
        (clean treatment List.mem_cons_self)
      have grouped : treatment.group? runtimeGlobal = some ⟨position,
          Hooks.ofElement allocation.handle runtimeGlobal treatment.markers⟩ := by
        simp [Treatment.group?, outcome]
      rw [List.filterMap_cons_some grouped, List.flatMap_cons, countNodesInItems_append, hooks,
        List.filterMap_cons_some own, List.filterMap_nil, List.count_singleton]
      congr 1
      by_cases same : allocation.handle = handle
      · simp [same]
      · simp [same]

/-- The hooks put into a function do not spell the variable of a handle that none of its elements
has. -/
theorem countNodesInItems_groups (scan? : Option BodyScan) {elements : List Treatment}
    (clean : ∀ treatment ∈ elements, ∀ expression ∈ treatment.markers.dynamicExpressions,
      expression.countNodes (spells counted handle.name) = 0)
    (absent : scan?.isSome = true → sharers handle elements = 0) :
    countNodesInItems (spells counted handle.name)
      ((groups runtimeGlobal scan? elements).flatMap HookGroup.hooks) = 0 := by
  cases scan? with
  | none => rfl
  | some scan =>
    rw [groups, countNodesInItems_hooks runtimeGlobal names clean fun _ => absent rfl, absent rfl,
      Nat.mul_zero]

/-- The module spells the variable of a handle nowhere in a tree, and its references are those of
other handles, as far as they are counted. -/
def Spares (counted : Kind → Bool) (handle : ElementHandle) (woven : Woven) : Prop :=
  ∃ enclosure step, Decided enclosure step woven ∧
    Carries (Lacks counted handle.name) (Elsewhere counted handle) step woven

omit names in
/-- What a spared tree holds is spared, if the tree is not the tag of the element with the handle. -/
theorem Spares.held {whole item : Woven} {frame? : Option Frame} {scan? : Option BodyScan}
    (spares : Spares counted handle whole)
    (elsewhere : ∀ treatment parts, whole = opening treatment parts →
      counted .identifier = true → treatment.handle? ≠ some handle)
    (held : whole.Holds frame? scan? item) : Spares counted handle item := by
  obtain ⟨enclosure, step, decided, carries⟩ := spares
  refine decided.held_carries (hereditary_lacks counted handle.name) carries ?_ held
  rintro treatment parts same own given uses rfl
  exact elsewhere treatment parts same uses given

omit names in
/-- `Woven.Spares.held` for the parts of a node. -/
theorem Spares.part {whole item : Woven} {frame : Frame} {scan? : Option BodyScan}
    (spares : Spares counted handle whole) (held : whole.Holds (some frame) scan? item)
    (elsewhere : ∀ treatment parts, whole = opening treatment parts →
      counted .identifier = true → treatment.handle? ≠ some handle) :
    Spares counted handle item ∧ item.isRemoved = false := by
  obtain ⟨enclosure, step, decided, -⟩ := id spares
  exact ⟨spares.held elsewhere held, (decided.part_ordinary held).1⟩

omit names in
/-- A spared attribute that is generated is for another handle, and spreads nothing that spells the
variable. -/
theorem Spares.attachment {attachment : Attachment} {replaced : List Woven}
    {scan? : Option BodyScan} (spares : Spares counted handle (reference attachment replaced scan?)) :
    replaced.length ≤ 1 ∧ Elsewhere counted handle attachment.handle ∧
      countNodesInItems (spells counted handle.name) attachment.spreads = 0 := by
  obtain ⟨enclosure, step, decided, carries⟩ := spares
  cases decided with
  | follows follows => exact follows.elim
  | reference alone scanned follows =>
    obtain ⟨⟨elsewhere, spreads⟩, -⟩ := carries
    exact ⟨alone, elsewhere, countNodesInItems_eq_zero _ fun spread member => (spreads _ member).2⟩

omit names in
/-- What the markers in a spared tree evaluate does not spell the variable. -/
theorem Spares.clean {whole : Woven} (spares : Spares counted handle whole) :
    ∀ treatment ∈ whole.treatments, ∀ expression ∈ treatment.markers.dynamicExpressions,
      expression.countNodes (spells counted handle.name) = 0 := by
  obtain ⟨enclosure, step, decided, carries⟩ := spares
  intro treatment member expression evaluated
  exact (decided.dynamicExpressions (hereditary_lacks counted handle.name) carries.mono treatment
    member expression evaluated).2

omit names in
/-- A node that did not spell the variable does not do so after instrumentation. -/
theorem Spares.node {kind : Kind} {parts : List (Field × Woven)}
    (spares : Spares counted handle (node kind parts)) :
    spells counted handle.name kind (treesInParts runtimeGlobal parts) = false := by
  obtain ⟨enclosure, step, decided, carries⟩ := spares
  have whole := carries.node rfl rfl
  have sameText : (Fields.get (treesInParts runtimeGlobal parts) .value).text? =
      (Fields.get (sourcesInParts parts) .value).text? := by
    rcases get_treesInParts_cases runtimeGlobal parts .value with ⟨missing, absent⟩ |
      ⟨item, -, instrumented, held⟩
    · rw [missing, absent]
    · rw [instrumented, held, text?_tree]
  have unspelled := whole.2
  rw [countNodes, Nat.add_eq_zero_iff] at unspelled
  unfold spells
  rw [sameText]
  exact Bool.toNat_eq_zero.mp unspelled.1

/-- A function whose hooks do not spell the variable spells it in its parts only. -/
theorem Spares.countNodes_function {kind : Kind} {outer : List (Field × Woven)}
    {scan? : Option BodyScan} {inner : List (Field × Woven)}
    (spares : Spares counted handle (function kind outer scan? inner))
    (absent : scan?.isSome = true → sharers handle (elementsInParts inner) = 0) :
    ((function kind outer scan? inner).tree runtimeGlobal).countNodes (spells counted handle.name) =
      countNodesInFields (spells counted handle.name) (treesInParts runtimeGlobal outer) +
        countNodesInFields (spells counted handle.name) (treesInParts runtimeGlobal inner) := by
  have notVariable : kind.isVariable = false := by
    obtain ⟨enclosure, step, decided, -⟩ := spares
    cases decided with
    | follows follows =>
      rcases Kind.isFunction_cases follows.2.1 with rfl | rfl | rfl | rfl | rfl <;> rfl
  have hooks := countNodesInItems_groups runtimeGlobal names scan?
    (fun treatment member => spares.clean treatment (List.mem_append_right _
      ((treatmentsInParts_perm inner).mem_iff.mpr (List.mem_append_left _ member)))) absent
  obtain ⟨times, spliced⟩ := Fields.countNodesInFields_spliceBody names handle.name
    (groups runtimeGlobal scan? (elementsInParts inner)) (treesInParts runtimeGlobal inner)
  rw [tree, countNodes, spells_other names notVariable, countNodesInFields_append, spliced, hooks,
    Nat.mul_zero, Nat.add_zero, Bool.toNat_false, Nat.zero_add]

/-- A generated attribute whose hooks do not spell the variable spells it in what it replaces
only. -/
theorem Spares.countNodes_reference {attachment : Attachment} {replaced : List Woven}
    {scan? : Option BodyScan} (spares : Spares counted handle (reference attachment replaced scan?))
    (absent : scan?.isSome = true → sharers handle (elementsInItems replaced) = 0) :
    ((reference attachment replaced scan?).tree runtimeGlobal).countNodes
        (spells counted handle.name) =
      countNodesInItems (spells counted handle.name) (trees runtimeGlobal replaced) := by
  have hooks := countNodesInItems_groups runtimeGlobal names scan?
    (fun treatment member => spares.clean treatment
      ((treatmentsInItems_perm replaced).mem_iff.mpr (List.mem_append_left _ member))) absent
  obtain ⟨alone, elsewhere, spreads⟩ := spares.attachment
  rw [tree, attachment.countNodes_attribute names elsewhere _ _ spreads fun _ => hooks,
    toList_head?_trees runtimeGlobal alone, hooks, Nat.add_zero]

end

variable (runtimeGlobal : String) {counted : Kind → Bool} {handle : ElementHandle}

mutual

/-- The variable of a handle does not occur in an instrumented tree if no element in it has the
handle. Its declarations do not, if no component in it hosts the element. -/
theorem Spares.countNodes_tree (names : ∀ kind, counted kind = true → kind.isVariable = true) :
    ∀ woven : Woven, Spares counted handle woven →
      (counted .identifier = true → sharers handle woven.treatments = 0) →
      sharers handle woven.hosted = 0 → woven.isRemoved = false →
      (woven.tree runtimeGlobal).countNodes (spells counted handle.name) = 0
  | kept tree, spares, _, _, _ => by
    obtain ⟨enclosure, step, decided, carries⟩ := spares
    unfold Carries at carries
    split at carries
    case h_1 | h_2 => exact absurd ‹kept tree = _› Woven.noConfusion
    case h_3 => exact carries.2
  | removed _, _, _, _, taken => absurd taken.symm Bool.false_ne_true
  | list items, spares, apart, unhosted, _ =>
    Spares.countNodesInItems_trees names items
      (fun item member => spares.held (fun _ _ same => Woven.noConfusion same) (.item member))
      apart unhosted
  | statements items, spares, apart, unhosted, _ =>
    Spares.countNodesInItems_trees names items
      (fun item member => spares.held (fun _ _ same => Woven.noConfusion same) (.statement member))
      apart unhosted
  | .node kind parts, spares, apart, unhosted, _ => by
    rw [tree, countNodes, spares.node runtimeGlobal,
      Spares.countNodesInFields_trees names parts (fun part member => spares.part (.part member)
        (fun _ _ same => Woven.noConfusion same)) apart unhosted]
    rfl
  | function kind outer scan? inner, spares, apart, unhosted, _ => by
    have unhostedParts : sharers handle (hostedInParts outer) = 0 ∧
        sharers handle (hostedInParts inner) = 0 := by
      cases scan? <;> simp only [hosted, sharers_append] at unhosted <;> omega
    simp only [treatments, sharers_append] at apart
    rw [spares.countNodes_function runtimeGlobal names fun isComponent => by
        obtain ⟨scan, rfl⟩ := Option.isSome_iff_exists.mp isComponent
        simp only [hosted, sharers_append] at unhosted
        omega,
      Spares.countNodesInFields_trees names outer
        (fun part member => spares.part (.outer member) fun _ _ same => Woven.noConfusion same)
        (fun uses => (Nat.add_eq_zero_iff.mp (apart uses)).1) unhostedParts.1,
      Spares.countNodesInFields_trees names inner
        (fun part member => spares.part (.inner member) fun _ _ same => Woven.noConfusion same)
        (fun uses => (Nat.add_eq_zero_iff.mp (apart uses)).2) unhostedParts.2]
  | opening treatment parts, spares, apart, unhosted, _ => by
    have split : sharers handle (treatment :: treatmentsInParts parts) =
        sharers handle [treatment] + sharers handle (treatmentsInParts parts) :=
      sharers_append handle [treatment] _
    simp only [treatments, split] at apart
    rw [tree, countNodes, spells_other names rfl,
      Spares.countNodesInFields_trees names parts (fun part member => spares.part (.opening member)
          fun other _ same uses => by
            obtain ⟨rfl, -⟩ := Woven.opening.inj same
            exact ne_of_sharers_eq_zero (Nat.add_eq_zero_iff.mp (apart uses)).1 _
              (List.mem_singleton.mpr rfl))
        (fun uses => (Nat.add_eq_zero_iff.mp (apart uses)).2) unhosted]
    rfl
  | reference attachment replaced scan?, spares, apart, unhosted, _ => by
    have unhostedReplaced : sharers handle (hostedInItems replaced) = 0 := by
      cases scan? <;> simp only [hosted, sharers_append] at unhosted <;> omega
    rw [spares.countNodes_reference runtimeGlobal names fun isComponent => by
        obtain ⟨scan, rfl⟩ := Option.isSome_iff_exists.mp isComponent
        simp only [hosted, sharers_append] at unhosted
        omega]
    exact Spares.countNodesInItems_trees names replaced
      (fun item member => spares.held (fun _ _ same => Woven.noConfusion same) (.replaced member))
      apart unhostedReplaced

/-- `Woven.Spares.countNodes_tree` for a list of trees. -/
theorem Spares.countNodesInItems_trees
    (names : ∀ kind, counted kind = true → kind.isVariable = true) : ∀ items : List Woven,
    (∀ item ∈ items, Spares counted handle item) →
    (counted .identifier = true → sharers handle (treatmentsInItems items) = 0) →
    sharers handle (hostedInItems items) = 0 →
    countNodesInItems (spells counted handle.name) (trees runtimeGlobal items) = 0
  | [], _, _, _ => rfl
  | item :: rest, spares, apart, unhosted => by
    rw [treatmentsInItems, sharers_append] at apart
    rw [hostedInItems, sharers_append] at unhosted
    have later := Spares.countNodesInItems_trees names rest
      (fun item member => spares item (List.mem_cons_of_mem _ member))
      (fun uses => (Nat.add_eq_zero_iff.mp (apart uses)).2) (Nat.add_eq_zero_iff.mp unhosted).2
    rw [trees]
    split
    case isTrue => exact later
    case isFalse ordinary =>
      rw [countNodesInItems, later, Spares.countNodes_tree names item
        (spares item List.mem_cons_self) (fun uses => (Nat.add_eq_zero_iff.mp (apart uses)).1)
        (Nat.add_eq_zero_iff.mp unhosted).1 (Bool.eq_false_iff.mpr ordinary)]

/-- `Woven.Spares.countNodes_tree` for the parts of a node. -/
theorem Spares.countNodesInFields_trees
    (names : ∀ kind, counted kind = true → kind.isVariable = true) :
    ∀ parts : List (Field × Woven),
      (∀ part ∈ parts, Spares counted handle part.2 ∧ part.2.isRemoved = false) →
      (counted .identifier = true → sharers handle (treatmentsInParts parts) = 0) →
      sharers handle (hostedInParts parts) = 0 →
      countNodesInFields (spells counted handle.name) (treesInParts runtimeGlobal parts) = 0
  | [], _, _, _ => rfl
  | (field, part) :: rest, spares, apart, unhosted => by
    rw [treatmentsInParts, sharers_append] at apart
    rw [hostedInParts, sharers_append] at unhosted
    have later := Spares.countNodesInFields_trees names rest
      (fun part member => spares part (List.mem_cons_of_mem _ member))
      (fun uses => (Nat.add_eq_zero_iff.mp (apart uses)).2) (Nat.add_eq_zero_iff.mp unhosted).2
    obtain ⟨sparesPart, ordinary⟩ := spares _ List.mem_cons_self
    have first := Spares.countNodes_tree names part sparesPart
      (fun uses => (Nat.add_eq_zero_iff.mp (apart uses)).1) (Nat.add_eq_zero_iff.mp unhosted).1
      ordinary
    rw [treesInParts, countNodesInFields, later, first]

end

section

variable (names : ∀ kind, counted kind = true → kind.isVariable = true)
include names

/-- Of a list of trees, only the one with the element that has the handle spells the variable. -/
theorem Spares.countNodesInItems_only {items : List Woven} {item : Woven}
    (spares : ∀ item ∈ items, Spares counted handle item) (member : item ∈ items)
    (ordinary : item.isRemoved = false) (here : 0 < sharers handle item.treatments)
    (unique : sharers handle (treatmentsInItems items) ≤ 1) :
    countNodesInItems (spells counted handle.name) (trees runtimeGlobal items) =
      (item.tree runtimeGlobal).countNodes (spells counted handle.name) := by
  obtain ⟨before, after, rfl⟩ := List.append_of_mem member
  rw [treatmentsInItems_append, sharers_append, treatmentsInItems, sharers_append] at unique
  have absent {others : List Woven} (subset : ∀ other ∈ others, other ∈ before ++ item :: after)
      (free : sharers handle (treatmentsInItems others) = 0) :
      countNodesInItems (spells counted handle.name) (trees runtimeGlobal others) = 0 := by
    have split := sharers_treatmentsInItems handle others
    exact Spares.countNodesInItems_trees runtimeGlobal names others
      (fun other among => spares other (subset other among)) (fun _ => free) (by omega)
  rw [trees_append, trees, if_neg (Bool.eq_false_iff.mp ordinary), countNodesInItems_append,
    countNodesInItems, absent (fun other among => List.mem_append_left _ among) (by omega),
    absent (fun other among => List.mem_append_right _ (List.mem_cons_of_mem _ among)) (by omega)]
  omega

/-- Of the parts of a node, only the one with the element that has the handle spells the
variable. -/
theorem Spares.countNodesInFields_only {parts : List (Field × Woven)} {field : Field} {item : Woven}
    (spares : ∀ part ∈ parts, Spares counted handle part.2 ∧ part.2.isRemoved = false)
    (member : (field, item) ∈ parts) (here : 0 < sharers handle item.treatments)
    (unique : sharers handle (treatmentsInParts parts) ≤ 1) :
    countNodesInFields (spells counted handle.name) (treesInParts runtimeGlobal parts) =
      (item.tree runtimeGlobal).countNodes (spells counted handle.name) := by
  obtain ⟨before, after, rfl⟩ := List.append_of_mem member
  rw [treatmentsInParts_append, sharers_append, treatmentsInParts, sharers_append] at unique
  have absent {others : List (Field × Woven)}
      (subset : ∀ other ∈ others, other ∈ before ++ (field, item) :: after)
      (free : sharers handle (treatmentsInParts others) = 0) :
      countNodesInFields (spells counted handle.name) (treesInParts runtimeGlobal others) = 0 := by
    have split := sharers_treatmentsInParts handle others
    exact Spares.countNodesInFields_trees runtimeGlobal names others
      (fun other among => spares other (subset other among)) (fun _ => free) (by omega)
  rw [treesInParts_append, treesInParts, countNodesInFields_append,
    countNodesInFields, absent (fun other among => List.mem_append_left _ among) (by omega),
    absent (fun other among => List.mem_append_right _ (List.mem_cons_of_mem _ among)) (by omega)]
  omega

/-- The variable of a handle occurs only in the held tree in which its element has its hooks. -/
theorem Holds.countNodes_tree {whole item : Woven} {frame? : Option Frame}
    {scan? : Option BodyScan} (held : whole.Holds frame? scan? item)
    (spares : Spares counted handle whole) (here : 0 < sharers handle item.hosted)
    (unique : sharers handle whole.treatments ≤ 1) :
    (whole.tree runtimeGlobal).countNodes (spells counted handle.name) =
      (item.tree runtimeGlobal).countNodes (spells counted handle.name) := by
  have inside : 0 < sharers handle item.treatments := by
    have split := sharers_treatments handle item
    omega
  have ordinary : item.isRemoved = false := by
    cases item with
    | removed attr => exact absurd here (Nat.lt_irrefl 0)
    | kept | list | statements | node | function | opening | reference => rfl
  cases held with
  | item member =>
    exact Spares.countNodesInItems_only runtimeGlobal names
      (fun item member => spares.held (fun _ _ same => Woven.noConfusion same) (.item member))
      member ordinary inside unique
  | statement member =>
    exact Spares.countNodesInItems_only runtimeGlobal names
      (fun item member => spares.held (fun _ _ same => Woven.noConfusion same) (.statement member))
      member ordinary inside unique
  | part member =>
    rw [tree, countNodes, spares.node runtimeGlobal,
      Spares.countNodesInFields_only runtimeGlobal names (fun part member =>
        spares.part (.part member) fun _ _ same => Woven.noConfusion same) member inside unique]
    exact Nat.zero_add _
  | @opening treatment parts field _ member =>
    have split : sharers handle (treatment :: treatmentsInParts parts) =
        sharers handle [treatment] + sharers handle (treatmentsInParts parts) :=
      sharers_append handle [treatment] _
    have present := sharers_le_parts handle member
    rw [treatments, split] at unique
    have other : treatment.handle? ≠ some handle :=
      ne_of_sharers_eq_zero (by omega) treatment (List.mem_singleton.mpr rfl)
    rw [tree, countNodes, spells_other names rfl,
      Spares.countNodesInFields_only runtimeGlobal names (fun part member =>
        spares.part (.opening member) fun _ _ same _ => (Woven.opening.inj same).1 ▸ other)
        member inside (by omega)]
    exact Nat.zero_add _
  | @outer kind outer scan? inner field _ member =>
    have present := sharers_le_parts handle member
    have split := sharers_treatmentsInParts handle inner
    rw [treatments, sharers_append] at unique
    rw [spares.countNodes_function runtimeGlobal names (by omega),
      Spares.countNodesInFields_only runtimeGlobal names (fun part member =>
        spares.part (.outer member) fun _ _ same => Woven.noConfusion same) member inside (by omega),
      Spares.countNodesInFields_trees runtimeGlobal names inner (fun part member =>
        spares.part (.inner member) fun _ _ same => Woven.noConfusion same) (by omega) (by omega),
      Nat.add_zero]
  | @inner kind outer scan? inner field _ member =>
    have present := sharers_le_parts handle member
    have hostedInside := hosted_le_parts handle member
    have splitInner := sharers_treatmentsInParts handle inner
    have splitOuter := sharers_treatmentsInParts handle outer
    rw [treatments, sharers_append] at unique
    rw [spares.countNodes_function runtimeGlobal names (by omega),
      Spares.countNodesInFields_only runtimeGlobal names (fun part member =>
        spares.part (.inner member) fun _ _ same => Woven.noConfusion same) member inside (by omega),
      Spares.countNodesInFields_trees runtimeGlobal names outer (fun part member =>
        spares.part (.outer member) fun _ _ same => Woven.noConfusion same) (by omega) (by omega),
      Nat.zero_add]
  | @replaced attachment replaced scan? _ member =>
    have hostedInside := hosted_le_items handle member
    have split := sharers_treatmentsInItems handle replaced
    rw [treatments] at unique
    rw [spares.countNodes_reference runtimeGlobal names (by omega),
      Spares.countNodesInItems_only runtimeGlobal names (fun item member =>
        spares.held (fun _ _ same => Woven.noConfusion same) (.replaced member)) member ordinary
        inside unique]

omit names in
/-- What a spared tree holds besides the tag of the element is spared. -/
theorem Holds.spares {whole item : Woven} {frame? : Option Frame} {scan? : Option BodyScan}
    (held : whole.Holds frame? scan? item) (spares : Spares counted handle whole)
    (inside : 0 < sharers handle item.treatments) (unique : sharers handle whole.treatments ≤ 1) :
    Spares counted handle item := by
  refine spares.held ?_ held
  rintro treatment parts rfl uses given
  cases held with
  | opening member =>
    have split : sharers handle (treatment :: treatmentsInParts parts) =
        sharers handle [treatment] + sharers handle (treatmentsInParts parts) :=
      sharers_append handle [treatment] _
    have present := sharers_le_parts handle member
    have here := sharers_pos.mpr ⟨treatment, List.mem_singleton.mpr rfl, given⟩
    rw [treatments, split] at unique
    omega

/-- The variable of a handle occurs only in the component that hosts its element. -/
theorem Within.countNodes_tree {component whole : Woven} (within : component.Within whole)
    (spares : Spares counted handle whole) (hosting : 0 < sharers handle component.hosts)
    (unique : sharers handle whole.treatments ≤ 1) :
    (whole.tree runtimeGlobal).countNodes (spells counted handle.name) =
        (component.tree runtimeGlobal).countNodes (spells counted handle.name) ∧
      Spares counted handle component := by
  induction within with
  | self => exact ⟨rfl, spares⟩
  | @step whole item frame? entered? held within ih =>
    have hosts := within.hosted_le handle
    have split := sharers_treatments handle item
    have bound := held.sharers_le handle
    obtain ⟨same, reached⟩ := ih (held.spares spares (by omega) unique) (by omega)
    refine ⟨?_, reached⟩
    rw [held.countNodes_tree runtimeGlobal names spares (by omega) unique, same]

end

end Woven

end JsxTracking
