import JsxTracking.Proofs.Announcements

/-! # Which functions are components

A component is *declared* by the name of its function or by the place where the function stands: as the
value of a variable with a component name, as the default export, or as the first argument of `memo` or
`forwardRef`, in any number of parentheses and type assertions (`Standing.declares`). The pass takes for
components the functions that follow an announcement. The two differ in one place only: where a variable
or a default export holds a call of a wrapper, its announcement is made before the callee is visited, and
a function in the callee takes it (`Woven.Lies.heeds`). So the components are the declared ones if and
only if no such callee enters a function that is not declared (`components_declared_iff`). -/

namespace JsxTracking

/-! ## Declared components -/

namespace Standing

/-- Whether a function is declared a component, by its name or by where it stands. -/
def declares (standing : Standing) (kind : Kind) (parts : Fields) : Bool :=
  let named := (parts.get .identifier).value?.any isComponentName
  match kind with
  | .functionDeclaration => named
  | .functionExpression => named || standing = held
  | .arrowFunctionExpression => standing = held
  | _ => false

end Standing

namespace Tree

/-- A tree lies in another one that has the first standing, and has the second one itself. -/
inductive Lies (start : Standing) (whole : Tree) : Standing → Tree → Prop
  | self : Lies start whole start whole
  | item {standing : Standing} {items : List Tree} {index : Nat} {item : Tree}
      (above : Lies start whole standing (.list items)) (found : items[index]? = some item) :
      Lies start whole (standing.ofItem index) item
  | part {standing : Standing} {kind : Kind} {fields : Fields} {field : Field} {part : Tree}
      (above : Lies start whole standing (.node kind fields)) (member : (field, part) ∈ fields) :
      Lies start whole (standing.ofPart kind fields field) part

mutual

/-- Whether the parts of every node stand in the order in which they are visited. -/
def isInOrder : Tree → Bool
  | node kind fields => Fields.arranged fields kind = fields && fieldsAreInOrder fields
  | list items => itemsAreInOrder items
  | _ => true

/-- Whether the parts of every node in a list of trees stand in order. -/
def itemsAreInOrder : List Tree → Bool
  | [] => true
  | item :: rest => isInOrder item && itemsAreInOrder rest

/-- Whether the parts of every node in the parts of a node stand in order. -/
def fieldsAreInOrder : List (Field × Tree) → Bool
  | [] => true
  | (_, part) :: rest => isInOrder part && fieldsAreInOrder rest

end

end Tree

/-! ## Where announcements go -/

/-- Whether the flag of a held wrapper is up while the part of its call is visited, which is meant for
its arguments. -/
def Standing.exposes (standing : Standing) (kind : Kind) (parts : Fields) (field : Field) : Bool :=
  standing = held ∧ kind = .callExpression ∧ field = .callee ∧ Tree.wrapsComponent parts = true

/-- In a node whose parts stand in order, the parts at the front of its layout come first. -/
theorem Fields.arranged_front {fields : Fields} {kind : Kind} {front later : List Field}
    (arranged : fields.arranged kind = fields) (layout : kind.layout = front ++ later)
    (found : ∀ field ∈ front, fields.get field ≠ .null) :
    ∃ rest, fields = front.map (fun field => (field, fields.get field)) ++ rest := by
  have placed : front.filterMap (fun field => (fields.lookup field).map (field, ·)) =
      front.map fun field => (field, fields.get field) := by
    rw [← List.filterMap_eq_map]
    refine List.filterMap_congr fun field member => ?_
    cases isPart : fields.lookup field with
    | none => exact absurd (by rw [Fields.get, isPart]; rfl) (found field member)
    | some part => rw [Function.comp_apply, Fields.get, isPart]; rfl
  rw [Fields.arranged, layout, List.filterMap_append, placed] at arranged
  exact ⟨_, arranged.symm.trans (List.append_assoc ..)⟩

theorem Tree.isInOrder_node {kind : Kind} {fields : Fields}
    (inOrder : (node kind fields).isInOrder = true) : fields.arranged kind = fields :=
  of_decide_eq_true (Bool.and_eq_true_iff.mp inOrder).1

theorem Tree.hereditary_isInOrder : Hereditary fun tree => tree.isInOrder = true where
  null := rfl
  item := fun {items item} whole member => by
    change itemsAreInOrder items = true at whole
    induction items with
    | nil => exact absurd member List.not_mem_nil
    | cons first rest ih =>
      obtain ⟨own, others⟩ := Bool.and_eq_true_iff.mp whole
      rcases List.mem_cons.mp member with rfl | later
      · exact own
      · exact ih later others
  part := fun {kind fields field part} whole member => by
    have within := (Bool.and_eq_true_iff.mp whole).2
    clear whole
    induction fields with
    | nil => exact absurd member List.not_mem_nil
    | cons first rest ih =>
      obtain ⟨own, others⟩ := Bool.and_eq_true_iff.mp within
      rcases List.mem_cons.mp member with rfl | later
      · exact own
      · exact ih later others

theorem Tree.hereditary_isMade :
    Hereditary fun tree => tree.isWellFormed = true ∧ tree.isInOrder = true where
  null := ⟨rfl, rfl⟩
  item := fun whole member =>
    ⟨hereditary_isWellFormed.item whole.1 member, hereditary_isInOrder.item whole.2 member⟩
  part := fun whole member =>
    ⟨hereditary_isWellFormed.part whole.1 member, hereditary_isInOrder.part whole.2 member⟩

namespace Woven

/-- Where a tree lies in another one: with which standing, and whether it lies in the callee of a held
wrapper with no function entered before it. -/
inductive Lies (whole : Woven) : Standing → Bool → Woven → Prop
  | self : Lies whole .plain false whole
  | item {standing : Standing} {exposed : Bool} {items : List Woven} {item : Woven} (index : Nat)
      (above : Lies whole standing exposed (.list items)) (found : items[index]? = some item) :
      Lies whole (standing.ofItem index) (exposed && !entersInItems (items.take index)) item
  | statement {standing : Standing} {exposed : Bool} {items : List Woven} {item : Woven} (index : Nat)
      (above : Lies whole standing exposed (.statements items)) (found : items[index]? = some item) :
      Lies whole (standing.ofItem index) (exposed && !entersInItems (items.take index)) item
  | part {standing : Standing} {exposed : Bool} {kind : Kind} {parts : List (Field × Woven)}
      {field : Field} {part : Woven} (index : Nat)
      (above : Lies whole standing exposed (.node kind parts))
      (found : parts[index]? = some (field, part)) :
      Lies whole (standing.ofPart kind (sourcesInParts parts) field)
        ((exposed || standing.exposes kind (sourcesInParts parts) field) &&
          !entersInParts (parts.take index)) part
  | outer {standing : Standing} {exposed : Bool} {kind : Kind} {outer : List (Field × Woven)}
      {scan? : Option BodyScan} {inner : List (Field × Woven)} {field : Field} {part : Woven}
      (index : Nat) (above : Lies whole standing exposed (.function kind outer scan? inner))
      (found : outer[index]? = some (field, part)) :
      Lies whole .plain (exposed && !entersInParts (outer.take index)) part
  | inner {standing : Standing} {exposed : Bool} {kind : Kind} {outer : List (Field × Woven)}
      {scan? : Option BodyScan} {inner : List (Field × Woven)} {field : Field} {part : Woven}
      (above : Lies whole standing exposed (.function kind outer scan? inner))
      (member : (field, part) ∈ inner) : Lies whole .plain false part
  | opening {standing : Standing} {exposed : Bool} {treatment : Treatment}
      {parts : List (Field × Woven)} {field : Field} {part : Woven} (index : Nat)
      (above : Lies whole standing exposed (.opening treatment parts))
      (found : parts[index]? = some (field, part)) :
      Lies whole .plain (exposed && !entersInParts (parts.take index)) part
  | replaced {standing : Standing} {exposed : Bool} {attachment : Attachment}
      {replaced : List Woven} {scan? : Option BodyScan} {item : Woven} (index : Nat)
      (above : Lies whole standing exposed (.reference attachment replaced scan?))
      (found : replaced[index]? = some item) :
      Lies whole .plain (exposed && !attachment.forwards (sources replaced).head? &&
        !entersInItems (replaced.take index)) item

theorem HeedsItems.at {ahead : Bool} {items : List Woven} (heeds : HeedsItems ahead items)
    {index : Nat} {item : Woven} (found : items[index]? = some item) :
    item.Heeds (ahead && !entersInItems (items.take index)) := by
  obtain ⟨bound, rfl⟩ := List.getElem?_eq_some_iff.mp found
  rw [← items.take_append_drop index, heedsItems_append, List.drop_eq_getElem_cons bound] at heeds
  exact heeds.2.1

theorem HeedsParts.at {ahead : Bool} {announced : Field → Bool} {parts : List (Field × Woven)}
    (heeds : HeedsParts ahead announced parts) {index : Nat} {field : Field} {part : Woven}
    (found : parts[index]? = some (field, part)) :
    part.Heeds (ahead && !entersInParts (parts.take index) || announced field) := by
  obtain ⟨bound, same⟩ := List.getElem?_eq_some_iff.mp found
  rw [← parts.take_append_drop index, heedsParts_append, List.drop_eq_getElem_cons bound, same]
    at heeds
  exact heeds.2.1

/-- The parts of a woven node are those of the node that was woven, one by one. -/
theorem exists_of_sourcesInParts {parts : List (Field × Woven)} {field : Field} {tree : Tree}
    {later : Fields} (sources : sourcesInParts parts = (field, tree) :: later) :
    ∃ part rest, parts = (field, part) :: rest ∧ part.source = tree ∧
      sourcesInParts rest = later := by
  cases parts with
  | nil => cases sources
  | cons first rest =>
    obtain ⟨same, rest_⟩ := List.cons.inj sources
    obtain ⟨rfl, source⟩ := Prod.mk.inj same
    exact ⟨first.2, rest, rfl, source, rest_⟩

/-- The part of a node that comes first, if a function is entered in it. -/
theorem entersInParts_take {first : Field} {woven : Woven} {rest : List (Field × Woven)}
    (entered : woven.enters = true)
    (distinct : ((sourcesInParts ((first, woven) :: rest)).map Prod.fst).Nodup) {index : Nat}
    {field : Field} {part : Woven} (found : ((first, woven) :: rest)[index]? = some (field, part)) :
    entersInParts (((first, woven) :: rest).take index) = decide (field ≠ first) := by
  cases index with
  | zero =>
    obtain ⟨rfl, rfl⟩ := Prod.mk.inj (Option.some.inj found)
    exact (decide_eq_false fun differs => differs rfl).symm
  | succ index =>
    have differs : field ≠ first := by
      rintro rfl
      rw [sourcesInParts, List.map_cons, List.nodup_cons] at distinct
      exact distinct.1 (List.mem_map.mpr ⟨_, mem_sourcesInParts (List.mem_of_getElem? found), rfl⟩)
    rw [List.take_succ_cons, entersInParts, entered, decide_eq_true differs, Bool.true_or]

/-- In a node that hands its standing on to its expression, the expression comes first. -/
theorem Follows.entersInParts_of_expression {enclosure : Enclosure} {step : Step} {kind : Kind}
    {parts : List (Field × Woven)} (follows : (node kind parts).Follows enclosure step)
    (wellFormed : (node kind parts).source.isWellFormed = true)
    (inOrder : (node kind parts).source.isInOrder = true) {later : List Field}
    (layout : kind.layout = .expression :: later)
    (isFunction : (Fields.get (sourcesInParts parts) .expression).isFunctionLike = true)
    {index : Nat} {field : Field} {part : Woven} (found : parts[index]? = some (field, part)) :
    entersInParts (parts.take index) = decide (field ≠ .expression) := by
  have filled : ∀ field ∈ [Field.expression], Fields.get (sourcesInParts parts) field ≠ .null := by
    intro field listed missing
    rw [List.mem_singleton.mp listed] at missing
    rw [missing] at isFunction
    cases isFunction
  obtain ⟨others, front⟩ := Fields.arranged_front (Tree.isInOrder_node inOrder) layout filled
  obtain ⟨inner, rest, rfl, source, -⟩ := exists_of_sourcesInParts front
  have announced : Standing.held.announces inner.source = true := source ▸ isFunction
  refine entersInParts_take ?_ (Tree.isWellFormed_node wellFormed).1 found
  refine follows.2.2.2.1.enters (Step.within_ne_keep ?_ (Or.inl rfl)) _ announced
  rintro rfl
  cases layout

/-- In a call of a wrapper, the parts behind the arguments come after a function. -/
theorem Follows.entersInParts_of_arguments {enclosure : Enclosure} {step : Step}
    {parts : List (Field × Woven)} (follows : (node .callExpression parts).Follows enclosure step)
    (wellFormed : (node .callExpression parts).source.isWellFormed = true)
    (inOrder : (node .callExpression parts).source.isInOrder = true)
    (wraps : Tree.wrapsComponent (sourcesInParts parts) = true) {index : Nat} {field : Field}
    {part : Woven} (found : parts[index]? = some (field, part)) (notCallee : field ≠ .callee)
    (notArguments : field ≠ .arguments) : entersInParts (parts.take index) = true := by
  obtain ⟨isWrapper, first⟩ := Bool.and_eq_true_iff.mp wraps
  rw [Tree.firstArgumentIsFunction_eq] at first
  have filled : ∀ field ∈ [Field.callee, .arguments],
      Fields.get (sourcesInParts parts) field ≠ .null := by
    intro field listed missing
    rcases List.mem_pair.mp listed with rfl | rfl
    · rw [missing] at isWrapper
      cases isWrapper
    · rw [missing] at first
      cases first
  obtain ⟨distinct, -⟩ := Tree.isWellFormed_node wellFormed
  obtain ⟨others, front⟩ := Fields.arranged_front (Tree.isInOrder_node inOrder) rfl filled
  obtain ⟨callee, behind, rfl, -, front⟩ := exists_of_sourcesInParts front
  obtain ⟨inner, rest, rfl, source, -⟩ := exists_of_sourcesInParts front
  have entered : inner.enters = true := follows.2.2.2.2.1.enters
    (Step.within_ne_keep Kind.noConfusion (Or.inr rfl)) _ (source ▸ first)
  cases index with
  | zero => exact absurd (Prod.mk.inj (Option.some.inj found)).1.symm notCallee
  | succ index =>
    rw [List.take_succ_cons, entersInParts,
      entersInParts_take entered (List.nodup_cons.mp distinct).2 found,
      decide_eq_true notArguments, Bool.or_true]

/-- The announcement of a node goes on to one of its parts: it is ahead of a part that is exposed, and
of one that is announced where it stands. -/
theorem Follows.ahead_part {enclosure : Enclosure} {step : Step} {kind : Kind}
    {parts : List (Field × Woven)} (follows : (node kind parts).Follows enclosure step)
    (wellFormed : (node kind parts).source.isWellFormed = true)
    (inOrder : (node kind parts).source.isInOrder = true) {index : Nat} {field : Field}
    {part : Woven} (found : parts[index]? = some (field, part)) (standing : Standing)
    (exposed : Bool) :
    ((exposed || standing.announces (node kind parts).source) &&
        !entersInParts (parts.take index) || kind.announces (sourcesInParts parts) field) =
      ((exposed || standing.exposes kind (sourcesInParts parts) field) &&
          !entersInParts (parts.take index) ||
        (standing.ofPart kind (sourcesInParts parts) field).announces part.source) := by
  obtain ⟨distinct, -⟩ := Tree.isWellFormed_node wellFormed
  have member := mem_sourcesInParts (List.mem_of_getElem? found)
  cases announces : standing.announces (node kind parts).source with
  | false =>
    have covered : standing.exposes kind (sourcesInParts parts) field = false := by
      refine decide_eq_false ?_
      rintro ⟨rfl, rfl, -, wraps⟩
      exact Bool.false_ne_true (announces.symm.trans wraps)
    rw [covered, Standing.ofPart_announces distinct member fun impossible =>
      absurd (announces.symm.trans impossible) Bool.false_ne_true]
  | true =>
    rcases Standing.announces_node follows.2.1 announces with
      ⟨rfl, rfl, wraps⟩ | ⟨notCall, ⟨later, layout⟩, handed, isFunction⟩
    · rw [Standing.ofPart_announces distinct member fun _ => Or.inl rfl]
      by_cases isCallee : field = .callee
      · have covered : Standing.exposes .held .callExpression (sourcesInParts parts) field = true :=
          decide_eq_true ⟨rfl, rfl, isCallee, wraps⟩
        rw [covered]
      by_cases isArguments : field = .arguments
      · have announced : Kind.announces .callExpression (sourcesInParts parts) field = true := by
          rw [isArguments]
          exact decide_eq_true (if_pos wraps)
        rw [announced, Bool.or_true, Bool.or_true]
      · rw [follows.entersInParts_of_arguments wellFormed inOrder wraps found isCallee isArguments,
          Bool.not_true, Bool.and_false, Bool.and_false]
    · have covered : standing.exposes kind (sourcesInParts parts) field = false :=
        decide_eq_false fun exposes => notCall exposes.2.1
      rw [covered, follows.entersInParts_of_expression wellFormed inOrder layout isFunction found]
      by_cases isExpression : field = .expression
      · subst isExpression
        have announced : Standing.held.announces part.source = true :=
          Fields.get_of_mem distinct member ▸ isFunction
        rw [handed, announced]
        simp
      · rw [Standing.ofPart_announces distinct member fun _ => Or.inr isExpression,
          decide_eq_true isExpression, Bool.not_true, Bool.and_false, Bool.and_false]

/-- The announcement of a list goes on to its first item. -/
theorem Follows.ahead_item {enclosure : Enclosure} {step : Step} {items : List Woven} {whole : Woven}
    (follows : whole.Follows enclosure step)
    (form : whole = list items ∨ whole = statements items) {index : Nat} {item : Woven}
    (found : items[index]? = some item) (standing : Standing) (exposed : Bool) :
    ((exposed || standing.announces whole.source) && !entersInItems (items.take index)) =
      (exposed && !entersInItems (items.take index) ||
        (standing.ofItem index).announces item.source) := by
  have source : whole.source = .list (sources items) := by rcases form with rfl | rfl <;> rfl
  rw [source]
  cases announces : standing.announces (.list (sources items)) with
  | false =>
    have silent : (standing.ofItem index).announces item.source = false := by
      unfold Standing.ofItem
      split
      case isFalse => rfl
      case isTrue first =>
        obtain ⟨rfl, rfl⟩ := first
        obtain ⟨rest, rfl⟩ := List.head?_eq_some_iff.mp ((List.head?_eq_getElem? ..).trans found)
        by_cases generated : item.isGenerated = true
        · cases item with
          | reference => rfl
          | kept | list | statements | node | function | opening | removed => cases generated
        · rw [sources, if_neg generated] at announces
          exact announces
    rw [silent, Bool.or_false, Bool.or_false]
  | true =>
    obtain ⟨rfl, fields, later, first, announced⟩ := Standing.announces_list announces
    cases items with
    | nil => cases found
    | cons head rest =>
      obtain ⟨headSource, inner, visited⟩ := follows.head form first
      cases index with
      | zero =>
        obtain rfl := Option.some.inj found
        change _ = (_ || Standing.firstArgument.announces head.source)
        rw [headSource, announced]
        simp [entersInItems]
      | succ index =>
        have entered := visited.enters Step.noConfusion _ (headSource ▸ announced)
        rw [List.take_succ_cons, entersInItems, entered]
        simp
        rfl

/-- **Where announcements go.** A component is ahead of a tree exactly if it lies in the callee of a
held wrapper, with no function entered before it there, or is announced where it stands. -/
theorem Lies.heeds {whole part : Woven} {enclosure : Enclosure} {step : Step}
    (decided : Decided enclosure step whole)
    (carries : Carries (fun tree => tree.isWellFormed = true ∧ tree.isInOrder = true)
      (fun _ => True) step whole) (heeds : whole.Heeds false) {standing : Standing} {exposed : Bool}
    (lies : whole.Lies standing exposed part) :
    ∃ inner next, Decided inner next part ∧
      Carries (fun tree => tree.isWellFormed = true ∧ tree.isInOrder = true) (fun _ => True) next
        part ∧
      part.Heeds (exposed || standing.announces part.source) := by
  have next {outer item : Woven} {enclosure : Enclosure} {step : Step} {frame? : Option Frame}
      {scan? : Option BodyScan} {ahead : Bool} (decided : Decided enclosure step outer)
      (carries : Carries (fun tree => tree.isWellFormed = true ∧ tree.isInOrder = true)
        (fun _ => True) step outer) (held : outer.Holds frame? scan? item)
      (heeds : item.Heeds ahead) : ∃ inner next, Decided inner next item ∧
        Carries (fun tree => tree.isWellFormed = true ∧ tree.isInOrder = true) (fun _ => True) next
          item ∧ item.Heeds ahead := by
    obtain ⟨inner, next, decidedItem, carriesItem⟩ := decided.held_carries
      Tree.hereditary_isMade carries (fun _ _ _ _ _ => trivial) held
    exact ⟨inner, next, decidedItem, carriesItem, heeds⟩
  induction lies with
  | self => exact ⟨enclosure, step, decided, carries, heeds⟩
  | @item standing exposed items item index above found ih =>
    obtain ⟨inner, step, decided, carries, heeds⟩ := ih
    cases decided with
    | follows follows =>
      rw [← follows.ahead_item (Or.inl rfl) found]
      exact next (.follows follows) carries (.item (List.mem_of_getElem? found))
        (HeedsItems.at heeds found)
  | @statement standing exposed items item index above found ih =>
    obtain ⟨inner, step, decided, carries, heeds⟩ := ih
    cases decided with
    | follows follows =>
      rw [← follows.ahead_item (Or.inr rfl) found]
      exact next (.follows follows) carries (.statement (List.mem_of_getElem? found))
        (HeedsItems.at heeds found)
  | @part standing exposed kind parts field part index above found ih =>
    obtain ⟨inner, step, decided, carries, heeds⟩ := ih
    cases decided with
    | follows follows =>
      obtain ⟨wellFormed, inOrder⟩ := carries.node rfl rfl
      rw [← follows.ahead_part wellFormed inOrder found]
      exact next (.follows follows) carries (.part (List.mem_of_getElem? found))
        (HeedsParts.at heeds found)
  | @outer standing exposed kind outer scan? inner field part index above found ih =>
    obtain ⟨around, step, decided, carries, heeds⟩ := ih
    obtain ⟨isMethod, heedsOuter, -⟩ := heeds
    have silent : standing.announces (Woven.function kind outer scan? inner).source = false := by
      rcases isMethod with rfl | rfl
      · cases standing <;> rfl
      · cases found
    rw [silent, Bool.or_false] at heedsOuter
    exact next decided carries (.outer (List.mem_of_getElem? found)) (HeedsParts.at heedsOuter found)
  | @inner standing exposed kind outer scan? inner field part above member ih =>
    obtain ⟨around, step, decided, carries, heeds⟩ := ih
    obtain ⟨-, -, -, heedsInner⟩ := heeds
    obtain ⟨index, found⟩ := List.getElem?_of_mem member
    exact next decided carries (.inner member) (HeedsParts.at heedsInner found)
  | @opening standing exposed treatment parts field part index above found ih =>
    obtain ⟨around, step, decided, carries, heeds⟩ := ih
    have silent : standing.announces (Woven.opening treatment parts).source = false := by
      cases standing <;> rfl
    rw [silent, Bool.or_false] at heeds
    exact next decided carries (.opening (List.mem_of_getElem? found)) (HeedsParts.at heeds found)
  | @replaced standing exposed attachment replaced scan? item index above found ih =>
    obtain ⟨around, step, decided, carries, heeds⟩ := ih
    obtain ⟨-, heedsReplaced⟩ := heeds
    have silent : standing.announces (Woven.reference attachment replaced scan?).source = false := by
      cases standing <;> rfl
    rw [silent, Bool.or_false] at heedsReplaced
    refine next decided carries (.replaced (List.mem_of_getElem? found)) ?_
    exact (Bool.or_false _).symm ▸ HeedsItems.at heedsReplaced found

/-- A function of the module is not visited: it stands in a tree that is left alone, or in a marker. -/
def Unvisited (whole : Woven) (standing : Standing) (kind : Kind) (fields : Fields) : Prop :=
  ∃ start exposed tree, tree.Lies start standing (.node kind fields) ∧
    (whole.Lies start exposed (.kept tree) ∨
      whole.Lies start exposed (.removed tree) ∧ tree.isMarker = true)

/-- The components are the functions that are declared as such. -/
structure ComponentsDeclared (whole : Woven) : Prop where
  functions : ∀ {standing : Standing} {exposed : Bool} {kind : Kind}
    {outer : List (Field × Woven)} {scan? : Option BodyScan} {inner : List (Field × Woven)},
    whole.Lies standing exposed (.function kind outer scan? inner) →
      scan?.isSome = standing.declares kind (sourcesInParts inner)
  /-- A generated reference that is a function is no component. -/
  forwarding : ∀ {standing : Standing} {exposed : Bool} {attachment : Attachment}
    {replaced : List Woven} {scan? : Option BodyScan},
    whole.Lies standing exposed (.reference attachment replaced scan?) → scan? = none
  unvisited : ∀ {standing : Standing} {kind : Kind} {fields : Fields},
    whole.Unvisited standing kind fields → standing.declares kind fields = false

/-- No function other than a declared component takes an announcement that is meant for another one,
and no declared component is passed over. -/
structure CalleesDeclared (whole : Woven) : Prop where
  /-- A function that is entered first in the callee of a held wrapper is declared, or its declaration
  says what it is. -/
  functions : ∀ {standing : Standing} {kind : Kind} {outer : List (Field × Woven)}
    {scan? : Option BodyScan} {inner : List (Field × Woven)},
    whole.Lies standing true (.function kind outer scan? inner) → entersInParts outer = false →
      kind ≠ .functionDeclaration → standing.declares kind (sourcesInParts inner) = true
  forwarding : ∀ {standing : Standing} {attachment : Attachment} {replaced : List Woven}
    {scan? : Option BodyScan}, whole.Lies standing true (.reference attachment replaced scan?) →
      attachment.forwards (sources replaced).head? = false
  unvisited : ∀ {standing : Standing} {kind : Kind} {fields : Fields},
    whole.Unvisited standing kind fields → standing.declares kind fields = false

/-- The function at a place is a component if it is declared there, or if it is the first one in the
callee of a held wrapper and no declaration. -/
theorem isTaken_eq {kind : Kind} {outer inner : List (Field × Woven)} {scan? : Option BodyScan}
    (isFunction : kind.isFunction = true) (isMethod : kind = .methodProperty ∨ outer = [])
    (standing : Standing) (exposed : Bool) :
    kind.isTaken ((exposed || standing.announces (Woven.function kind outer scan? inner).source) &&
        !entersInParts outer) (sourcesInParts inner) =
      (standing.declares kind (sourcesInParts inner) ||
        (exposed && !entersInParts outer && kind ≠ .functionDeclaration)) := by
  -- A function that is never declared is taken only for what is exposed.
  have plainly (noPlace : standing.announces (Woven.function kind outer scan? inner).source = false)
      (undeclared : standing.declares kind (sourcesInParts inner) = false)
      (taken : ∀ ahead, kind.isTaken ahead (sourcesInParts inner) = ahead)
      (notDeclaration : kind ≠ .functionDeclaration) :
      kind.isTaken ((exposed || standing.announces (Woven.function kind outer scan? inner).source) &&
          !entersInParts outer) (sourcesInParts inner) =
        (standing.declares kind (sourcesInParts inner) ||
          (exposed && !entersInParts outer && kind ≠ .functionDeclaration)) := by
    rw [noPlace, undeclared, taken, Bool.or_false, Bool.false_or, decide_eq_true notDeclaration,
      Bool.and_true]
  unfold Kind.isFunction at isFunction
  split at isFunction
  case h_1 =>
    rw [decide_eq_false (fun differs => differs rfl), Bool.and_false, Bool.or_false]
    rfl
  case h_2 =>
    obtain rfl := isMethod.resolve_left Kind.noConfusion
    have placed : standing.announces (Woven.function .functionExpression [] scan? inner).source =
        decide (standing = .held) := by
      cases standing <;> rfl
    rw [placed]
    change ((exposed || _) && !false || _) = (_ || _ || (exposed && !false && true))
    rw [Bool.not_false, Bool.and_true, Bool.and_true, Bool.and_true, Bool.or_comm,
      Bool.or_comm exposed, Bool.or_assoc]
  case h_3 =>
    obtain rfl := isMethod.resolve_left Kind.noConfusion
    exact plainly (by cases standing <;> rfl) rfl (fun _ => rfl) Kind.noConfusion
  case h_4 =>
    obtain rfl := isMethod.resolve_left Kind.noConfusion
    have placed : standing.announces (Woven.function .arrowFunctionExpression [] scan? inner).source
        = decide (standing = .held) := by
      cases standing <;> rfl
    rw [placed]
    change ((exposed || _) && !false) = (_ || (exposed && !false && true))
    rw [Bool.not_false, Bool.and_true, Bool.and_true, Bool.and_true, Bool.or_comm]
    rfl
  case h_5 => exact plainly (by cases standing <;> rfl) rfl (fun _ => rfl) Kind.noConfusion
  case h_6 => cases isFunction

end Woven

variable (source? : Option String) {items : List Tree}

/-- The announcements of a module go where its places say. -/
theorem weaveModule_heeds (wellFormed : Tree.itemsAreWellFormed items = true)
    (inOrder : Tree.itemsAreInOrder items = true) {standing : Standing} {exposed : Bool}
    {part : Woven} (lies : (Woven.list (weaveModule source? items)).Lies standing exposed part) :
    (∃ inner step, Woven.Decided inner step part) ∧
      part.Heeds (exposed || standing.announces part.source) := by
  have follows := weaveModule_follows source? items
  have source := weaveModule_source source? items
  have heeding := weave_heeding_all.2.2.1 { source? } items
    (Tree.itemsAreWellFormed_iff.mp wellFormed) { allocator := .ofModule items }
  obtain ⟨inner, step, decided, -, heeds⟩ := lies.heeds (.follows follows)
    (Woven.carries_of_source rfl (fun _ => Step.noConfusion)
      (source.symm ▸ ⟨wellFormed, inOrder⟩)) heeding.heeds
  exact ⟨⟨inner, step, decided⟩, heeds⟩

/-- A function is a component if it is declared as one, or if it is the first one in the callee of a
held wrapper and no declaration. -/
theorem isComponent_eq (wellFormed : Tree.itemsAreWellFormed items = true)
    (inOrder : Tree.itemsAreInOrder items = true) {standing : Standing} {exposed : Bool} {kind : Kind}
    {outer inner : List (Field × Woven)} {scan? : Option BodyScan}
    (lies : (Woven.list (weaveModule source? items)).Lies standing exposed
      (.function kind outer scan? inner)) :
    scan?.isSome = (standing.declares kind (Woven.sourcesInParts inner) ||
      (exposed && !Woven.entersInParts outer && kind ≠ .functionDeclaration)) := by
  obtain ⟨⟨around, step, decided⟩, isMethod, -, taken, -⟩ :=
    weaveModule_heeds source? wellFormed inOrder lies
  cases decided with
  | follows follows => exact taken.trans (Woven.isTaken_eq follows.2.1 isMethod standing exposed)

/-- A generated reference is a component if it is a function and the first one in the callee of a held
wrapper. -/
theorem forwardingIsComponent_eq (wellFormed : Tree.itemsAreWellFormed items = true)
    (inOrder : Tree.itemsAreInOrder items = true) {standing : Standing} {exposed : Bool}
    {attachment : Attachment} {replaced : List Woven} {scan? : Option BodyScan}
    (lies : (Woven.list (weaveModule source? items)).Lies standing exposed
      (.reference attachment replaced scan?)) :
    scan?.isSome = (exposed && attachment.forwards (Woven.sources replaced).head?) := by
  obtain ⟨-, taken, -⟩ := weaveModule_heeds source? wellFormed inOrder lies
  have silent : standing.announces (Woven.reference attachment replaced scan?).source = false := by
    cases standing <;> rfl
  rw [taken, silent, Bool.or_false]

/-- **The components are the declared ones.** The functions that are taken for components are exactly
those that are declared as such, by their name or by the place where they stand, if and only if no
other function is the first one in the callee of a held wrapper and no declared one is left
unvisited. -/
theorem components_declared_iff (wellFormed : Tree.itemsAreWellFormed items = true)
    (inOrder : Tree.itemsAreInOrder items = true) :
    (Woven.list (weaveModule source? items)).ComponentsDeclared ↔
      (Woven.list (weaveModule source? items)).CalleesDeclared := by
  constructor
  · intro declared
    refine ⟨fun lies first notDeclaration => ?_, fun lies => ?_, declared.unvisited⟩
    · have taken := isComponent_eq source? wellFormed inOrder lies
      rw [declared.functions lies, first, decide_eq_true notDeclaration] at taken
      simpa using taken
    · have taken := forwardingIsComponent_eq source? wellFormed inOrder lies
      rw [declared.forwarding lies] at taken
      exact taken.symm
  · intro callees
    refine ⟨?functions, ?forwarding, callees.unvisited⟩
    case functions =>
      intro standing exposed kind outer scan? inner lies
      rw [isComponent_eq source? wellFormed inOrder lies]
      cases exposed with
      | false => simp
      | true =>
        by_cases other : Woven.entersInParts outer = false ∧ kind ≠ .functionDeclaration
        · rw [callees.functions lies other.1 other.2, Bool.true_or]
        · have passed : (!Woven.entersInParts outer && decide (kind ≠ .functionDeclaration)) =
              false := by
            simpa using other
          rw [Bool.true_and, passed, Bool.or_false]
    case forwarding =>
      intro standing exposed attachment replaced scan? lies
      have taken := forwardingIsComponent_eq source? wellFormed inOrder lies
      cases exposed with
      | false => exact Option.not_isSome_iff_eq_none.mp (Bool.eq_false_iff.mp taken)
      | true =>
        rw [callees.forwarding lies] at taken
        exact Option.not_isSome_iff_eq_none.mp (Bool.eq_false_iff.mp taken)

theorem components_declared_page :
    Tree.itemsAreWellFormed [pageOf trackedStatements] = true ∧
      Tree.itemsAreInOrder [pageOf trackedStatements] = true ∧
      ((Woven.list (weaveModule none [pageOf trackedStatements])).ComponentsDeclared ↔
        (Woven.list (weaveModule none [pageOf trackedStatements])).CalleesDeclared) :=
  ⟨by decide +kernel, by decide +kernel,
    components_declared_iff none (by decide +kernel) (by decide +kernel)⟩

/-- `const Page = lib(() => <div data-track-click="buy" />).memo(() => null);` -/
def wrappedPage : Tree :=
  Code.constant "Page" (Code.methodCall
    (Code.call (Code.reference "lib")
      [Code.arrowTo [] (markedElement "div" "data-track-click" (Code.string "buy"))])
    "memo" [Code.arrowTo [] Code.nullLiteral])

/-- The function that is given to `lib` is taken for the component that `memo` is given. -/
theorem callee_function_taken :
    ¬(Woven.list (weaveModule none [wrappedPage])).ComponentsDeclared := by
  intro declared
  have taken := declared.functions (.part 0 (.item 0 (.part 1 (.part 0 (.part 0 (.part 1
    (.item 0 (.part 0 (.item 0 .self rfl) rfl) rfl) rfl) rfl) rfl) rfl) rfl) rfl)
  cases taken

end JsxTracking
