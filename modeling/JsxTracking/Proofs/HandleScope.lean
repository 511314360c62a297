import JsxTracking.Proofs.HandleUses
import JsxTracking.Proofs.MarkerRemoval

/-! # Where the variable of a handle is in scope

The variable of a handle is declared by the hooks of its element, in the body of the nearest
component around it, and is not spelled anywhere else than in the element and its hooks. So it is
declared once and used within that body, if the element stands in the body. An element in the
parameters of a component uses the variable where it is not in scope (`declared_in_scope_iff`). -/

namespace JsxTracking

open JsxTracking.Tree

/-- The variable of a handle is declared once in a module, by a statement of a body, and is used only
within that body. -/
structure DeclaredInScope (handle : ElementHandle) (body output : List Tree) : Prop where
  declared : Hooks.declaration handle ∈ body
  once : countNodesInItems (isCopy (Hooks.declaration handle)) output = 1
  unshadowed : countNodesInItems (spells Kind.isBinding handle.name) output = 1
  usedInside : countNodesInItems (spells Kind.isVariable handle.name) output =
    countNodesInItems (spells Kind.isVariable handle.name) body

/-- No part of a function other than its body is changed by hooks. -/
theorem Fields.spliceBody_of_absent {parts : Fields} (absent : ∀ part ∈ parts, part.1 ≠ .body)
    (groups : List HookGroup) : parts.spliceBody groups = parts := by
  rw [spliceBody_eq_map]
  refine (List.map_congr_left fun part member => ?_).trans (List.map_id' parts)
  rw [if_neg (absent part member)]

theorem Fields.spliceBody_append (first second : Fields) (groups : List HookGroup) :
    (first ++ second : Fields).spliceBody groups =
      first.spliceBody groups ++ second.spliceBody groups := by
  rw [spliceBody_eq_map, spliceBody_eq_map, spliceBody_eq_map, List.map_append]

namespace Woven

variable (runtimeGlobal : String)

/-- The function that a component has become. -/
def renderer : Woven → Tree
  | reference attachment replaced scan? =>
    (((reference attachment replaced scan?).tree runtimeGlobal).get .value).get .expression
  | component => component.tree runtimeGlobal

/-- The top-level statements of what a component has become. -/
def bodyStatements (component : Woven) : List Tree :=
  (((component.renderer runtimeGlobal).get .body).get .stmts).items

theorem mem_elementsInItems {items : List Woven} {item : Woven} (member : item ∈ items)
    {treatment : Treatment} (inside : treatment ∈ item.elements) :
    treatment ∈ elementsInItems items := by
  induction items with
  | nil => exact absurd member List.not_mem_nil
  | cons first rest ih =>
    rcases List.mem_cons.mp member with rfl | later
    · exact List.mem_append_left _ inside
    · exact List.mem_append_right _ (ih later)

theorem mem_elementsInParts {parts : List (Field × Woven)} {field : Field} {item : Woven}
    (member : (field, item) ∈ parts) {treatment : Treatment} (inside : treatment ∈ item.elements) :
    treatment ∈ elementsInParts parts := by
  induction parts with
  | nil => exact absurd member List.not_mem_nil
  | cons first rest ih =>
    rcases List.mem_cons.mp member with rfl | later
    · exact List.mem_append_left _ inside
    · exact List.mem_append_right _ (ih later)

/-- An element that a tree owns has its hooks in the component around the tree. -/
theorem Owned.mem_elements {treatment : Treatment} {parts : List (Field × Woven)}
    {path : List Frame} {whole : Woven} (owned : (opening treatment parts).Owned path whole) :
    treatment ∈ whole.elements := by
  induction owned with
  | self => exact List.mem_cons_self
  | step holds owned inside =>
    cases holds with
    | item member | statement member | replaced member => exact mem_elementsInItems member inside
    | part member => exact mem_elementsInParts member inside
    | opening member => exact List.mem_cons_of_mem _ (mem_elementsInParts member inside)
    | @outer _ _ scan? _ _ _ member =>
      have here := mem_elementsInParts member inside
      cases scan? with
      | none => exact List.mem_append_left _ here
      | some scan => exact here
    | inner member => exact List.mem_append_right _ (mem_elementsInParts member inside)

/-- An element has its hooks among those of its nearest component. -/
theorem Hosts.mem_hosts {component : Woven} {treatment : Treatment} {field? : Option Field} {path : List Frame}
    (hosts : component.Hosts treatment field? path) : treatment ∈ component.hosts := by
  obtain ⟨held, owned⟩ := hosts
  have inside := owned.mem_elements
  cases held with
  | inner member => exact mem_elementsInParts member inside
  | replaced member => exact mem_elementsInItems member inside

/-- The generated attributes of an element end in the reference it gets. -/
theorem FollowsAttributes.exists_reference {enclosure : Enclosure} {attachment : Attachment}
    {explicit? : Option Tree} {items : List Woven}
    (follows : FollowsAttributes enclosure (some attachment) explicit? items) :
    ∃ replaced scan?, reference attachment replaced scan? ∈ items := by
  induction items generalizing explicit? with
  | nil => cases follows
  | cons first rest ih =>
    have later (follows : ∃ explicit?, FollowsAttributes enclosure (some attachment) explicit? rest) :
        ∃ replaced scan?, reference attachment replaced scan? ∈ first :: rest := by
      obtain ⟨explicit?, follows⟩ := follows
      obtain ⟨replaced, scan?, member⟩ := ih follows
      exact ⟨replaced, scan?, List.mem_cons_of_mem _ member⟩
    cases first with
    | reference other replaced scan? =>
      obtain ⟨same, -⟩ := follows
      obtain rfl := Option.some.inj same
      exact ⟨replaced, scan?, List.mem_cons_self⟩
    | removed attr =>
      unfold FollowsAttributes at follows
      split at follows
      · exact later ⟨_, follows⟩
      · exact later ⟨_, follows.2.2.2.2⟩
    | kept | list | statements | node | function | opening => exact later ⟨_, follows.2.2⟩

/-- A generated attribute uses the variable of its handle. -/
theorem attribute_uses (attachment : Attachment) (explicit? : Option Tree)
    (groups : List HookGroup) :
    (Code.reference attachment.handle.name).Occurs (attachment.attribute explicit? groups) := by
  unfold Attachment.attribute
  cases forwards : ElementRef.forwarded? explicit? attachment.spreads with
  | none => exact .part (List.mem_cons_of_mem _ List.mem_cons_self) (.part List.mem_cons_self .self)
  | some reference =>
    have kept := (HookGroup.splice_interleaved
      (ElementRef.forwardingBody attachment.handle reference) groups).sublist.subset
      List.mem_cons_self
    have stored : (Code.reference attachment.handle.name).Occurs (Code.perform (Code.assignMember
        (Code.reference attachment.handle.name) "current"
          (Code.reference ElementRef.nodeName))) :=
      .part List.mem_cons_self (.part List.mem_cons_self (.part List.mem_cons_self .self))
    exact .part (List.mem_cons_of_mem _ List.mem_cons_self) (.part List.mem_cons_self
      (.part (List.mem_cons_of_mem _ List.mem_cons_self)
        (.part List.mem_cons_self (.item kept stored))))

/-- An instrumented element uses the variable of its handle. -/
theorem opening_uses {treatment : Treatment} {parts : List (Field × Woven)}
    {enclosure : Enclosure} {step : Step}
    (follows : (opening treatment parts).Follows enclosure step) {handle : ElementHandle}
    (given : treatment.handle? = some handle) :
    0 < ((opening treatment parts).tree runtimeGlobal).countNodes
      (spells Kind.isVariable handle.name) := by
  obtain ⟨-, suits, within⟩ := follows
  generalize sourced : Fields.get (sourcesInParts parts) .attributes = attributes at suits within
  have nonempty : attributes.items ≠ [] := by
    intro empty
    have decision := suits.outcome
    have valueless : treatment.markers.hasValues = false := by
      rw [suits.markers, sourced, empty]
      rfl
    cases outcome : treatment.outcome with
    | plain | refused reason =>
      simp [Treatment.handle?, Treatment.allocation?, outcome] at given
    | instrumented allocation position shared =>
      rw [outcome] at decision
      exact absurd (valueless.symm.trans decision.1) Bool.false_ne_true
  rcases get_treesInParts_cases runtimeGlobal parts .attributes with ⟨-, absent⟩ |
    ⟨item, member, instrumented, held⟩
  · rw [← sourced, absent] at nonempty
    exact absurd rfl nonempty
  have visited : item.Follows enclosure
      (.attributes (some ⟨handle, ElementRef.trailingSpreads attributes.items⟩)) := by
    have attached : treatment.attachment? attributes.items =
        some ⟨handle, ElementRef.trailingSpreads attributes.items⟩ := by
      rw [Treatment.attachment?, given]
      rfl
    rw [← attached]
    exact within.member member
  rw [← sourced, held] at nonempty
  cases item with
  | list items =>
    obtain ⟨replaced, scan?, among⟩ := FollowsAttributes.exists_reference visited
    have uses : (Code.reference handle.name).Occurs ((reference
        ⟨handle, ElementRef.trailingSpreads attributes.items⟩ replaced scan?).tree
          runtimeGlobal) := by
      rw [tree]
      exact attribute_uses ⟨handle, _⟩ _ _
    have inAttributes := (mem_trees runtimeGlobal).mpr ⟨_, among, rfl, rfl⟩
    have occurs : (Code.reference handle.name).Occurs
        ((opening treatment parts).tree runtimeGlobal) :=
      .part (mem_treesInParts runtimeGlobal member) (.item inAttributes uses)
    refine Nat.lt_of_lt_of_le ?_ (occurs.countNodes_le _)
    simp [Code.reference, countNodes, countNodesInFields, spells, Fields.get, text?,
      Kind.isVariable]
  | kept tree =>
    rcases visited with keep | scalar
    · cases keep
    · cases tree with
      | list | node => cases scalar
      | null | bool | num | str => exact absurd rfl nonempty
  | node | function | opening => exact absurd rfl nonempty
  | statements items => cases visited.1
  | removed | reference => exact visited.elim

end Woven

/-- An arrow function that returns an expression gets a block with the hooks and a `return`. -/
theorem HookGroup.spliceBody_expression {groups : List HookGroup} (some : groups ≠ [])
    {body : Tree} (notNull : body ≠ .null) (notBlock : ∀ fields, body ≠ .node .blockStatement fields) :
    spliceBody groups body =
      .node .blockStatement [(.stmts, .list (splice [] groups ++ [Code.returnValue body]))] := by
  unfold spliceBody
  rw [if_neg (fun empty => some (List.isEmpty_iff.mp empty))]
  split
  case h_1 => exact absurd rfl notNull
  case h_2 fields => exact absurd rfl (notBlock fields)
  case h_3 => rfl

/-- A block gets hooks among its statements. -/
theorem HookGroup.spliceBody_statements {groups : List HookGroup} (some : groups ≠ [])
    {before after : Fields} (others : ∀ part ∈ before ++ after, part.1 ≠ .stmts)
    (statements : List Tree) :
    spliceBody groups (.node .blockStatement (before ++ (.stmts, .list statements) :: after)) =
      .node .blockStatement (before ++ (.stmts, .list (splice statements groups)) :: after) := by
  have unchanged {parts : Fields} (others : ∀ part ∈ parts, part.1 ≠ .stmts) :
      parts.map (fun part => (part.1, splicePart groups part.1 part.2)) = parts := by
    refine (List.map_congr_left fun part member => ?_).trans (List.map_id' parts)
    rw [splicePart_of_ne (others part member)]
  rw [spliceBody_node some, List.map_append, List.map_cons,
    unchanged fun part member => others part (List.mem_append_left _ member),
    unchanged fun part member => others part (List.mem_append_right _ member)]
  rfl

/-- A body that takes hooks has them among its statements. -/
structure HookGroup.Takes (counted : Kind → Bool) (name : String) (groups : List HookGroup)
    (body : Tree) : Prop where
  all : ∀ hook ∈ groups.flatMap HookGroup.hooks,
    hook ∈ ((HookGroup.spliceBody groups body).get .stmts).items
  counts : (HookGroup.spliceBody groups body).countNodes (spells counted name) =
    countNodesInItems (spells counted name) ((HookGroup.spliceBody groups body).get .stmts).items
  adds : (HookGroup.spliceBody groups body).countNodes (spells counted name) =
    body.countNodes (spells counted name) +
      countNodesInItems (spells counted name) (groups.flatMap HookGroup.hooks)

theorem HookGroup.mem_splice {groups : List HookGroup} {hook : Tree}
    (member : hook ∈ groups.flatMap hooks) (statements : List Tree) :
    hook ∈ splice statements groups := by
  refine (splice_interleaved statements groups).perm.mem_iff.mpr (List.mem_append_right _ ?_)
  exact ((sorted_perm groups).flatMap_right hooks).mem_iff.mpr member

namespace Woven

variable (runtimeGlobal : String) {counted : Kind → Bool} {handle : ElementHandle}

/-- What is kept is not changed. -/
theorem Follows.kept {woven : Woven} {enclosure : Enclosure} (follows : woven.Follows enclosure .keep) :
    woven.tree runtimeGlobal = woven.source := by
  cases woven with
  | kept tree => rfl
  | list items => exact follows.elim
  | statements items => cases follows.1
  | node | function | opening => exact absurd rfl follows.1
  | removed | reference => exact follows.elim

/-- The block that is the body of a component: its statements are woven, and its other parts are
kept. -/
theorem Spares.block {parts : List (Field × Woven)} {enclosure : Enclosure}
    (spares : Spares counted handle (Woven.node .blockStatement parts))
    (follows : (Woven.node .blockStatement parts).Follows enclosure .componentBody) :
    ∃ before items after, parts = before ++ (.stmts, statements items) :: after ∧
      ∀ part ∈ before ++ after, part.1 ≠ .stmts ∧
        (part.2.tree runtimeGlobal).countNodes (spells counted handle.name) = 0 := by
  obtain ⟨_, _, _, carries⟩ := spares
  have lacks := carries.node rfl rfl
  obtain ⟨distinct, listed, -⟩ := isWellFormed_node lacks.1
  obtain ⟨-, -, -, within⟩ := follows
  have isList := listed rfl
  unfold Fields.get at isList
  rw [lookup_sourcesInParts] at isList
  cases found : parts.lookup .stmts with
  | none =>
    rw [found] at isList
    cases isList
  | some body =>
    obtain ⟨before, after, rfl, absent⟩ := List.lookup_eq_some_iff.mp found
    have held : body.Follows _ .statements := within.member
      (List.mem_append_right _ List.mem_cons_self)
    have listedBody : body.source.isList = true := by
      rw [found] at isList
      exact isList
    obtain ⟨items, rfl, -⟩ := held.exists_statements listedBody
    refine ⟨before, items, after, rfl, ?_⟩
    rintro ⟨field, item⟩ among
    have other : field ≠ .stmts := by
      rw [sourcesInParts_append, sourcesInParts, List.map_append, List.map_cons,
        List.nodup_append] at distinct
      obtain ⟨-, distinctAfter, -⟩ := distinct
      rcases List.mem_append.mp among with first | last
      · exact fun same => by simpa [same] using absent (field, item) first
      · rintro same
        refine (List.nodup_cons.mp distinctAfter).1 (List.mem_map.mpr ⟨(field, item.source), ?_,
          same⟩)
        exact mem_sourcesInParts last
    have member : (field, item) ∈ before ++ (.stmts, statements items) :: after :=
      List.mem_append.mpr ((List.mem_append.mp among).imp_right (List.mem_cons_of_mem _))
    have visited := within.member member
    have step : Step.componentBody.within .blockStatement
        (sourcesInParts (before ++ (.stmts, statements items) :: after)) field = .keep := by
      rw [Step.within, if_pos ⟨rfl, rfl⟩, if_neg other]
    rw [step] at visited
    refine ⟨other, ?_⟩
    rw [visited.kept]
    exact ((hereditary_lacks counted handle.name).part lacks (mem_sourcesInParts member)).2

/-- The body of a component takes hooks. -/
theorem Spares.takes (names : ∀ kind, counted kind = true → kind.isVariable = true)
    {item : Woven} (spares : Spares counted handle item) {enclosure : Enclosure}
    (follows : item.Follows enclosure .componentBody)
    (notNull : item.tree runtimeGlobal ≠ .null) {groups : List HookGroup} (some : groups ≠ []) :
    HookGroup.Takes counted handle.name groups (item.tree runtimeGlobal) := by
  by_cases isBlock : ∃ fields, item.tree runtimeGlobal = .node .blockStatement fields
  · obtain ⟨fields, shape⟩ := isBlock
    have woven : ∃ parts, item = Woven.node .blockStatement parts := by
      cases item with
      | node kind parts =>
        injection shape with same
        exact ⟨parts, congrArg (Woven.node · parts) same⟩
      | kept tree =>
        rcases follows with keep | scalar
        · cases keep
        · cases shape
          cases scalar
      | list | statements => cases shape
      | function kind =>
        injection shape with same
        exact absurd same (Kind.ne_block_of_isFunction follows.2.1)
      | opening => cases shape
      | removed | reference => exact follows.elim
    obtain ⟨parts, rfl⟩ := woven
    obtain ⟨before, items, after, rfl, others⟩ := spares.block runtimeGlobal follows
    have same : (Woven.node .blockStatement (before ++ (.stmts, statements items) :: after)).tree
        runtimeGlobal = .node .blockStatement (treesInParts runtimeGlobal before ++
          (.stmts, .list (trees runtimeGlobal items)) :: treesInParts runtimeGlobal after) := by
      rw [tree, treesInParts_append, treesInParts, tree]
    have elsewhere : ∀ part ∈ treesInParts runtimeGlobal before ++ treesInParts runtimeGlobal after,
        part.1 ≠ .stmts ∧ part.2.countNodes (spells counted handle.name) = 0 := by
      rw [← treesInParts_append, treesInParts_eq_map]
      intro part member
      obtain ⟨other, among, rfl⟩ := List.mem_map.mp member
      exact others other among
    have becomes := HookGroup.spliceBody_statements some
      (fun part member => (elsewhere part member).1) (trees runtimeGlobal items)
    have count (statements : List Tree) : (Tree.node .blockStatement (treesInParts runtimeGlobal
        before ++ (.stmts, .list statements) :: treesInParts runtimeGlobal after)).countNodes
          (spells counted handle.name) =
        countNodesInItems (spells counted handle.name) statements := by
      rw [countNodes, spells_other names rfl, countNodesInFields_append, countNodesInFields,
        countNodes, countNodesInFields_eq_zero _ fun part member =>
          (elsewhere part (List.mem_append_left _ member)).2,
        countNodesInFields_eq_zero _ fun part member =>
          (elsewhere part (List.mem_append_right _ member)).2, Bool.toNat_false]
      omega
    have list (statements : List Tree) : ((Tree.node .blockStatement (treesInParts runtimeGlobal
        before ++ (.stmts, .list statements) :: treesInParts runtimeGlobal after)).get
          .stmts).items = statements := by
      rw [Tree.get, Fields.get, List.lookup_eq_some_iff.mpr ⟨_, _, rfl, ?_⟩]
      · rfl
      · intro part member
        exact bne_iff_ne.mpr (elsewhere part (List.mem_append_left _ member)).1.symm
    rw [same]
    refine ⟨fun hook member => ?_, ?_, ?_⟩
    · rw [becomes, list]
      exact HookGroup.mem_splice member _
    · rw [becomes, list, count]
    · rw [becomes, count, count, HookGroup.countNodesInItems_splice]
  · rw [not_exists] at isBlock
    have becomes := HookGroup.spliceBody_expression some notNull isBlock
    have list : ((HookGroup.spliceBody groups (item.tree runtimeGlobal)).get .stmts).items =
        HookGroup.splice [] groups ++ [Code.returnValue (item.tree runtimeGlobal)] := by
      rw [becomes]
      rfl
    have returned : (Code.returnValue (item.tree runtimeGlobal)).countNodes
        (spells counted handle.name) =
        (item.tree runtimeGlobal).countNodes (spells counted handle.name) := by
      rw [Code.returnValue, countNodes, spells_other names rfl, countNodesInFields,
        countNodesInFields]
      exact Nat.zero_add _
    refine ⟨fun hook member => ?_, ?_, ?_⟩
    · rw [list]
      exact List.mem_append_left _ (HookGroup.mem_splice member [])
    · rw [list, becomes, countNodes, spells_other names rfl, countNodesInFields,
        countNodesInFields, countNodes]
      exact Nat.zero_add _
    · rw [becomes, countNodes, spells_other names rfl, countNodesInFields, countNodesInFields,
        countNodes, countNodesInItems_append, HookGroup.countNodesInItems_splice,
        countNodesInItems, countNodesInItems, countNodesInItems, returned, Bool.toNat_false]
      omega

/-- The hooks of an element are among those of its component. -/
theorem mem_groups {elements : List Treatment} {treatment : Treatment} (member : treatment ∈ elements)
    (given : treatment.handle? = some handle) (scan : BodyScan) :
    groups runtimeGlobal (some scan) elements ≠ [] ∧
      Hooks.declaration handle ∈
        (groups runtimeGlobal (some scan) elements).flatMap HookGroup.hooks := by
  cases outcome : treatment.outcome with
  | plain | refused reason => simp [Treatment.handle?, Treatment.allocation?, outcome] at given
  | instrumented allocation position shared =>
    have same : allocation.handle = handle := by
      simpa [Treatment.handle?, Treatment.allocation?, outcome] using given
    have grouped : HookGroup.mk position
        (Hooks.ofElement handle runtimeGlobal treatment.markers) ∈
        groups runtimeGlobal (some scan) elements := by
      refine List.mem_filterMap.mpr ⟨treatment, member, ?_⟩
      unfold Treatment.group?
      rw [outcome, ← same]
    exact ⟨List.ne_nil_of_mem grouped,
      List.mem_flatMap.mpr ⟨_, grouped, List.mem_cons_self⟩⟩

/-- A component whose body holds the element: outside of the body, the variable does not occur. -/
theorem Spares.function_body (names : ∀ kind, counted kind = true → kind.isVariable = true)
    {kind : Kind} {outer : List (Field × Woven)} {scan : BodyScan} {inner : List (Field × Woven)}
    {item : Woven} (spares : Spares counted handle (function kind outer (some scan) inner))
    (member : (.body, item) ∈ inner) (here : 0 < sharers handle item.elements)
    (unique : sharers handle (function kind outer (some scan) inner).treatments ≤ 1) :
    ((function kind outer (some scan) inner).tree runtimeGlobal).get .body =
        HookGroup.spliceBody (groups runtimeGlobal (some scan) (elementsInParts inner))
          (item.tree runtimeGlobal) ∧
      ((function kind outer (some scan) inner).tree runtimeGlobal).countNodes
          (spells counted handle.name) =
        (HookGroup.spliceBody (groups runtimeGlobal (some scan) (elementsInParts inner))
          (item.tree runtimeGlobal)).countNodes (spells counted handle.name) ∧
      ∃ enclosure, item.Follows enclosure .componentBody := by
  have spared : ∀ part ∈ outer ++ inner, Spares counted handle part.2 ∧ part.2.isRemoved = false := by
    intro part among
    rcases List.mem_append.mp among with first | second
    · exact spares.part (.outer first) fun _ _ same => Woven.noConfusion same
    · exact spares.part (.inner second) fun _ _ same => Woven.noConfusion same
  obtain ⟨_, _, decided, carries⟩ := spares
  obtain ⟨distinct, -⟩ := isWellFormed_node (carries.node rfl rfl).1
  cases decided with
  | follows follows =>
    obtain ⟨-, isFunction, keys, -, -, within⟩ := follows
    obtain ⟨before, after, rfl⟩ := List.append_of_mem member
    have notVariable : kind.isVariable = false := by
      rcases Kind.isFunction_cases isFunction with rfl | rfl | rfl | rfl | rfl <;> rfl
    have others : ∀ part ∈ outer ++ (before ++ after), part.1 ≠ .body := by
      rw [sourcesInParts_append, sourcesInParts, List.map_append, List.map_append, List.map_cons,
        List.nodup_append] at distinct
      obtain ⟨-, distinctInner, -⟩ := distinct
      have split := (List.nodup_middle.mp distinctInner)
      rw [← List.map_append, ← sourcesInParts_append] at split
      intro part among same
      rcases List.mem_append.mp among with first | second
      · rw [keys part first] at same
        cases same
      · exact (List.nodup_cons.mp split).1 (List.mem_map.mpr
          ⟨(part.1, part.2.source), mem_sourcesInParts second, same⟩)
    -- The element is in the body, so the other parts do not spell the variable.
    have bodyElements := sharers_treatments handle item
    rw [treatments, treatmentsInParts_append, treatmentsInParts, sharers_append, sharers_append,
      sharers_append] at unique
    have absent (parts : List (Field × Woven))
        (among : ∀ part ∈ parts, part ∈ outer ++ (before ++ (.body, item) :: after))
        (free : sharers handle (treatmentsInParts parts) = 0) :
        countNodesInFields (spells counted handle.name) (treesInParts runtimeGlobal parts) = 0 := by
      have split := sharers_treatmentsInParts handle parts
      exact Spares.countNodesInFields_trees runtimeGlobal names parts
        (fun part member => spared part (among part member)) (fun _ => free) (by omega)
    have outside := absent outer (fun part => List.mem_append_left _) (by omega)
    have earlier := absent before
      (fun part among => List.mem_append_right _ (List.mem_append_left _ among)) (by omega)
    have later := absent after
      (fun part among => List.mem_append_right _
        (List.mem_append_right _ (List.mem_cons_of_mem _ among))) (by omega)
    have image {parts : List (Field × Woven)} (among : ∀ part ∈ parts, part.1 ≠ .body) :
        ∀ part ∈ treesInParts runtimeGlobal parts, part.1 ≠ .body := by
      rw [treesInParts_eq_map]
      intro part member
      obtain ⟨other, found, rfl⟩ := List.mem_map.mp member
      exact among other found
    rw [tree]
    generalize groups runtimeGlobal (some scan)
      (elementsInParts (before ++ (.body, item) :: after)) = hooks
    have shape : (treesInParts runtimeGlobal (before ++ (.body, item) :: after)).spliceBody hooks =
        treesInParts runtimeGlobal before ++
          (.body, HookGroup.spliceBody hooks (item.tree runtimeGlobal)) ::
            treesInParts runtimeGlobal after := by
      rw [treesInParts_append, treesInParts, Fields.spliceBody_append,
        ← List.singleton_append, Fields.spliceBody_append,
        Fields.spliceBody_of_absent (image fun part among => others part
          (List.mem_append_right _ (List.mem_append_left _ among))),
        Fields.spliceBody_of_absent (image fun part among => others part
          (List.mem_append_right _ (List.mem_append_right _ among)))]
      rfl
    refine ⟨?_, ?_, _, within.member member⟩
    · rw [shape, ← List.append_assoc, Tree.get, Fields.get,
        List.lookup_eq_some_iff.mpr ⟨_, _, rfl, fun part among => ?_⟩]
      · rfl
      · refine bne_iff_ne.mpr (Ne.symm ?_)
        rcases List.mem_append.mp among with first | second
        · exact image (fun part among => others part (List.mem_append_left _ among)) part first
        · exact image (fun part among => others part
            (List.mem_append_right _ (List.mem_append_left _ among))) part second
    · rw [shape, countNodes, spells_other names notVariable, countNodesInFields_append,
        countNodesInFields_append, countNodesInFields, outside, earlier, later, Bool.toNat_false]
      omega

/-- What is declared and counted in a component whose body holds an element. -/
structure Declares (runtimeGlobal : String) (counted : Kind → Bool) (handle : ElementHandle)
    (component : Woven) : Prop where
  declared : Hooks.declaration handle ∈ component.bodyStatements runtimeGlobal
  counts : (component.tree runtimeGlobal).countNodes (spells counted handle.name) =
    countNodesInItems (spells counted handle.name) (component.bodyStatements runtimeGlobal)
  once : counted .identifier = false →
    (component.tree runtimeGlobal).countNodes (spells counted handle.name) =
      (counted .binding).toNat

/-- A tree with an element is not missing. -/
theorem Owned.tree_ne_null {treatment : Treatment} {parts : List (Field × Woven)}
    {path : List Frame} {whole : Woven} (owned : (opening treatment parts).Owned path whole)
    {enclosure : Enclosure} {step : Step} (decided : Decided enclosure step whole) :
    whole.tree runtimeGlobal ≠ .null := by
  intro missing
  have occurs := owned.within.occurs runtimeGlobal rfl Kind.noConfusion rfl decided
  rw [missing] at occurs
  cases occurs

/-- A component declares the variable of an element in its body. -/
theorem Hosts.declares (names : ∀ kind, counted kind = true → kind.isVariable = true)
    {component : Woven} {treatment : Treatment} {field? : Option Field} {path : List Frame}
    (hosts : component.Hosts treatment field? path) (given : treatment.handle? = some handle)
    (spares : Spares counted handle component) (unique : sharers handle component.treatments ≤ 1)
    (inBody : ∀ field ∈ field?, field = .body) :
    Declares runtimeGlobal counted handle component := by
  obtain @⟨_, scan, item, parts, path, held, owned⟩ := hosts
  have here : 0 < sharers handle item.elements :=
    sharers_pos.mpr ⟨treatment, owned.mem_elements, given⟩
  have split := sharers_treatments handle item
  have clean := spares.clean
  cases held with
  | @inner kind outer _ inner field _ member =>
    obtain rfl : field = .body := inBody field rfl
    obtain ⟨body, count, enclosure, follows⟩ :=
      spares.function_body runtimeGlobal names member here unique
    obtain ⟨some, declaration⟩ := mem_groups runtimeGlobal
      (mem_elementsInParts member owned.mem_elements) given scan
    have spared := spares.held (fun _ _ same => Woven.noConfusion same) (.inner member)
    have takes := spared.takes runtimeGlobal names follows
      (owned.tree_ne_null runtimeGlobal (.follows follows)) some
    have statements : (function kind outer (Option.some scan) inner).bodyStatements runtimeGlobal =
        ((HookGroup.spliceBody (groups runtimeGlobal (Option.some scan) (elementsInParts inner))
          (item.tree runtimeGlobal)).get .stmts).items := by
      rw [bodyStatements, renderer, body]
      intro _ _ _ same
      cases same
    refine ⟨?_, ?_, fun declares => ?_⟩
    · rw [statements]
      exact takes.all _ declaration
    · rw [statements, count, takes.counts]
    · have bound := sharers_le_parts handle member
      have hosted := sharers_treatmentsInParts handle inner
      have elements : 0 < sharers handle (elementsInParts inner) :=
        sharers_pos.mpr ⟨treatment, mem_elementsInParts member owned.mem_elements, given⟩
      rw [treatments, sharers_append] at unique
      have hooks := countNodesInItems_hooks runtimeGlobal names
        (fun treatment (among : treatment ∈ elementsInParts inner) =>
          clean treatment (List.mem_append_right _
          ((treatmentsInParts_perm inner).mem_iff.mpr (List.mem_append_left _ among))))
        (fun uses => absurd (uses.symm.trans declares) Bool.true_eq_false.mp)
      have single : sharers handle (elementsInParts inner) = 1 := by omega
      have bare := Spares.countNodes_tree runtimeGlobal names item spared
        (fun uses => absurd (uses.symm.trans declares) Bool.true_eq_false.mp) (by omega)
        follows.ordinary.1
      rw [count, takes.adds, bare, Nat.zero_add]
      exact hooks.trans (by rw [single, Nat.mul_one])
  | @replaced attachment replaced _ _ member =>
    obtain ⟨alone, elsewhere, spreads⟩ := spares.attachment
    obtain ⟨some, declaration⟩ := mem_groups runtimeGlobal
      (mem_elementsInItems member owned.mem_elements) given scan
    have spared := spares.held (fun _ _ same => Woven.noConfusion same) (.replaced member)
    have ordinary : item.isRemoved = false := by
      obtain ⟨_, _, decided, -⟩ := spares
      cases decided with
      | follows follows => exact follows.elim
      | reference _ _ follows => exact (follows.member member).ordinary.1
    obtain rfl : replaced = [item] := by
      match replaced, alone, member with
      | [only], _, member => rw [List.mem_singleton.mp member]
    have explicit : (trees runtimeGlobal [item]).head? = Option.some (item.tree runtimeGlobal) := by
      rw [trees, if_neg (Bool.eq_false_iff.mp ordinary)]
      rfl
    obtain ⟨reference, found⟩ :=
      ElementRef.exists_forwarded (item.tree runtimeGlobal) attachment.spreads
    have statements : (Woven.reference attachment [item] (Option.some scan)).bodyStatements
        runtimeGlobal = HookGroup.splice (ElementRef.forwardingBody attachment.handle reference)
          (groups runtimeGlobal (Option.some scan) (elementsInItems [item])) := by
      rw [bodyStatements, renderer, tree, explicit, Attachment.attribute, found]
      rfl
    refine ⟨?_, ?_, fun declares => ?_⟩
    · rw [statements]
      exact HookGroup.mem_splice declaration _
    · rw [statements, tree, explicit]
      exact attachment.countNodes_statements names found _
    · have hosted := sharers_treatmentsInItems handle [item]
      have elements : 0 < sharers handle (elementsInItems [item]) :=
        sharers_pos.mpr ⟨treatment, mem_elementsInItems member owned.mem_elements, given⟩
      have bound := sharers_le_items handle member
      rw [treatments] at unique
      have hooks := countNodesInItems_hooks runtimeGlobal names
        (fun treatment (among : treatment ∈ elementsInItems [item]) => clean treatment
          ((treatmentsInItems_perm [item]).mem_iff.mpr (List.mem_append_left _ among)))
        (fun uses => absurd (uses.symm.trans declares) Bool.true_eq_false.mp)
      have single : sharers handle (elementsInItems [item]) = 1 := by omega
      have bare := Spares.countNodes_tree runtimeGlobal names item spared
        (fun uses => absurd (uses.symm.trans declares) Bool.true_eq_false.mp) (by omega) ordinary
      rw [tree, explicit, attachment.countNodes_attribute names elsewhere _ _ spreads
          (fun missing => absurd missing (Option.some_ne_none _)),
        Option.toList_some, countNodesInItems, bare]
      exact (Nat.zero_add _).trans (hooks.trans (by rw [single, Nat.mul_one]))

/-- The statements of a component stand in it. -/
theorem bodyStatements_le (test : Kind → Fields → Bool) (component : Woven) :
    countNodesInItems test (component.bodyStatements runtimeGlobal) ≤
      (component.tree runtimeGlobal).countNodes test := by
  have renders : (component.renderer runtimeGlobal).countNodes test ≤
      (component.tree runtimeGlobal).countNodes test := by
    unfold renderer
    split
    · exact Nat.le_trans (countNodes_get_le test _ _) (countNodes_get_le test _ _)
    · exact Nat.le_refl _
  exact Nat.le_trans (countNodesInItems_le test _) (Nat.le_trans (countNodes_get_le test _ _)
    (Nat.le_trans (countNodes_get_le test _ _) renders))

/-- A component that uses the variable outside of its body does not use it in its body only. -/
theorem Hosts.used_outside {component : Woven} {treatment : Treatment} {field? : Option Field} {path : List Frame}
    (hosts : component.Hosts treatment field? path) (given : treatment.handle? = some handle)
    {enclosure : Enclosure} {step : Step} (decided : Decided enclosure step component)
    (outside : ∃ field ∈ field?, field ≠ .body) :
    countNodesInItems (spells Kind.isVariable handle.name)
        (component.bodyStatements runtimeGlobal) <
      (component.tree runtimeGlobal).countNodes (spells Kind.isVariable handle.name) := by
  obtain @⟨_, scan, item, parts, path, held, owned⟩ := hosts
  obtain ⟨other, found, notBody⟩ := outside
  obtain ⟨_, _, decidedItem, -⟩ := decided.held held
  have occurs := owned.within.occurs runtimeGlobal rfl Kind.noConfusion rfl decidedItem
  have uses : 0 < (item.tree runtimeGlobal).countNodes (spells Kind.isVariable handle.name) := by
    obtain ⟨_, _, decidedTag⟩ := owned.within.decided decidedItem
    cases decidedTag with
    | follows follows =>
      exact Nat.lt_of_lt_of_le (opening_uses runtimeGlobal follows given) (occurs.countNodes_le _)
  cases held with
  | replaced => cases found
  | @inner kind outer _ inner field _ member =>
    obtain rfl : field = other := Option.some.inj found
    have kept : (field, item.tree runtimeGlobal) ∈ treesInParts runtimeGlobal outer ++
        (treesInParts runtimeGlobal inner).spliceBody
          (groups runtimeGlobal (some scan) (elementsInParts inner)) := by
      have spliced := Fields.mem_spliceBody (mem_treesInParts runtimeGlobal member)
        (groups runtimeGlobal (some scan) (elementsInParts inner))
      rw [if_neg notBody] at spliced
      exact List.mem_append_right _ spliced
    have apart := countNodes_add_get_le (spells Kind.isVariable handle.name) kept notBody
    have inBody : countNodesInItems (spells Kind.isVariable handle.name)
        ((function kind outer (some scan) inner).bodyStatements runtimeGlobal) ≤
        ((((function kind outer (some scan) inner).tree runtimeGlobal).get .body).countNodes
          (spells Kind.isVariable handle.name)) :=
      Nat.le_trans (countNodesInItems_le _ _) (countNodes_get_le _ _ _)
    rw [tree] at inBody ⊢
    rw [countNodes]
    change _ ≤ (Fields.get _ .body).countNodes _ at inBody
    omega

end Woven

/-- The declaration of a handle is no part of itself. -/
theorem Hooks.declaration_copies (handle : ElementHandle) :
    (declaration handle).countNodes (isCopy (declaration handle)) = 1 := by
  simp [declaration, Code.constant, Code.call, Code.reference, Code.binding, Code.arguments,
    Code.nullLiteral, countNodes, countNodesInItems, countNodesInFields, isCopy]

theorem Hooks.declaration_binds (handle : ElementHandle) :
    1 ≤ (declaration handle).countNodes (spells Kind.isBinding handle.name) := by
  simp [declaration, Code.constant, Code.call, Code.reference, Code.binding, Code.arguments,
    Code.nullLiteral, countNodes, countNodesInItems, countNodesInFields, spells, Kind.isBinding,
    Fields.get, text?]

/-- The imports added to a module do not spell the variable of a handle. -/
theorem Imports.countNodesInItems_inject {counted : Kind → Bool}
    (names : ∀ kind, counted kind = true → kind.isVariable = true) (handle : ElementHandle)
    (url : String) (items : List Tree) :
    countNodesInItems (spells counted handle.name) (inject url items).1 =
      countNodesInItems (spells counted handle.name) items := by
  have inserted (items : List Tree) (index : Nat) {added : Tree}
      (free : added.countNodes (spells counted handle.name) = 0) :
      countNodesInItems (spells counted handle.name) (insertAt items index added) =
        countNodesInItems (spells counted handle.name) items := by
    have whole := congrArg (countNodesInItems (spells counted handle.name))
      (List.take_append_drop index items)
    rw [countNodesInItems_append] at whole
    rw [insertAt, countNodesInItems_append, countNodesInItems, free]
    omega
  have runtimeFree : (runtime url).countNodes (spells counted handle.name) = 0 := by
    simp (disch := decide) [runtime, declaration, Code.string, countNodes, countNodesInItems,
      countNodesInFields, spells_other names]
  have hooksFree : hooks.countNodes (spells counted handle.name) = 0 := by
    simp (disch := decide) [hooks, declaration, renamed, Code.string, Code.reference, countNodes,
      countNodesInItems, countNodesInFields, spells_other names]
    simp (disch := decide) [spells, Fields.get, text?, ElementHandle.ne_name,
      HookNames.useCallback, HookNames.useEffect, HookNames.useRef]
  have loaded : countNodesInItems (spells counted handle.name) (withRuntime url items).1 =
      countNodesInItems (spells counted handle.name) items := by
    unfold withRuntime
    split
    · rfl
    · exact inserted items _ runtimeFree
  unfold inject
  simp only
  split
  · exact loaded
  · rw [inserted _ _ hooksFree, loaded]

open Woven in
/-- A component that hosts an element stands in the module as an instrumented node. -/
theorem Woven.Hosts.occurs (runtimeGlobal : String) {component whole : Woven} {treatment : Treatment}
    {field? : Option Field} {path : List Frame} (hosts : component.Hosts treatment field? path)
    (within : component.Within whole) {enclosure : Enclosure} {step : Step}
    (decided : Decided enclosure step whole) :
    (component.tree runtimeGlobal).Occurs (whole.tree runtimeGlobal) := by
  obtain ⟨held, -⟩ := hosts
  cases held with
  | inner member =>
    obtain ⟨_, _, decidedComponent⟩ := within.decided decided
    cases decidedComponent with
    | follows follows =>
      exact within.occurs runtimeGlobal rfl (Kind.ne_block_of_isFunction follows.2.1) rfl decided
  | replaced member => exact within.occurs runtimeGlobal rfl Kind.noConfusion rfl decided

/-- The trees of a module spell the variable of a handle only where instrumentation does. -/
theorem weaveModule_spares (source? : Option String) {items : List Tree}
    (wellFormed : itemsAreWellFormed items = true) {counted : Kind → Bool}
    (names : ∀ kind, counted kind = true → kind.isVariable = true) {handle : ElementHandle}
    (given : handle ∈ Woven.handles (Woven.treatmentsInItems (weaveModule source? items))) :
    (Woven.list (weaveModule source? items)).Spares counted handle := by
  obtain ⟨-, fresh⟩ := weaveModule_handles source? items
  refine ⟨.outside, .visit, .follows (weaveModule_follows source? items), ?_⟩
  change (Woven.list (weaveModule source? items)).source.Lacks counted handle.name
  rw [weaveModule_source]
  exact ⟨wellFormed, countNodesInItems_spells_eq_zero names items wellFormed
    (fresh handle given handle.name List.mem_cons_self)⟩

open Woven in
/-- A component that hosts an element stands in the instrumented module. -/
theorem Woven.Hosts.occurs_instrumentModule {options : Options} {file : String}
    {source? : Option String} {items : List Tree} {component : Woven} {treatment : Treatment}
    {field? : Option Field} {path : List Frame} (hosts : component.Hosts treatment field? path)
    (within : component.Within (.list (weaveModule source? items))) :
    (component.tree options.runtimeGlobal).Occurs
      (.list (instrumentModule options file source? items).items) := by
  have follows := weaveModule_follows source? items
  cases within with
  | self =>
    obtain ⟨held, -⟩ := hosts
    cases held
  | step held inside =>
    cases held with
    | item member =>
      exact .item (mem_instrumentModule member)
        (hosts.occurs options.runtimeGlobal inside (.follows (follows.member member)))

/-- `function Page({ icon = <div data-track-click="buy" /> }) { return null; }` -/
def iconPage : Tree :=
  .node .functionDeclaration
    [(.identifier, Code.reference "Page"),
      (.params, .list [.node .parameter [(.pat, .node .objectPattern
        [(.properties, .list [.node .assignmentPatternProperty
          [(.key, Code.binding "icon"),
            (.value, markedElement "div" "data-track-click" (Code.string "buy"))]])])]]),
      (.body, Code.block [Code.returnValue Code.nullLiteral])]

end JsxTracking
