import JsxTracking.Proofs.KeptScopes
import JsxTracking.Proofs.OutputAgreement

/-! # The scopes around inserted hooks

`Tree.boundAround` lists what a tree binds around some of its nodes. Hooks are put into the body of a
component, and the body into an instrumented module. What the module binds around the hooks is, apart
from the names of generated variables, what it bound around that body before
(`bound_around_hooks`). -/

namespace JsxTracking

open JsxTracking.Tree

/-- Whether a name is one that instrumentation may declare in a body: that of a handle, or one in a
function that forwards a reference. -/
def IsGenerated (name : String) : Prop :=
  name ∈ Scope.ofForwarding.names ∨ ∃ handle : ElementHandle, name ∈ handle.ownNames

/-- Two lists hold the same names, apart from generated ones. -/
def SameNames (first second : List String) : Prop :=
  ∀ name, ¬IsGenerated name → (name ∈ first ↔ name ∈ second)

namespace SameNames

variable {first second third : List String}

theorem refl (names : List String) : SameNames names names :=
  fun _ _ => Iff.rfl

theorem symm (same : SameNames first second) : SameNames second first :=
  fun name ordinary => (same name ordinary).symm

theorem trans (same : SameNames first second) (same' : SameNames second third) :
    SameNames first third :=
  fun name ordinary => (same name ordinary).trans (same' name ordinary)

theorem append {first' second' : List String} (same : SameNames first second)
    (same' : SameNames first' second') : SameNames (first ++ first') (second ++ second') := by
  intro name ordinary
  rw [List.mem_append, List.mem_append, same name ordinary, same' name ordinary]

/-- Generated names may be added. -/
theorem append_generated {added : List String} (generated : ∀ name ∈ added, IsGenerated name)
    (names : List String) : SameNames (names ++ added) names := by
  intro name ordinary
  rw [List.mem_append, or_iff_left fun member => ordinary (generated name member)]

end SameNames

/-- The names that some scopes bind. -/
def Scope.allNames (scopes : List Scope) : List String :=
  scopes.flatMap Scope.names

namespace Tree

mutual

/-- What a tree binds around each of the nodes in it that pass a test. -/
def boundAround (test : Kind → Fields → Bool) : Tree → List (List String)
  | node kind fields => (if test kind fields then [[]] else []) ++
    boundAroundInFields test kind fields fields
  | list items => boundAroundInItems test items
  | _ => []

/-- What the trees of a list bind around each of the nodes in them that pass a test. -/
def boundAroundInItems (test : Kind → Fields → Bool) : List Tree → List (List String)
  | [] => []
  | item :: rest => boundAround test item ++ boundAroundInItems test rest

/-- What a node binds around each of the nodes in some of its parts that pass a test. -/
def boundAroundInFields (test : Kind → Fields → Bool) (kind : Kind) (whole : Fields) :
    List (Field × Tree) → List (List String)
  | [] => []
  | (field, part) :: rest =>
    (boundAround test part).map (· ++ Scope.allNames (scopesIn kind whole field)) ++
      boundAroundInFields test kind whole rest

end

mutual

/-- There is one list of names for every node. -/
theorem length_boundAround (test : Kind → Fields → Bool) :
    ∀ tree : Tree, (tree.boundAround test).length = tree.countNodes test
  | node kind fields => by
    rw [boundAround, List.length_append, length_boundAroundInFields test kind fields fields,
      countNodes]
    cases test kind fields <;> rfl
  | list items => length_boundAroundInItems test items
  | null | bool _ | num _ | str _ => rfl

/-- `Tree.length_boundAround` for a list of trees. -/
theorem length_boundAroundInItems (test : Kind → Fields → Bool) :
    ∀ items : List Tree, (boundAroundInItems test items).length = countNodesInItems test items
  | [] => rfl
  | item :: rest => by
    rw [boundAroundInItems, List.length_append, length_boundAround test item,
      length_boundAroundInItems test rest, countNodesInItems]

/-- `Tree.length_boundAround` for the parts of a node. -/
theorem length_boundAroundInFields (test : Kind → Fields → Bool) (kind : Kind) (whole : Fields) :
    ∀ fields : List (Field × Tree),
      (boundAroundInFields test kind whole fields).length = countNodesInFields test fields
  | [] => rfl
  | (field, part) :: rest => by
    rw [boundAroundInFields, List.length_append, List.length_map, length_boundAround test part,
      length_boundAroundInFields test kind whole rest, countNodesInFields]

end

section

variable {test : Kind → Fields → Bool} {bound : List String}

theorem mem_boundAroundInItems {items : List Tree} :
    bound ∈ boundAroundInItems test items ↔ ∃ item ∈ items, bound ∈ item.boundAround test := by
  induction items with
  | nil => simp [boundAroundInItems]
  | cons item rest ih => simp [boundAroundInItems, ih]

theorem mem_boundAroundInFields {kind : Kind} {whole fields : Fields} :
    bound ∈ boundAroundInFields test kind whole fields ↔
      ∃ part ∈ fields, ∃ inner ∈ part.2.boundAround test,
        bound = inner ++ Scope.allNames (scopesIn kind whole part.1) := by
  induction fields with
  | nil => simp [boundAroundInFields]
  | cons part rest ih => simp [boundAroundInFields, ih, eq_comm]

end

/-- Around a node in a tree that passes a test, the tree binds the given names, as far as they are not
generated. -/
def Reaches (test : Kind → Fields → Bool) (tree : Tree) (names : List String) : Prop :=
  ∃ bound ∈ tree.boundAround test, SameNames bound names

namespace Reaches

variable {test : Kind → Fields → Bool} {tree part : Tree} {names : List String}

theorem congr {others : List String} (same : SameNames names others)
    (reaches : tree.Reaches test names) : tree.Reaches test others := by
  obtain ⟨bound, around, alike⟩ := reaches
  exact ⟨bound, around, alike.trans same⟩

theorem inItems {items : List Tree} (member : part ∈ items) (reaches : part.Reaches test names) :
    (list items).Reaches test names := by
  obtain ⟨bound, around, alike⟩ := reaches
  exact ⟨bound, mem_boundAroundInItems.mpr ⟨part, member, around⟩, alike⟩

theorem inPart {kind : Kind} {fields : Fields} {field : Field} (member : (field, part) ∈ fields)
    (reaches : part.Reaches test names) :
    (node kind fields).Reaches test (names ++ Scope.allNames (scopesIn kind fields field)) := by
  obtain ⟨bound, around, alike⟩ := reaches
  refine ⟨bound ++ Scope.allNames (scopesIn kind fields field), ?_, alike.append (.refl _)⟩
  exact List.mem_append_right _
    (mem_boundAroundInFields.mpr ⟨(field, part), member, bound, around, rfl⟩)

/-- A node that binds only generated names around a part. -/
theorem inGenerated {kind : Kind} {fields : Fields} {field : Field} (member : (field, part) ∈ fields)
    (generated : ∀ name ∈ Scope.allNames (scopesIn kind fields field), IsGenerated name)
    (reaches : part.Reaches test names) : (node kind fields).Reaches test names :=
  (reaches.inPart member).congr (.append_generated generated names)

/-- A node that binds nothing around a part. -/
theorem inPlain {kind : Kind} {fields : Fields} {field : Field} (member : (field, part) ∈ fields)
    (unscoped : scopesIn kind fields field = []) (reaches : part.Reaches test names) :
    (node kind fields).Reaches test names := by
  refine reaches.inGenerated member fun name found => ?_
  rw [unscoped] at found
  exact absurd found List.not_mem_nil

/-- A node sees nothing around itself. -/
theorem ofCopy (kind : Kind) (fields : Fields) :
    (node kind fields).Reaches (isCopy (node kind fields)) [] := by
  refine ⟨[], List.mem_append_left _ ?_, .refl []⟩
  rw [isCopy, if_pos (decide_eq_true rfl)]
  exact List.mem_cons_self

/-- A declaration binds nothing around its value: the name is bound around the declaration. -/
theorem inConstant (name : String) (reaches : part.Reaches test names) :
    (Code.constant name part).Reaches test names := by
  have declarator : (node .variableDeclarator
      [(.id, Code.binding name), (.initializer, part)]).Reaches test names :=
    reaches.inPlain (List.mem_cons_of_mem _ List.mem_cons_self) rfl
  exact (declarator.inItems List.mem_cons_self).inPlain List.mem_cons_self rfl

theorem inAttribute (name : String) (reaches : part.Reaches test names) :
    (Code.jsxAttribute name part).Reaches test names := by
  have container : (node .jsxExpressionContainer [(.expression, part)]).Reaches test names :=
    reaches.inPlain List.mem_cons_self rfl
  exact container.inPlain (List.mem_cons_of_mem _ List.mem_cons_self) rfl

end Reaches

/-- What a statement declares in the body it stands in is generated. -/
structure DeclaresGenerated (statement : Tree) : Prop where
  vars : statement.gather .vars = []
  names : ∀ name ∈ (Scope.ofStatements [statement]).names, IsGenerated name

theorem declaresGenerated_constant {name : String} (generated : IsGenerated name) (value : Tree) :
    (Code.constant name value).DeclaresGenerated where
  vars := rfl
  names found member := by
    obtain rfl : found = name := List.mem_singleton.mp member
    exact generated

/-- A statement that declares nothing. -/
theorem declaresGenerated_silent {statement : Tree} (vars : statement.gather .vars = [])
    (silent : Scope.ofStatements [statement] = {}) : statement.DeclaresGenerated where
  vars := vars
  names found member := by
    rw [silent] at member
    exact absurd member List.not_mem_nil

end Tree

/-- Hooks declare variables of their handle. -/
theorem Hooks.declaresGenerated (handle : ElementHandle) (runtimeGlobal : String)
    (markers : ElementMarkers) :
    ∀ hook ∈ ofElement handle runtimeGlobal markers, hook.DeclaresGenerated := by
  have own {name : String} (member : name ∈ handle.ownNames) : IsGenerated name :=
    Or.inr ⟨handle, member⟩
  intro hook member
  rcases List.mem_cons.mp member with rfl | marker
  · exact declaresGenerated_constant (own List.mem_cons_self) _
  obtain ⟨⟨kind, value⟩, -, among⟩ := List.mem_flatMap.mp marker
  cases kind with
  | visible =>
    simp only [ofMarker, visibility, List.mem_cons, List.not_mem_nil, or_false] at among
    rcases among with rfl | rfl | rfl
    · exact declaresGenerated_constant
        (own (List.mem_cons_of_mem _ (List.mem_cons_of_mem _ List.mem_cons_self))) _
    · exact declaresGenerated_silent rfl rfl
    · exact declaresGenerated_silent rfl rfl
  | click =>
    simp only [ofMarker, click, List.mem_cons, List.not_mem_nil, or_false] at among
    rcases among with rfl | rfl
    · exact declaresGenerated_constant (own (List.mem_cons_of_mem _ List.mem_cons_self)) _
    · exact declaresGenerated_silent rfl rfl

/-- The body of a forwarding function declares the reference that it forwards to. -/
theorem ElementRef.declaresGenerated (handle : ElementHandle) (reference : Tree) :
    ∀ statement ∈ forwardingBody handle reference, statement.DeclaresGenerated := by
  intro statement member
  simp only [forwardingBody, List.mem_cons, List.not_mem_nil, or_false] at member
  rcases member with rfl | rfl | rfl
  · exact declaresGenerated_silent rfl rfl
  · exact declaresGenerated_constant (Or.inl List.mem_cons_self) _
  · exact declaresGenerated_silent rfl rfl

/-- The scope of some statements binds what they bind one by one. -/
theorem Scope.mem_ofStatements_names {items : List Tree} {name : String} :
    name ∈ (ofStatements items).names ↔ ∃ item ∈ items, name ∈ (ofStatements [item]).names := by
  simp only [names, ofStatements, List.mem_append, mem_gatherInItems, List.mem_singleton,
    exists_eq_left]
  constructor
  · rintro ((⟨item, member, found⟩ | ⟨item, member, found⟩) |
      (⟨item, member, found⟩ | ⟨item, member, found⟩))
    · exact ⟨item, member, Or.inl (Or.inl found)⟩
    · exact ⟨item, member, Or.inl (Or.inr found)⟩
    · exact ⟨item, member, Or.inr (Or.inl found)⟩
    · exact ⟨item, member, Or.inr (Or.inr found)⟩
  · rintro ⟨item, member, (found | found) | (found | found)⟩
    · exact Or.inl (Or.inl ⟨item, member, found⟩)
    · exact Or.inl (Or.inr ⟨item, member, found⟩)
    · exact Or.inr (Or.inl ⟨item, member, found⟩)
    · exact Or.inr (Or.inr ⟨item, member, found⟩)

namespace Interleaved

variable {statements hooks body : List Tree}

/-- Hooks add generated names only to the scope of a body. -/
theorem sameNames (interleaved : Interleaved statements hooks body)
    (generated : ∀ hook ∈ hooks, hook.DeclaresGenerated) :
    SameNames (Scope.ofStatements body).names (Scope.ofStatements statements).names := by
  intro name ordinary
  rw [Scope.mem_ofStatements_names, Scope.mem_ofStatements_names]
  constructor
  · rintro ⟨item, member, found⟩
    rcases List.mem_append.mp (interleaved.perm.mem_iff.mp member) with statement | hook
    · exact ⟨item, statement, found⟩
    · exact absurd ((generated item hook).names name found) ordinary
  · rintro ⟨item, member, found⟩
    exact ⟨item, interleaved.sublist.subset member, found⟩

/-- Hooks add no `var` to a body. -/
theorem gather_vars (interleaved : Interleaved statements hooks body)
    (generated : ∀ hook ∈ hooks, hook.DeclaresGenerated) :
    gatherInItems .vars body = gatherInItems .vars statements := by
  induction interleaved with
  | nothing => rfl
  | statement statement rest ih => rw [gatherInItems, gatherInItems, ih generated]
  | hook hook rest ih =>
    rw [gatherInItems, (generated hook List.mem_cons_self).vars, List.nil_append,
      ih fun hook member => generated hook (List.mem_cons_of_mem _ member)]

end Interleaved

/-- What a field holds after a change of all parts that leaves missing ones missing. -/
theorem Fields.get_map (change : Field → Tree → Tree) (missing : ∀ field, change field .null = .null)
    (fields : Fields) (field : Field) :
    Fields.get (fields.map fun part => (part.1, change part.1 part.2)) field =
      change field (Fields.get fields field) := by
  unfold Fields.get
  rw [lookup_map_parts]
  cases fields.lookup field with
  | none => exact (missing field).symm
  | some part => rfl

namespace HookGroup

variable {groups : List HookGroup}

theorem spliceBody_null (groups : List HookGroup) : spliceBody groups .null = .null := by
  unfold spliceBody
  split <;> rfl

theorem declaresGenerated_splice_nil
    (generated : ∀ hook ∈ groups.flatMap hooks, hook.DeclaresGenerated) :
    ∀ statement ∈ splice [] groups, statement.DeclaresGenerated := by
  intro statement member
  have among := (splice_interleaved [] groups).perm.mem_iff.mp member
  exact generated statement (((sorted_perm groups).flatMap_right hooks).mem_iff.mp among)

theorem splicePart_null (groups : List HookGroup) (field : Field) :
    splicePart groups field .null = .null := by
  cases field <;> rfl

end HookGroup

namespace Tree

variable {test : Kind → Fields → Bool} {names : List String} {groups : List HookGroup} {body : Tree}

/-- The statements of a block with hooks among them bind what they bound before. -/
theorem sameNames_splicePart
    (generated : ∀ hook ∈ groups.flatMap HookGroup.hooks, hook.DeclaresGenerated) (part : Tree) :
    SameNames (Scope.ofStatements (HookGroup.splicePart groups .stmts part).items).names
      (Scope.ofStatements part.items).names := by
  cases part with
  | list statements =>
    refine (HookGroup.splice_interleaved statements groups).sameNames fun hook member => ?_
    exact generated hook
      (((HookGroup.sorted_perm groups).flatMap_right HookGroup.hooks).mem_iff.mp member)
  | null | bool | num | str | node => exact .refl _

/-- A body gets no `var` by hooks, and loses none unless it is an expression. -/
theorem gather_vars_spliceBody
    (generated : ∀ hook ∈ groups.flatMap HookGroup.hooks, hook.DeclaresGenerated)
    (expression : body.isKind .blockStatement = false → body.gather .vars = []) :
    (HookGroup.spliceBody groups body).gather .vars = body.gather .vars := by
  have spliced (statements : List Tree) :
      gatherInItems .vars (HookGroup.splice statements groups) = gatherInItems .vars statements :=
    (HookGroup.splice_interleaved statements groups).gather_vars fun hook member => generated hook
      (((HookGroup.sorted_perm groups).flatMap_right HookGroup.hooks).mem_iff.mp member)
  by_cases unhooked : groups = []
  · rw [unhooked]
    rfl
  by_cases block : ∃ fields, body = .node .blockStatement fields
  · obtain ⟨fields, rfl⟩ := block
    rw [HookGroup.spliceBody_node unhooked, gather, gather, gatherInFields_eq_flatMap,
      gatherInFields_eq_flatMap, List.flatMap_map]
    refine congrArg (_ ++ ·) (List.flatMap_congr fun ⟨field, part⟩ _ => ?_)
    by_cases isStatements : field = .stmts
    · subst isStatements
      cases part with
      | list statements => exact spliced statements
      | null | bool | num | str | node => rfl
    · have notEntered (parts : Fields) : Search.vars.enters .blockStatement parts field = false := by
        cases field <;> first | rfl | exact absurd rfl isStatements
      rw [notEntered, notEntered, if_neg Bool.false_ne_true, if_neg Bool.false_ne_true]
  · have noBlock : ∀ fields, body ≠ .node .blockStatement fields :=
      fun fields same => block ⟨fields, same⟩
    by_cases missing : body = .null
    · rw [missing, HookGroup.spliceBody_null]
    rw [HookGroup.spliceBody_expression unhooked missing noBlock, expression
      (Bool.eq_false_iff.mpr fun isBlock => block (isKind_iff.mp isBlock))]
    change gatherInItems .vars (HookGroup.splice [] groups ++ [Code.returnValue body]) ++ [] = []
    rw [gatherInItems_eq_flatMap, List.flatMap_append, ← gatherInItems_eq_flatMap, spliced]
    rfl

/-- A block with hooks among its statements binds what it bound before, apart from generated names. -/
theorem sameNames_splicedBlock
    (generated : ∀ hook ∈ groups.flatMap HookGroup.hooks, hook.DeclaresGenerated) (fields : Fields) :
    SameNames (Scope.allNames (scopesIn .blockStatement
        (fields.map fun part => (part.1, HookGroup.splicePart groups part.1 part.2)) .stmts))
      (Scope.ofStatements (Fields.get fields .stmts).items).names := by
  have spliced := sameNames_splicePart generated (Fields.get fields .stmts)
  rw [← Fields.get_map _ (HookGroup.splicePart_null groups)] at spliced
  rw [Scope.allNames, scopesIn, if_pos rfl, List.flatMap_singleton]
  exact spliced

/-- The block that an expression becomes binds generated names only. -/
theorem generated_block
    (generated : ∀ hook ∈ groups.flatMap HookGroup.hooks, hook.DeclaresGenerated) :
    ∀ name ∈ Scope.allNames (scopesIn .blockStatement
        [(.stmts, .list (HookGroup.splice [] groups ++ [Code.returnValue body]))] .stmts),
      IsGenerated name := by
  intro name found
  change name ∈ (Scope.ofStatements (HookGroup.splice [] groups ++ [Code.returnValue body])).names
    ++ [] at found
  rw [List.append_nil, Scope.mem_ofStatements_names] at found
  obtain ⟨statement, member, here⟩ := found
  rcases List.mem_append.mp member with hook | own
  · exact (HookGroup.declaresGenerated_splice_nil generated statement hook).names name here
  · obtain rfl := List.mem_singleton.mp own
    exact absurd here List.not_mem_nil

/-- Hooks in a body bind nothing around what stood there, apart from generated names. -/
theorem Reaches.spliceBody (noBlock : ∀ fields, test .blockStatement fields = false)
    (generated : ∀ hook ∈ groups.flatMap HookGroup.hooks, hook.DeclaresGenerated)
    (reaches : body.Reaches test names) : (HookGroup.spliceBody groups body).Reaches test names := by
  by_cases unhooked : groups = []
  · rw [unhooked]
    exact reaches
  by_cases block : ∃ fields, body = .node .blockStatement fields
  · obtain ⟨fields, rfl⟩ := block
    obtain ⟨bound, around, alike⟩ := reaches
    rw [boundAround, noBlock, if_neg Bool.false_ne_true, List.nil_append,
      mem_boundAroundInFields] at around
    obtain ⟨⟨field, part⟩, member, inner, inside, rfl⟩ := around
    rw [HookGroup.spliceBody_node unhooked]
    have kept : (HookGroup.splicePart groups field part).Reaches test inner := by
      refine ⟨inner, ?_, .refl inner⟩
      unfold HookGroup.splicePart
      split
      · obtain ⟨statement, among, here⟩ := mem_boundAroundInItems.mp inside
        exact mem_boundAroundInItems.mpr ⟨statement,
          (HookGroup.splice_interleaved _ groups).sublist.subset among, here⟩
      · exact inside
    refine (kept.inPart (List.mem_map.mpr ⟨(field, part), member, rfl⟩)).congr
      (.trans (.append (.refl inner) ?_) alike)
    by_cases isStatements : field = .stmts
    · subst isStatements
      refine (sameNames_splicedBlock generated fields).trans ?_
      rw [Scope.allNames, scopesIn, if_pos rfl, List.flatMap_singleton]
      exact .refl _
    · rw [scopesIn, scopesIn, if_neg isStatements, if_neg isStatements]
      exact .refl _
  · have noBlock : ∀ fields, body ≠ .node .blockStatement fields :=
      fun fields same => block ⟨fields, same⟩
    have present : body ≠ .null := by
      rintro rfl
      obtain ⟨bound, around, -⟩ := reaches
      exact absurd around List.not_mem_nil
    rw [HookGroup.spliceBody_expression unhooked present noBlock]
    have returned : (Code.returnValue body).Reaches test names :=
      reaches.inPlain List.mem_cons_self rfl
    exact (returned.inItems (List.mem_append_right _ (List.mem_singleton.mpr rfl))).inGenerated
      List.mem_cons_self (generated_block generated)

/-- A hook in a body sees the declarations of the body, apart from generated ones. -/
theorem Reaches.hook {hook : Tree} (member : hook ∈ groups.flatMap HookGroup.hooks)
    (generated : ∀ hook ∈ groups.flatMap HookGroup.hooks, hook.DeclaresGenerated)
    (present : body ≠ .null) (blocks : ∀ fields, body = .node .blockStatement fields →
      (fields.map Prod.fst).Nodup ∧ ∃ statements, (.stmts, Tree.list statements) ∈ fields)
    (reaches : hook.Reaches test names) :
    (HookGroup.spliceBody groups body).Reaches test
      (names ++ (Scope.ofStatements body.blockStatements).names) := by
  have hooked : groups ≠ [] := by
    rintro rfl
    exact absurd member List.not_mem_nil
  by_cases block : ∃ fields, body = .node .blockStatement fields
  · obtain ⟨fields, rfl⟩ := block
    obtain ⟨distinct, statements, listed⟩ := blocks fields rfl
    rw [HookGroup.spliceBody_node hooked]
    have inserted : (node .blockStatement
        (fields.map fun part => (part.1, HookGroup.splicePart groups part.1 part.2))).Reaches test _ :=
      (reaches.inItems (HookGroup.mem_splice member statements)).inPart
        (List.mem_map.mpr ⟨_, listed, rfl⟩)
    exact inserted.congr (.append (.refl names) (sameNames_splicedBlock generated fields))
  · have noBlock : ∀ fields, body ≠ .node .blockStatement fields :=
      fun fields same => block ⟨fields, same⟩
    rw [HookGroup.spliceBody_expression hooked present noBlock, blockStatements_of_not_block
      (Bool.eq_false_iff.mpr fun isBlock => block (isKind_iff.mp isBlock))]
    have among : hook ∈ HookGroup.splice [] groups ++ [Code.returnValue body] :=
      List.mem_append_left _ (HookGroup.mem_splice member [])
    refine ((reaches.inItems among).inGenerated List.mem_cons_self
      (generated_block generated)).congr ?_
    exact (SameNames.append_generated (fun name found => absurd found List.not_mem_nil) names).symm

end Tree

/-- The function that forwards a reference binds generated names only. -/
theorem ElementRef.generated_forwardingFunction {handle : ElementHandle} {reference : Tree}
    {groups : List HookGroup}
    (generated : ∀ hook ∈ groups.flatMap HookGroup.hooks, hook.DeclaresGenerated) :
    let body := HookGroup.splice (forwardingBody handle reference) groups
    (∀ name ∈ Scope.allNames (scopesIn .arrowFunctionExpression
        [(.params, .list [Code.binding nodeName]), (.body, Code.block body)] .body),
      IsGenerated name) ∧
    ∀ name ∈ Scope.allNames (scopesIn .blockStatement [(.stmts, .list body)] .stmts),
      IsGenerated name := by
  intro body
  have interleaved := HookGroup.splice_interleaved (forwardingBody handle reference) groups
  have hooks : ∀ hook ∈ (HookGroup.sorted groups).flatMap HookGroup.hooks, hook.DeclaresGenerated :=
    fun hook member => generated hook
      (((HookGroup.sorted_perm groups).flatMap_right HookGroup.hooks).mem_iff.mp member)
  constructor
  · intro name found
    have noVars : (Code.block body).gather .vars = [] := by
      change gatherInItems .vars body ++ [] = []
      rw [List.append_nil, interleaved.gather_vars hooks]
      rfl
    change name ∈ (((Code.block body).gather .vars ++ []) ++ ([nodeName] ++ [])) at found
    rw [noVars] at found
    obtain rfl := List.mem_singleton.mp found
    exact Or.inl (List.mem_cons_of_mem _ List.mem_cons_self)
  · intro name found
    change name ∈ (Scope.ofStatements body).names ++ [] at found
    rw [List.append_nil, Scope.mem_ofStatements_names] at found
    obtain ⟨statement, member, here⟩ := found
    rcases List.mem_append.mp (interleaved.perm.mem_iff.mp member) with own | hook
    · exact (declaresGenerated handle reference statement own).names name here
    · exact (hooks statement hook).names name here

/-- Around a statement of a forwarding function only generated names are bound. -/
theorem Tree.Reaches.attribute {test : Kind → Fields → Bool} {names : List String}
    {attachment : Attachment} {explicit? : Option Tree} {groups : List HookGroup}
    {reference statement : Tree}
    (generated : ∀ hook ∈ groups.flatMap HookGroup.hooks, hook.DeclaresGenerated)
    (forwarded : ElementRef.forwarded? explicit? attachment.spreads = some reference)
    (member : statement ∈
      HookGroup.splice (ElementRef.forwardingBody attachment.handle reference) groups)
    (reaches : statement.Reaches test names) :
    (attachment.attribute explicit? groups).Reaches test names := by
  obtain ⟨inFunction, inBlock⟩ :=
    @ElementRef.generated_forwardingFunction attachment.handle reference groups generated
  have block := (reaches.inItems member).inGenerated List.mem_cons_self inBlock
  have function := block.inGenerated (List.mem_cons_of_mem _ List.mem_cons_self) inFunction
  unfold Attachment.attribute
  rw [forwarded]
  exact function.inAttribute "ref"

/-- Around the reference that an element had, the generated attribute binds generated names only. -/
theorem Tree.Reaches.replaced {test : Kind → Fields → Bool} {names : List String}
    (attachment : Attachment) {expression : Tree} {groups : List HookGroup}
    (generated : ∀ hook ∈ groups.flatMap HookGroup.hooks, hook.DeclaresGenerated)
    (reaches : expression.Reaches test names) :
    (attachment.attribute (some expression) groups).Reaches test names := by
  obtain ⟨reference, found⟩ := ElementRef.exists_forwarded expression attachment.spreads
  have forwards : ∀ (spreads : List Tree) (earlier : Tree), earlier.Reaches test names →
      ElementRef.forwarded? (some earlier) spreads = some reference →
      reference.Reaches test names := by
    intro spreads
    induction spreads with
    | nil =>
      intro earlier within same
      obtain rfl := Option.some.inj same
      exact within
    | cons spread rest ih =>
      intro earlier within same
      exact ih _ (within.inPlain (List.mem_cons_of_mem _ List.mem_cons_self) rfl) same
  have stored := (forwards _ _ reaches found).inConstant ElementRef.forwardName
  exact stored.attribute generated found ((HookGroup.splice_interleaved _ groups).sublist.subset
    (List.mem_cons_of_mem _ List.mem_cons_self))

namespace Tree

/-- Whether a node is a function with an expression for its body in which `var` declares something. -/
def declaresInExpression (kind : Kind) (fields : Fields) : Bool :=
  kind.isFunction && !(Fields.get fields .body).isKind .blockStatement &&
    !((Fields.get fields .body).gather .vars).isEmpty

/-- A tree that hooks fit in, whose functions lose no declarations when they get them: an expression
for a body declares none. -/
def ScopesFit (tree : Tree) : Prop :=
  tree.HooksFit ∧ tree.countNodes declaresInExpression = 0

theorem hereditary_scopesFit : Hereditary ScopesFit :=
  hereditary_hooksFit.without declaresInExpression

theorem ScopesFit.vars {kind : Kind} {fields : Fields} (fits : (node kind fields).ScopesFit)
    (isFunction : kind.isFunction = true)
    (expression : (Fields.get fields .body).isKind .blockStatement = false) :
    (Fields.get fields .body).gather .vars = [] := by
  obtain ⟨-, none⟩ := fits
  rw [countNodes, Nat.add_eq_zero_iff] at none
  simpa [declaresInExpression, isFunction, expression] using none.1

end Tree

/-- The statements of a block declare the same names when they are instrumented. -/
theorem Rewriting.Allowed.ofStatements_block {runtimeGlobal : String} {rewriting : Rewriting}
    (allowed : rewriting.Allowed runtimeGlobal) :
    Scope.ofStatements rewriting.image.blockStatements =
      Scope.ofStatements rewriting.source.blockStatements := by
  have statements (tree : Tree) : tree.blockStatements =
      if tree.isKind .blockStatement then (tree.get .stmts).items else [] := by
    unfold blockStatements
    split
    case h_1 => rfl
    case h_2 notBlock =>
      rw [if_neg fun isBlock => ?_]
      obtain ⟨fields, rfl⟩ := isKind_iff.mp isBlock
      exact notBlock fields rfl
  obtain ⟨part, allowedPart, isPart, wasPart⟩ :=
    allowed.get .stmts Field.noConfusion Field.noConfusion
  rw [statements, statements, allowed.seemsLike.isKind, isPart, wasPart]
  split
  · exact allowedPart.declaresLike.ofStatements
  · rfl

namespace Woven

variable (runtimeGlobal : String)

/-- The hooks that go into a function declare variables of their handles. -/
theorem groups_declaresGenerated (scan? : Option BodyScan) (elements : List Treatment) :
    ∀ hook ∈ (groups runtimeGlobal scan? elements).flatMap HookGroup.hooks,
      hook.DeclaresGenerated := by
  intro hook member
  rw [List.flatMap_def, map_hooks_groups, ← List.flatMap_def] at member
  obtain ⟨element, -, among⟩ := List.mem_flatMap.mp member
  exact Hooks.declaresGenerated element.handle runtimeGlobal element.markers hook among

/-- A node that is woven puts the same scopes around its parts as before. -/
theorem Follows.scopes_node {kind : Kind} {parts : List (Field × Woven)} {enclosure : Enclosure}
    {step : Step} (follows : (node kind parts).Follows enclosure step)
    (wellFormed : (node kind parts).source.isWellFormed = true) (field : Field) :
    scopesIn kind (treesInParts runtimeGlobal parts) field =
      scopesIn kind (sourcesInParts parts) field := by
  obtain ⟨-, -, -, within⟩ := follows
  obtain ⟨-, -, formed, -⟩ := Tree.isWellFormed_node wellFormed
  rw [← imagesInParts_rewritingParts, ← sourcesInParts_rewritingParts runtimeGlobal]
  exact Rewriting.scopesIn_images (allowed_parts fun ⟨field, item⟩ member =>
    (within.member member).allowed runtimeGlobal item (step.within_ne_attributes kind _ field)
      (formed _ (mem_sourcesInParts member))) kind field

/-- A function that is woven puts the same scopes around its parts as before, with hooks in its body
or not. -/
theorem Follows.scopes_function {kind : Kind} {outer inner : List (Field × Woven)}
    {scan? : Option BodyScan} {enclosure : Enclosure} {step : Step}
    (follows : (function kind outer scan? inner).Follows enclosure step)
    (fits : (function kind outer scan? inner).source.ScopesFit) (field : Field) :
    scopesIn kind ((treesInParts runtimeGlobal (outer ++ inner)).spliceBody
        (groups runtimeGlobal scan? (elementsInParts inner))) field =
      scopesIn kind (sourcesInParts outer ++ sourcesInParts inner) field := by
  obtain ⟨-, isFunction, -, outside, -, within⟩ := follows
  obtain ⟨-, -, formed, -⟩ := Tree.isWellFormed_node fits.1.1
  rw [← sourcesInParts_append] at formed ⊢
  have allowed : ∀ part ∈ rewritingParts runtimeGlobal (outer ++ inner),
      part.2.Allowed runtimeGlobal := by
    refine allowed_parts fun ⟨field, item⟩ member => ?_
    have whole := formed _ (mem_sourcesInParts member)
    rcases List.mem_append.mp member with first | second
    · exact (outside.member first).allowed runtimeGlobal item (fun _ => Step.noConfusion) whole
    · exact (within.member second).allowed runtimeGlobal item
        (Step.ofFunction_ne_attributes scan? field) whole
  have alike (field : Field) :
      (Fields.get (treesInParts runtimeGlobal (outer ++ inner)) field).DeclaresLike
        (Fields.get (sourcesInParts (outer ++ inner)) field) ∧
      (Fields.get (treesInParts runtimeGlobal (outer ++ inner)) field).SeemsLike
        (Fields.get (sourcesInParts (outer ++ inner)) field) := by
    obtain ⟨part, allowedPart, isPart, wasPart⟩ := Rewriting.get_inParts allowed field
    rw [imagesInParts_rewritingParts] at isPart
    rw [sourcesInParts_rewritingParts] at wasPart
    rw [isPart, wasPart]
    exact ⟨allowedPart.declaresLike, allowedPart.seemsLike⟩
  have spliced (field : Field) : Fields.get ((treesInParts runtimeGlobal (outer ++ inner)).spliceBody
      (groups runtimeGlobal scan? (elementsInParts inner))) field = if field = .body then
        HookGroup.spliceBody (groups runtimeGlobal scan? (elementsInParts inner))
          (Fields.get (treesInParts runtimeGlobal (outer ++ inner)) field)
      else Fields.get (treesInParts runtimeGlobal (outer ++ inner)) field := by
    rw [Fields.spliceBody_eq_map]
    exact Fields.get_map (fun field part => if field = .body then HookGroup.spliceBody _ part else part)
      (fun field => by rw [HookGroup.spliceBody_null, ite_self]) _ field
  have vars := (alike .body).1.gather _ Search.vars_stable
  refine scopesIn_congr kind field (fun field notBody => ?_) ?_
    (fun noFunction => absurd (noFunction.symm.trans isFunction) Bool.false_ne_true)
  · rw [spliced, if_neg notBody]
    exact (alike field).1
  · rw [spliced, if_pos rfl, Tree.gather_vars_spliceBody
      (groups_declaresGenerated runtimeGlobal scan? _), vars]
    intro expression
    rw [vars]
    refine @ScopesFit.vars kind _ ?_ isFunction ((alike .body).2.isKind _ ▸ expression)
    rw [sourcesInParts_append]
    exact fits

/-- A woven tree stands in another one, possibly with components between them. The steps from nodes
to their parts are listed from the inner ones to the outer ones. -/
inductive Stands (part : Woven) : List Frame → Woven → Prop
  | self : Stands part [] part
  | step {whole item : Woven} {frame? : Option Frame} {scan? : Option BodyScan} {path : List Frame}
      (holds : whole.Holds frame? scan? item) (stands : Stands part path item) :
      Stands part (path ++ frame?.toList) whole

/-- What stands in a tree is within it. -/
theorem Stands.within {part whole : Woven} {path : List Frame} (stands : part.Stands path whole) :
    part.Within whole := by
  induction stands with
  | self => exact .self
  | step holds stands ih => exact .step holds ih

theorem Hosts.not_removed {component : Woven} {treatment : Treatment} {field? : Option Field}
    {path : List Frame} (hosts : component.Hosts treatment field? path) :
    component.isRemoved = false := by
  obtain ⟨held, -⟩ := hosts
  cases held <;> rfl

variable {test : Kind → Fields → Bool} {names : List String}

/-- What a part of a function sees when it is instrumented, it sees in the instrumented function, with
the scopes that the function puts around the part. -/
theorem Follows.reaches_function {kind : Kind} {outer inner : List (Field × Woven)}
    {scan? : Option BodyScan} {enclosure : Enclosure} {step : Step}
    (follows : (function kind outer scan? inner).Follows enclosure step)
    (fits : (function kind outer scan? inner).source.ScopesFit)
    (noBlock : ∀ fields, test .blockStatement fields = false) {field : Field} {item : Woven}
    (member : (field, item) ∈ outer ++ inner)
    (reaches : (item.tree runtimeGlobal).Reaches test names) :
    ((function kind outer scan? inner).tree runtimeGlobal).Reaches test
      (names ++ Scope.allNames (scopesIn kind (sourcesInParts outer ++ sourcesInParts inner) field)) := by
  rw [follows.tree_function, ← follows.scopes_function runtimeGlobal fits]
  have hooked := groups_declaresGenerated runtimeGlobal scan? (elementsInParts inner)
  refine Tree.Reaches.inPart (Fields.mem_spliceBody (mem_treesInParts runtimeGlobal member) _) ?_
  split
  · exact reaches.spliceBody noBlock hooked
  · exact reaches

/-- What a tree sees when it is instrumented, it sees in the instrumented tree that it stands in, with
the scopes on the way. -/
theorem Stands.reaches {part whole : Woven} {path : List Frame} (stands : part.Stands path whole)
    {enclosure : Enclosure} {step : Step} (decided : Decided enclosure step whole)
    (carries : Carries Tree.ScopesFit (fun _ => True) step whole)
    (noBlock : ∀ fields, test .blockStatement fields = false) (stays : part.isRemoved = false)
    (reaches : (part.tree runtimeGlobal).Reaches test names) :
    (whole.tree runtimeGlobal).Reaches test
      (names ++ Scope.allNames (path.flatMap Frame.scopes)) := by
  induction stands generalizing enclosure step with
  | self => exact reaches.congr (by rw [Scope.allNames]; simpa using .refl names)
  | @step whole item frame? scan? path holds inside ih =>
    obtain ⟨_, _, decidedItem, carriesItem⟩ := decided.held_carries Tree.hereditary_scopesFit carries
      (fun _ _ _ _ _ => trivial) holds
    have inner := ih decidedItem carriesItem
    have notRemoved := inside.within.not_removed stays
    have onward : names ++ Scope.allNames ((path ++ frame?.toList).flatMap Frame.scopes) =
        names ++ Scope.allNames (path.flatMap Frame.scopes) ++
          Scope.allNames (frame?.toList.flatMap Frame.scopes) := by
      simp only [Scope.allNames, List.flatMap_append, List.append_assoc]
    rw [onward]
    cases holds with
    | item member | statement member =>
      rw [Option.toList_none, List.flatMap_nil, Scope.allNames, Scope.allNames, List.flatMap_nil,
        List.append_nil]
      exact inner.inItems ((mem_trees runtimeGlobal).mpr ⟨item, member, notRemoved, rfl⟩)
    | @part kind parts field _ member =>
      cases decided with
      | follows follows =>
        rw [Option.toList_some, List.flatMap_singleton, Frame.scopes,
          ← follows.scopes_node runtimeGlobal (carries.node rfl rfl).1.1]
        exact inner.inPart (mem_treesInParts runtimeGlobal member)
    | opening member => exact inner.inPart (mem_treesInParts runtimeGlobal member)
    | outer member =>
      cases decided with
      | follows follows =>
        rw [Option.toList_some, List.flatMap_singleton]
        exact follows.reaches_function runtimeGlobal (carries.node rfl rfl) noBlock
          (List.mem_append_left _ member) inner
    | inner member =>
      cases decided with
      | follows follows =>
        rw [Option.toList_some, List.flatMap_singleton]
        exact follows.reaches_function runtimeGlobal (carries.node rfl rfl) noBlock
          (List.mem_append_right _ member) inner
    | @replaced attachment replaced _ _ member =>
      cases decided with
      | follows follows => exact follows.elim
      | reference alone scanned follows =>
        rw [tree, head?_trees runtimeGlobal alone member notRemoved, Option.toList_none,
          List.flatMap_nil, Scope.allNames, Scope.allNames, List.flatMap_nil, List.append_nil]
        exact inner.replaced attachment (groups_declaresGenerated runtimeGlobal _ _)

/-- The scopes that the module has around the hooks of a component, from the inner ones to those of
the component itself. A function that forwards a reference is not in the module. -/
def scopesAroundHooks : Woven → List Scope
  | function kind outer scan? inner =>
    .ofStatements (function kind outer scan? inner).body.blockStatements ::
      scopesIn kind (sourcesInParts outer ++ sourcesInParts inner) .body
  | _ => []

/-- A hook that is put into the body of a function sees the scopes around it there. -/
theorem Follows.reaches_hook {kind : Kind} {outer inner : List (Field × Woven)}
    {scan? : Option BodyScan} {enclosure : Enclosure} {step : Step}
    (follows : (function kind outer scan? inner).Follows enclosure step)
    (fits : (function kind outer scan? inner).source.ScopesFit) {body : Woven}
    (member : (.body, body) ∈ inner) (takes : body.source.takesHooks = true) {hook : Tree}
    (inserted : hook ∈
      (groups runtimeGlobal scan? (elementsInParts inner)).flatMap HookGroup.hooks)
    (reaches : hook.Reaches test names) :
    ((function kind outer scan? inner).tree runtimeGlobal).Reaches test
      (names ++ Scope.allNames (function kind outer scan? inner).scopesAroundHooks) := by
  obtain ⟨distinct, -, formed, -⟩ := Tree.isWellFormed_node fits.1.1
  have sourced := List.mem_append_right (sourcesInParts outer) (mem_sourcesInParts member)
  have visited := follows.2.2.2.2.2.member member
  have allowed := visited.allowed runtimeGlobal body (Step.ofFunction_ne_attributes scan? .body)
    (formed _ sourced)
  have present : body.tree runtimeGlobal ≠ .null := by
    rintro missing
    rw [← takesHooks_tree runtimeGlobal visited, missing] at takes
    cases takes
  have inBody := reaches.hook inserted (groups_declaresGenerated runtimeGlobal scan? _) present
    fun fields => visited.tree_block (formed _ sourced)
  have kept := Fields.mem_spliceBody
    (mem_treesInParts runtimeGlobal (List.mem_append_right outer member))
    (groups runtimeGlobal scan? (elementsInParts inner))
  have statements : Scope.ofStatements (body.tree runtimeGlobal).blockStatements =
      Scope.ofStatements body.source.blockStatements := allowed.ofStatements_block
  have inFunction : (Tree.node kind _).Reaches test _ := inBody.inPart kept
  rw [← follows.tree_function, follows.scopes_function runtimeGlobal fits, statements] at inFunction
  have isBody : (function kind outer scan? inner).body = body.source :=
    Fields.get_of_mem distinct sourced
  rw [scopesAroundHooks, isBody, Scope.allNames, List.flatMap_cons, ← List.append_assoc]
  exact inFunction

/-- The hooks of an element see the scopes around them in the component. -/
theorem Hosts.reaches {component : Woven} {treatment : Treatment} {field? : Option Field}
    {path : List Frame} (hosts : component.Hosts treatment field? path) {handle : ElementHandle}
    (given : treatment.handle? = some handle) {enclosure : Enclosure} {step : Step}
    (decided : Decided enclosure step component)
    (carries : Carries Tree.ScopesFit (fun _ => True) step component) :
    (component.tree runtimeGlobal).Reaches (isCopy (Hooks.declaration handle))
      (Scope.allNames component.scopesAroundHooks) := by
  have own : (Hooks.declaration handle).Reaches (isCopy (Hooks.declaration handle)) [] :=
    .ofCopy _ _
  obtain @⟨_, scan, item, parts, path, held, owned⟩ := hosts
  cases held with
  | @inner kind outer _ inner field _ member =>
    cases decided with
    | follows follows =>
      have fits : (function kind outer (some scan) inner).source.ScopesFit := carries.node rfl rfl
      have elements := mem_elementsInParts member owned.mem_elements
      have bodied : hasBody inner = true := by
        by_contra bodiless
        rw [follows.elements_of_bodiless fits.1 (Bool.eq_false_iff.mpr bodiless)] at elements
        exact absurd elements List.not_mem_nil
      obtain ⟨⟨field, body⟩, among, isBody⟩ := List.any_eq_true.mp bodied
      simp only [Bool.and_eq_true, decide_eq_true_eq] at isBody
      obtain ⟨rfl, takes⟩ := isBody
      exact follows.reaches_hook runtimeGlobal fits among takes
        (mem_groups runtimeGlobal elements given scan).2 own
  | @replaced attachment replaced _ _ member =>
    have declaration := (mem_groups runtimeGlobal
      (mem_elementsInItems member owned.mem_elements) given scan).2
    cases decided with
    | follows follows => exact follows.elim
    | reference alone scanned follows =>
      rw [tree, head?_trees runtimeGlobal alone member (follows.member member).ordinary.1]
      obtain ⟨reference, forwarded⟩ :=
        ElementRef.exists_forwarded (item.tree runtimeGlobal) attachment.spreads
      exact own.attribute (groups_declaresGenerated runtimeGlobal _ _) forwarded
        (HookGroup.mem_splice declaration _)

end Woven

/-- Around the hooks of an element, which stand in one place, an instrumented module binds what the
module has in the scopes around that place, apart from generated names. -/
theorem bound_around_hooks (options : Options) (file : String) {source? : Option String}
    {items : List Tree} (fits : (Tree.list items).ScopesFit) {component : Woven}
    {path way : List Frame} (stands : component.Stands path (.list (weaveModule source? items)))
    {treatment : Treatment} {field? : Option Field} (hosts : component.Hosts treatment field? way)
    (visited : treatment ∈ Woven.treatmentsInItems (weaveModule source? items))
    {handle : ElementHandle} (given : treatment.handle? = some handle) :
    ∃ bound, boundAroundInItems (isCopy (Hooks.declaration handle))
        (instrumentModule options file source? items).items = [bound] ∧
      SameNames bound
        (Scope.allNames (component.scopesAroundHooks ++ path.flatMap Frame.scopes)) := by
  have follows := weaveModule_follows source? items
  have sourced : Woven.Carries Tree.ScopesFit (fun _ => True) .visit
      (Woven.list (weaveModule source? items)) := by
    change (Woven.list (weaveModule source? items)).source.ScopesFit
    rw [weaveModule_source]
    exact fits
  obtain ⟨_, _, decided, carries⟩ :=
    stands.within.carries Tree.hereditary_scopesFit (.follows follows) sourced
  have among : handle ∈ Woven.handles (Woven.treatmentsInItems (weaveModule source? items)) :=
    List.mem_filterMap.mpr ⟨treatment, visited, given⟩
  have noBlock (fields : Fields) : isCopy (Hooks.declaration handle) .blockStatement fields = false :=
    decide_eq_false fun same => by cases same
  obtain ⟨bound, around, alike⟩ := stands.reaches options.runtimeGlobal (.follows follows) sourced
    noBlock hosts.not_removed (hosts.reaches options.runtimeGlobal given decided carries)
  obtain ⟨added, -, -, interleaved⟩ := instrumentModule_interleaved options file source? items
  obtain ⟨item, member, here⟩ := mem_boundAroundInItems.mp around
  have kept : bound ∈ boundAroundInItems (isCopy (Hooks.declaration handle))
      (instrumentModule options file source? items).items :=
    mem_boundAroundInItems.mpr ⟨item, interleaved.sublist.subset member, here⟩
  have once := instrumentModule_declares options file fits.1 among
  rw [← length_boundAroundInItems, List.length_eq_one_iff] at once
  obtain ⟨only, single⟩ := once
  rw [single, List.mem_singleton] at kept
  refine ⟨bound, kept ▸ single, ?_⟩
  rw [Scope.allNames, List.flatMap_append]
  exact alike

end JsxTracking
