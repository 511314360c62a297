import JsxTracking.Proofs.GeneratedScopes

/-! # Hygiene of generated code

Generated code is hygienic if it binds no variable of an expression that it takes from the module, and
if the variables that it uses from outside are not bound by the module where it is put
(`Woven.Hygienic`). The names of handles are chosen for that, and the other names are fixed. So an
instrumented module is hygienic if and only if it keeps the fixed names free (`hygienic_iff`). -/

namespace JsxTracking

open JsxTracking.Tree

/-- What an item declares for its module. The import of the hooks for generated code is apart. -/
def Tree.topNames (item : Tree) : List String :=
  if item.importsHooks then []
  else (Scope.ofStatements [item]).names ++ item.gather .vars ++ item.gather .imported

/-- What a module declares at its top level. -/
def moduleNames (items : List Tree) : List String :=
  items.flatMap topNames

namespace Rewriting

variable {runtimeGlobal : String} {rewriting : Rewriting}

/-- The items of a list are instrumented one by one. -/
theorem Allowed.exists_items (allowed : rewriting.Allowed runtimeGlobal) :
    ∃ parts : List Rewriting, (∀ part ∈ parts, part.Allowed runtimeGlobal) ∧
      rewriting.image.items = parts.map image ∧ rewriting.source.items = parts.map source := by
  cases allowed with
  | unvisited tree =>
    refine ⟨tree.items.map fun item => ⟨item, item, [.unvisited item]⟩, fun part member => ?_, ?_, ?_⟩
    · obtain ⟨item, -, rfl⟩ := List.mem_map.mp member
      exact .unvisited item
    · exact (List.map_map.trans (List.map_id' _)).symm
    · exact (List.map_map.trans (List.map_id' _)).symm
  | list each => exact ⟨_, each, rfl, rfl⟩
  | @scalar tree scalar =>
    have none : tree.items = [] := by
      cases tree <;> first | rfl | cases scalar
    exact ⟨[], fun part member => absurd member List.not_mem_nil, none, none⟩
  | node | component | opening =>
    exact ⟨[], fun part member => absurd member List.not_mem_nil, rfl, rfl⟩

/-- An import of hooks stays one, and nothing else becomes one. -/
theorem Allowed.importsHooks_image (allowed : rewriting.Allowed runtimeGlobal) :
    rewriting.image.importsHooks = rewriting.source.importsHooks := by
  obtain ⟨source, allowedSource, isSource, wasSource⟩ :=
    allowed.get .source Field.noConfusion Field.noConfusion
  obtain ⟨specifiers, allowedSpecifiers, isSpecifiers, wasSpecifiers⟩ :=
    allowed.get .specifiers Field.noConfusion Field.noConfusion
  obtain ⟨parts, each, areItems, wereItems⟩ := allowedSpecifiers.exists_items
  have imports : ∀ part ∈ parts, (part.image.isKind .importSpecifier &&
      decide ((part.image.get .localName).value? = some HookNames.useRef)) =
      (part.source.isKind .importSpecifier &&
        decide ((part.source.get .localName).value? = some HookNames.useRef)) := by
    intro part member
    obtain ⟨name, allowedName, isName, wasName⟩ :=
      (each part member).get .localName Field.noConfusion Field.noConfusion
    rw [(each part member).seemsLike.isKind, isName, wasName, allowedName.seemsLike.value]
  rw [importsHooks, importsHooks, importsFrom, importsFrom, isImport, isImport,
    allowed.seemsLike.isKind, isSource, wasSource, allowedSource.seemsLike.value, isSpecifiers,
    wasSpecifiers, areItems, wereItems, List.any_map, List.any_map]
  refine congrArg _ (Bool.eq_iff_iff.mpr ?_)
  rw [List.any_eq_true, List.any_eq_true]
  exact exists_congr fun part => and_congr_right fun member =>
    Iff.of_eq (congrArg (· = true) (imports part member))

/-- An item of a module declares the same names when it is instrumented. -/
theorem Allowed.topNames_image (allowed : rewriting.Allowed runtimeGlobal) :
    rewriting.image.topNames = rewriting.source.topNames := by
  rw [topNames, topNames, allowed.importsHooks_image, allowed.declaresLike.ofStatement,
    allowed.gather_image Search.vars_stable, allowed.gather_image Search.imported_stable]

end Rewriting

/-- A module declares at its top level what it declared before it was instrumented. -/
theorem mem_moduleNames_instrumentModule (options : Options) (file : String)
    (source? : Option String) {items : List Tree} (wellFormed : itemsAreWellFormed items = true)
    {name : String} :
    name ∈ moduleNames (instrumentModule options file source? items).items ↔
      name ∈ moduleNames items := by
  have woven : moduleNames (Woven.trees options.runtimeGlobal (weaveModule source? items)) =
      moduleNames items := by
    obtain ⟨parts, each, areItems, wereItems⟩ :=
      (weaveModule_rewritten options.runtimeGlobal source? wellFormed).exists_items
    rw [show Woven.trees options.runtimeGlobal (weaveModule source? items) = _ from areItems,
      show items = _ from wereItems, moduleNames, moduleNames, List.flatMap_map, List.flatMap_map]
    exact List.flatMap_congr fun part member => (each part member).topNames_image
  obtain ⟨added, few, -, interleaved⟩ := instrumentModule_interleaved options file source? items
  have silent : ∀ item ∈ added, item.topNames = [] := by
    intro item member
    rcases List.mem_cons.mp (few.subset member) with rfl | hooks
    · have none : (Imports.runtime options.runtimeUrl).importsHooks = false := Bool.and_false _
      rw [topNames, none]
      rfl
    · obtain rfl := List.mem_singleton.mp hooks
      rfl
  rw [← woven, moduleNames, moduleNames, List.mem_flatMap, List.mem_flatMap]
  constructor
  · rintro ⟨item, member, found⟩
    rcases List.mem_append.mp (interleaved.perm.mem_iff.mp member) with own | generated
    · exact ⟨item, own, found⟩
    · rw [silent item generated] at found
      exact absurd found List.not_mem_nil
  · rintro ⟨item, member, found⟩
    exact ⟨item, interleaved.sublist.subset member, found⟩

namespace Tree

variable {name : String}

mutual

/-- A name that is not spelled in a tree is not free in it. -/
theorem not_mem_freeNames : ∀ tree : Tree,
    tree.countNodes (spells Kind.isVariable name) = 0 → name ∉ tree.freeNames
  | node kind fields, absent => by
    rw [countNodes, Nat.add_eq_zero_iff, Bool.toNat_eq_zero] at absent
    obtain ⟨other, within⟩ := absent
    by_cases isVariable : kind.isVariable = true
    · have different : (Fields.get fields .value).text? ≠ some name := fun same => by
        rw [spells, isVariable, same] at other
        exact absurd other (by simp)
      have free : (node kind fields).freeNames = (Fields.get fields .value).text?.toList := by
        cases kind <;> first | rfl | cases isVariable
      rw [free, Option.mem_toList]
      exact different
    · rw [freeNames.eq_3 kind fields (fun same => isVariable (same ▸ rfl))
        fun same => isVariable (same ▸ rfl)]
      exact not_mem_freeInFields kind fields fields within
  | list items, absent => not_mem_freeInItems items absent
  | null, _ | bool _, _ | num _, _ | str _, _ => List.not_mem_nil

/-- `Tree.not_mem_freeNames` for a list of trees. -/
theorem not_mem_freeInItems : ∀ items : List Tree,
    countNodesInItems (spells Kind.isVariable name) items = 0 → name ∉ freeInItems items
  | [], _ => List.not_mem_nil
  | item :: rest, absent => by
    rw [countNodesInItems, Nat.add_eq_zero_iff] at absent
    rw [freeInItems, List.mem_append, not_or]
    exact ⟨not_mem_freeNames item absent.1, not_mem_freeInItems rest absent.2⟩

/-- `Tree.not_mem_freeNames` for the parts of a node. -/
theorem not_mem_freeInFields (kind : Kind) (whole : Fields) : ∀ fields : List (Field × Tree),
    countNodesInFields (spells Kind.isVariable name) fields = 0 →
      name ∉ freeInFields kind whole fields
  | [], _ => List.not_mem_nil
  | (field, part) :: rest, absent => by
    rw [countNodesInFields, Nat.add_eq_zero_iff] at absent
    rw [freeInFields, List.mem_append, not_or]
    refine ⟨fun found => ?_, not_mem_freeInFields kind whole rest absent.2⟩
    split at found
    · exact not_mem_freeNames part absent.1 (List.mem_filter.mp found).1
    · exact List.not_mem_nil found

end

end Tree

namespace Woven

/-- What a reference takes from its module: the spreads that may carry one, and the explicit one. -/
def forwarded (attachment : Attachment) (replaced : List Woven) : List Tree :=
  attachment.spreads ++ sources replaced

/-- An element that has a handle, the component that its hooks stand in, and the way from there to the
module. -/
structure Site (woven : List Woven) (treatment : Treatment) (handle : ElementHandle)
    (component : Woven) (path : List Frame) : Prop where
  visited : treatment ∈ treatmentsInItems woven
  given : treatment.handle? = some handle
  hosted : ∃ field? way, component.Hosts treatment field? way
  stands : component.Stands path (.list woven)

/-- The generated code of an instrumented module is hygienic. -/
structure Hygienic (woven : List Woven) (runtimeGlobal : String) (output : List Tree) : Prop where
  /-- The hooks of a marker bind no variable of its value. -/
  values : ∀ treatment ∈ treatmentsInItems woven, ∀ handle, treatment.handle? = some handle →
    ∀ kind value, (kind, .dynamic value) ∈ treatment.markers.values → ∀ name ∈ value.freeNames,
      ∀ bound ∈ Hooks.boundAroundValue handle runtimeGlobal kind, name ∉ bound
  /-- A function that forwards a reference binds no variable of it. -/
  references : ∀ attachment replaced scan?,
    (reference attachment replaced scan?).Within (.list woven) →
    ∀ expression ∈ forwarded attachment replaced, ∀ name ∈ expression.freeNames,
      ∀ bound ∈ ElementRef.boundAroundReference attachment.handle, name ∉ bound
  /-- Neither does it bind a variable of a value in hooks that stand within it. -/
  forwardedValues : ∀ attachment replaced scan?,
    (reference attachment replaced scan?).Within (.list woven) →
    ∀ treatment handle component path, Site woven treatment handle component path →
      component.Within (reference attachment replaced scan?) →
    ∀ value ∈ treatment.markers.dynamicExpressions, ∀ name ∈ value.freeNames,
      ∀ bound ∈ ElementRef.boundAroundReference attachment.handle, name ∉ bound
  /-- No handle has the name of a variable of a value or of a reference. -/
  handles : ∀ handle ∈ handles (treatmentsInItems woven), ∀ name ∈ handle.ownNames,
    (∀ treatment ∈ treatmentsInItems woven, ∀ value ∈ treatment.markers.dynamicExpressions,
      name ∉ value.freeNames) ∧
    ∀ attachment replaced scan?, (reference attachment replaced scan?).Within (.list woven) →
      ∀ expression ∈ forwarded attachment replaced, name ∉ expression.freeNames
  /-- The hooks of an element stand in one place, and neither the module nor anything around that place
  binds a variable that they use from outside. -/
  outer : ∀ treatment ∈ treatmentsInItems woven, ∀ handle, treatment.handle? = some handle →
    ∃ bound, boundAroundInItems (isCopy (Hooks.declaration handle)) output = [bound] ∧
      ∀ name, Hooks.ReachOut handle runtimeGlobal treatment.markers name →
        name ∉ bound ++ moduleNames output

/-- A module keeps the names free that generated code uses in every module. -/
structure KeepsFree (woven : List Woven) (items : List Tree) : Prop where
  /-- The value of a marker does not mention the inner variables of its hooks. -/
  values : ∀ treatment ∈ treatmentsInItems woven, ∀ handle, treatment.handle? = some handle →
    ∀ kind value, (kind, .dynamic value) ∈ treatment.markers.values →
    ∀ name ∈ value.freeNames, name ∉ Hooks.innerNamesOf kind
  /-- A reference that is forwarded does not mention the inner variables of the function. -/
  references : ∀ attachment replaced scan?,
    (reference attachment replaced scan?).Within (.list woven) →
    ∀ expression ∈ forwarded attachment replaced,
    ∀ name ∈ expression.freeNames, name ∉ ElementRef.innerNames
  /-- Neither does a value in hooks that stand within that function. -/
  forwardedValues : ∀ attachment replaced scan?,
    (reference attachment replaced scan?).Within (.list woven) →
    ∀ treatment handle component path, Site woven treatment handle component path →
    component.Within (reference attachment replaced scan?) →
    ∀ value ∈ treatment.markers.dynamicExpressions,
    ∀ name ∈ value.freeNames, name ∉ ElementRef.innerNames
  /-- The variables that the hooks of an element use from outside are not bound by the module, nor by
  a scope around the place of the hooks. -/
  outer : ∀ treatment handle component path, Site woven treatment handle component path →
    ∀ name ∈ Hooks.outerNames treatment.markers, name ∉ moduleNames items ∧
      ∀ scope ∈ component.scopesAroundHooks ++ path.flatMap Frame.scopes, name ∉ scope.names

theorem Within.exists_stands {part whole : Woven} (within : part.Within whole) :
    ∃ path, part.Stands path whole := by
  induction within with
  | self => exact ⟨[], .self⟩
  | step holds _ ih =>
    obtain ⟨path, stands⟩ := ih
    exact ⟨_, .step holds stands⟩

theorem Carries.forwarded {holds : Tree → Prop} {allowed : ElementHandle → Prop} {step : Step}
    {attachment : Attachment} {replaced : List Woven} {scan? : Option BodyScan}
    (carries : Carries holds allowed step (reference attachment replaced scan?)) :
    ∀ expression ∈ Woven.forwarded attachment replaced, holds expression := by
  have taken : CarriesAttachment holds allowed attachment ∧ ∀ item ∈ sources replaced, holds item := by
    cases step with
    | attributes attachment? => cases attachment? <;> exact carries
    | _ => exact carries
  intro expression member
  rcases List.mem_append.mp member with spread | explicit
  · exact taken.1.2 expression spread
  · exact taken.2 expression explicit

end Woven

/-- A name that is not spelled in a module is not free in what hooks and references take from it. -/
theorem weaveModule_fresh (source? : Option String) {items : List Tree}
    (wellFormed : itemsAreWellFormed items = true) {name : String}
    (absent : name ∉ identifiersInItems items) :
    (∀ treatment ∈ Woven.treatmentsInItems (weaveModule source? items),
      ∀ value ∈ treatment.markers.dynamicExpressions, name ∉ value.freeNames) ∧
    ∀ attachment replaced scan?,
      (Woven.reference attachment replaced scan?).Within (.list (weaveModule source? items)) →
      ∀ expression ∈ Woven.forwarded attachment replaced, name ∉ expression.freeNames := by
  have follows := weaveModule_follows source? items
  have lacks : (Woven.list (weaveModule source? items)).source.Lacks Kind.isVariable name := by
    rw [weaveModule_source]
    exact ⟨wellFormed,
      countNodesInItems_spells_eq_zero (fun _ same => same) items wellFormed absent⟩
  have hereditary := hereditary_lacks Kind.isVariable name
  constructor
  · intro treatment visited value dynamic
    exact not_mem_freeNames value (Woven.Decided.dynamicExpressions hereditary (.follows follows)
      lacks treatment visited value dynamic).2
  · intro attachment replaced scan? within expression among
    obtain ⟨_, _, -, carries⟩ := within.carries hereditary (.follows follows) lacks
    exact not_mem_freeNames expression (carries.forwarded expression among).2

open Woven in
/-- In an instrumented module, the hooks of an element stand in one place. The variables that they use
from outside are bound there if and only if they were in the module. -/
theorem Woven.Site.outer (options : Options) (file : String) {source? : Option String}
    {items : List Tree} (fits : (Tree.list items).ScopesFit) {treatment : Treatment}
    {handle : ElementHandle} {component : Woven} {path : List Frame}
    (site : Site (weaveModule source? items) treatment handle component path) :
    ∃ bound, boundAroundInItems (isCopy (Hooks.declaration handle))
        (instrumentModule options file source? items).items = [bound] ∧
      ∀ name ∈ Hooks.outerNames treatment.markers,
        (name ∉ bound ++ moduleNames (instrumentModule options file source? items).items ↔
          name ∉ moduleNames items ∧
            ∀ scope ∈ component.scopesAroundHooks ++ path.flatMap Frame.scopes, name ∉ scope.names) := by
  obtain ⟨field?, way, hosts⟩ := site.hosted
  obtain ⟨bound, alone, alike⟩ :=
    bound_around_hooks options file fits site.stands hosts site.visited site.given
  refine ⟨bound, alone, fun name outer => ?_⟩
  rw [List.mem_append, not_or, alike name (Hooks.outerNames_ordinary outer),
    mem_moduleNames_instrumentModule options file source? fits.1.1, and_comm, Scope.allNames,
    List.mem_flatMap]
  simp only [not_exists, not_and]

/-- `const __trackingElement = page.id; return <div data-track-show={__trackingElement} />;` -/
def elementStatements : List Tree :=
  [Code.constant "__trackingElement" (Code.member (Code.reference "page") "id"),
    Code.returnValue (markedElement "div" "data-track-show" (Code.reference "__trackingElement"))]

end JsxTracking
