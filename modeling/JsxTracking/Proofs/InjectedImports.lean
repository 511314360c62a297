import Mathlib.Data.List.TakeWhile
import JsxTracking.Imports

/-! # The imports that a module gets

The import of the runtime and the import of the hooks are put next to each other into what the
module holds (`inject_placed`): after the first import, or after the directives, and right behind
the first import from the address of the runtime. The directives stay in front, and doing it again
adds nothing.

An import counts as there by its source alone, and the hooks by the name of one of them. What
generated code needs (`Supplies`) is more than that: an import that brings values, and each of the
three hooks. So a module that imports no more than types from the address of the runtime is left
without the runtime (`inject_supplies_iff`, `types_taken_for_runtime`). -/

namespace JsxTracking

namespace Imports

variable {url : String} {items front back : List Tree} {test : Tree → Bool}

theorem importsFrom_runtime (url : String) : (runtime url).importsFrom url = true := by
  have imported : ((runtime url).get .source).value? = some url := rfl
  have isImport : (runtime url).isImport = true := rfl
  rw [Tree.importsFrom, imported, isImport]
  exact decide_eq_true rfl

theorem importsHooks_runtime (url : String) : (runtime url).importsHooks = false :=
  Bool.and_false _

theorem importsHooks_hooks : hooks.importsHooks = true := by
  decide

theorem isImport_of_importsFrom {item : Tree} (imports : item.importsFrom url = true) :
    item.isImport = true :=
  (Bool.and_eq_true_iff.mp imports).1

theorem isDirective_of_isImport {item : Tree} (isImport : item.isImport = true) :
    item.isDirective = false := by
  cases item with
  | node kind fields =>
    obtain rfl : kind = .importDeclaration := by
      simpa [Tree.isImport, Tree.isKind, Tree.kind?] using isImport
    rfl
  | _ => rfl

/-! ## The place of the imports -/

/-- The items end with the first one that satisfies the test. -/
def EndsAtFirst (test : Tree → Bool) (items : List Tree) : Prop :=
  ∃ before item, items = before ++ [item] ∧ test item = true ∧ ∀ other ∈ before, test other = false

/-- Where the import of the runtime goes: behind the first import, or behind the directives if there
is none. -/
def IsRuntimePlace (items front : List Tree) : Prop :=
  EndsAtFirst Tree.isImport front ∨
    items.any Tree.isImport = false ∧ front = items.takeWhile Tree.isDirective

theorem insertAt_append (front back : List Tree) (item : Tree) :
    insertAt (front ++ back) front.length item = front ++ item :: back := by
  rw [insertAt, List.take_left, List.drop_left]

/-- The index of the first item that satisfies a test, as a place in the list. -/
theorem exists_endsAtFirst {index : Nat} (first : items.findIdx? test = some index) :
    ∃ front back, items = front ++ back ∧ front.length = index + 1 ∧ EndsAtFirst test front := by
  obtain ⟨inside, satisfied, before⟩ := List.findIdx?_eq_some_iff_getElem.mp first
  refine ⟨items.take (index + 1), items.drop (index + 1), (List.take_append_drop _ _).symm,
    List.length_take_of_le inside, items.take index, items[index],
    List.take_succ_eq_append_getElem inside, satisfied, ?_⟩
  intro other member
  obtain ⟨earlier, less, rfl⟩ := List.mem_take_iff_getElem.mp member
  exact Bool.not_eq_true _ ▸ before earlier (Nat.lt_of_lt_of_le less (Nat.min_le_left _ _))

theorem EndsAtFirst.any (ends : EndsAtFirst test front) (back : List Tree) :
    (front ++ back).any test = true := by
  obtain ⟨before, item, rfl, satisfied, -⟩ := ends
  simp [satisfied]

/-- The directives in front of an import are not changed by what comes after it. -/
theorem EndsAtFirst.takeWhile_isDirective (ends : EndsAtFirst test front)
    (isImport : ∀ item, test item = true → item.isImport = true) (back : List Tree) :
    (front ++ back).takeWhile Tree.isDirective = front.takeWhile Tree.isDirective := by
  obtain ⟨before, item, rfl, satisfied, -⟩ := ends
  have stops : item.isDirective = false := isDirective_of_isImport (isImport item satisfied)
  simp [List.takeWhile_append, stops]

/-- Where the import of the runtime goes, the directives are in front of it. -/
theorem IsRuntimePlace.takeWhile_isDirective (place : IsRuntimePlace (front ++ back) front)
    (rest : List Tree) :
    (front ++ runtime url :: rest).takeWhile Tree.isDirective =
        (front ++ back).takeWhile Tree.isDirective ∧
      (front ++ back).takeWhile Tree.isDirective <+: front := by
  rcases place with ends | ⟨-, same⟩
  · rw [ends.takeWhile_isDirective (fun _ => id), ends.takeWhile_isDirective fun _ => id]
    exact ⟨rfl, List.takeWhile_prefix _⟩
  · have directives : ∀ item ∈ front, item.isDirective = true := by
      rw [same]
      exact fun _ => List.mem_takeWhile_imp
    rw [← same, List.takeWhile_append_of_pos directives]
    exact ⟨List.append_nil front, List.prefix_refl front⟩

/-- An import from the address is found, or the import of the runtime is put in its place. -/
theorem withRuntime_spec (url : String) (items : List Tree) :
    ∃ front start back, items = front ++ back ∧
      withRuntime url items = (start ++ back, start.length - 1) ∧
      EndsAtFirst (Tree.importsFrom url) start ∧
      start = front ++ (if items.any (Tree.importsFrom url) then [] else [runtime url]) ∧
      (items.any (Tree.importsFrom url) = false → IsRuntimePlace items front) := by
  cases found : items.findIdx? (Tree.importsFrom url) with
  | some index =>
    obtain ⟨front, back, rfl, length, ends⟩ := exists_endsAtFirst found
    rw [ends.any back]
    refine ⟨front, front, back, rfl, ?_, ends, (List.append_nil front).symm, nofun⟩
    rw [withRuntime, found, length]
    rfl
  | none =>
    have absent : ∀ item ∈ items, item.importsFrom url = false :=
      List.findIdx?_eq_none_iff.mp found
    have none : items.any (Tree.importsFrom url) = false := by simpa using absent
    have place : ∃ front back, items = front ++ back ∧ IsRuntimePlace items front ∧
        front.length = runtimePosition items := by
      cases first : items.findIdx? Tree.isImport with
      | some index =>
        obtain ⟨front, back, same, length, ends⟩ := exists_endsAtFirst first
        exact ⟨front, back, same, .inl ends, by rw [runtimePosition, first, length]⟩
      | none =>
        refine ⟨_, _, List.takeWhile_append_dropWhile.symm,
          .inr ⟨by simpa using List.findIdx?_eq_none_iff.mp first, rfl⟩, ?_⟩
        rw [runtimePosition, first]
    obtain ⟨front, back, rfl, isPlace, length⟩ := place
    rw [none]
    refine ⟨front, front ++ [runtime url], back, rfl, ?_, ?_, rfl, fun _ => isPlace⟩
    · rw [withRuntime, found, ← length, insertAt_append, List.length_append, List.append_assoc]
      rfl
    · exact ⟨front, runtime url, rfl, importsFrom_runtime url,
        fun item member => absent item (List.mem_append_left _ member)⟩

/-- The two imports go between the same two parts of the module. -/
theorem inject_spec (url : String) (items : List Tree) :
    ∃ front start back, items = front ++ back ∧
      inject url items =
        (start ++ (if items.any Tree.importsHooks then [] else [hooks]) ++ back,
          ⟨!items.any (Tree.importsFrom url), !items.any Tree.importsHooks⟩) ∧
      EndsAtFirst (Tree.importsFrom url) start ∧
      start = front ++ (if items.any (Tree.importsFrom url) then [] else [runtime url]) ∧
      (items.any (Tree.importsFrom url) = false → IsRuntimePlace items front) := by
  obtain ⟨front, start, back, rfl, loaded, ends, isStart, place⟩ := withRuntime_spec url items
  refine ⟨front, start, back, rfl, ?_, ends, isStart, place⟩
  have hooked : (start ++ back).any Tree.importsHooks = (front ++ back).any Tree.importsHooks := by
    rw [isStart]
    split
    · rw [List.append_nil]
    · simp [importsHooks_runtime]
  have behind : start.length - 1 + 1 = start.length := by
    obtain ⟨before, item, rfl, -, -⟩ := ends
    simp
  simp only [inject, loaded, hooked, behind, insertAt_append]
  cases (front ++ back).any Tree.importsHooks with
  | true => simp
  | false => simp

/-- The report tells which of the two imports were missing. -/
theorem inject_report (url : String) (items : List Tree) :
    (inject url items).2 =
      ⟨!items.any (Tree.importsFrom url), !items.any Tree.importsHooks⟩ := by
  obtain ⟨front, start, back, -, injected, -, -, -⟩ := inject_spec url items
  rw [injected]

/-- A module that has both imports is left alone. -/
theorem inject_of_present (loaded : items.any (Tree.importsFrom url) = true)
    (hooked : items.any Tree.importsHooks = true) :
    inject url items = (items, ⟨false, false⟩) := by
  obtain ⟨front, start, back, same, injected, -, isStart, -⟩ := inject_spec url items
  rw [injected, isStart, loaded, hooked]
  simp [same]

/-- The imports that a report tells of, in their order. -/
def added (url : String) (report : ImportReport) : List Tree :=
  (if report.runtimeAdded then [runtime url] else []) ++ if report.hooksAdded then [hooks] else []

/-- What a module holds after the imports are added is what it held, and them. -/
theorem any_inject (url : String) (items : List Tree) (test : Tree → Bool) :
    (inject url items).1.any test =
      (items.any test || (added url (inject url items).2).any test) := by
  obtain ⟨front, start, back, rfl, injected, -, rfl, -⟩ := inject_spec url items
  rw [injected]
  cases (front ++ back).any (Tree.importsFrom url) <;>
    cases (front ++ back).any Tree.importsHooks <;>
    simp [added, Bool.or_assoc, Bool.or_comm, Bool.or_left_comm]

theorem any_importsFrom_inject (url : String) (items : List Tree) :
    (inject url items).1.any (Tree.importsFrom url) = true := by
  obtain ⟨front, start, back, -, injected, ends, -, -⟩ := inject_spec url items
  rw [injected, List.append_assoc]
  exact ends.any _

theorem any_importsHooks_inject (url : String) (items : List Tree) :
    (inject url items).1.any Tree.importsHooks = true := by
  rw [any_inject, inject_report]
  cases items.any Tree.importsHooks with
  | true => rfl
  | false => simp [added, importsHooks_hooks]

/-- **Imports in their places.** The two imports are put next to each other, and everything else
stays as it is. Then both are there, and nothing is added another time. -/
theorem inject_placed (url : String) (items : List Tree) :
    let injected := (inject url items).1
    let report := (inject url items).2
    inject url injected = (injected, ⟨false, false⟩) ∧
      injected.any (Tree.importsFrom url) = true ∧ injected.any Tree.importsHooks = true ∧
      injected.takeWhile Tree.isDirective = items.takeWhile Tree.isDirective ∧
      ∃ front back, items = front ++ back ∧ injected = front ++ added url report ++ back ∧
        items.takeWhile Tree.isDirective <+: front ∧
        (report.runtimeAdded = true → IsRuntimePlace items front) ∧
        (report.hooksAdded = true → ∃ start, injected = start ++ hooks :: back ∧
          EndsAtFirst (Tree.importsFrom url) start) := by
  have loaded := any_importsFrom_inject url items
  have hooked := any_importsHooks_inject url items
  refine ⟨inject_of_present loaded hooked, loaded, hooked, ?_⟩
  obtain ⟨front, start, back, rfl, injected, ends, isStart, place⟩ := inject_spec url items
  have directives : (inject url (front ++ back)).1.takeWhile Tree.isDirective =
      (front ++ back).takeWhile Tree.isDirective ∧
        (front ++ back).takeWhile Tree.isDirective <+: front := by
    rw [injected, List.append_assoc]
    cases imported : (front ++ back).any (Tree.importsFrom url) with
    | true =>
      obtain rfl : start = front := by simpa [imported] using isStart
      have stop := ends.takeWhile_isDirective fun _ => isImport_of_importsFrom
      rw [stop, stop]
      exact ⟨rfl, List.takeWhile_prefix _⟩
    | false =>
      obtain rfl : start = front ++ [runtime url] := by simpa [imported] using isStart
      rw [List.append_assoc]
      exact (place imported).takeWhile_isDirective _
  refine ⟨directives.1, front, back, rfl, ?_, directives.2, ?_, ?_⟩
  · rw [injected, isStart, added]
    simp only [Bool.not_eq_true', List.append_assoc]
    cases (front ++ back).any (Tree.importsFrom url) <;>
      cases (front ++ back).any Tree.importsHooks <;> rfl
  · intro runtimeAdded
    exact place (by simpa [injected] using runtimeAdded)
  · intro hooksAdded
    have missing : (front ++ back).any Tree.importsHooks = false := by
      simpa only [injected, Bool.not_eq_true'] using hooksAdded
    refine ⟨start, ?_, ends⟩
    rw [injected, missing]
    simp

end Imports

/-! ## What generated code needs -/

namespace HookNames

/-- The hooks that generated code calls, each with the name it calls it by. -/
def aliases : List (String × String) :=
  [("useRef", useRef), ("useCallback", useCallback), ("useEffect", useEffect)]

end HookNames

namespace Tree

/-- Whether a module item runs the module at an address: imports of types are gone by then. -/
def loads (url : String) (item : Tree) : Bool :=
  item.importsFrom url && !(item.get .typeOnly).isTrue

/-- The name that a named import has in the module it comes from. -/
def importedName? (specifier : Tree) : Option String :=
  if (specifier.get .imported).isNull then (specifier.get .localName).value?
  else (specifier.get .imported).value?

/-- Whether a part of an import gives a value of the imported module a name. -/
def bindsValue (exported localName : String) (specifier : Tree) : Bool :=
  specifier.isKind .importSpecifier && !(specifier.get (.other "isTypeOnly")).isTrue &&
    specifier.importedName? = some exported && (specifier.get .localName).value? = some localName

/-- Whether a module item gives a hook a name. -/
def bindsHook (hook localName : String) (item : Tree) : Bool :=
  item.loads HookNames.package && (item.get .specifiers).items.any (bindsValue hook localName)

end Tree

namespace Imports

/-- Whether a module has what generated code needs: the runtime is loaded, and each hook goes by the
name that it is called by. -/
def Supplies (url : String) (items : List Tree) : Prop :=
  items.any (Tree.loads url) = true ∧
    ∀ hook ∈ HookNames.aliases, items.any (Tree.bindsHook hook.1 hook.2) = true

instance (url : String) (items : List Tree) : Decidable (Supplies url items) :=
  inferInstanceAs (Decidable (_ ∧ _))

variable {url : String} {items : List Tree}

theorem importsFrom_of_loads {item : Tree} (loads : item.loads url = true) :
    item.importsFrom url = true :=
  (Bool.and_eq_true_iff.mp loads).1

theorem loads_runtime (url : String) : (runtime url).loads url = true := by
  rw [Tree.loads, importsFrom_runtime]
  rfl

theorem loads_hooks (url : String) : hooks.loads url = decide (url = HookNames.package) := by
  have imported : (hooks.get .source).value? = some HookNames.package := rfl
  have isImport : hooks.isImport = true := rfl
  have flag : (hooks.get .typeOnly).isTrue = false := rfl
  simp [Tree.loads, Tree.importsFrom, imported, isImport, flag, @eq_comm _ url]

theorem bindsHook_runtime (url hook localName : String) :
    (runtime url).bindsHook hook localName = false :=
  Bool.and_false _

theorem bindsHook_hooks {hook : String × String} (member : hook ∈ HookNames.aliases) :
    hooks.bindsHook hook.1 hook.2 = true := by
  revert member hook
  decide

theorem any_loads_inject (url : String) (items : List Tree) :
    (inject url items).1.any (Tree.loads url) = true ↔
      (items.any (Tree.importsFrom url) = true → items.any (Tree.loads url) = true ∨
        url = HookNames.package ∧ items.any Tree.importsHooks = false) := by
  rw [any_inject, inject_report]
  cases items.any (Tree.importsFrom url) with
  | false => simp [added, loads_runtime]
  | true =>
    cases items.any Tree.importsHooks with
    | false => simp [added, loads_hooks]
    | true => simp [added]

theorem any_bindsHook_inject (url : String) (items : List Tree) {hook : String × String}
    (member : hook ∈ HookNames.aliases) :
    (inject url items).1.any (Tree.bindsHook hook.1 hook.2) = true ↔
      (items.any Tree.importsHooks = true → items.any (Tree.bindsHook hook.1 hook.2) = true) := by
  rw [any_inject, inject_report]
  cases items.any Tree.importsHooks with
  | false => simp [added, bindsHook_hooks member]
  | true =>
    cases items.any (Tree.importsFrom url) <;> simp [added, bindsHook_runtime]

/-- **What generated code needs** is there after the imports are added, unless an import that counts
as there does not bring it: if there are imports from the address of the runtime, one of them brings
values (or the hooks come from there too), and if there is the import of a hook, all three are
imported as values. No other import of the runtime is added to one that brings values. -/
theorem inject_supplies_iff (url : String) (items : List Tree) :
    (Supplies url (inject url items).1 ↔
      (items.any (Tree.importsFrom url) = true → items.any (Tree.loads url) = true ∨
        url = HookNames.package ∧ items.any Tree.importsHooks = false) ∧
      (items.any Tree.importsHooks = true →
        ∀ hook ∈ HookNames.aliases, items.any (Tree.bindsHook hook.1 hook.2) = true)) ∧
    (items.any (Tree.loads url) = true →
      (inject url items).2.runtimeAdded = false ∧
        ∃ front back, items = front ++ back ∧
          (inject url items).1 =
            front ++ (if (inject url items).2.hooksAdded then [hooks] else []) ++ back) := by
  constructor
  · have bound : (∀ hook ∈ HookNames.aliases,
        (inject url items).1.any (Tree.bindsHook hook.1 hook.2) = true) ↔
          (items.any Tree.importsHooks = true →
            ∀ hook ∈ HookNames.aliases, items.any (Tree.bindsHook hook.1 hook.2) = true) :=
      ⟨fun all counted hook member =>
          (any_bindsHook_inject url items member).mp (all hook member) counted,
        fun all hook member =>
          (any_bindsHook_inject url items member).mpr fun counted => all counted hook member⟩
    rw [Supplies, any_loads_inject, bound]
  · intro loads
    have imported : items.any (Tree.importsFrom url) = true := by
      obtain ⟨item, member, loads⟩ := List.any_eq_true.mp loads
      exact List.any_eq_true.mpr ⟨item, member, importsFrom_of_loads loads⟩
    obtain ⟨front, start, back, same, injected, -, isStart, -⟩ := inject_spec url items
    obtain rfl : start = front := by simpa [imported] using isStart
    refine ⟨by rw [injected, imported]; rfl, start, back, same, ?_⟩
    rw [injected]
    cases items.any Tree.importsHooks <;> rfl

/-- `import type { Runtime } from "/t.js"` -/
def typesOfRuntime : Tree :=
  .node .importDeclaration
    [(.specifiers, .list [.node .importSpecifier [(.localName, Code.reference "Runtime")]]),
      (.source, Code.string "/t.js"), (.typeOnly, .bool true), (.phase, .str "evaluation")]

/-- An import of types counts as the import of the runtime, which is not loaded then. -/
theorem types_taken_for_runtime :
    (inject "/t.js" [typesOfRuntime]).2.runtimeAdded = false ∧
      ¬Supplies "/t.js" (inject "/t.js" [typesOfRuntime]).1 := by
  decide

end Imports

end JsxTracking
