import JsxTracking.Syntax.Code
import JsxTracking.BodyScan

/-! # Imports of generated code

Instrumented modules load the tracking runtime by a bare import and import three hooks under names
of their own. The runtime import goes after the first import of the module, or after the directives
when there is none; the import of the hooks follows the import of the runtime. What is already there
is not added again. -/

namespace JsxTracking

namespace HookNames

/-- The name under which generated code calls `useRef`. -/
def useRef : String := "__useTrackingRef"

/-- The name under which generated code calls `useCallback`. -/
def useCallback : String := "__useTrackingCallback"

/-- The name under which generated code calls `useEffect`. -/
def useEffect : String := "__useTrackingEffect"

/-- The module the hooks come from. -/
def package : String := "react"

end HookNames

/-- What was added to a module. -/
structure ImportReport where
  runtimeAdded : Bool
  hooksAdded : Bool
  deriving DecidableEq, Repr, Inhabited

namespace Tree

/-- Whether a module item is an import. -/
def isImport (item : Tree) : Bool :=
  item.isKind .importDeclaration

/-- Whether a module item imports from a source. -/
def importsFrom (source : String) (item : Tree) : Bool :=
  item.isImport && (item.get .source).value? = some source

/-- Whether a module item imports the hooks for generated code. -/
def importsHooks (item : Tree) : Bool :=
  item.importsFrom HookNames.package && (item.get .specifiers).items.any fun specifier =>
    specifier.isKind .importSpecifier &&
      (specifier.get .localName).value? = some HookNames.useRef

end Tree

namespace Imports

/-- An import declaration. -/
def declaration (source : String) (specifiers : List Tree) : Tree :=
  .node .importDeclaration
    [(.specifiers, .list specifiers), (.source, Code.string source), (.phase, .str "evaluation")]

/-- `imported as local` in an import declaration. -/
def renamed (imported localName : String) : Tree :=
  .node .importSpecifier
    [(.localName, Code.reference localName), (.imported, Code.reference imported)]

/-- The import that loads the tracking runtime. -/
def runtime (url : String) : Tree :=
  declaration url []

/-- The import of the hooks that generated code calls. -/
def hooks : Tree :=
  declaration HookNames.package
    [renamed "useCallback" HookNames.useCallback, renamed "useEffect" HookNames.useEffect,
      renamed "useRef" HookNames.useRef]

/-- A list with one more element at an index. -/
def insertAt (items : List Tree) (index : Nat) (item : Tree) : List Tree :=
  items.take index ++ item :: items.drop index

/-- Where an import of the runtime is added. -/
def runtimePosition (items : List Tree) : Nat :=
  match items.findIdx? Tree.isImport with
  | some first => first + 1
  | none => (items.takeWhile Tree.isDirective).length

/-- The module with an import of the runtime, and the index of that import. -/
def withRuntime (url : String) (items : List Tree) : List Tree × Nat :=
  match items.findIdx? (Tree.importsFrom url) with
  | some index => (items, index)
  | none => (insertAt items (runtimePosition items) (runtime url), runtimePosition items)

/-- Add the imports that generated code needs, unless they are there. -/
def inject (url : String) (items : List Tree) : List Tree × ImportReport :=
  let (loaded, index) := withRuntime url items
  let runtimeAdded := !items.any (Tree.importsFrom url)
  if loaded.any Tree.importsHooks then (loaded, ⟨runtimeAdded, false⟩)
  else (insertAt loaded (index + 1) hooks, ⟨runtimeAdded, true⟩)

end Imports

end JsxTracking
