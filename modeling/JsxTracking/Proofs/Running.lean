import JsxTracking.Woven

/-! # Running generated code

Generated statements are executed as a browser executes them, as far as they go: variables live in
frames and are initialized once, functions keep the frames they were made in, and objects are told
apart by address. A page tells what has been done to the browser (`Deed`); from this follows which
elements are observed (`watched`) and which listeners are bound (`listeners`).

Two things come from outside. What the module's own expressions are worth is up to the module; they
stand where something is reported to the runtime and where the dependencies of a hook are listed.
And a call may be nested only to some depth. Whatever a browser would throw, and whatever generated
code does not do, is a `Fault`. -/

namespace JsxTracking.Page

/-! ## Values and pages -/

/-- What generated code gets from the browser and from React. -/
inductive Provided where
  | window
  /-- The tracking runtime, while it is there. -/
  | runtime
  /-- The class of intersection observers. -/
  | observerClass
  | useRef
  | useEffect
  | useCallback
  deriving DecidableEq, Repr, Inhabited

/-- A value of a program. -/
inductive Value where
  | undefined
  | null
  | bool (value : Bool)
  | number (numeral : String)
  | text (value : String)
  /-- A value of the module's own. Values are the same if their numbers are. -/
  | own (identity : Nat)
  /-- An element of the document. -/
  | element (node : Nat)
  /-- An object, a list or a function, by its address. -/
  | object (address : Nat)
  | provided (thing : Provided)
  deriving DecidableEq, Repr, Inhabited

namespace Value

/-- Whether a value counts as true in a condition. -/
def isTruthy? : Value → Option Bool
  | undefined | null => some false
  | bool value => some value
  | text value => some (value ≠ "")
  | element _ | object _ | provided _ => some true
  | number _ | own _ => none

/-- Whether two values are strictly equal. -/
def equals? : Value → Value → Option Bool
  | number _, _ | _, number _ | own _, _ | _, own _ => none
  | first, second => some (first = second)

/-- The name of the type of a value. -/
def typeOf? : Value → Option String
  | undefined => some "undefined"
  | bool _ => some "boolean"
  | number _ => some "number"
  | text _ => some "string"
  | null | element _ | provided .window | provided .runtime => some "object"
  | provided _ => some "function"
  | own _ | object _ => none

end Value

/-- The variables of a block, with their values once they are initialized. -/
abbrev Variables := List (String × Option Value)

/-- Where code finds its variables. -/
structure Environment where
  /-- The render of the component that the code belongs to. -/
  render : Nat
  /-- The frames of variables, from the inside out. -/
  frames : List Nat
  deriving DecidableEq, Repr, Inhabited

/-- What is found at an address. -/
inductive Cell where
  | record (members : List (String × Value))
  | array (items : List Value)
  | function (parameters : List Tree) (body : Tree) (environment : Environment)
  /-- An observer with its callback. -/
  | observer (callback : Value)
  deriving Inhabited

/-- What generated code does to the browser. -/
inductive Deed where
  /-- Make an observer. -/
  | create (observer : Nat)
  | observe (observer node : Nat)
  | disconnect (observer : Nat)
  | listen (node : Nat) (event : String) (callback : Value)
  | unlisten (node : Nat) (event : String) (callback : Value)
  /-- Call a method of the runtime. -/
  | report (method : String) (name : Value)
  deriving DecidableEq, Repr, Inhabited

/-- A hook of a component. -/
inductive Hook where
  | reference (address : Nat)
  | memo (callback : Value) (dependencies : List Value)
  /-- An effect, with what is due to run after the commit and what cleans up after the last run. -/
  | effect (due? : Option Value) (dependencies? : Option (List Value)) (cleanup : Value)
  deriving DecidableEq, Repr, Inhabited

end Page

open Page in
/-- A page with a component of the module. -/
structure Page where
  frames : List Variables := []
  cells : List Cell := []
  /-- Whether the runtime is there. -/
  hasRuntime : Bool := false
  /-- What has been done to the browser. -/
  trace : List Deed := []
  /-- The hooks of the component. -/
  hooks : List Hook := []
  /-- The number of hooks that the present render has used. -/
  cursor : Nat := 0
  /-- The number of renders. -/
  renders : Nat := 0
  /-- The number of events. -/
  moment : Nat := 0
  /-- What React has attached the element to. -/
  attached? : Option Nat := none
  deriving Inhabited

/-- What a page runs in. -/
structure Page.Setting where
  /-- The name of the runtime among the properties of the window. -/
  runtimeGlobal : String
  /-- Whether the browser has intersection observers. -/
  observes : Bool
  /-- What an expression of the module is worth in a render, at a moment. -/
  worth : Nat → Nat → Tree → Nat

namespace Page

/-- The elements that are observed after some deeds, each with its observer. -/
def watched (trace : List Deed) : List (Nat × Nat) :=
  trace.foldl (fun watched deed =>
    match deed with
    | .observe observer node =>
      if (observer, node) ∈ watched then watched else watched ++ [(observer, node)]
    | .disconnect observer => watched.filter fun pair => pair.1 ≠ observer
    | _ => watched) []

/-- The listeners that are bound after some deeds: element, event and callback. -/
def listeners (trace : List Deed) : List (Nat × String × Value) :=
  trace.foldl (fun bound deed =>
    match deed with
    | .listen node event callback =>
      if (node, event, callback) ∈ bound then bound else bound ++ [(node, event, callback)]
    | .unlisten node event callback => bound.filter fun listener => listener ≠ (node, event, callback)
    | _ => bound) []

/-- How often a method of the runtime was called. -/
def reports (method : String) (trace : List Deed) : Nat :=
  trace.countP fun deed =>
    match deed with
    | .report called _ => called = method
    | _ => false

/-- Why code comes to a stop. -/
inductive Fault where
  /-- A variable that does not exist. -/
  | unknown (name : String)
  /-- A variable that is used before it is initialized. -/
  | uninitialized (name : String)
  /-- A value that does not have the property or the method, or that is no function. -/
  | type
  /-- Calls are nested too deep. -/
  | stack
  /-- Something that generated code does not do. -/
  | unsupported
  deriving DecidableEq, Repr, Inhabited

/-- Code that runs on a page. -/
abbrev Script := StateT Page (Except Fault)

/-- How a statement ends. -/
inductive Completion where
  | normal
  | returned (value : Value)
  deriving DecidableEq, Repr, Inhabited

/-! ## Variables and objects -/

/-- The value of a variable, if there is one of the name, and none if it is not initialized. -/
def find? (page : Page) (name : String) : List Nat → Option (Option Value)
  | [] => none
  | frame :: outer =>
    match (page.frames[frame]?.getD []).lookup name with
    | some value? => some value?
    | none => page.find? name outer

/-- What a name means outside of the component. -/
def Setting.global? (setting : Setting) (name : String) : Option Value :=
  if name = "window" then some (.provided .window)
  else if name = "IntersectionObserver" then
    if setting.observes then some (.provided .observerClass) else none
  else if name = HookNames.useRef then some (.provided .useRef)
  else if name = HookNames.useEffect then some (.provided .useEffect)
  else if name = HookNames.useCallback then some (.provided .useCallback)
  else none

/-- The value of a variable; none if there is no such variable. -/
def lookup? (setting : Setting) (environment : Environment) (name : String) :
    Script (Option Value) := do
  match (← get).find? name environment.frames with
  | some (some value) => return some value
  | some none => throw (.uninitialized name)
  | none => return setting.global? name

/-- Make a frame of variables. -/
def enter (bound : Variables) : Script Nat := do
  let page ← get
  set { page with frames := page.frames ++ [bound] }
  return page.frames.length

/-- The variables with one of them initialized. -/
def defined (bound : Variables) (name : String) (value : Value) : Variables :=
  bound.map fun known => if known.1 = name then (name, some value) else known

/-- Initialize a variable of the innermost frame. -/
def define (environment : Environment) (name : String) (value : Value) : Script Unit := do
  let page ← get
  match environment.frames with
  | [] => throw .unsupported
  | frame :: _ =>
    let bound := page.frames[frame]?.getD []
    if bound.lookup name = some none then
      set { page with frames := page.frames.set frame (defined bound name value) }
    else throw .unsupported

/-- Make an object. -/
def allocate (cell : Cell) : Script Value := do
  let page ← get
  set { page with cells := page.cells ++ [cell] }
  return .object page.cells.length

/-- What is found at an address. -/
def cellAt (address : Nat) : Script Cell := do
  match (← get).cells[address]? with
  | some cell => return cell
  | none => throw .unsupported

/-- Do something to the browser. -/
def perform (deed : Deed) : Script Unit :=
  modify fun page => { page with trace := page.trace ++ [deed] }

/-- Decide a condition. -/
def decideOn (value : Value) : Script Bool :=
  match value.isTruthy? with
  | some holds => return holds
  | none => throw .unsupported

/-- The value of a property. -/
def property (setting : Setting) (name : String) : Value → Script Value
  | .object address => do
    match ← cellAt address with
    | .record members => return (members.lookup name).getD .undefined
    | _ => throw .unsupported
  | .provided .window => do
    if name = setting.runtimeGlobal then
      return if (← get).hasRuntime then .provided .runtime else .undefined
    else throw .unsupported
  | .undefined | .null => throw .type
  | _ => throw .unsupported

/-- Give a property a value. -/
def assign (target : Value) (name : String) (value : Value) : Script Unit := do
  match target with
  | .object address =>
    match ← cellAt address with
    | .record members =>
      let changed := (name, value) :: members.filter fun member => member.1 ≠ name
      modify fun page => { page with cells := page.cells.set address (.record changed) }
    | _ => throw .unsupported
  | .undefined | .null => throw .type
  | _ => throw .unsupported

/-! ## Hooks -/

/-- The hook that comes next; none in the first render. -/
def nextHook? : Script (Option Hook) := do
  let page ← get
  return page.hooks[page.cursor]?

/-- Keep the hook that comes next. -/
def keepHook (hook : Hook) : Script Unit :=
  modify fun page => { page with
    hooks := page.hooks.take page.cursor ++ hook :: page.hooks.drop (page.cursor + 1)
    cursor := page.cursor + 1 }

/-- The items of a list. -/
def itemsOf (list : Value) : Script (List Value) := do
  match list with
  | .object address =>
    match ← cellAt address with
    | .array items => return items
    | _ => throw .unsupported
  | _ => throw .unsupported

/-- Use an effect: it is due unless its dependencies are what they were. -/
def useEffect (effect : Value) (dependencies? : Option (List Value)) : Script Value := do
  match ← nextHook? with
  | none => keepHook (.effect (some effect) dependencies? .undefined)
  | some (.effect _ past? cleanup) =>
    if dependencies?.isSome ∧ past? = dependencies? then
      keepHook (.effect none dependencies? cleanup)
    else keepHook (.effect (some effect) dependencies? cleanup)
  | some _ => throw .unsupported
  return .undefined

/-- Use a hook of React. -/
def useHook (hook : Provided) (given : List Value) : Script Value := do
  match hook, given with
  | .useRef, [initial] =>
    match ← nextHook? with
    | none =>
      let holder ← allocate (.record [("current", initial)])
      match holder with
      | .object address => keepHook (.reference address)
      | _ => throw .unsupported
      return holder
    | some (.reference address) =>
      keepHook (.reference address)
      return .object address
    | some _ => throw .unsupported
  | .useCallback, [callback, list] =>
    let dependencies ← itemsOf list
    match ← nextHook? with
    | none =>
      keepHook (.memo callback dependencies)
      return callback
    | some (.memo past same) =>
      if same = dependencies then
        keepHook (.memo past same)
        return past
      else
        keepHook (.memo callback dependencies)
        return callback
    | some _ => throw .unsupported
  | .useEffect, [effect] => useEffect effect none
  | .useEffect, [effect, list] => useEffect effect (some (← itemsOf list))
  | _, _ => throw .unsupported

/-! ## Expressions and statements -/

/-- How functions are called. -/
abbrev Caller := Value → List Value → Script Value

/-- Whether a test holds of some item. -/
def anyItem (call : Caller) (test : Value) : List Value → Script Bool
  | [] => return false
  | item :: rest => do
    if ← decideOn (← call test [item]) then return true
    else anyItem call test rest

/-- Call a method. -/
def invoke (call : Caller) (receiver : Value) (method : String) (given : List Value) :
    Script Value := do
  match receiver with
  | .object address =>
    match ← cellAt address, given with
    | .array items, [test] =>
      if method = "some" then return .bool (← anyItem call test items) else throw .unsupported
    | .observer _, [.element node] =>
      if method = "observe" then perform (.observe address node) else throw .unsupported
      return .undefined
    | .observer _, [] =>
      if method = "disconnect" then perform (.disconnect address) else throw .unsupported
      return .undefined
    | _, _ => throw .unsupported
  | .element node =>
    match given with
    | [.text event, callback] =>
      if method = "addEventListener" then perform (.listen node event callback)
      else if method = "removeEventListener" then perform (.unlisten node event callback)
      else throw .unsupported
      return .undefined
    | _ => throw .unsupported
  | .undefined | .null => throw .type
  | _ => throw .unsupported

/-- What an expression of the module is worth. -/
def worthOf (setting : Setting) (environment : Environment) (expression : Tree) : Script Value := do
  return .own (setting.worth environment.render (← get).moment expression)

/-- What the module's own expressions in a list are worth. -/
def worthOfAll (setting : Setting) (environment : Environment) : List Tree → Script (List Value)
  | [] => return []
  | .node .argument [(.expression, expression)] :: rest => do
    let value ← worthOf setting environment expression
    return value :: (← worthOfAll setting environment rest)
  | _ :: _ => throw .unsupported

/-- Call a method of the runtime. -/
def report (method : String) (given : List Value) : Script Value := do
  match given with
  | [name] =>
    if method = "show" ∨ method = "click" then perform (.report method name)
    else throw .unsupported
    return .undefined
  | _ => throw .unsupported

/-- The type of a variable, which need not exist. -/
def typeOfVariable (setting : Setting) (environment : Environment) : Tree → Script Value
  | .node .identifier [(.value, .str name)] => do
    match ((← lookup? setting environment name).getD .undefined).typeOf? with
    | some type => return .text type
    | none => throw .unsupported
  | _ => throw .unsupported

section Expressions

variable (setting : Setting) (call : Caller) (environment : Environment)

mutual

/-- Evaluate an expression. -/
def evaluate : Tree → Script Value
  | .node .identifier [(.value, .str name)] => do
    match ← lookup? setting environment name with
    | some value => return value
    | none => throw (.unknown name)
  | .node .stringLiteral [(.value, .str text)] => return .text text
  | .node .numericLiteral [(.value, .num numeral)] => return .number numeral
  | .node .nullLiteral [] => return .null
  | .node .memberExpression [(.object, object), (.property, .node .name [(.value, .str name)])] => do
    property setting name (← evaluate object)
  | .node .callExpression
      [(.callee, .node .memberExpression
          [(.object, object), (.property, .node .name [(.value, .str method)])]),
        (.arguments, .list given)] => do
    match ← evaluate object with
    | .provided .runtime => report method (← worthOfAll setting environment given)
    | receiver => invoke call receiver method (← evaluateAll given)
  | .node .callExpression [(.callee, callee), (.arguments, .list given)] => do
    match ← evaluate callee with
    | .provided hook => useHook hook (← evaluateAll given)
    | function => call function (← evaluateAll given)
  | .node .newExpression [(.callee, .node .identifier [(.value, .str name)]),
      (.arguments, .list given)] => do
    match ← lookup? setting environment name with
    | some (.provided .observerClass) =>
      match ← evaluateAll given with
      | [callback, _] =>
        let made ← allocate (.observer callback)
        match made with
        | .object address => perform (.create address)
        | _ => throw .unsupported
        return made
      | _ => throw .unsupported
    | _ => throw .unsupported
  | .node .arrayExpression [(.elements, .list elements)] => do
    allocate (.array (← worthOfAll setting environment elements))
  | .node .objectExpression [(.properties, .list members)] => do
    allocate (.record (← evaluateMembers members))
  | .node .unaryExpression [(.argument, argument), (.operator, .str operator)] => do
    if operator = "!" then return .bool (!(← decideOn (← evaluate argument)))
    else if operator = "typeof" then typeOfVariable setting environment argument
    else throw .unsupported
  | .node .binaryExpression [(.left, left), (.right, right), (.operator, .str "&&")] => do
    let first ← evaluate left
    if ← decideOn first then evaluate right else return first
  | .node .binaryExpression [(.left, left), (.right, right), (.operator, .str "||")] => do
    let first ← evaluate left
    if ← decideOn first then return first else evaluate right
  | .node .binaryExpression [(.left, left), (.right, right), (.operator, .str "===")] => do
    match (← evaluate left).equals? (← evaluate right) with
    | some same => return .bool same
    | none => throw .unsupported
  | .node .assignmentExpression
      [(.left, .node .memberExpression
          [(.object, object), (.property, .node .name [(.value, .str name)])]),
        (.right, right), (.operator, .str "=")] => do
    let target ← evaluate object
    let value ← evaluate right
    assign target name value
    return value
  | .node .arrowFunctionExpression [(.params, .list parameters), (.body, body)] =>
    allocate (.function parameters body environment)
  | _ => throw .unsupported

/-- Evaluate the arguments of a call. -/
def evaluateAll : List Tree → Script (List Value)
  | [] => return []
  | .node .argument [(.expression, expression)] :: rest => do
    let value ← evaluate expression
    return value :: (← evaluateAll rest)
  | _ :: _ => throw .unsupported

/-- Evaluate the members of an object. -/
def evaluateMembers : List Tree → Script (List (String × Value))
  | [] => return []
  | .node .keyValueProperty
      [(.key, .node .name [(.value, .str name)]), (.value, expression)] :: rest => do
    let value ← evaluate expression
    return (name, value) :: (← evaluateMembers rest)
  | _ :: _ => throw .unsupported

end

mutual

/-- Execute a statement. -/
def execute : Tree → Script Completion
  | .node .expressionStatement [(.expression, expression)] => do
    let _ ← evaluate setting call environment expression
    return .normal
  | .node .returnStatement [] => return .returned .undefined
  | .node .returnStatement [(.argument, argument)] => do
    return .returned (← evaluate setting call environment argument)
  | .node .variableDeclaration
      [(.declarations, .list [.node .variableDeclarator
          [(.id, .node .binding [(.value, .str name)]), (.initializer, value)]]),
        (.kind, .str "const")] => do
    define environment name (← evaluate setting call environment value)
    return .normal
  | .node .ifStatement
      [(.test, test), (.consequent, .node .blockStatement [(.stmts, .list statements)])] => do
    if ← decideOn (← evaluate setting call environment test) then executeAll statements
    else return .normal
  | _ => throw .unsupported

/-- Execute statements until one returns. -/
def executeAll : List Tree → Script Completion
  | [] => return .normal
  | statement :: rest => do
    match ← execute statement with
    | .normal => executeAll rest
    | .returned value => return .returned value

end

end Expressions

/-- The constants that statements declare, before they are initialized. -/
def declared (statements : List Tree) : Variables :=
  statements.filterMap fun statement =>
    match statement with
    | .node .variableDeclaration
        [(.declarations, .list [.node .variableDeclarator
          [(.id, .node .binding [(.value, .str name)]), _]]), _] => some (name, none)
    | _ => none

/-- The parameters of a function, with what is given for them. -/
def parametersBound : List Tree → List Value → Variables
  | .node .binding [(.value, .str name)] :: parameters, given =>
    (name, some (given.head?.getD .undefined)) :: parametersBound parameters given.tail
  | _, _ => []

/-- Call a function, with calls nested to a depth at most. -/
def call (setting : Setting) : Nat → Caller
  | 0, _, _ => throw .stack
  | depth + 1, .object address, given => do
    match ← cellAt address with
    | .function parameters (.node .blockStatement [(.stmts, .list statements)]) outer =>
      let frame ← enter (parametersBound parameters given ++ declared statements)
      let inner := { outer with frames := frame :: outer.frames }
      match ← executeAll setting (call setting depth) inner statements with
      | .normal => return .undefined
      | .returned value => return value
    | .function parameters body outer =>
      let frame ← enter (parametersBound parameters given)
      evaluate setting (call setting depth) { outer with frames := frame :: outer.frames } body
    | _ => throw .type
  | _ + 1, _, _ => throw .type

/-! ## Components -/

/-- A component with an instrumented element: the handle of the element, and the statements that its
body runs at every render. -/
structure Component where
  handle : ElementHandle
  statements : List Tree
  deriving Inhabited

/-- What happens to a page. -/
inductive Event where
  /-- React renders the component and commits it with an element, or without one. -/
  | commit (node? : Option Nat)
  /-- The browser tells an observer which elements now intersect the viewport or do not. -/
  | intersect (observer : Nat) (entries : List Bool)
  /-- The user clicks on an element. -/
  | click (node : Nat)
  /-- The runtime appears or disappears. -/
  | runtime (present : Bool)
  deriving DecidableEq, Repr, Inhabited

/-- What a reference holds for an element. -/
def elementValue : Option Nat → Value
  | some node => .element node
  | none => .null

/-- Call what cleans up after an effect, if there is something. -/
def dispose (call : Caller) : Value → Script Unit
  | .undefined => return
  | cleanup => do
    let _ ← call cleanup []

/-- Clean up after the effects that are due to run again. -/
def cleanUpDue (call : Caller) : List Hook → Script Unit
  | [] => return
  | .effect (some _) _ cleanup :: rest => do
    dispose call cleanup
    cleanUpDue call rest
  | _ :: rest => cleanUpDue call rest

/-- Run the effects that are due, and keep what they return. -/
def runDue (call : Caller) : List Hook → Script (List Hook)
  | [] => return []
  | .effect (some effect) dependencies? _ :: rest => do
    let cleanup ← call effect []
    return .effect none dependencies? cleanup :: (← runDue call rest)
  | hook :: rest => return hook :: (← runDue call rest)

/-- Clean up after all effects. -/
def cleanUpAll (call : Caller) : List Hook → Script Unit
  | [] => return
  | .effect _ _ cleanup :: rest => do
    dispose call cleanup
    cleanUpAll call rest
  | _ :: rest => cleanUpAll call rest

/-- Make the entries that an observer is told of. -/
def makeEntries : List Bool → Script (List Value)
  | [] => return []
  | intersects :: rest => do
    let entry ← allocate (.record [("isIntersecting", .bool intersects)])
    return entry :: (← makeEntries rest)

/-- Call listeners one after another. -/
def dispatch (call : Caller) : List (Nat × String × Value) → Script Unit
  | [] => return
  | (_, _, callback) :: rest => do
    let _ ← call callback []
    dispatch call rest

section Components

variable (setting : Setting) (depth : Nat) (component : Component)

/-- Run the body of the component. -/
def render : Script Environment := do
  let page ← get
  set { page with cursor := 0, renders := page.renders + 1 }
  let frame ← enter (declared component.statements)
  let environment : Environment := ⟨page.renders, [frame]⟩
  match ← executeAll setting (call setting depth) environment component.statements with
  | .normal => return environment
  | .returned _ => throw .unsupported

/-- Attach an element to the variable of the handle. -/
def attach (environment : Environment) (node? : Option Nat) : Script Unit := do
  match ← lookup? setting environment component.handle.name with
  | some (.object holder) =>
    assign (.object holder) "current" (elementValue node?)
    modify fun page => { page with attached? := some holder }
  | _ => throw .unsupported

/-- Render the component and commit it with an element or without one. React attaches the element,
cleans up after the effects that are due and then runs them. -/
def commit (node? : Option Nat) : Script Unit := do
  let environment ← render setting depth component
  attach setting component environment node?
  let hooks := (← get).hooks
  cleanUpDue (call setting depth) hooks
  let settled ← runDue (call setting depth) hooks
  modify fun page => { page with hooks := settled }

/-- Take the component off the page. -/
def unmount : Script Unit := do
  match (← get).attached? with
  | some holder => assign (.object holder) "current" .null
  | none => pure ()
  cleanUpAll (call setting depth) (← get).hooks
  modify fun page => { page with hooks := [], attached? := none }

/-- Tell an observer of entries. A browser only does so while the observer is connected. -/
def intersect (observer : Nat) (entries : List Bool) : Script Unit := do
  let page ← get
  if observer ∈ (watched page.trace).map Prod.fst then
    match ← cellAt observer with
    | .observer callback =>
      let list ← allocate (.array (← makeEntries entries))
      let _ ← call setting depth callback [list]
    | _ => throw .unsupported

/-- Call the listeners for clicks on an element. -/
def click (node : Nat) : Script Unit := do
  let page ← get
  dispatch (call setting depth)
    ((listeners page.trace).filter fun listener => listener.1 = node ∧ listener.2.1 = "click")

/-- What happens at an event. -/
def step (event : Event) : Script Unit := do
  modify fun page => { page with moment := page.moment + 1 }
  match event with
  | .commit node? => commit setting depth component node?
  | .intersect observer entries => intersect setting depth observer entries
  | .click node => click setting depth node
  | .runtime present => modify fun page => { page with hasRuntime := present }

/-- What happens at some events, one after another. -/
def stepAll : List Event → Script Unit
  | [] => return
  | event :: rest => do
    step setting depth component event
    stepAll rest

/-- The page after some events. -/
def run (events : List Event) : Except Fault Page :=
  (·.2) <$> (stepAll setting depth component events).run {}

/-- The page after some events and the end of the component. -/
def runToEnd (events : List Event) : Except Fault Page :=
  (·.2) <$> (do
    stepAll setting depth component events
    unmount setting depth : Script Unit).run {}

end Components

end Page

end JsxTracking
