import JsxTracking.Enclosure
import JsxTracking.Woven

/-! # Instrumentation of a module

Elements are handled in visiting order, an element before its children. The markers of an element
are removed. If they have values and the element stands in a component, it gets a handle and a
generated `ref`, and the hooks of its markers belong to the nearest component around it. The outcome
is a woven tree. The pass itself does not depend on other modules of the build. -/

namespace JsxTracking

namespace Kind

/-- Whether a node of the kind is a function that may be a component. -/
def isFunction : Kind → Bool
  | functionDeclaration | functionExpression | function | arrowFunctionExpression
  | methodProperty => true
  | _ => false

end Kind

/-- What is known on the way down to a node. -/
structure Surroundings where
  /-- The source text, for line numbers. -/
  source? : Option String := none
  enclosure : Enclosure := .outside
  deriving Repr, Inhabited

namespace Surroundings

/-- The line on which a node starts, if its position and the source text are known. -/
def line? (around : Surroundings) (position : Tree) : Option Nat :=
  match around.source?, position.get .start with
  | some source, .num start =>
    start.toNat?.map fun start => (source.toUTF8.toList.take (start - 1)).count 10 + 1
  | _, _ => none

/-- The surroundings within a node that is no function. -/
def enterNode (around : Surroundings) (kind : Kind) : Surroundings :=
  { around with enclosure := around.enclosure.enterNode kind }

/-- The surroundings within a function, which is a component if it has a scan. -/
def enterFunction (around : Surroundings) (scan? : Option BodyScan) : Surroundings :=
  { around with enclosure := around.enclosure.enterFunction scan? }

/-- The surroundings within another top-level statement of the component. -/
def atStatement (around : Surroundings) (index : Nat) : Surroundings :=
  { around with enclosure := around.enclosure.atStatement index }

/-- The surroundings of the reference that a forwarding function declares in its second
statement. -/
def enterForwarding (around : Surroundings) (scan? : Option BodyScan) : Surroundings :=
  { around with enclosure := around.enclosure.enterForwarding scan? }

end Surroundings

/-- What changes while a module is visited. -/
structure Pass where
  allocator : HandleAllocator
  /-- Whether the next function to be visited is a component. -/
  componentAhead : Bool := false
  deriving Repr, Inhabited

/-- A step of the pass. -/
abbrev Visit := StateM Pass

namespace Visit

/-- Take the next function to be visited for a component. -/
def announceComponent : Visit Unit :=
  modify fun pass => { pass with componentAhead := true }

/-- What the name of a function says about it. A declaration decides whether its function is a
component; a function expression may only add that it is. -/
def announceFunction (kind : Kind) (parts : Fields) : Visit Unit :=
  let named := (parts.get .identifier).value?.any isComponentName
  modify fun pass =>
    match kind with
    | .functionDeclaration => { pass with componentAhead := named }
    | .functionExpression => { pass with componentAhead := pass.componentAhead || named }
    | _ => pass

/-- Enter a function whose body has the given scan. It is a component if one is due. -/
def enterFunction (scan : BodyScan) : Visit (Option BodyScan) :=
  modifyGet fun pass =>
    (if pass.componentAhead then some scan else none, { pass with componentAhead := false })

/-- Enter the function that forwards an element to the references it had, if there are any. -/
def enterForwarding (attachment : Attachment) (explicit? : Option Tree) :
    Visit (Option BodyScan) :=
  match ElementRef.forwarded? explicit? attachment.spreads with
  | none => return none
  | some reference =>
    enterFunction (.ofStatements (ElementRef.forwardingBody attachment.handle reference))

/-- Give out a handle. -/
def allocate : Visit Allocation :=
  modifyGet fun pass =>
    let (allocation, allocator) := pass.allocator.allocate
    (allocation, { pass with allocator })

end Visit

/-- Decide about the element whose opening tag has the given parts. -/
def treatElement (around : Surroundings) (parts : Fields) : Visit Treatment := do
  let attributes := (parts.get .attributes).items
  let markers := ElementMarkers.scan attributes
  let outcome ←
    if !markers.hasValues then pure Outcome.plain
    else
      match around.enclosure.place markers attributes with
      | .error reason => pure (Outcome.refused reason)
      | .ok position => do
        let allocation ← Visit.allocate
        pure (Outcome.instrumented allocation position around.enclosure.isShared)
  return {
    elementName := (parts.get .name).elementName, line? := around.line? (parts.get .span), markers,
    outcome }

/-- The reference that an element with the given attributes gets. -/
def Treatment.attachment? (treatment : Treatment) (attributes : List Tree) : Option Attachment :=
  treatment.handle?.map (⟨·, ElementRef.trailingSpreads attributes⟩)

/-- How a part of a node is visited. -/
inductive Step where
  /-- The part is left alone. -/
  | keep
  | visit
  /-- The first function in the part is a component. -/
  | announce
  /-- The part is the body of a component. -/
  | componentBody
  /-- The part holds the top-level statements of a component. -/
  | statements
  /-- The part holds the attributes of an element, which may get a reference. -/
  | attributes (attachment? : Option Attachment)
  deriving DecidableEq, Repr, Inhabited

namespace Step

/-- How the parts of a function are visited, which is a component if it has a scan. -/
def ofFunction (scan? : Option BodyScan) (field : Field) : Step :=
  match scan?, field with
  | none, _ => visit
  | some _, .params => visit
  | some _, .body => componentBody
  | some _, _ => keep

/-- How the parts of an opening tag are visited. -/
def ofOpening (attachment? : Option Attachment) : Field → Step
  | .attributes => attributes attachment?
  | _ => visit

/-- Whether a declarator binds a function to a component name. -/
def bindsComponent (declarator : Fields) : Bool :=
  (declarator.get .id).isKind .binding &&
    (declarator.get .id).value?.any isComponentName &&
    (declarator.get .initializer).isFunctionLike

/-- How the parts of any other node are visited. -/
def ofNode (kind : Kind) (parts : Fields) (field : Field) : Step :=
  match kind, field with
  | .variableDeclarator, .initializer => if bindsComponent parts then announce else visit
  | .callExpression, .arguments => if Tree.wrapsComponent parts then announce else visit
  | .callExpression, .typeArguments => keep
  | .exportDefaultExpression, .expression =>
    if (parts.get .expression).isFunctionLike then announce else visit
  | .exportDefaultDeclaration, .decl =>
    if (parts.get .decl).isKind .functionExpression then announce else visit
  | _, _ => visit

/-- How the parts of a node are visited that is itself visited by a step. The block that is the body
of a component has only its statements visited. -/
def within (step : Step) (kind : Kind) (parts : Fields) (field : Field) : Step :=
  if step = componentBody ∧ kind = .blockStatement then
    if field = .stmts then statements else keep
  else ofNode kind parts field

/-- What is announced before a part is visited. -/
def prepare : Step → Visit Unit
  | announce => Visit.announceComponent
  | _ => return ()

end Step

mutual

/-- Weave a tree. -/
def weave (around : Surroundings) : Step → Tree → Visit Woven
  | .keep, tree => return .kept tree
  | .statements, .list items => return .statements (← weaveStatements around 0 items)
  | .attributes attachment?, .list attributes =>
    return .list (← weaveAttributes around attachment? attributes)
  | _, .list items => return .list (← weaveItems around items)
  | _, .node .methodProperty ((.key, key) :: parts) => do
    let key ← weave around .visit key
    let scan? ← Visit.enterFunction (.ofBody (Fields.get parts .body))
    let inner ← weaveParts (around.enterFunction scan?) (Step.ofFunction scan?) parts
    return .function .methodProperty [(.key, key)] scan? inner
  | step, .node kind parts => do
    if kind.isFunction then
      Visit.announceFunction kind parts
      let scan? ← Visit.enterFunction (.ofBody (Fields.get parts .body))
      let inner ← weaveParts (around.enterFunction scan?) (Step.ofFunction scan?) parts
      return .function kind [] scan? inner
    else if kind = .jsxOpeningElement then
      let treatment ← treatElement around parts
      let attachment? := treatment.attachment? (Fields.get parts .attributes).items
      return .opening treatment (← weaveParts around (Step.ofOpening attachment?) parts)
    else
      return .node kind (← weaveParts (around.enterNode kind) (step.within kind parts) parts)
  | _, tree => return .kept tree

/-- Weave a list of trees. -/
def weaveItems (around : Surroundings) : List Tree → Visit (List Woven)
  | [] => return []
  | item :: rest => do
    let item ← weave around .visit item
    let rest ← weaveItems around rest
    return item :: rest

/-- Weave the parts of a node, each as its step says. -/
def weaveParts (around : Surroundings) (step : Field → Step) :
    List (Field × Tree) → Visit (List (Field × Woven))
  | [] => return []
  | (field, part) :: rest => do
    (step field).prepare
    let part ← weave around (step field) part
    let rest ← weaveParts around step rest
    return (field, part) :: rest

/-- Weave the top-level statements of a component, the first of which has the given index. -/
def weaveStatements (around : Surroundings) (index : Nat) : List Tree → Visit (List Woven)
  | [] => return []
  | statement :: rest => do
    let statement ← weave (around.atStatement index) .visit statement
    let rest ← weaveStatements around (index + 1) rest
    return statement :: rest

/-- Weave what a field of a node holds, or what a further path of fields leads to from there. -/
def weaveAt (around : Surroundings) (field : Field) (path : List Field) :
    Tree → Visit (List Woven)
  | .node _ parts => weavePartAt around field path parts
  | _ => return [.kept .null]

/-- Weave what a field of a node with the given parts holds, or what a further path of fields leads
to from there. -/
def weavePartAt (around : Surroundings) (field : Field) (path : List Field) :
    List (Field × Tree) → Visit (List Woven)
  | [] => return [.kept .null]
  | (other, part) :: rest =>
    if field = other then
      match path with
      | [] => return [← weave around .visit part]
      | next :: path => weaveAt around next path part
    else weavePartAt around field path rest

/-- Weave the attributes of an element: markers go, and a generated `ref` comes last, with the
expression of the explicit `ref` it replaces inside it. -/
def weaveAttributes (around : Surroundings) (attachment? : Option Attachment) :
    List Tree → Visit (List Woven)
  | [] =>
    match attachment? with
    | none => return []
    | some attachment => return [.reference attachment [] (← Visit.enterForwarding attachment none)]
  | attr :: rest => do
    if attr.isMarker then return .removed attr :: (← weaveAttributes around attachment? rest)
    else
      match attachment? with
      | some attachment =>
        if attr.isRef && !rest.any Tree.isRef then
          let rest ← weaveAttributes around none rest
          let scan? ← Visit.enterForwarding attachment attr.refExpression?
          let replaced ← (if attr.refExpression?.isSome then
            weaveAt (around.enterForwarding scan?) .value [.expression] attr else pure [])
          return .removed attr :: rest ++ [.reference attachment replaced scan?]
        else
          let attr ← weave around .visit attr
          return attr :: (← weaveAttributes around attachment? rest)
      | none =>
        let attr ← weave around .visit attr
        return attr :: (← weaveAttributes around attachment? rest)

end

end JsxTracking
