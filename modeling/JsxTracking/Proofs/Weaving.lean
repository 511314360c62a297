import JsxTracking.Transform

/-! # What weaving does

Weaving loses nothing: the tree it was made from can be read off a woven tree (`Woven.source`). It
follows the rules of the pass: `Woven.Follows` says of every element which enclosure decided about
it and of every component which body was scanned, without the state of the pass. And it gives out
handles one after another (`HandleAllocator.Gives`). The three facts hold of every tree, in all
surroundings and whatever the pass has seen before (`weave_weaves_all`). -/

namespace JsxTracking

/-- The first of some parts, or a later one. -/
theorem Fields.get_cons (field other : Field) (part : Tree) (rest : Fields) :
    Fields.get ((other, part) :: rest) field =
      if field = other then part else Fields.get rest field := by
  unfold Fields.get
  by_cases same : field = other
  · rw [same, List.lookup_cons_self, if_pos rfl, Option.getD_some]
  · rw [List.lookup_cons, beq_eq_false_iff_ne.mpr same, if_neg same]

/-- A missing part has no parts. -/
theorem Tree.foldl_get_null (path : List Field) : path.foldl Tree.get .null = .null := by
  induction path with
  | nil => rfl
  | cons field path ih => exact ih

/-- The expression of a `ref` attribute is found in its value. -/
theorem Tree.refExpression?_eq {attr expression : Tree}
    (found : attr.refExpression? = some expression) :
    expression = (attr.get .value).get .expression := by
  unfold refExpression? at found
  split at found
  case h_1 fields value =>
    rw [value]
    split at found
    case h_1 => exact absurd found.symm (Option.some_ne_none _)
    case h_2 => exact (Option.some.inj found).symm
  case h_2 => exact absurd found.symm (Option.some_ne_none _)

/-- Whether the tree is neither a node nor a list. -/
def Tree.isScalar : Tree → Bool
  | node .. | list .. => false
  | _ => true

namespace Woven

/-- Whether the tree is a generated attribute. -/
def isGenerated : Woven → Bool
  | reference .. => true
  | _ => false

mutual

/-- The tree that was woven. Of a generated attribute it is the one that forwards the explicit
reference as it was. -/
def source : Woven → Tree
  | kept tree | removed tree => tree
  | list items | statements items => .list (sources items)
  | node kind parts => .node kind (sourcesInParts parts)
  | function kind outer _ inner => .node kind (sourcesInParts outer ++ sourcesInParts inner)
  | opening _ parts => .node .jsxOpeningElement (sourcesInParts parts)
  | reference attachment replaced _ => attachment.attribute (sources replaced).head? []

/-- The trees that were woven, without the attributes that are generated. -/
def sources : List Woven → List Tree
  | [] => []
  | item :: rest => if item.isGenerated then sources rest else source item :: sources rest

/-- The parts of a node that was woven. -/
def sourcesInParts : List (Field × Woven) → Fields
  | [] => []
  | (field, part) :: rest => (field, source part) :: sourcesInParts rest

end

end Woven

/-- The treatment of an element is the one its enclosure asks for, given the parts of its opening
tag. -/
structure Treatment.Suits (treatment : Treatment) (enclosure : Enclosure) (parts : Fields) :
    Prop where
  elementName : treatment.elementName = (parts.get .name).elementName
  markers : treatment.markers = .scan (parts.get .attributes).items
  outcome : match treatment.outcome with
    | .plain => treatment.markers.hasValues = false
    | .refused reason => treatment.markers.hasValues = true ∧
      enclosure.place treatment.markers (parts.get .attributes).items = .error reason
    | .instrumented _ position shared => treatment.markers.hasValues = true ∧
      enclosure.place treatment.markers (parts.get .attributes).items = .ok position ∧
      shared = enclosure.isShared

namespace Woven

/-- The body that a forwarding function has before its reference is visited. -/
def forwardingScan (attachment : Attachment) (explicit? : Option Tree) : Option BodyScan :=
  (ElementRef.forwarded? explicit? attachment.spreads).map fun reference =>
    .ofStatements (ElementRef.forwardingBody attachment.handle reference)

mutual

/-- What is decided in a woven tree is what the pass decides in an enclosure, when it visits the
tree by a step. -/
def Follows (enclosure : Enclosure) (step : Step) : Woven → Prop
  | kept tree => step = .keep ∨ tree.isScalar
  | list items =>
    match step with
    | .keep | .statements => False
    | .attributes attachment? => FollowsAttributes enclosure attachment? none items
    | _ => FollowsItems enclosure items
  | statements items => step = .statements ∧ FollowsStatements enclosure 0 items
  | node kind parts =>
    step ≠ .keep ∧ kind.isFunction = false ∧ kind ≠ .jsxOpeningElement ∧
      FollowsParts (enclosure.enterNode kind) (step.within kind (sourcesInParts parts)) parts
  | function kind outer scan? inner =>
    step ≠ .keep ∧ kind.isFunction = true ∧ (∀ part ∈ outer, part.1 = .key) ∧
      FollowsParts enclosure (fun _ => .visit) outer ∧
      (∀ scan ∈ scan?, scan = .ofBody (Fields.get (sourcesInParts inner) .body)) ∧
      FollowsParts (enclosure.enterFunction scan?) (Step.ofFunction scan?) inner
  | opening treatment parts =>
    step ≠ .keep ∧ treatment.Suits enclosure (sourcesInParts parts) ∧
      FollowsParts enclosure (Step.ofOpening (treatment.attachment?
        (Fields.get (sourcesInParts parts) .attributes).items)) parts
  | removed _ | reference .. => False

/-- `Woven.Follows` for a list of trees that are visited. -/
def FollowsItems (enclosure : Enclosure) : List Woven → Prop
  | [] => True
  | item :: rest => item.Follows enclosure .visit ∧ FollowsItems enclosure rest

/-- `Woven.Follows` for the parts of a node, each visited as its step says. -/
def FollowsParts (enclosure : Enclosure) (step : Field → Step) : List (Field × Woven) → Prop
  | [] => True
  | (field, part) :: rest =>
    part.Follows enclosure (step field) ∧ FollowsParts enclosure step rest

/-- `Woven.Follows` for the top-level statements of a component from an index on. -/
def FollowsStatements (enclosure : Enclosure) (index : Nat) : List Woven → Prop
  | [] => True
  | statement :: rest =>
    statement.Follows (enclosure.atStatement index) .visit ∧
      FollowsStatements enclosure (index + 1) rest

/-- `Woven.Follows` for the attributes of an element, given the reference that is still to come and
the explicit one that it replaces, if that was passed already. Only markers and the last explicit
reference are taken away. -/
def FollowsAttributes (enclosure : Enclosure) (attachment? : Option Attachment)
    (explicit? : Option Tree) : List Woven → Prop
  | [] => attachment? = none
  | reference attachment replaced scan? :: rest =>
    attachment? = some attachment ∧ rest = [] ∧
      sources replaced = (explicit?.bind Tree.refExpression?).toList ∧
      (∀ scan ∈ scan?, some scan = forwardingScan attachment (sources replaced).head?) ∧
      FollowsItems (enclosure.enterForwarding scan?) replaced
  | removed attr :: rest =>
    if attr.isMarker then FollowsAttributes enclosure attachment? explicit? rest
    else attr.isRef = true ∧ attachment?.isSome = true ∧ explicit? = none ∧
      (sources rest).any Tree.isRef = false ∧
      FollowsAttributes enclosure attachment? (some attr) rest
  | item :: rest =>
    item.source.isMarker = false ∧ item.Follows enclosure .visit ∧
      FollowsAttributes enclosure attachment? explicit? rest

end

end Woven

/-- Successive handles are given out. -/
inductive HandleAllocator.Gives : HandleAllocator → List Allocation → HandleAllocator → Prop
  | nothing (allocator : HandleAllocator) : Gives allocator [] allocator
  | next {allocator after : HandleAllocator} {rest : List Allocation}
      (later : Gives allocator.allocate.2 rest after) :
      Gives allocator (allocator.allocate.1 :: rest) after

/-- Handles given out in two goes are handles given out. -/
theorem HandleAllocator.Gives.append {first middle last : HandleAllocator}
    {early late : List Allocation} (given : first.Gives early middle)
    (more : middle.Gives late last) : first.Gives (early ++ late) last := by
  induction given with
  | nothing allocator => exact more
  | next later ih => exact .next (ih more)

namespace Visit

variable {α β : Type}

theorem run_pure (value : α) (pass : Pass) : (pure value : Visit α).run pass = (value, pass) :=
  rfl

theorem run_bind (step : Visit α) (next : α → Visit β) (pass : Pass) :
    (step >>= next).run pass = (next (step.run pass).1).run (step.run pass).2 :=
  rfl

/-- Announcing a component gives out no handle. -/
theorem prepare_allocator (step : Step) (pass : Pass) :
    (step.prepare.run pass).2.allocator = pass.allocator := by
  cases step <;> rfl

/-- The name of a function gives out no handle. -/
theorem announceFunction_allocator (kind : Kind) (parts : Fields) (pass : Pass) :
    ((announceFunction kind parts).run pass).2.allocator = pass.allocator := by
  cases kind <;> rfl

/-- Entering a function gives out no handle. -/
theorem enterFunction_allocator (scan : BodyScan) (pass : Pass) :
    ((enterFunction scan).run pass).2.allocator = pass.allocator :=
  rfl

/-- A function that is entered as a component has the scan of its body. -/
theorem enterFunction_scan (scan : BodyScan) (pass : Pass) :
    ∀ found ∈ ((enterFunction scan).run pass).1, found = scan := by
  intro found member
  change found ∈ (if pass.componentAhead then some scan else none) at member
  split at member
  · exact (Option.mem_some_iff.mp member).symm
  · exact absurd member (Option.not_mem_none found)

/-- Entering a forwarding function gives out no handle. -/
theorem enterForwarding_allocator (attachment : Attachment) (explicit? : Option Tree)
    (pass : Pass) :
    ((enterForwarding attachment explicit?).run pass).2.allocator = pass.allocator := by
  unfold enterForwarding
  split <;> rfl

/-- A forwarding function that is entered as a component has the scan of its body. -/
theorem enterForwarding_scan (attachment : Attachment) (explicit? : Option Tree) (pass : Pass) :
    ∀ scan ∈ ((enterForwarding attachment explicit?).run pass).1,
      some scan = Woven.forwardingScan attachment explicit? := by
  intro scan member
  unfold enterForwarding at member
  unfold Woven.forwardingScan
  split at member
  case h_1 nothing => exact absurd member (Option.not_mem_none scan)
  case h_2 reference found =>
    rw [found, enterFunction_scan _ _ scan member]
    rfl

end Visit

namespace Woven

/-- The handles given out for the elements of a list. -/
def allocations (treatments : List Treatment) : List Allocation :=
  treatments.filterMap Treatment.allocation?

theorem allocations_append (first second : List Treatment) :
    allocations (first ++ second) = allocations first ++ allocations second :=
  List.filterMap_append ..

end Woven

/-- An element is treated as its enclosure asks for, and gets a new handle if it is
instrumented. -/
theorem treatElement_suits (around : Surroundings) (parts : Fields) (pass : Pass) :
    ((treatElement around parts).run pass).1.Suits around.enclosure parts ∧
      pass.allocator.Gives (Woven.allocations [((treatElement around parts).run pass).1])
        ((treatElement around parts).run pass).2.allocator := by
  unfold treatElement
  by_cases valued : (ElementMarkers.scan (parts.get .attributes).items).hasValues = true
  · simp only [valued, Bool.not_true, Bool.false_eq_true, ↓reduceIte]
    split
    case h_1 reason refusal =>
      exact ⟨⟨rfl, rfl, valued, refusal⟩, .nothing _⟩
    case h_2 position placed =>
      exact ⟨⟨rfl, rfl, valued, placed, rfl⟩, .next (.nothing _)⟩
  · rw [Bool.not_eq_true] at valued
    simp only [valued, Bool.not_false, ↓reduceIte]
    exact ⟨⟨rfl, rfl, valued⟩, .nothing _⟩

namespace Woven

/-- A tree woven in an enclosure by a step, while handles were given out. -/
structure Weaves (enclosure : Enclosure) (step : Step) (tree : Tree)
    (before after : HandleAllocator) (woven : Woven) : Prop where
  source : woven.source = tree
  follows : woven.Follows enclosure step
  gives : before.Gives (allocations woven.treatments) after

/-- A list of trees woven while handles were given out. -/
structure WeavesItems (follows : List Woven → Prop) (items : List Tree)
    (before after : HandleAllocator) (woven : List Woven) : Prop where
  sources : Woven.sources woven = items
  follows : follows woven
  gives : before.Gives (allocations (treatmentsInItems woven)) after

/-- The parts of a node woven while handles were given out. -/
structure WeavesParts (enclosure : Enclosure) (step : Field → Step) (parts : Fields)
    (before after : HandleAllocator) (woven : List (Field × Woven)) : Prop where
  sources : sourcesInParts woven = parts
  follows : FollowsParts enclosure step woven
  gives : before.Gives (allocations (treatmentsInParts woven)) after

/-- A tree that is visited is no attribute to be taken away or generated. -/
theorem Follows.ordinary {enclosure : Enclosure} {step : Step} {woven : Woven}
    (follows : woven.Follows enclosure step) :
    woven.isRemoved = false ∧ woven.isGenerated = false := by
  cases woven <;> first | exact ⟨rfl, rfl⟩ | exact follows.elim

theorem sources_append (first second : List Woven) :
    sources (first ++ second) = sources first ++ sources second := by
  induction first with
  | nil => rfl
  | cons item rest ih =>
    simp only [List.cons_append, sources, ih]
    split <;> rfl

theorem treatmentsInItems_append (first second : List Woven) :
    treatmentsInItems (first ++ second) = treatmentsInItems first ++ treatmentsInItems second := by
  induction first with
  | nil => rfl
  | cons item rest ih => simp only [List.cons_append, treatmentsInItems, ih, List.append_assoc]

/-- The attributes after an explicit reference, followed by the generated one that replaces it. -/
theorem FollowsAttributes.attach {enclosure : Enclosure} {attachment : Attachment} {attr : Tree}
    {rest replaced : List Woven} {scan? : Option BodyScan}
    (follows : FollowsAttributes enclosure none none rest)
    (source : sources replaced = attr.refExpression?.toList)
    (scanned : ∀ scan ∈ scan?, some scan = forwardingScan attachment attr.refExpression?)
    (within : FollowsItems (enclosure.enterForwarding scan?) replaced) :
    FollowsAttributes enclosure (some attachment) (some attr)
      (rest ++ [.reference attachment replaced scan?]) := by
  induction rest with
  | nil =>
    refine ⟨rfl, rfl, source, ?_, within⟩
    rw [source, Option.head?_toList]
    exact scanned
  | cons item rest ih =>
    cases item with
    | reference => exact absurd follows.1 (Option.some_ne_none _).symm
    | removed marker =>
      simp only [FollowsAttributes, Option.isSome_none, Bool.false_eq_true, false_and,
        and_false] at follows
      simp only [List.cons_append, FollowsAttributes]
      split at follows
      case isTrue isMarker =>
        rw [if_pos isMarker]
        exact ih follows
      case isFalse => exact follows.elim
    | kept | list | statements | node | function | opening =>
      exact ⟨follows.1, follows.2.1, ih follows.2.2⟩

/-- The expression of a `ref` attribute, woven if the attribute has one. -/
theorem WeavesItems.expression {around : Surroundings} {attr : Tree} {pass : Pass}
    (weaves : WeavesItems (FollowsItems around.enclosure) [(attr.get .value).get .expression]
      pass.allocator ((weaveAt around .value [.expression] attr).run pass).2.allocator
      ((weaveAt around .value [.expression] attr).run pass).1) :
    let visited := (if attr.refExpression?.isSome then weaveAt around .value [.expression] attr
      else pure [] : Visit (List Woven)).run pass
    WeavesItems (FollowsItems around.enclosure) attr.refExpression?.toList pass.allocator
      visited.2.allocator visited.1 := by
  intro visited
  cases found : attr.refExpression? with
  | none =>
    have nothing : visited = ([], pass) := by
      simp only [visited, found, Option.isSome_none, Bool.false_eq_true, ↓reduceIte,
        Visit.run_pure]
    rw [nothing]
    exact ⟨rfl, trivial, .nothing _⟩
  | some expression =>
    have woven : visited = (weaveAt around .value [.expression] attr).run pass := by
      simp only [visited, found, Option.isSome_some, ↓reduceIte]
    rw [woven, Option.toList_some, attr.refExpression?_eq found]
    exact weaves

section

variable {enclosure : Enclosure} {before middle after : HandleAllocator}

/-- What a step leaves alone is kept. -/
theorem Weaves.kept {step : Step} {tree : Tree} (left : step = .keep ∨ tree.isScalar = true) :
    Weaves enclosure step tree before before (.kept tree) :=
  ⟨rfl, left, .nothing _⟩

theorem WeavesItems.nil {follows : List Woven → Prop} (nothing : follows []) :
    WeavesItems follows [] before before [] :=
  ⟨rfl, nothing, .nothing _⟩

/-- A visited tree before others. -/
theorem Weaves.cons {follows followsRest : List Woven → Prop} {item : Tree} {rest : List Tree}
    {woven : Woven} {wovenRest : List Woven} (first : Weaves enclosure .visit item before middle woven)
    (others : WeavesItems followsRest rest middle after wovenRest)
    (joined : woven.Follows enclosure .visit → followsRest wovenRest → follows (woven :: wovenRest)) :
    WeavesItems follows (item :: rest) before after (woven :: wovenRest) := by
  obtain ⟨source, here, gives⟩ := first
  obtain ⟨sources, later, givesRest⟩ := others
  refine ⟨?_, joined here later, ?_⟩
  · simp only [Woven.sources, here.ordinary.2, Bool.false_eq_true, ↓reduceIte, source, sources]
  · simp only [treatmentsInItems, allocations_append]
    exact gives.append givesRest

theorem Weaves.single {item : Tree} {woven : Woven}
    (only : Weaves enclosure .visit item before after woven) :
    WeavesItems (FollowsItems enclosure) [item] before after [woven] := by
  have nothing : WeavesItems (FollowsItems enclosure) [] after after [] := .nil trivial
  exact only.cons nothing And.intro

theorem WeavesParts.nil {step : Field → Step} : WeavesParts enclosure step [] before before [] :=
  ⟨rfl, trivial, .nothing _⟩

/-- A part of a node before others. -/
theorem WeavesParts.cons {step : Field → Step} {field : Field} {part : Tree} {rest : Fields}
    {woven : Woven} {wovenRest : List (Field × Woven)}
    (first : Weaves enclosure (step field) part before middle woven)
    (others : WeavesParts enclosure step rest middle after wovenRest) :
    WeavesParts enclosure step ((field, part) :: rest) before after
      ((field, woven) :: wovenRest) := by
  obtain ⟨source, follows, gives⟩ := first
  obtain ⟨sources, followsRest, givesRest⟩ := others
  refine ⟨?_, ⟨follows, followsRest⟩, ?_⟩
  · simp only [sourcesInParts, source, sources]
  · simp only [treatmentsInParts, allocations_append]
    exact gives.append givesRest

section

variable {step : Step} {parts : Fields} {inner : List (Field × Woven)} {scan? : Option BodyScan}

/-- A method whose key comes first: the key stands outside of the function. -/
theorem Weaves.method {key : Tree} {woven : Woven} (notKeep : step ≠ .keep)
    (first : Weaves enclosure .visit key before middle woven)
    (scanned : ∀ scan ∈ scan?, scan = .ofBody (Fields.get parts .body))
    (others : WeavesParts (enclosure.enterFunction scan?) (Step.ofFunction scan?) parts middle after
      inner) :
    Weaves enclosure step (.node .methodProperty ((.key, key) :: parts)) before after
      (.function .methodProperty [(.key, woven)] scan? inner) := by
  obtain ⟨source, here, gives⟩ := first
  obtain ⟨sources, follows, givesRest⟩ := others
  refine ⟨?_, ⟨notKeep, rfl, ?_, ⟨here, trivial⟩, sources.symm ▸ scanned, follows⟩, ?_⟩
  · simp only [Woven.source, sourcesInParts, source, sources, List.cons_append, List.nil_append]
  · intro part member
    rw [List.mem_singleton.mp member]
  · simp only [treatments, treatmentsInParts, List.append_nil, allocations_append]
    exact gives.append givesRest

/-- Any other function. -/
theorem Weaves.function {kind : Kind} (notKeep : step ≠ .keep)
    (isFunction : kind.isFunction = true)
    (scanned : ∀ scan ∈ scan?, scan = .ofBody (Fields.get parts .body))
    (all : WeavesParts (enclosure.enterFunction scan?) (Step.ofFunction scan?) parts before after
      inner) :
    Weaves enclosure step (.node kind parts) before after (.function kind [] scan? inner) := by
  obtain ⟨sources, follows, gives⟩ := all
  refine ⟨?_, ⟨notKeep, isFunction, fun _ member => absurd member List.not_mem_nil, trivial,
    sources.symm ▸ scanned, follows⟩, gives⟩
  simp only [Woven.source, sourcesInParts, sources, List.nil_append]

/-- An opening tag, whose element gets its handle before anything in the tag is visited. -/
theorem Weaves.opening {treatment : Treatment} (notKeep : step ≠ .keep)
    (suits : treatment.Suits enclosure parts)
    (treated : before.Gives (allocations [treatment]) middle)
    (all : WeavesParts enclosure (Step.ofOpening (treatment.attachment?
      (Fields.get parts .attributes).items)) parts middle after inner) :
    Weaves enclosure step (.node .jsxOpeningElement parts) before after
      (.opening treatment inner) := by
  obtain ⟨sources, follows, gives⟩ := all
  refine ⟨congrArg (Tree.node _) sources, ⟨notKeep, sources.symm ▸ suits, ?_⟩, ?_⟩
  · rw [sources]
    exact follows
  · rw [treatments, ← List.singleton_append, allocations_append]
    exact treated.append gives

/-- Any other node. -/
theorem Weaves.node {kind : Kind} (notKeep : step ≠ .keep) (notFunction : ¬kind.isFunction = true)
    (notOpening : kind ≠ .jsxOpeningElement)
    (all : WeavesParts (enclosure.enterNode kind) (step.within kind parts) parts before after inner) :
    Weaves enclosure step (.node kind parts) before after (.node kind inner) := by
  obtain ⟨sources, follows, gives⟩ := all
  refine ⟨congrArg (Tree.node kind) sources,
    ⟨notKeep, Bool.eq_false_iff.mpr notFunction, notOpening, ?_⟩, gives⟩
  rw [sources]
  exact follows

end

section

variable {attachment? : Option Attachment} {attachment : Attachment} {attr : Tree} {rest : List Tree}
  {woven : Woven} {wovenRest replaced : List Woven} {scan? : Option BodyScan}

/-- A marker before the other attributes. -/
theorem WeavesItems.remove (isMarker : attr.isMarker = true)
    (others : WeavesItems (FollowsAttributes enclosure attachment? none) rest before after
      wovenRest) :
    WeavesItems (FollowsAttributes enclosure attachment? none) (attr :: rest) before after
      (.removed attr :: wovenRest) := by
  obtain ⟨sources, follows, gives⟩ := others
  refine ⟨congrArg (attr :: ·) sources, ?_, gives⟩
  simp only [FollowsAttributes, isMarker, ↓reduceIte]
  exact follows

/-- An attribute that stays, before the others. -/
theorem Weaves.attribute (first : Weaves enclosure .visit attr before middle woven)
    (notMarker : ¬attr.isMarker = true)
    (others : WeavesItems (FollowsAttributes enclosure attachment? none) rest middle after
      wovenRest) :
    WeavesItems (FollowsAttributes enclosure attachment? none) (attr :: rest) before after
      (woven :: wovenRest) := by
  refine first.cons others fun follows followsRest => ?_
  have stays : woven.source.isMarker = false := by
    rw [first.source]
    exact Bool.eq_false_iff.mpr notMarker
  cases woven with
  | removed | reference => exact follows.elim
  | kept | list | statements | node | function | opening =>
    exact ⟨stays, follows, followsRest⟩

/-- The last explicit reference before the other attributes, with the generated one behind them. -/
theorem WeavesItems.replace (notMarker : ¬attr.isMarker = true) (isRef : attr.isRef = true)
    (isLast : rest.any Tree.isRef = false)
    (others : WeavesItems (FollowsAttributes enclosure none none) rest before middle wovenRest)
    (scanned : ∀ scan ∈ scan?, some scan = forwardingScan attachment attr.refExpression?)
    (within : WeavesItems (FollowsItems (enclosure.enterForwarding scan?))
      attr.refExpression?.toList middle after replaced) :
    WeavesItems (FollowsAttributes enclosure (some attachment) none) (attr :: rest) before after
      (.removed attr :: wovenRest ++ [.reference attachment replaced scan?]) := by
  obtain ⟨sources, follows, gives⟩ := others
  obtain ⟨source, followsWithin, givesWithin⟩ := within
  have restSources : Woven.sources (wovenRest ++ [.reference attachment replaced scan?]) = rest := by
    rw [sources_append, sources]
    exact List.append_nil rest
  refine ⟨congrArg (attr :: ·) restSources, ?_, ?_⟩
  · simp only [List.cons_append, FollowsAttributes, notMarker, Bool.false_eq_true, ↓reduceIte]
    refine ⟨isRef, rfl, trivial, ?_, follows.attach source scanned followsWithin⟩
    rw [restSources]
    exact isLast
  · simp only [List.cons_append, treatmentsInItems, treatments, List.nil_append,
      treatmentsInItems_append, List.append_nil, allocations_append]
    exact gives.append givesWithin

end

end

end Woven

open Woven in
/-- Whatever is woven follows the pass, and handles are given out on the way. -/
theorem weave_weaves_all :
    (∀ around step tree pass, Weaves around.enclosure step tree pass.allocator
      ((weave around step tree).run pass).2.allocator ((weave around step tree).run pass).1) ∧
    (∀ around step parts pass, WeavesParts around.enclosure step parts pass.allocator
      ((weaveParts around step parts).run pass).2.allocator
      ((weaveParts around step parts).run pass).1) ∧
    (∀ around items pass, WeavesItems (FollowsItems around.enclosure) items pass.allocator
      ((weaveItems around items).run pass).2.allocator ((weaveItems around items).run pass).1) ∧
    (∀ around attachment? attributes pass,
      WeavesItems (FollowsAttributes around.enclosure attachment? none) attributes pass.allocator
        ((weaveAttributes around attachment? attributes).run pass).2.allocator
        ((weaveAttributes around attachment? attributes).run pass).1) ∧
    (∀ around field path tree pass, WeavesItems (FollowsItems around.enclosure)
      [path.foldl Tree.get (tree.get field)] pass.allocator
      ((weaveAt around field path tree).run pass).2.allocator
      ((weaveAt around field path tree).run pass).1) ∧
    (∀ around field path parts pass, WeavesItems (FollowsItems around.enclosure)
      [path.foldl Tree.get (Fields.get parts field)] pass.allocator
      ((weavePartAt around field path parts).run pass).2.allocator
      ((weavePartAt around field path parts).run pass).1) ∧
    (∀ around index statements pass,
      WeavesItems (FollowsStatements around.enclosure index) statements pass.allocator
        ((weaveStatements around index statements).run pass).2.allocator
        ((weaveStatements around index statements).run pass).1) := by
  refine weave.mutual_induct _ _ _ _ _ _ _
    ?keep ?statements ?attributes ?list ?method ?function ?opening ?node ?scalar ?atNode ?atScalar
    ?noItems ?items ?noAttributes ?reference ?marker ?explicit ?before ?unattached ?noStatements
    ?statement ?noParts ?parts ?missing ?found ?further ?other
  case keep =>
    intro around tree pass
    rw [weave]
    exact .kept (.inl rfl)
  case statements =>
    intro around items ih pass
    rw [weave]
    obtain ⟨sources, follows, gives⟩ := ih pass
    exact ⟨congrArg Tree.list sources, ⟨rfl, follows⟩, gives⟩
  case attributes =>
    intro around attachment? attributes ih pass
    rw [weave]
    obtain ⟨sources, follows, gives⟩ := ih pass
    exact ⟨congrArg Tree.list sources, follows, gives⟩
  case list =>
    intro around step items notKeep notStatements notAttributes ih pass
    rw [weave.eq_4 _ _ _ notKeep notStatements notAttributes]
    obtain ⟨sources, follows, gives⟩ := ih pass
    refine ⟨congrArg Tree.list sources, ?_, gives⟩
    cases step with
    | keep => exact (notKeep rfl).elim
    | statements => exact (notStatements rfl).elim
    | attributes attachment? => exact (notAttributes attachment? rfl).elim
    | visit => exact follows
    | announce => exact follows
    | componentBody => exact follows
  case method =>
    intro around step key parts notKeep ihKey ihParts pass
    rw [weave.eq_5 _ _ _ _ notKeep]
    simp only [Visit.run_bind, Visit.run_pure]
    have first := ihKey pass
    generalize (weave around .visit key).run pass = woven at first ⊢
    have scanned := Visit.enterFunction_scan (.ofBody (Fields.get parts .body)) woven.2
    have entered := Visit.enterFunction_allocator (.ofBody (Fields.get parts .body)) woven.2
    generalize (Visit.enterFunction (.ofBody (Fields.get parts .body))).run woven.2 = entry
      at scanned entered ⊢
    exact .method notKeep first scanned (entered ▸ ihParts entry.1 entry.2)
  case function =>
    intro around step kind parts notKeep notMethod isFunction ih pass
    rw [weave.eq_6 _ _ _ _ notMethod notKeep, if_pos isFunction,
      ← Visit.announceFunction_allocator kind parts]
    simp only [Visit.run_bind, Visit.run_pure]
    generalize (Visit.announceFunction kind parts).run pass = announcement
    have scanned := Visit.enterFunction_scan (.ofBody (Fields.get parts .body)) announcement.2
    have entered := Visit.enterFunction_allocator (.ofBody (Fields.get parts .body)) announcement.2
    generalize (Visit.enterFunction (.ofBody (Fields.get parts .body))).run announcement.2 = entry
      at scanned entered ⊢
    exact .function notKeep isFunction scanned (entered ▸ ih entry.1 entry.2)
  case opening =>
    intro around step parts notKeep notMethod notFunction ih pass
    rw [weave.eq_6 _ _ _ _ notMethod notKeep, if_neg notFunction, if_pos rfl]
    obtain ⟨suits, treated⟩ := treatElement_suits around parts pass
    exact .opening notKeep suits treated (ih _ _)
  case node =>
    intro around step kind parts notKeep notMethod notFunction notOpening ih pass
    rw [weave.eq_6 _ _ _ _ notMethod notKeep, if_neg notFunction, if_neg notOpening]
    exact .node notKeep notFunction notOpening (ih pass)
  case scalar =>
    intro around step tree notKeep notStatements notAttributes notList notMethod notNode pass
    rw [weave.eq_7 _ _ _ notKeep notList notMethod notNode notStatements notAttributes]
    refine .kept (.inr ?_)
    cases tree with
    | list items => exact (notList items rfl).elim
    | node kind parts => exact (notNode kind parts rfl).elim
    | null | bool | num | str => rfl
  case atNode =>
    intro around field path kind parts ih pass
    rw [weaveAt]
    exact ih pass
  case atScalar =>
    intro tree around field path notNode pass
    have missing : tree.get field = .null := by
      cases tree with
      | node kind parts => exact (notNode kind parts rfl).elim
      | null | bool | num | str | list => rfl
    rw [weaveAt.eq_2 _ _ _ _ notNode, missing, Tree.foldl_get_null]
    exact Weaves.single (.kept (.inr rfl))
  case noItems =>
    intro around pass
    rw [weaveItems]
    exact .nil trivial
  case items =>
    intro around item rest ihItem ihRest pass
    rw [weaveItems]
    exact (ihItem pass).cons (ihRest _) And.intro
  case noAttributes =>
    intro around pass
    rw [weaveAttributes]
    exact .nil rfl
  case reference =>
    intro around attachment pass
    rw [weaveAttributes]
    refine ⟨rfl, ⟨rfl, rfl, rfl, Visit.enterForwarding_scan attachment none pass, trivial⟩, ?_⟩
    simp only [Visit.run_bind, Visit.run_pure, Visit.enterForwarding_allocator]
    exact .nothing _
  case marker =>
    intro around attachment? attr rest isMarker ih pass
    cases attachment? with
    | none =>
      rw [weaveAttributes.eq_4, if_pos isMarker]
      exact (ih pass).remove isMarker
    | some attachment =>
      rw [weaveAttributes.eq_3, if_pos isMarker]
      exact (ih pass).remove isMarker
  case explicit =>
    intro around attr rest notMarker attachment isLast ihRest ihReplaced pass
    rw [weaveAttributes.eq_3, if_neg notMarker, if_pos isLast]
    obtain ⟨isRef, noMore⟩ := Bool.and_eq_true_iff.mp isLast
    refine .replace notMarker isRef (Bool.not_eq_true' _ ▸ noMore) (ihRest pass)
      (Visit.enterForwarding_scan _ _ _) ?_
    rw [← Visit.enterForwarding_allocator attachment attr.refExpression?]
    exact (ihReplaced _ _).expression
  case before =>
    intro around attr rest notMarker attachment notLast ihAttr ihRest pass
    rw [weaveAttributes.eq_3, if_neg notMarker, if_neg notLast]
    exact (ihAttr pass).attribute notMarker (ihRest _)
  case unattached =>
    intro around attr rest notMarker ihAttr ihRest pass
    rw [weaveAttributes.eq_4, if_neg notMarker]
    exact (ihAttr pass).attribute notMarker (ihRest _)
  case noStatements =>
    intro around index pass
    rw [weaveStatements]
    exact .nil trivial
  case statement =>
    intro around index statement rest ihStatement ihRest pass
    rw [weaveStatements]
    exact (ihStatement pass).cons (ihRest _) And.intro
  case noParts =>
    intro around step pass
    rw [weaveParts]
    exact .nil
  case parts =>
    intro around step field part rest ihPart ihRest pass
    rw [weaveParts, ← Visit.prepare_allocator (step field)]
    exact .cons (ihPart _) (ihRest _)
  case missing =>
    intro around field path pass
    rw [weavePartAt]
    change WeavesItems _ [path.foldl Tree.get .null] _ _ _
    rw [Tree.foldl_get_null]
    exact Weaves.single (.kept (.inr rfl))
  case found =>
    intro around field part rest ih pass
    rw [weavePartAt, if_pos rfl, Fields.get_cons, if_pos rfl]
    exact (ih pass).single
  case further =>
    intro around field part rest next path ih pass
    rw [weavePartAt, if_pos rfl, Fields.get_cons, if_pos rfl]
    exact ih pass
  case other =>
    intro around field path other part rest differs ih pass
    have skipped : weavePartAt around field path ((other, part) :: rest) =
        weavePartAt around field path rest := by
      cases path <;> rw [weavePartAt, if_neg differs]
    rw [skipped, Fields.get_cons, if_neg differs]
    exact ih pass

theorem weave_weaves (around : Surroundings) (step : Step) (tree : Tree) (pass : Pass) :
    Woven.Weaves around.enclosure step tree pass.allocator
      ((weave around step tree).run pass).2.allocator ((weave around step tree).run pass).1 :=
  weave_weaves_all.1 around step tree pass

theorem weaveParts_weaves (around : Surroundings) (step : Field → Step) (parts : Fields)
    (pass : Pass) : Woven.WeavesParts around.enclosure step parts pass.allocator
      ((weaveParts around step parts).run pass).2.allocator
      ((weaveParts around step parts).run pass).1 :=
  weave_weaves_all.2.1 around step parts pass

theorem weaveItems_weaves (around : Surroundings) (items : List Tree) (pass : Pass) :
    Woven.WeavesItems (Woven.FollowsItems around.enclosure) items pass.allocator
      ((weaveItems around items).run pass).2.allocator ((weaveItems around items).run pass).1 :=
  weave_weaves_all.2.2.1 around items pass

/-- The expression of an explicit reference, woven if the attribute has one. -/
theorem weaveExpression_weaves (around : Surroundings) (attr : Tree) (pass : Pass) :
    let visited := (if attr.refExpression?.isSome then weaveAt around .value [.expression] attr
      else pure [] : Visit (List Woven)).run pass
    Woven.WeavesItems (Woven.FollowsItems around.enclosure) attr.refExpression?.toList
      pass.allocator visited.2.allocator visited.1 :=
  (weave_weaves_all.2.2.2.2.1 around .value [.expression] attr pass).expression

/-- A woven module is the module; what is decided in it is what the pass decides outside of all
components, and its handles are given out one after another. -/
theorem weaveModule_weaves (source? : Option String) (items : List Tree) :
    ∃ after, Woven.WeavesItems (Woven.FollowsItems .outside) items (.ofModule items) after
      (weaveModule source? items) :=
  ⟨_, weaveItems_weaves { source? } items { allocator := .ofModule items }⟩

/-- What is decided in a woven module is what the pass decides outside of all components. -/
theorem weaveModule_follows (source? : Option String) (items : List Tree) :
    (Woven.list (weaveModule source? items)).Follows .outside .visit :=
  (weaveModule_weaves source? items).choose_spec.follows

/-- A woven module is made from the module. -/
theorem weaveModule_source (source? : Option String) (items : List Tree) :
    (Woven.list (weaveModule source? items)).source = .list items :=
  congrArg Tree.list (weaveModule_weaves source? items).choose_spec.sources

end JsxTracking
