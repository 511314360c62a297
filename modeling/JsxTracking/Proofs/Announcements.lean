import JsxTracking.Proofs.RecordedNames

/-! # Announcements of components

The pass has no view of the place where a function stands. It announces a component, and takes the next
function that it enters for it (`Woven.Heeds`). What it announces always holds a function that it
enters (`Woven.Follows.enters`): the value of a variable with a component name, the default export, and
the first argument of `memo` or `forwardRef`, if they are functions in any number of parentheses, type
assertions and wrappers (`Standing.announces`). So an announcement never outlives the part of the module
that it was made for (`weave_heeding_all`). -/

namespace JsxTracking

/-! ## Places -/

/-- Whether a tree is an argument that is a function and is not spread. -/
def Tree.isFunctionArgument : Tree → Bool
  | node .argument fields => (Fields.get fields .spread).isNull && holdsFunction fields
  | _ => false

/-- What a place says of a function that stands there. -/
inductive Standing where
  | plain
  /-- The arguments of `memo` or `forwardRef`. -/
  | arguments
  /-- The first argument of `memo` or `forwardRef`. -/
  | firstArgument
  /-- What a variable with a component name, a default export or a wrapper holds. -/
  | held
  deriving DecidableEq, Repr, Inhabited

namespace Standing

/-- Whether a declarator binds a component name. -/
def bindsName (declarator : Fields) : Bool :=
  (declarator.get .id).isKind .binding && (declarator.get .id).value?.any isComponentName

/-- The standing of a part of a node. -/
def ofPart (standing : Standing) (kind : Kind) (parts : Fields) (field : Field) : Standing :=
  match kind, field with
  | .variableDeclarator, .initializer => if bindsName parts then held else plain
  | .exportDefaultExpression, .expression => held
  | .exportDefaultDeclaration, .decl =>
    if (parts.get .decl).isKind .functionExpression then held else plain
  | .callExpression, .arguments =>
    if (parts.get .callee).isComponentWrapper then arguments else plain
  | .argument, .expression =>
    if standing = firstArgument ∧ (parts.get .spread).isNull then held else plain
  | .parenthesisExpression, .expression | .tsAsExpression, .expression
  | .tsSatisfiesExpression, .expression => if standing = held then held else plain
  | _, _ => plain

/-- The standing of an item of a list. -/
def ofItem (standing : Standing) (index : Nat) : Standing :=
  if standing = arguments ∧ index = 0 then firstArgument else plain

/-- Whether the place is one at which the first function in the tree is announced. -/
def announces (standing : Standing) (tree : Tree) : Bool :=
  match standing with
  | plain => false
  | arguments => tree.items.head?.any Tree.isFunctionArgument
  | firstArgument => tree.isFunctionArgument
  | held => tree.isFunctionLike

end Standing

/-! ## Announcements -/

/-- Whether a function of the kind that is entered is taken for a component, if one is ahead or
not. -/
def Kind.isTaken (kind : Kind) (ahead : Bool) (parts : Fields) : Bool :=
  let named := (parts.get .identifier).value?.any isComponentName
  match kind with
  | functionDeclaration => named
  | functionExpression => ahead || named
  | _ => ahead

/-- Whether the first function in a part of a node is announced as a component. -/
def Kind.announces (kind : Kind) (parts : Fields) (field : Field) : Bool :=
  Step.ofNode kind parts field = .announce

/-- Whether the generated reference is a function, given the explicit one that it replaces. -/
def Attachment.forwards (attachment : Attachment) (explicit? : Option Tree) : Bool :=
  (ElementRef.forwarded? explicit? attachment.spreads).isSome

namespace Woven

mutual

/-- Whether a function is entered in a tree. -/
def enters : Woven → Bool
  | kept _ | removed _ => false
  | list items | statements items => entersInItems items
  | node _ parts | opening _ parts => entersInParts parts
  | function .. => true
  | reference attachment replaced _ =>
    attachment.forwards (sources replaced).head? || entersInItems replaced

/-- Whether a function is entered in a list of trees. -/
def entersInItems : List Woven → Bool
  | [] => false
  | item :: rest => enters item || entersInItems rest

/-- Whether a function is entered in the parts of a node. -/
def entersInParts : List (Field × Woven) → Bool
  | [] => false
  | (_, part) :: rest => enters part || entersInParts rest

end

mutual

/-- The functions in a tree are taken for components as the pass does it: when a component is
announced, the next function that is entered is taken for it. -/
def Heeds (ahead : Bool) : Woven → Prop
  | kept _ | removed _ => True
  | list items | statements items => HeedsItems ahead items
  | node kind parts => HeedsParts ahead (kind.announces (sourcesInParts parts)) parts
  | function kind outer scan? inner =>
    (kind = .methodProperty ∨ outer = []) ∧ HeedsParts ahead (fun _ => false) outer ∧
      scan?.isSome = kind.isTaken (ahead && !entersInParts outer) (sourcesInParts inner) ∧
      HeedsParts false (fun _ => false) inner
  | opening _ parts => HeedsParts ahead (fun _ => false) parts
  | reference attachment replaced scan? =>
    scan?.isSome = (ahead && attachment.forwards (sources replaced).head?) ∧
      HeedsItems (ahead && !attachment.forwards (sources replaced).head?) replaced

/-- `Woven.Heeds` for a list of trees. -/
def HeedsItems (ahead : Bool) : List Woven → Prop
  | [] => True
  | item :: rest => item.Heeds ahead ∧ HeedsItems (ahead && !item.enters) rest

/-- `Woven.Heeds` for the parts of a node, some of which are announced. A function is entered in each
of these. -/
def HeedsParts (ahead : Bool) (announced : Field → Bool) : List (Field × Woven) → Prop
  | [] => True
  | (field, part) :: rest =>
    part.Heeds (ahead || announced field) ∧ HeedsParts (ahead && !part.enters) announced rest

end

theorem entersInItems_append (first second : List Woven) :
    entersInItems (first ++ second) = (entersInItems first || entersInItems second) := by
  induction first with
  | nil => rfl
  | cons item rest ih => rw [List.cons_append, entersInItems, ih, entersInItems, Bool.or_assoc]

theorem heedsItems_append {ahead : Bool} (first second : List Woven) :
    HeedsItems ahead (first ++ second) ↔
      HeedsItems ahead first ∧ HeedsItems (ahead && !entersInItems first) second := by
  induction first generalizing ahead with
  | nil => simp [HeedsItems, entersInItems]
  | cons item rest ih =>
    rw [List.cons_append, HeedsItems, ih, HeedsItems, entersInItems, Bool.not_or, ← Bool.and_assoc,
      and_assoc]

theorem heedsParts_append {ahead : Bool} {announced : Field → Bool}
    (first second : List (Field × Woven)) :
    HeedsParts ahead announced (first ++ second) ↔ HeedsParts ahead announced first ∧
      HeedsParts (ahead && !entersInParts first) announced second := by
  induction first generalizing ahead with
  | nil => simp [HeedsParts, entersInParts]
  | cons part rest ih =>
    rw [List.cons_append, HeedsParts, ih, HeedsParts, entersInParts, Bool.not_or, ← Bool.and_assoc,
      and_assoc]

end Woven

namespace Tree

theorem holdsFunction_eq (fields : Fields) :
    holdsFunction fields = (Fields.get fields .expression).isFunctionLike := by
  induction fields with
  | nil => rfl
  | cons first rest ih =>
    obtain ⟨field, part⟩ := first
    rw [Fields.get_cons]
    by_cases isExpression : field = .expression
    · subst isExpression
      rw [holdsFunction, if_pos rfl]
    · rw [holdsFunction.eq_3 _ _ fun inner same => isExpression (Prod.mk.inj same).1, ih,
        if_neg (Ne.symm isExpression)]

theorem isFunctionArgument_node {tree : Tree} (isFunction : tree.isFunctionArgument = true) :
    ∃ fields, tree = .node .argument fields ∧ (Fields.get fields .spread).isNull = true ∧
      (Fields.get fields .expression).isFunctionLike = true := by
  unfold isFunctionArgument at isFunction
  split at isFunction
  case h_1 fields =>
    obtain ⟨notSpread, holds⟩ := Bool.and_eq_true_iff.mp isFunction
    exact ⟨fields, rfl, notSpread, holdsFunction_eq fields ▸ holds⟩
  case h_2 => cases isFunction

theorem firstArgumentIsFunction_eq (fields : Fields) :
    firstArgumentIsFunction fields = Standing.arguments.announces (Fields.get fields .arguments) := by
  induction fields with
  | nil => rfl
  | cons first rest ih =>
    obtain ⟨field, part⟩ := first
    rw [Fields.get_cons]
    by_cases isArguments : field = .arguments
    · subst isArguments
      rw [if_pos rfl]
      unfold firstArgumentIsFunction
      split
      case h_1 impossible => cases impossible
      case h_2 same =>
        obtain ⟨same, -⟩ := List.cons.inj same
        rw [(Prod.mk.inj same).2]
        rfl
      case h_3 other same =>
        obtain ⟨same, -⟩ := List.cons.inj same
        obtain rfl := (Prod.mk.inj same).2
        unfold Standing.announces
        cases part with
        | list items =>
          cases items with
          | nil => rfl
          | cons first later =>
            refine (Bool.eq_false_iff.mpr fun isFunction => ?_).symm
            obtain ⟨fields, rfl, -⟩ := isFunctionArgument_node isFunction
            exact other fields later rfl
        | null | bool | num | str | node => rfl
      case h_4 other same =>
        obtain ⟨same, -⟩ := List.cons.inj same
        exact absurd same.symm (other part)
    · rw [firstArgumentIsFunction.eq_4 _ _ (fun _ _ same => isArguments (Prod.mk.inj same).1)
        (fun _ same => isArguments (Prod.mk.inj same).1), ih, if_neg (Ne.symm isArguments)]

end Tree

namespace Standing

/-- A place announces a node that is no function in two cases: the node is a call of a wrapper, or its
expression takes over its standing. -/
theorem announces_node {standing : Standing} {kind : Kind} {fields : Fields}
    (plain : kind.isFunction = false) (announces : standing.announces (.node kind fields) = true) :
    kind = .callExpression ∧ standing = held ∧ Tree.wrapsComponent fields = true ∨
      kind ≠ .callExpression ∧ (∃ later, kind.layout = .expression :: later) ∧
        standing.ofPart kind fields .expression = held ∧
        (Fields.get fields .expression).isFunctionLike = true := by
  cases standing with
  | plain => cases announces
  | arguments => cases announces
  | firstArgument =>
    obtain ⟨parts, same, notSpread, holds⟩ := Tree.isFunctionArgument_node announces
    obtain ⟨rfl, rfl⟩ := Tree.node.inj same
    exact Or.inr ⟨Kind.noConfusion, ⟨_, rfl⟩, if_pos ⟨rfl, notSpread⟩, holds⟩
  | held =>
    change Tree.isFunctionLike (.node kind fields) = true at announces
    unfold Tree.isFunctionLike at announces
    split at announces
    case h_6 same =>
      obtain ⟨rfl, rfl⟩ := Tree.node.inj same
      exact Or.inl ⟨rfl, rfl, announces⟩
    case h_3 same | h_4 same | h_5 same =>
      obtain ⟨rfl, rfl⟩ := Tree.node.inj same
      rw [Tree.holdsFunction_eq] at announces
      exact Or.inr ⟨Kind.noConfusion, ⟨_, rfl⟩, rfl, announces⟩
    case h_1 same | h_2 same =>
      obtain ⟨rfl, rfl⟩ := Tree.node.inj same
      cases plain
    case h_7 => cases announces

/-- The parts of a node that is no function are announced by the node, unless it hands on its own
standing. -/
theorem ofPart_announces {standing : Standing} {kind : Kind} {fields : Fields} {field : Field}
    {part : Tree} (distinct : (fields.map Prod.fst).Nodup) (member : (field, part) ∈ fields)
    (own : standing.announces (.node kind fields) = true → kind = .callExpression ∨
      field ≠ .expression) :
    (standing.ofPart kind fields field).announces part = kind.announces fields field := by
  have found := Fields.get_of_mem distinct member
  have handed (expression : field = .expression) (notCall : kind ≠ .callExpression)
      (announces : standing.announces (.node kind fields) = part.isFunctionLike) :
      part.isFunctionLike = false := by
    rw [← announces, Bool.eq_false_iff]
    exact fun announces => (own announces).elim notCall (fun other => other expression)
  unfold ofPart
  split
  case h_1 =>
    have announced : Kind.announces .variableDeclarator fields .initializer =
        (bindsName fields && part.isFunctionLike) := by
      unfold Kind.announces Step.ofNode Step.bindsComponent bindsName
      rw [found, Bool.and_assoc]
      simp
    rw [announced]
    cases bindsName fields <;> rfl
  case h_2 =>
    unfold Kind.announces Step.ofNode
    rw [found]
    change part.isFunctionLike = _
    cases part.isFunctionLike <;> rfl
  case h_3 =>
    unfold Kind.announces Step.ofNode
    rw [found]
    cases isFunction : part.isKind .functionExpression with
    | false => rfl
    | true =>
      change part.isFunctionLike = true
      unfold Tree.isKind Tree.kind? at isFunction
      split at isFunction
      case h_1 kind parts =>
        obtain rfl := Option.some.inj (of_decide_eq_true isFunction)
        rfl
      case h_2 => cases isFunction
  case h_4 =>
    unfold Kind.announces Step.ofNode Tree.wrapsComponent
    rw [Tree.firstArgumentIsFunction_eq, found]
    cases (Fields.get fields .callee).isComponentWrapper with
    | false => rfl
    | true =>
      change arguments.announces part = _
      cases arguments.announces part <;> rfl
  case h_5 =>
    change _ = false
    split
    case isTrue first =>
      obtain ⟨rfl, notSpread⟩ := first
      refine handed rfl Kind.noConfusion ?_
      change ((Fields.get fields .spread).isNull && Tree.holdsFunction fields) = _
      rw [notSpread, Tree.holdsFunction_eq, found, Bool.true_and]
    case isFalse => rfl
  case h_6 | h_7 | h_8 =>
    change _ = false
    split
    case isTrue isHeld =>
      subst isHeld
      refine handed rfl Kind.noConfusion ?_
      change Tree.holdsFunction fields = _
      rw [Tree.holdsFunction_eq, found]
    case isFalse => rfl
  case h_9 declarator default declaration call argument parenthesis cast satisfaction =>
    change false = _
    unfold Kind.announces Step.ofNode
    split
    case h_1 => exact (declarator rfl rfl).elim
    case h_2 => exact (call rfl rfl).elim
    case h_3 => rfl
    case h_4 => exact (default rfl rfl).elim
    case h_5 => exact (declaration rfl rfl).elim
    case h_6 => rfl

/-- What a node announces has a standing for it. -/
theorem exists_announces {kind : Kind} {fields : Fields} {field : Field} {part : Tree}
    (distinct : (fields.map Prod.fst).Nodup) (member : (field, part) ∈ fields)
    (announced : kind.announces fields field = true) :
    ∃ standing : Standing, standing.announces part = true := by
  have silent : plain.announces (.node kind fields) ≠ true := Bool.false_ne_true
  exact ⟨plain.ofPart kind fields field,
    (ofPart_announces distinct member fun announces => absurd announces silent).trans announced⟩

/-- A place announces a list by its first item. -/
theorem announces_list {standing : Standing} {items : List Tree}
    (announces : standing.announces (.list items) = true) :
    standing = arguments ∧ ∃ fields later, items = .node .argument fields :: later ∧
      firstArgument.announces (.node .argument fields) = true := by
  cases standing with
  | plain | firstArgument | held => cases announces
  | arguments =>
    cases items with
    | nil => cases announces
    | cons first later =>
      obtain ⟨fields, rfl, -⟩ := Tree.isFunctionArgument_node announces
      exact ⟨rfl, fields, later, rfl, announces⟩

end Standing

namespace Step

/-- The expression of a node and the arguments of a call are visited. -/
theorem within_ne_keep {step : Step} {kind : Kind} {parts : Fields} {field : Field}
    (notBlock : kind ≠ .blockStatement) (visited : field = .expression ∨ field = .arguments) :
    step.within kind parts field ≠ .keep := by
  rw [within, if_neg fun body => notBlock body.2]
  unfold ofNode
  split
  case h_3 => simp at visited
  case h_6 => exact Step.noConfusion
  all_goals split <;> exact Step.noConfusion

theorem ofFunction_ne_announce (scan? : Option BodyScan) (field : Field) :
    ofFunction scan? field ≠ announce := by
  unfold ofFunction
  split <;> exact Step.noConfusion

theorem ofOpening_ne_announce (attachment? : Option Attachment) (field : Field) :
    ofOpening attachment? field ≠ announce := by
  unfold ofOpening
  split <;> exact Step.noConfusion

end Step

namespace Woven

/-- The first tree of a list is visited, unless it is an attribute. -/
theorem Follows.head {enclosure : Enclosure} {step : Step} {whole item : Woven} {rest : List Woven}
    {fields : Fields} {later : List Tree} (follows : whole.Follows enclosure step)
    (items : whole = list (item :: rest) ∨ whole = statements (item :: rest))
    (first : sources (item :: rest) = .node .argument fields :: later) :
    item.source = .node .argument fields ∧ ∃ inner, item.Follows inner .visit := by
  have visited {inner : Enclosure} (follows : item.Follows inner .visit) :
      item.source = .node .argument fields ∧ ∃ inner, item.Follows inner .visit := by
    rw [sources, follows.ordinary.2, if_neg Bool.false_ne_true] at first
    exact ⟨(List.cons.inj first).1, inner, follows⟩
  rcases items with rfl | rfl
  · cases step with
    | keep | statements => exact follows.elim
    | visit | announce | componentBody => exact visited follows.1
    | «attributes» attachment? =>
      change FollowsAttributes enclosure attachment? none (item :: rest) at follows
      cases item with
      | removed attr =>
        obtain rfl : attr = .node .argument fields := (List.cons.inj first).1
        unfold FollowsAttributes at follows
        rw [if_neg (by exact Bool.false_ne_true)] at follows
        exact absurd follows.1 Bool.false_ne_true
      | reference =>
        obtain ⟨-, rfl, -⟩ := follows
        cases first
      | kept | list | statements | node | function | opening => exact visited follows.2.1
  · exact visited follows.2.1

mutual

/-- A function is entered in a tree at a place that announces it. -/
theorem Follows.enters {enclosure : Enclosure} {step : Step} {standing : Standing}
    (notKeep : step ≠ .keep) : ∀ woven : Woven, woven.Follows enclosure step →
      standing.announces woven.source = true → woven.enters = true
  | kept tree, follows, announces => by
    rcases follows with same | scalar
    · exact absurd same notKeep
    · change standing.announces tree = true at announces
      cases tree with
      | node | list => cases scalar
      | null | bool | num | str => cases standing <;> cases announces
  | list [], _, announces => by cases standing <;> cases announces
  | list (item :: rest), follows, announces => by
    obtain ⟨-, fields, later, first, announced⟩ := Standing.announces_list announces
    obtain ⟨source, inner, visited⟩ := follows.head (Or.inl rfl) first
    exact Bool.or_eq_true_iff.mpr (Or.inl
      (Follows.enters Step.noConfusion item visited (source ▸ announced)))
  | statements [], follows, announces => by cases standing <;> cases announces
  | statements (item :: rest), follows, announces => by
    obtain ⟨-, fields, later, first, announced⟩ := Standing.announces_list announces
    obtain ⟨source, inner, visited⟩ := follows.head (Or.inr rfl) first
    exact Bool.or_eq_true_iff.mpr (Or.inl
      (Follows.enters Step.noConfusion item visited (source ▸ announced)))
  | removed _, follows, _ | reference .., follows, _ => follows.elim
  | function .., _, _ => rfl
  | opening .., _, announces => by cases standing <;> cases announces
  | node kind parts, follows, announces => by
    obtain ⟨-, notFunction, -, within⟩ := follows
    rcases Standing.announces_node notFunction announces with
      ⟨rfl, -, wraps⟩ | ⟨-, ⟨later, layout⟩, -, inner⟩
    · have first := (Bool.and_eq_true_iff.mp wraps).2
      rw [Tree.firstArgumentIsFunction_eq] at first
      exact FollowsParts.enters (Step.within_ne_keep Kind.noConfusion (Or.inr rfl)) parts within
        first
    · have announced : Standing.held.announces
          (Fields.get (sourcesInParts parts) .expression) = true := inner
      refine FollowsParts.enters (Step.within_ne_keep ?_ (Or.inl rfl)) parts within announced
      rintro rfl
      cases layout

/-- A function is entered in the parts of a node one of which is announced. -/
theorem FollowsParts.enters {enclosure : Enclosure} {step : Field → Step} {standing : Standing}
    {field : Field} (notKeep : step field ≠ .keep) : ∀ parts : List (Field × Woven),
    FollowsParts enclosure step parts →
      standing.announces (Fields.get (sourcesInParts parts) field) = true →
        entersInParts parts = true
  | [], _, announces => by cases standing <;> cases announces
  | (other, part) :: rest, follows, announces => by
    rw [sourcesInParts, Fields.get_cons] at announces
    refine Bool.or_eq_true_iff.mpr ?_
    split at announces
    case isTrue same =>
      subst same
      exact Or.inl (Follows.enters notKeep part follows.1 announces)
    case isFalse =>
      exact Or.inr (FollowsParts.enters notKeep rest follows.2 announces)

end

end Woven

namespace Visit

/-- Before a part that is announced, a component is ahead. -/
theorem prepare_componentAhead (step : Step) (pass : Pass) :
    (step.prepare.run pass).2.componentAhead = (pass.componentAhead || step = .announce) := by
  cases step with
  | announce => exact (Bool.or_true _).symm
  | keep | visit | componentBody | statements | «attributes» => exact (Bool.or_false _).symm

/-- A function is taken for a component by what is ahead of it and by its name. -/
theorem announceFunction_componentAhead {kind : Kind} (isFunction : kind.isFunction = true)
    (parts : Fields) (pass : Pass) :
    ((announceFunction kind parts).run pass).2.componentAhead =
      kind.isTaken pass.componentAhead parts := by
  unfold Kind.isFunction at isFunction
  split at isFunction <;> first | rfl | cases isFunction

/-- The function that is entered is a component if one is ahead. Behind it none is. -/
theorem enterFunction_componentAhead (scan : BodyScan) (pass : Pass) :
    ((enterFunction scan).run pass).1.isSome = pass.componentAhead ∧
      ((enterFunction scan).run pass).2.componentAhead = false := by
  refine ⟨?_, rfl⟩
  change (if pass.componentAhead then some scan else none).isSome = pass.componentAhead
  cases pass.componentAhead <;> rfl

/-- The function that forwards, if there is one, is a component if one is ahead. -/
theorem enterForwarding_componentAhead (attachment : Attachment) (explicit? : Option Tree)
    (pass : Pass) :
    ((enterForwarding attachment explicit?).run pass).1.isSome =
        (pass.componentAhead && attachment.forwards explicit?) ∧
      ((enterForwarding attachment explicit?).run pass).2.componentAhead =
        (pass.componentAhead && !attachment.forwards explicit?) := by
  unfold enterForwarding Attachment.forwards
  split
  case h_1 nothing =>
    rw [nothing]
    exact ⟨(Bool.and_false _).symm, (Bool.and_true _).symm⟩
  case h_2 reference found =>
    rw [found]
    obtain ⟨taken, after⟩ := enterFunction_componentAhead
      (.ofStatements (ElementRef.forwardingBody attachment.handle reference)) pass
    exact ⟨taken.trans (Bool.and_true _).symm, after.trans (Bool.and_false _).symm⟩

end Visit

/-- An element announces no component. -/
theorem treatElement_componentAhead (around : Surroundings) (parts : Fields) (pass : Pass) :
    ((treatElement around parts).run pass).2.componentAhead = pass.componentAhead := by
  unfold treatElement
  by_cases valued : (ElementMarkers.scan (parts.get .attributes).items).hasValues = true
  · simp only [valued, Bool.not_true, Bool.false_eq_true, ↓reduceIte]
    split <;> rfl
  · rw [Bool.not_eq_true] at valued
    simp only [valued, Bool.not_false, ↓reduceIte]
    rfl

namespace Woven

/-- A tree in which announcements are heeded, from one state of the pass to another. -/
structure Heeding (woven : Woven) (before after : Bool) : Prop where
  heeds : woven.Heeds before
  after : after = (before && !woven.enters)

/-- A list of trees in which announcements are heeded. -/
structure HeedingItems (items : List Woven) (before after : Bool) : Prop where
  heeds : HeedsItems before items
  after : after = (before && !entersInItems items)

/-- The parts of a node in which announcements are heeded, those of its parts included. -/
structure HeedingParts (step : Field → Step) (parts : List (Field × Woven)) (before after : Bool) :
    Prop where
  heeds : HeedsParts before (fun field => step field = .announce) parts
  after : after = (before && !entersInParts parts)

/-- What is left alone neither is a component nor stands before one. -/
theorem Heeding.kept {tree : Tree} {before : Bool} : (Woven.kept tree).Heeding before before :=
  ⟨trivial, (Bool.and_true _).symm⟩

theorem HeedingItems.nil {before : Bool} : HeedingItems [] before before :=
  ⟨trivial, (Bool.and_true _).symm⟩

theorem Heeding.cons {item : Woven} {rest : List Woven} {before middle after : Bool}
    (first : item.Heeding before middle) (others : HeedingItems rest middle after) :
    HeedingItems (item :: rest) before after := by
  obtain ⟨heeds, rfl⟩ := first
  obtain ⟨heedsRest, rfl⟩ := others
  refine ⟨⟨heeds, heedsRest⟩, ?_⟩
  rw [entersInItems, Bool.not_or, Bool.and_assoc]

theorem HeedingItems.single {item : Woven} {before after : Bool} (only : item.Heeding before after) :
    HeedingItems [item] before after :=
  only.cons .nil

/-- What is removed neither is a component nor stands before one. -/
theorem HeedingItems.remove {attr : Tree} {rest : List Woven} {before after : Bool}
    (others : HeedingItems rest before after) :
    HeedingItems (.removed attr :: rest) before after :=
  Heeding.cons ⟨trivial, (Bool.and_true _).symm⟩ others

theorem HeedingItems.append {first second : List Woven} {before middle after : Bool}
    (early : HeedingItems first before middle) (late : HeedingItems second middle after) :
    HeedingItems (first ++ second) before after := by
  obtain ⟨heeds, rfl⟩ := early
  obtain ⟨heedsRest, rfl⟩ := late
  refine ⟨(heedsItems_append first second).mpr ⟨heeds, heedsRest⟩, ?_⟩
  rw [entersInItems_append, Bool.not_or, Bool.and_assoc]

/-- What announces nothing is visited without announcements. -/
theorem HeedingParts.silent {step : Field → Step} {parts : List (Field × Woven)}
    {before after : Bool} (heeding : HeedingParts step parts before after)
    (silent : ∀ field, step field ≠ .announce) : HeedsParts before (fun _ => false) parts := by
  have none : (fun field => decide (step field = .announce)) = fun _ => false :=
    funext fun field => decide_eq_false (silent field)
  exact none ▸ heeding.heeds

theorem HeedingParts.nil {step : Field → Step} {before : Bool} : HeedingParts step [] before before :=
  ⟨trivial, (Bool.and_true _).symm⟩

/-- A part of a node before others. If it is announced, the announcement is heeded within it, so that
only an earlier one can be left. -/
theorem HeedingParts.cons {step : Field → Step} {field : Field} {woven : Woven}
    {rest : List (Field × Woven)} {before middle after : Bool}
    (first : woven.Heeding (before || step field = .announce) middle)
    (heeded : step field = .announce → woven.enters = true)
    (others : HeedingParts step rest middle after) :
    HeedingParts step ((field, woven) :: rest) before after := by
  have behind : middle = (before && !woven.enters) := by
    rw [first.after]
    by_cases announced : step field = .announce
    · rw [heeded announced, Bool.not_true, Bool.and_false, Bool.and_false]
    · rw [decide_eq_false announced, Bool.or_false]
  rw [behind] at others
  refine ⟨⟨first.heeds, others.heeds⟩, ?_⟩
  rw [others.after, entersInParts, Bool.not_or, Bool.and_assoc]

/-- A method whose key comes first: what is announced before it is heeded in the key, if it can be. -/
theorem Heeding.method {key : Woven} {scan? : Option BodyScan} {inner : List (Field × Woven)}
    {before middle after : Bool} (first : key.Heeding before middle) (taken : scan?.isSome = middle)
    (others : HeedingParts (Step.ofFunction scan?) inner false after) :
    (Woven.function .methodProperty [(.key, key)] scan? inner).Heeding before after := by
  refine ⟨⟨Or.inl rfl, ⟨(Bool.or_false _).symm ▸ first.heeds, trivial⟩, ?_,
    others.silent (Step.ofFunction_ne_announce _)⟩, others.after.trans (Bool.and_false _).symm⟩
  rw [taken, first.after, entersInParts, entersInParts, Bool.or_false]
  rfl

/-- Any other function. -/
theorem Heeding.function {kind : Kind} {scan? : Option BodyScan} {inner : List (Field × Woven)}
    {before after : Bool} (taken : scan?.isSome = kind.isTaken before (sourcesInParts inner))
    (all : HeedingParts (Step.ofFunction scan?) inner false after) :
    (Woven.function kind [] scan? inner).Heeding before after := by
  refine ⟨⟨Or.inr rfl, trivial, ?_, all.silent (Step.ofFunction_ne_announce _)⟩,
    all.after.trans (Bool.and_false _).symm⟩
  rw [taken]
  exact congrArg (kind.isTaken · _) (Bool.and_true _).symm

/-- The expression of a `ref` attribute, visited if the attribute has one. -/
theorem HeedingItems.expression {around : Surroundings} {attr : Tree} {pass : Pass}
    (heeding : HeedingItems ((weaveAt around .value [.expression] attr).run pass).1
      pass.componentAhead ((weaveAt around .value [.expression] attr).run pass).2.componentAhead) :
    let visited := (if attr.refExpression?.isSome then weaveAt around .value [.expression] attr
      else pure [] : Visit (List Woven)).run pass
    HeedingItems visited.1 pass.componentAhead visited.2.componentAhead := by
  intro visited
  cases found : attr.refExpression?.isSome with
  | false =>
    have nothing : visited = ([], pass) := by
      simp only [visited, found, Bool.false_eq_true, ↓reduceIte, Visit.run_pure]
    rw [nothing]
    exact ⟨trivial, (Bool.and_true _).symm⟩
  | true =>
    have woven : visited = (weaveAt around .value [.expression] attr).run pass := by
      simp only [visited, found, ↓reduceIte]
    rw [woven]
    exact heeding

/-- The reference that an element gets, with the expression of the one it had. -/
theorem Heeding.reference {attachment : Attachment} {replaced : List Woven} {pass : Pass}
    {explicit? : Option Tree} {after : Bool} (head : (sources replaced).head? = explicit?)
    (within : HeedingItems replaced
      ((Visit.enterForwarding attachment explicit?).run pass).2.componentAhead after) :
    (Woven.reference attachment replaced ((Visit.enterForwarding attachment explicit?).run pass).1)
      |>.Heeding pass.componentAhead after := by
  obtain ⟨taken, passed⟩ := Visit.enterForwarding_componentAhead attachment explicit? pass
  obtain ⟨heeds, rfl⟩ := within
  rw [passed] at heeds ⊢
  subst head
  refine ⟨⟨taken, heeds⟩, ?_⟩
  rw [enters, Bool.not_or, Bool.and_assoc]

end Woven

/-- The steps by which the parts of a node are visited announce what the node does. -/
theorem Step.within_announces (step : Step) (kind : Kind) (fields : Fields) :
    (fun field => decide (step.within kind fields field = .announce)) = kind.announces fields := by
  funext field
  unfold within
  split
  case isTrue body =>
    obtain ⟨-, rfl⟩ := body
    split <;> rfl
  case isFalse => rfl

open Woven in
/-- The pass heeds announcements in whatever it visits. -/
theorem weave_heeding_all :
    (∀ around step (tree : Tree), tree.isWellFormed = true → ∀ pass,
      ((weave around step tree).run pass).1.Heeding pass.componentAhead
        ((weave around step tree).run pass).2.componentAhead) ∧
    (∀ around step parts, (∀ part ∈ parts, part.2.isWellFormed = true) →
      (∀ part ∈ parts, step part.1 = .announce →
        ∃ standing : Standing, standing.announces part.2 = true) → ∀ pass,
      HeedingParts step ((weaveParts around step parts).run pass).1 pass.componentAhead
        ((weaveParts around step parts).run pass).2.componentAhead) ∧
    (∀ around (items : List Tree), (∀ item ∈ items, item.isWellFormed = true) → ∀ pass,
      HeedingItems ((weaveItems around items).run pass).1 pass.componentAhead
        ((weaveItems around items).run pass).2.componentAhead) ∧
    (∀ around attachment? (attributes : List Tree),
      (∀ attr ∈ attributes, attr.isWellFormed = true) → ∀ pass,
        HeedingItems ((weaveAttributes around attachment? attributes).run pass).1
          pass.componentAhead
          ((weaveAttributes around attachment? attributes).run pass).2.componentAhead) ∧
    (∀ around field path (tree : Tree), tree.isWellFormed = true → ∀ pass,
      HeedingItems ((weaveAt around field path tree).run pass).1 pass.componentAhead
        ((weaveAt around field path tree).run pass).2.componentAhead) ∧
    (∀ around field path (parts : Fields), (∀ part ∈ parts, part.2.isWellFormed = true) → ∀ pass,
      HeedingItems ((weavePartAt around field path parts).run pass).1 pass.componentAhead
        ((weavePartAt around field path parts).run pass).2.componentAhead) ∧
    (∀ around index (statements : List Tree),
      (∀ statement ∈ statements, statement.isWellFormed = true) → ∀ pass,
        HeedingItems ((weaveStatements around index statements).run pass).1 pass.componentAhead
          ((weaveStatements around index statements).run pass).2.componentAhead) := by
  refine weave.mutual_induct _ _ _ _ _ _ _
    ?keep ?statements ?attributes ?list ?method ?function ?opening ?node ?scalar ?atNode ?atScalar
    ?noItems ?items ?noAttributes ?reference ?marker ?explicit ?before ?unattached ?noStatements
    ?statement ?noParts ?parts ?missing ?found ?further ?other
  case keep =>
    intro around tree wellFormed pass
    rw [weave]
    exact .kept
  case statements =>
    intro around items ih wellFormed pass
    rw [weave]
    obtain ⟨heeds, after⟩ := ih (Tree.itemsAreWellFormed_iff.mp wellFormed) pass
    exact ⟨heeds, after⟩
  case attributes =>
    intro around attachment? attributes ih wellFormed pass
    rw [weave]
    obtain ⟨heeds, after⟩ := ih (Tree.itemsAreWellFormed_iff.mp wellFormed) pass
    exact ⟨heeds, after⟩
  case list =>
    intro around step items notKeep notStatements notAttributes ih wellFormed pass
    rw [weave.eq_4 _ _ _ notKeep notStatements notAttributes]
    obtain ⟨heeds, after⟩ := ih (Tree.itemsAreWellFormed_iff.mp wellFormed) pass
    exact ⟨heeds, after⟩
  case method =>
    intro around step key parts notKeep ihKey ihParts wellFormed pass
    rw [weave.eq_5 _ _ _ _ notKeep]
    simp only [Visit.run_bind, Visit.run_pure]
    obtain ⟨-, -, formed, -⟩ := Tree.isWellFormed_node wellFormed
    have first := ihKey (formed _ List.mem_cons_self) pass
    generalize (weave around .visit key).run pass = woven at first ⊢
    obtain ⟨taken, entered⟩ :=
      Visit.enterFunction_componentAhead (.ofBody (Fields.get parts .body)) woven.2
    generalize (Visit.enterFunction (.ofBody (Fields.get parts .body))).run woven.2 = entry
      at taken entered ⊢
    have others := ihParts entry.1 (fun part member => formed part (List.mem_cons_of_mem _ member))
      (fun part _ announced => absurd announced (Step.ofFunction_ne_announce _ _)) entry.2
    exact .method first taken (entered ▸ others)
  case function =>
    intro around step kind parts notKeep notMethod isFunction ih wellFormed pass
    rw [weave.eq_6 _ _ _ _ notMethod notKeep, if_pos isFunction]
    simp only [Visit.run_bind, Visit.run_pure]
    obtain ⟨-, -, formed, -⟩ := Tree.isWellFormed_node wellFormed
    have announced := Visit.announceFunction_componentAhead isFunction parts pass
    generalize (Visit.announceFunction kind parts).run pass = announcement at announced ⊢
    obtain ⟨taken, entered⟩ :=
      Visit.enterFunction_componentAhead (.ofBody (Fields.get parts .body)) announcement.2
    generalize (Visit.enterFunction (.ofBody (Fields.get parts .body))).run announcement.2 = entry
      at taken entered ⊢
    have all := ih entry.1 formed
      (fun part _ announced => absurd announced (Step.ofFunction_ne_announce _ _)) entry.2
    have sources := (weaveParts_weaves (around.enterFunction entry.1) (Step.ofFunction entry.1)
      parts entry.2).sources
    refine .function ?_ (entered ▸ all)
    rw [sources, taken, announced]
  case opening =>
    intro around step parts notKeep notMethod notFunction ih wellFormed pass
    rw [weave.eq_6 _ _ _ _ notMethod notKeep, if_neg notFunction, if_pos rfl]
    simp only [Visit.run_bind, Visit.run_pure]
    obtain ⟨-, -, formed, -⟩ := Tree.isWellFormed_node wellFormed
    have treated := treatElement_componentAhead around parts pass
    generalize (treatElement around parts).run pass = treatment at treated ⊢
    have inner := ih treatment.1 formed
      (fun part _ announced => absurd announced (Step.ofOpening_ne_announce _ _)) treatment.2
    rw [treated] at inner
    exact ⟨inner.silent (Step.ofOpening_ne_announce _), inner.after⟩
  case node =>
    intro around step kind parts notKeep notMethod notFunction notOpening ih wellFormed pass
    rw [weave.eq_6 _ _ _ _ notMethod notKeep, if_neg notFunction, if_neg notOpening]
    simp only [Visit.run_bind, Visit.run_pure]
    obtain ⟨distinct, -, formed, -⟩ := Tree.isWellFormed_node wellFormed
    have inner := ih formed (fun part member announced => Standing.exists_announces distinct member
      ((congrFun (step.within_announces kind parts) part.1).symm.trans
        (decide_eq_true announced))) pass
    have sources := (weaveParts_weaves (around.enterNode kind) (step.within kind parts) parts
      pass).sources
    refine ⟨?_, inner.after⟩
    rw [Heeds, sources, ← step.within_announces]
    exact inner.heeds
  case scalar =>
    intro around step tree notKeep notStatements notAttributes notList notMethod notNode wellFormed
      pass
    rw [weave.eq_7 _ _ _ notKeep notList notMethod notNode notStatements notAttributes]
    exact .kept
  case atNode =>
    intro around field path kind parts ih wellFormed pass
    rw [weaveAt]
    exact ih (Tree.isWellFormed_node wellFormed).2.2.1 pass
  case atScalar =>
    intro tree around field path notNode wellFormed pass
    rw [weaveAt.eq_2 _ _ _ _ notNode]
    exact .single .kept
  case noItems =>
    intro around wellFormed pass
    rw [weaveItems]
    exact .nil
  case items =>
    intro around item rest ihItem ihRest wellFormed pass
    rw [weaveItems]
    obtain ⟨first, others⟩ := List.forall_mem_cons.mp wellFormed
    exact (ihItem first pass).cons (ihRest others _)
  case noAttributes =>
    intro around wellFormed pass
    rw [weaveAttributes]
    exact .nil
  case reference =>
    intro around attachment wellFormed pass
    rw [weaveAttributes]
    simp only [Visit.run_bind, Visit.run_pure]
    exact .single (.reference rfl .nil)
  case marker =>
    intro around attachment? attr rest isMarker ih wellFormed pass
    have heeding := ih (List.forall_mem_cons.mp wellFormed).2 pass
    cases attachment? with
    | none =>
      rw [weaveAttributes.eq_4, if_pos isMarker]
      exact heeding.remove
    | some attachment =>
      rw [weaveAttributes.eq_3, if_pos isMarker]
      exact heeding.remove
  case explicit =>
    intro around attr rest notMarker attachment isLast ihRest ihReplaced wellFormed pass
    rw [weaveAttributes.eq_3, if_neg notMarker, if_pos isLast]
    simp only [Visit.run_bind, Visit.run_pure]
    obtain ⟨own, others⟩ := List.forall_mem_cons.mp wellFormed
    have early := ihRest others pass
    generalize (weaveAttributes around none rest).run pass = woven at early ⊢
    generalize entered : (Visit.enterForwarding attachment attr.refExpression?).run woven.2 = entry
    have head := congrArg List.head? (weaveExpression_weaves (around.enterForwarding entry.1) attr
      entry.2).sources
    have within := (ihReplaced entry.1 own entry.2).expression
    refine (early.append (.single ?_)).remove
    subst entered
    exact .reference (head.trans (Option.head?_toList ..)) within
  case before =>
    intro around attr rest notMarker attachment notLast ihAttr ihRest wellFormed pass
    rw [weaveAttributes.eq_3, if_neg notMarker, if_neg notLast]
    obtain ⟨first, others⟩ := List.forall_mem_cons.mp wellFormed
    exact (ihAttr first pass).cons (ihRest others _)
  case unattached =>
    intro around attr rest notMarker ihAttr ihRest wellFormed pass
    rw [weaveAttributes.eq_4, if_neg notMarker]
    obtain ⟨first, others⟩ := List.forall_mem_cons.mp wellFormed
    exact (ihAttr first pass).cons (ihRest others _)
  case noStatements =>
    intro around index wellFormed pass
    rw [weaveStatements]
    exact .nil
  case statement =>
    intro around index statement rest ihStatement ihRest wellFormed pass
    rw [weaveStatements]
    obtain ⟨first, others⟩ := List.forall_mem_cons.mp wellFormed
    exact (ihStatement first pass).cons (ihRest others _)
  case noParts =>
    intro around step wellFormed announceable pass
    rw [weaveParts]
    exact .nil
  case parts =>
    intro around step field part rest ihPart ihRest wellFormed announceable pass
    rw [weaveParts]
    simp only [Visit.run_bind, Visit.run_pure]
    obtain ⟨own, others⟩ := List.forall_mem_cons.mp wellFormed
    obtain ⟨ownAnnounced, othersAnnounced⟩ := List.forall_mem_cons.mp announceable
    have prepared := Visit.prepare_componentAhead (step field) pass
    generalize ((step field).prepare).run pass = preparation at prepared ⊢
    have first := ihPart own preparation.2
    have weaves := weave_weaves around (step field) part preparation.2
    rw [prepared] at first
    refine .cons first (fun announced => ?_) (ihRest others othersAnnounced _)
    obtain ⟨standing, announces⟩ := ownAnnounced announced
    exact weaves.follows.enters (by rw [announced]; exact Step.noConfusion) _
      (weaves.source ▸ announces)
  case missing =>
    intro around field path wellFormed pass
    rw [weavePartAt]
    exact .single .kept
  case found =>
    intro around field part rest ih wellFormed pass
    rw [weavePartAt, if_pos rfl]
    exact .single (ih (List.forall_mem_cons.mp wellFormed).1 pass)
  case further =>
    intro around field part rest next path ih wellFormed pass
    rw [weavePartAt, if_pos rfl]
    exact ih (List.forall_mem_cons.mp wellFormed).1 pass
  case other =>
    intro around field path other part rest differs ih wellFormed pass
    have skipped : weavePartAt around field path ((other, part) :: rest) =
        weavePartAt around field path rest := by
      cases path <;> rw [weavePartAt, if_neg differs]
    rw [skipped]
    exact ih (List.forall_mem_cons.mp wellFormed).2 pass

end JsxTracking
