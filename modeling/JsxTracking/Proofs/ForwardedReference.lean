import Mathlib.Data.List.TakeWhile
import JsxTracking.Proofs.Restoration
import JsxTracking.Proofs.NameCounts

/-! # The reference that an element is given

An element that gets a handle loses its last explicit `ref`, and a generated one comes behind the
attributes that stay. When the element had a reference, the generated one is a function. Functions
of its form are run here for what they do (`Forwarding.call?`): they assign to members and call
functions. What the expressions of the module are worth where they stand is up to the module.

The function stores the element in the handle and then forwards it to the last reference that there
is among the explicit one and those of the objects spread behind it (`generated_ref_forwards`). -/

namespace JsxTracking

namespace Forwarding

/-! ## What generated functions do -/

/-- A value, as far as a reference is concerned. -/
inductive Value where
  | undefined
  | null
  | primitive (truthy : Bool)
  | object (address : Nat)
  | function (address : Nat)
  deriving DecidableEq, Repr, Inhabited

namespace Value

/-- Whether `??` passes the value over. -/
def isNullish : Value → Bool
  | undefined | null => true
  | _ => false

def isFunction : Value → Bool
  | function _ => true
  | _ => false

/-- Whether the value counts as true in a condition. -/
def isTruthy : Value → Bool
  | undefined | null => false
  | primitive truthy => truthy
  | object _ | function _ => true

end Value

/-- What a function does. -/
inductive Deed where
  | assign (target : Value) (property : String) (value : Value)
  | call (function argument : Value)
  deriving DecidableEq, Repr, Inhabited

/-- The variables of a function that are initialized, from the inside out. -/
abbrev Bindings := List (String × Value)

section

variable (worth : Bindings → Tree → Value)

/-- The value of an expression. -/
def valueOf (bound : Bindings) : Tree → Value
  | .node .identifier fields =>
    match (Fields.get fields .value).text?.bind fun name => bound.lookup name with
    | some value => value
    | none => worth bound (.node .identifier fields)
  | .node .binaryExpression [(.left, left), (.right, right), (.operator, .str "??")] =>
    if (valueOf bound left).isNullish then valueOf bound right else valueOf bound left
  | .node .binaryExpression
      [(.left, .node .unaryExpression [(.argument, operand), (.operator, .str "typeof")]),
        (.right, .node .stringLiteral [(.value, .str "function")]), (.operator, .str "===")] =>
    .primitive (valueOf bound operand).isFunction
  | expression => worth bound expression

/-- What an expression does as a statement, if it is of the generated forms. -/
def deed? (bound : Bindings) : Tree → Option Deed
  | .node .assignmentExpression
      [(.left, .node .memberExpression
          [(.object, object), (.property, .node .name [(.value, .str property)])]),
        (.right, value), (.operator, .str "=")] =>
    some (.assign (valueOf worth bound object) property (valueOf worth bound value))
  | .node .callExpression
      [(.callee, callee), (.arguments, .list [.node .argument [(.expression, argument)]])] =>
    some (.call (valueOf worth bound callee) (valueOf worth bound argument))
  | _ => none

mutual

/-- What a statement does that declares nothing. -/
def run? (bound : Bindings) : Tree → Option (List Deed)
  | .node .expressionStatement [(.expression, expression)] =>
    (deed? worth bound expression).map fun deed => [deed]
  | .node .ifStatement ((.test, test) ::
      (.consequent, .node .blockStatement [(.stmts, .list statements)]) :: alternate) =>
    if (valueOf worth bound test).isTruthy then runAll? bound statements
    else runAlternate? bound alternate
  | _ => none

/-- What is done when a condition does not hold. -/
def runAlternate? (bound : Bindings) : List (Field × Tree) → Option (List Deed)
  | [] => some []
  | [(.alternate, statement)] => run? bound statement
  | _ => none

/-- What statements do. -/
def runAll? (bound : Bindings) : List Tree → Option (List Deed)
  | [] => some []
  | .node .variableDeclaration
      [(.declarations, .list [.node .variableDeclarator
          [(.id, .node .binding [(.value, .str name)]), (.initializer, value)]]),
        (.kind, .str "const")] :: rest =>
    runAll? ((name, valueOf worth bound value) :: bound) rest
  | statement :: rest => do
    let first ← run? bound statement
    let later ← runAll? bound rest
    return first ++ later

end

/-- What a function of one parameter does when it is called. -/
def call? (argument : Value) : Tree → Option (List Deed)
  | .node .arrowFunctionExpression
      [(.params, .list [.node .binding [(.value, .str parameter)]]),
        (.body, .node .blockStatement [(.stmts, .list statements)])] =>
    runAll? worth [(parameter, argument)] statements
  | _ => none

end

/-! ## The reference that counts -/

/-- The last value that is not passed over. -/
def lastPresent (values : List Value) : Option Value :=
  (values.filter fun value => !value.isNullish).getLast?

/-- What it means to give a node to a reference. -/
def Value.receive (reference node : Value) : List Deed :=
  if reference.isFunction then [.call reference node]
  else if reference.isTruthy then [.assign reference "current" node]
  else []

theorem lastPresent_append (values : List Value) (value : Value) :
    lastPresent (values ++ [value]) =
      if value.isNullish then lastPresent values else some value := by
  rw [lastPresent, List.filter_append]
  cases nullish : value.isNullish <;> simp [lastPresent, nullish]

/-- A value stands for a list of values that may override each other. -/
def StandsFor (values : List Value) (value : Value) : Prop :=
  if value.isNullish then lastPresent values = none else lastPresent values = some value

theorem Value.receive_of_isNullish {reference : Value} (nullish : reference.isNullish = true)
    (node : Value) : reference.receive node = [] := by
  cases reference with
  | undefined | null => rfl
  | primitive | object | function => cases nullish

theorem StandsFor.receive {values : List Value} {value : Value} (stands : StandsFor values value)
    (node : Value) :
    value.receive node = (lastPresent values).elim [] fun last => last.receive node := by
  unfold StandsFor at stands
  split at stands
  case isTrue nullish =>
    rw [stands]
    exact Value.receive_of_isNullish nullish node
  case isFalse =>
    rw [stands]
    rfl

theorem standsFor_singleton (value : Value) : StandsFor [value] value := by
  cases value <;> rfl

/-- A value in front of `??` is the last that may override what is behind. -/
theorem StandsFor.override {values : List Value} {earlier : Value}
    (stands : StandsFor values earlier) (value : Value) :
    StandsFor (values ++ [value]) (if value.isNullish then earlier else value) := by
  unfold StandsFor at stands ⊢
  rw [lastPresent_append]
  cases nullish : value.isNullish with
  | true => exact stands
  | false => simp [nullish]

variable (worth : Bindings → Tree → Value) (bound : Bindings)

theorem valueOf_bound {name : String} {value : Value} (found : bound.lookup name = some value) :
    valueOf worth bound (Code.reference name) = value := by
  change (match bound.lookup name with | some value => value | none => _) = value
  rw [found]

theorem valueOf_free {name : String} (absent : bound.lookup name = none) :
    valueOf worth bound (Code.reference name) = worth bound (Code.reference name) := by
  change (match bound.lookup name with | some value => value | none => _) = _
  rw [absent]
  rfl

theorem valueOf_typeofIs (value : Tree) :
    valueOf worth bound (Code.typeofIs value "function") =
      .primitive (valueOf worth bound value).isFunction :=
  rfl

theorem valueOf_override (left right : Tree) :
    valueOf worth bound (Code.binary "??" left right) =
      if (valueOf worth bound left).isNullish then valueOf worth bound right
      else valueOf worth bound left :=
  rfl

theorem deed?_assignMember (object : Tree) (property : String) (value : Tree) :
    deed? worth bound (Code.assignMember object property value) =
      some (.assign (valueOf worth bound object) property (valueOf worth bound value)) :=
  rfl

theorem deed?_call (callee argument : Tree) :
    deed? worth bound (Code.call callee [argument]) =
      some (.call (valueOf worth bound callee) (valueOf worth bound argument)) :=
  rfl

theorem runAll?_perform {expression : Tree} {deed : Deed}
    (does : deed? worth bound expression = some deed) (rest : List Tree) :
    runAll? worth bound (Code.perform expression :: rest) =
      (runAll? worth bound rest).map (deed :: ·) := by
  have runs : run? worth bound (Code.perform expression) = some [deed] :=
    congrArg (Option.map fun deed => [deed]) does
  have both : runAll? worth bound (Code.perform expression :: rest) =
      (run? worth bound (Code.perform expression)).bind fun first =>
        (runAll? worth bound rest).bind fun later => some (first ++ later) := rfl
  rw [both, runs]
  cases runAll? worth bound rest <;> rfl

theorem runAll?_constant (name : String) (value : Tree) (rest : List Tree) :
    runAll? worth bound (Code.constant name value :: rest) =
      runAll? worth ((name, valueOf worth bound value) :: bound) rest :=
  rfl

theorem runAll?_ifThenElse (test : Tree) (statements : List Tree) (otherwise : Tree) :
    runAll? worth bound [Code.ifThenElse test statements otherwise] =
      if (valueOf worth bound test).isTruthy then runAll? worth bound statements
      else run? worth bound otherwise := by
  have alone (deeds? : Option (List Deed)) :
      (deeds?.bind fun first => (some []).bind fun later => some (first ++ later)) = deeds? := by
    cases deeds? <;> simp
  exact alone (if (valueOf worth bound test).isTruthy then runAll? worth bound statements
    else run? worth bound otherwise)

theorem run?_ifThen (test : Tree) (statements : List Tree) :
    run? worth bound (Code.ifThen test statements) =
      if (valueOf worth bound test).isTruthy then runAll? worth bound statements else some [] :=
  rfl

end Forwarding

open Forwarding

namespace ElementRef

theorem forwarded?_append (explicit? : Option Tree) (spreads : List Tree) (spread : Tree) :
    forwarded? explicit? (spreads ++ [spread]) =
      match forwarded? explicit? spreads with
      | some earlier => some (Code.binary "??" (Code.member spread "ref") earlier)
      | none => some (Code.member spread "ref") := by
  rw [forwarded?, List.foldl_append]
  rfl

/-- The references that an element has, each of which overrides those before it. -/
def carried (explicit? : Option Tree) (spreads : List Tree) : List Tree :=
  explicit?.toList ++ spreads.map fun spread => Code.member spread "ref"

theorem forwarded?_eq_none_iff {explicit? : Option Tree} {spreads : List Tree} :
    forwarded? explicit? spreads = none ↔ carried explicit? spreads = [] := by
  induction spreads using List.reverseRecOn with
  | nil => cases explicit? <;> simp [forwarded?, carried]
  | append_singleton spreads spread _ =>
    rw [forwarded?_append]
    cases forwarded? explicit? spreads <;> simp [carried]

/-- What is forwarded is worth the last reference there is. -/
theorem forwarded?_standsFor (worth : Bindings → Tree → Value) (bound : Bindings)
    {explicit? : Option Tree} {spreads : List Tree} {reference : Tree}
    (found : forwarded? explicit? spreads = some reference) :
    StandsFor ((carried explicit? spreads).map (valueOf worth bound))
      (valueOf worth bound reference) := by
  induction spreads using List.reverseRecOn generalizing reference with
  | nil =>
    obtain rfl : explicit? = some reference := found
    exact standsFor_singleton _
  | append_singleton spreads spread ih =>
    rw [forwarded?_append] at found
    have last : carried explicit? (spreads ++ [spread]) =
        carried explicit? spreads ++ [Code.member spread "ref"] := by
      simp [carried]
    rw [last, List.map_append]
    cases earlier : forwarded? explicit? spreads with
    | none =>
      rw [earlier] at found
      rw [forwarded?_eq_none_iff.mp earlier, ← Option.some.inj found]
      exact standsFor_singleton _
    | some before =>
      rw [earlier] at found
      rw [← Option.some.inj found, valueOf_override]
      exact (ih earlier).override _

/-- A reference is called if it is a function, and else its `current` is set if it is there. -/
theorem runAll?_receive (worth : Bindings → Tree → Value) {bound : Bindings}
    {forward element : Tree} {reference node : Value}
    (forwarded : valueOf worth bound forward = reference) (given : valueOf worth bound element = node) :
    runAll? worth bound [Code.ifThenElse (Code.typeofIs forward "function")
      [Code.perform (Code.call forward [element])]
      (Code.ifThen forward [Code.perform (Code.assignMember forward "current" element)])] =
        some (reference.receive node) := by
  rw [runAll?_ifThenElse, run?_ifThen, runAll?_perform worth bound (deed?_call worth bound _ _),
    runAll?_perform worth bound (deed?_assignMember worth bound _ _ _), valueOf_typeofIs, forwarded,
    given, runAll?]
  cases reference with
  | undefined | null | object | function => rfl
  | primitive truthy => cases truthy <;> rfl

/-- The function that forwards stores the node in the handle and gives it to the reference. -/
theorem call?_forwardingFunction (worth : Bindings → Tree → Value) (handle : ElementHandle)
    (reference : Tree) (node : Value) :
    call? worth node (forwardingFunction (forwardingBody handle reference)) =
      some (.assign (worth [(nodeName, node)] (Code.reference handle.name)) "current" node ::
        (valueOf worth [(nodeName, node)] reference).receive node) := by
  have other : handle.name ≠ nodeName := (ElementHandle.ne_name (by decide) handle).symm
  have free : List.lookup handle.name [(nodeName, node)] = none := by
    rw [List.lookup_cons, beq_eq_false_iff_ne.mpr other]
    rfl
  change runAll? worth [(nodeName, node)] (forwardingBody handle reference) = _
  rw [forwardingBody, runAll?_perform worth _ (deed?_assignMember worth _ _ _ _), runAll?_constant,
    runAll?_receive worth (valueOf_bound worth _ rfl) (valueOf_bound worth _ rfl),
    valueOf_free worth _ free, valueOf_bound worth _ rfl]
  rfl

/-! ## The attributes of an element -/

/-- The attributes of an element around its last `ref`, if there is one. -/
inductive SplitsAtRef : List Tree → List Tree → Option Tree → List Tree → Prop
  | absent {attributes : List Tree} (noRef : ∀ attr ∈ attributes, attr.isRef = false) :
      SplitsAtRef attributes [] none attributes
  | last (before : List Tree) {attr : Tree} {after : List Tree} (isRef : attr.isRef = true)
      (noMore : ∀ other ∈ after, other.isRef = false) :
      SplitsAtRef (before ++ attr :: after) before (some attr) after

variable {attributes before after : List Tree} {last? : Option Tree}

theorem exists_splitsAtRef (attributes : List Tree) :
    ∃ before last? after, SplitsAtRef attributes before last? after := by
  induction attributes with
  | nil => exact ⟨_, _, _, .absent nofun⟩
  | cons attr rest ih =>
    obtain ⟨before, last?, after, splits⟩ := ih
    cases splits with
    | last _ isRef noMore => exact ⟨_, _, _, .last (attr :: before) isRef noMore⟩
    | absent noRef =>
      cases isRef : attr.isRef with
      | true => exact ⟨_, _, _, .last [] isRef noRef⟩
      | false => exact ⟨_, _, _, .absent (List.forall_mem_cons.mpr ⟨isRef, noRef⟩)⟩

theorem filter_isRef_eq_nil (noRef : ∀ attr ∈ attributes, attr.isRef = false) :
    attributes.filter Tree.isRef = [] :=
  List.filter_eq_nil_iff.mpr fun attr member => Bool.not_eq_true _ ▸ noRef attr member

theorem forall_reverse_not_isRef (noRef : ∀ attr ∈ attributes, attr.isRef = false) :
    ∀ attr ∈ attributes.reverse, (!attr.isRef) = true := by
  intro attr member
  rw [noRef attr (List.mem_reverse.mp member)]
  rfl

namespace SplitsAtRef

theorem explicit?_eq (splits : SplitsAtRef attributes before last? after) :
    explicit? attributes = last? := by
  cases splits with
  | absent noRef =>
    rw [explicit?, filter_isRef_eq_nil noRef]
    rfl
  | last _ isRef noMore =>
    rw [explicit?, List.filter_append, List.filter_cons_of_pos isRef, filter_isRef_eq_nil noMore]
    exact List.getLast?_concat

/-- From the end, the attributes before the first `ref` are those behind the last one. -/
theorem behind (splits : SplitsAtRef attributes before last? after) :
    (attributes.reverse.takeWhile fun attr => !attr.isRef).reverse = after := by
  cases splits with
  | absent noRef =>
    rw [List.takeWhile_eq_self_iff.mpr (forall_reverse_not_isRef noRef), List.reverse_reverse]
  | last _ isRef noMore =>
    rw [List.reverse_append, List.reverse_cons, List.append_assoc,
      List.takeWhile_append_of_pos (forall_reverse_not_isRef noMore)]
    simp [isRef]

theorem trailingSpreads_eq (splits : SplitsAtRef attributes before last? after) :
    trailingSpreads attributes = after.filterMap Tree.spreadExpression? := by
  rw [trailingSpreads, splits.behind]

theorem whole (splits : SplitsAtRef attributes before last? after) :
    attributes = before ++ last?.toList ++ after := by
  cases splits with
  | absent => rfl
  | last => rw [Option.toList_some, List.append_assoc, List.singleton_append]

/-- Attributes are split in one way only. -/
theorem unique {early late : List Tree} {other? : Option Tree}
    (splits : SplitsAtRef attributes before last? after)
    (again : SplitsAtRef attributes early other? late) :
    before = early ∧ last? = other? ∧ after = late := by
  obtain rfl : last? = other? := splits.explicit?_eq.symm.trans again.explicit?_eq
  obtain rfl : after = late := splits.behind.symm.trans again.behind
  refine ⟨?_, rfl, rfl⟩
  exact List.append_cancel_right (List.append_cancel_right (splits.whole.symm.trans again.whole))

end SplitsAtRef

end ElementRef

namespace Woven

open ElementRef

/-- What is kept of some attributes: all but the markers, in their order. -/
structure KeepsAttributes (attributes : List Tree) (kept : List Woven) : Prop where
  sources : kept.map source = stripMarkers attributes
  ordinary : ∀ item ∈ kept, item.isRemoved = false ∧ item.isGenerated = false

theorem KeepsAttributes.append {first second : List Tree} {kept later : List Woven}
    (keeps : KeepsAttributes first kept) (further : KeepsAttributes second later) :
    KeepsAttributes (first ++ second) (kept ++ later) where
  sources := by
    rw [List.map_append, keeps.sources, further.sources]
    exact (List.filter_append ..).symm
  ordinary item member :=
    (List.mem_append.mp member).elim (keeps.ordinary item) (further.ordinary item)

/-- An attribute that is not the last `ref` of an element with a handle stays, unless it is a
marker. -/
theorem weaveAttributes_cons (around : Surroundings) {attachment? : Option Attachment} {attr : Tree}
    {rest : List Tree}
    (stays : attachment?.isSome = true → ¬(attr.isRef && !rest.any Tree.isRef) = true)
    (pass : Pass) :
    ∃ (first : Woven) (later : Pass),
      KeepsAttributes [attr] ([first].filter fun item => !item.isRemoved) ∧
      ((weaveAttributes around attachment? (attr :: rest)).run pass).1 =
        first :: ((weaveAttributes around attachment? rest).run later).1 := by
  by_cases isMarker : attr.isMarker = true
  · refine ⟨.removed attr, pass, ⟨?_, nofun⟩, ?_⟩
    · simp [stripMarkers, isMarker, isRemoved]
    · cases attachment? with
      | none => rw [weaveAttributes.eq_4, if_pos isMarker]; rfl
      | some attachment => rw [weaveAttributes.eq_3, if_pos isMarker]; rfl
  · obtain ⟨sameSource, follows, -⟩ := weave_weaves around .visit attr pass
    refine ⟨((weave around .visit attr).run pass).1, ((weave around .visit attr).run pass).2,
      ⟨?_, ?_⟩, ?_⟩
    · rw [List.filter_cons_of_pos (by rw [follows.ordinary.1]; rfl), stripMarkers,
        List.filter_cons_of_pos (by simpa using isMarker)]
      exact congrArg (fun tree => [tree]) sameSource
    · intro item member
      obtain rfl := List.mem_singleton.mp (List.mem_filter.mp member).1
      exact follows.ordinary
    · cases attachment? with
      | none => rw [weaveAttributes.eq_4, if_neg isMarker]; rfl
      | some attachment => rw [weaveAttributes.eq_3, if_neg isMarker, if_neg (stays rfl)]; rfl

/-- Attributes before the last `ref` of an element with a handle stay, but for the markers. -/
theorem weaveAttributes_append (around : Surroundings) {attachment? : Option Attachment}
    (early rest : List Tree)
    (stay : attachment?.isSome = true →
      (∀ attr ∈ early, attr.isRef = false) ∨ rest.any Tree.isRef = true) (pass : Pass) :
    ∃ first later, KeepsAttributes early (first.filter fun item => !item.isRemoved) ∧
      ((weaveAttributes around attachment? (early ++ rest)).run pass).1 =
        first ++ ((weaveAttributes around attachment? rest).run later).1 := by
  induction early generalizing pass with
  | nil => exact ⟨[], pass, ⟨rfl, nofun⟩, rfl⟩
  | cons attr early ih =>
    have stays : attachment?.isSome = true →
        ¬(attr.isRef && !(early ++ rest).any Tree.isRef) = true := by
      intro due
      rcases stay due with noRef | more
      · simp [noRef attr List.mem_cons_self]
      · simp [more]
    obtain ⟨first, middle, keeps, woven⟩ := weaveAttributes_cons around stays pass
    obtain ⟨others, later, keepsOthers, wovenOthers⟩ := ih
      (fun due => (stay due).imp_left fun noRef => (List.forall_mem_cons.mp noRef).2) middle
    refine ⟨first :: others, later, ?_, ?_⟩
    · have both := keeps.append keepsOthers
      rwa [← List.filter_append] at both
    · rw [List.cons_append, woven, wovenOthers, List.cons_append]

/-- An element that gets a handle loses its last `ref` and its markers, and has a generated `ref`
behind the other attributes, which forwards the expression of the one it lost. -/
theorem weaveAttributes_attached {attributes before after : List Tree} {last? : Option Tree}
    (splits : SplitsAtRef attributes before last? after) (around : Surroundings)
    (attachment : Attachment) (pass : Pass) :
    ∃ kept replaced scan?, KeepsAttributes (before ++ after) kept ∧
      ((weaveAttributes around (some attachment) attributes).run pass).1.filter
          (fun item => !item.isRemoved) = kept ++ [.reference attachment replaced scan?] ∧
      sources replaced = (last?.bind Tree.refExpression?).toList := by
  cases splits with
  | absent noRef =>
    obtain ⟨first, later, keeps, woven⟩ := weaveAttributes_append around attributes []
      (fun _ : (some attachment).isSome = true => .inl noRef) pass
    rw [List.append_nil] at woven
    refine ⟨_, [], ((Visit.enterForwarding attachment none).run later).1, keeps, ?_, rfl⟩
    rw [woven, weaveAttributes, List.filter_append]
    rfl
  | @last _ attr _ isRef noMore =>
    have notMarker : ¬attr.isMarker = true := fun isMarker =>
      Bool.false_ne_true ((Tree.isMarker_other isMarker).1.symm.trans isRef)
    have isLast : (attr.isRef && !after.any Tree.isRef) = true := by
      simpa [isRef] using noMore
    obtain ⟨early, middle, keeps, woven⟩ := weaveAttributes_append around before (attr :: after)
      (fun _ : (some attachment).isSome = true => .inr (by simp [isRef])) pass
    obtain ⟨late, afterwards, keepsLate, wovenLate⟩ := weaveAttributes_append around after []
      (fun due : (none : Option Attachment).isSome = true => absurd due Bool.false_ne_true) middle
    rw [woven, weaveAttributes.eq_3, if_neg notMarker, if_pos isLast]
    simp only [Visit.run_bind, Visit.run_pure]
    rw [List.append_nil, weaveAttributes.eq_1, Visit.run_pure, List.append_nil] at wovenLate
    generalize (weaveAttributes around none after).run middle = others at wovenLate ⊢
    generalize (Visit.enterForwarding attachment attr.refExpression?).run others.2 = entry
    refine ⟨_, _, entry.1, keeps.append keepsLate, ?_,
      (weaveExpression_weaves (around.enterForwarding entry.1) attr entry.2).sources⟩
    rw [wovenLate]
    simp [isRemoved]

end Woven

open ElementRef

/-- The generated value of a `ref` is the handle itself when the element had no reference, and else
a function that stores a node in the handle and gives it to the last reference that is there. -/
structure ElementRef.Forwards (handle : ElementHandle) (references : List Tree) (value : Tree) :
    Prop where
  alone : references = [] → value = Code.reference handle.name
  onward : references ≠ [] → ∀ worth node,
    call? worth node value =
      some (.assign (worth [(nodeName, node)] (Code.reference handle.name)) "current" node ::
        (lastPresent (references.map (valueOf worth [(nodeName, node)]))).elim [] fun reference =>
          reference.receive node)

theorem Attachment.attribute_forwards (handle : ElementHandle) (explicit? : Option Tree)
    (spreads : List Tree) :
    ∃ value, Attachment.attribute ⟨handle, spreads⟩ explicit? [] = Code.jsxAttribute "ref" value ∧
      Forwards handle (carried explicit? spreads) value := by
  cases found : forwarded? explicit? spreads with
  | none =>
    have bare := forwarded?_eq_none_iff.mp found
    refine ⟨_, by rw [Attachment.attribute, found], fun _ => rfl, fun some => absurd bare some⟩
  | some reference =>
    refine ⟨forwardingFunction (forwardingBody handle reference), ?_, fun bare => ?_, ?_⟩
    · rw [Attachment.attribute, found]
      exact congrArg (fun body => Code.jsxAttribute "ref" (forwardingFunction body))
        (HookGroup.splice_nil _)
    · rw [forwarded?_eq_none_iff.mpr bare] at found
      cases found
    · intro _ worth node
      rw [call?_forwardingFunction, (forwarded?_standsFor worth _ found).receive]

/-- **The reference of an instrumented element.** When an element gets a handle, and its last `ref`
has an expression if there is one, it loses that `ref` and no other attribute but its markers. A
generated `ref` comes last, and before the expression in it is instrumented in turn, it stands for
the handle and forwards to what the element had: its last `ref` and what is spread behind it. -/
theorem generated_ref_forwards (around : Surroundings) (pass : Pass) (handle : ElementHandle)
    (attributes : List Tree) (supported : isUnsupported attributes = false) :
    let attachment : Attachment := ⟨handle, trailingSpreads attributes⟩
    ∃ before last? after kept generated value,
      SplitsAtRef attributes before last? after ∧
      (∀ attr ∈ last?, attr.refExpression?.isSome = true) ∧
      ((weaveAttributes around (some attachment) attributes).run pass).1.filter
          (fun item => !item.isRemoved) = kept ++ [generated] ∧
      Woven.KeepsAttributes (before ++ after) kept ∧
      generated.isGenerated = true ∧ generated.source = Code.jsxAttribute "ref" value ∧
      Forwards handle (carried (last?.bind Tree.refExpression?)
        (after.filterMap Tree.spreadExpression?)) value := by
  intro attachment
  obtain ⟨before, last?, after, splits⟩ := exists_splitsAtRef attributes
  obtain ⟨kept, replaced, scan?, keeps, woven, forwarded⟩ :=
    Woven.weaveAttributes_attached splits around attachment pass
  obtain ⟨value, isValue, forwards⟩ := Attachment.attribute_forwards handle
    (last?.bind Tree.refExpression?) (after.filterMap Tree.spreadExpression?)
  refine ⟨before, last?, after, kept, _, value, splits, ?_, woven, keeps, rfl, ?_, forwards⟩
  · intro attr isLast
    rw [isUnsupported, splits.explicit?_eq, isLast] at supported
    simpa using supported
  · rw [Woven.source, forwarded, Option.head?_toList, ← isValue, ← splits.trailingSpreads_eq]

/-- The attributes `ref={first}`, `{...early}`, `ref={own}`, `data-track-click="buy"`, `{...props}`,
`id={name}` and `{...this.rest}`. -/
def overriddenRef : List Tree :=
  [Code.jsxAttribute "ref" (Code.reference "first"),
    .node .spreadElement [(.arguments, Code.reference "early")],
    Code.jsxAttribute "ref" (Code.reference "own"),
    Code.jsxAttribute "data-track-click" (Code.string "buy"),
    .node .spreadElement [(.arguments, Code.reference "props")],
    Code.jsxAttribute "id" (Code.reference "name"),
    .node .spreadElement [(.arguments, Code.member (.node .thisExpression []) "rest")]]

/-- On this page `own` is a function, `props` carries an object and `this.rest` carries nothing. -/
def worthOfProps (_ : Bindings) (expression : Tree) : Value :=
  if expression = Code.reference "trackingRef0" then .object 0
  else if expression = Code.reference "own" then .function 1
  else if expression = Code.member (Code.reference "props") "ref" then .object 2
  else .undefined

/-- The object that `props` carries gets the element, since it comes after the `ref`. -/
theorem generated_ref_forwards_props :
    isUnsupported overriddenRef = false ∧
    ∃ kept generated value,
      ((weaveAttributes {} (some ⟨⟨0⟩, trailingSpreads overriddenRef⟩) overriddenRef).run
          { allocator := {} }).1.filter (fun item => !item.isRemoved) = kept ++ [generated] ∧
      kept.map Woven.source = overriddenRef.take 2 ++ overriddenRef.drop 4 ∧
      generated.source = Code.jsxAttribute "ref" value ∧
      call? worthOfProps (.object 3) value =
        some [.assign (.object 0) "current" (.object 3),
          .assign (.object 2) "current" (.object 3)] := by
  have supported : isUnsupported overriddenRef = false := by decide
  have known : SplitsAtRef
      (overriddenRef.take 2 ++ Code.jsxAttribute "ref" (Code.reference "own") ::
        overriddenRef.drop 3)
      (overriddenRef.take 2) (some (Code.jsxAttribute "ref" (Code.reference "own")))
      (overriddenRef.drop 3) :=
    .last _ rfl (by decide)
  obtain ⟨before, last?, after, kept, generated, value, splits, -, woven, keeps, -, isValue,
    forwards⟩ := generated_ref_forwards {} { allocator := {} } ⟨0⟩ overriddenRef supported
  obtain ⟨rfl, rfl, rfl⟩ := splits.unique known
  refine ⟨supported, kept, generated, value, woven, ?_, isValue, ?_⟩
  · rw [keeps.sources]
    decide
  · rw [forwards.onward (by decide)]
    decide

end JsxTracking
