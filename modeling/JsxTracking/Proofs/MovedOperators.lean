import JsxTracking.Proofs.FunctionOperators
import JsxTracking.Proofs.OutputAgreement
import JsxTracking.Proofs.Parentheses

/-! # Operators that are moved into other functions

Instrumentation puts two things into functions that they did not stand in: values of markers, which
the hooks of the component evaluate, and references that are forwarded. So a module without stranded
operators goes on to have none if there are no operators in those (`Rewriting.Allowed.settles`), and
it gets some for each `await` or `yield` of a component in the value of an instrumented element
(`operators_moved_iff`). -/

namespace JsxTracking

/-- Whether no operator in a tree is stranded or belongs to a function around it. -/
def Tree.IsFree (operator : FunctionOperator) (tree : Tree) : Prop :=
  tree.uses operator = false ∧ tree.strands operator = false

/-- Whether an operator is in what a change puts into functions of its own: values of markers, or the
references that an element had. -/
def Change.uses (operator : FunctionOperator) : Change → Bool
  | unvisited _ | element _ => false
  | reference attachment explicit? =>
    (explicit?.toList ++ attachment.spreads).any (Tree.uses operator)
  | hooks tracked => tracked.markers.dynamicExpressions.any (Tree.uses operator)

/-- Whether no operator is in what a change puts into functions of its own, nor stranded in the values
that it repeats. -/
def Change.IsFree (operator : FunctionOperator) (change : Change) : Prop :=
  change.uses operator = false ∧ ∀ element, change = .hooks element →
    ∀ value ∈ element.markers.dynamicExpressions, value.strands operator = false

section

variable {operator : FunctionOperator}

theorem Tree.isFree_all {trees : List Tree} : (∀ tree ∈ trees, tree.IsFree operator) ↔
    trees.any (uses operator) = false ∧ trees.any (strands operator) = false := by
  simp only [List.any_eq_false, Bool.not_eq_true, ← forall₂_and]
  rfl

/-- Hooks that evaluate values without operators have none. -/
theorem Hooks.isFree {markers : ElementMarkers}
    (free : ∀ value ∈ markers.dynamicExpressions, value.IsFree operator) (handle : ElementHandle)
    (runtimeGlobal : String) :
    ∀ hook ∈ ofElement handle runtimeGlobal markers, hook.IsFree operator := by
  obtain ⟨unused, unstranded⟩ := Tree.isFree_all.mp free
  obtain ⟨used, -, stranded⟩ := operators_ofElement operator handle runtimeGlobal markers
  rw [unused, unstranded, Bool.and_false, Bool.or_false] at stranded
  rw [unused] at used
  exact Tree.isFree_all.mpr
    ⟨Bool.eq_false_iff.mpr fun uses => Bool.false_ne_true (used uses), stranded⟩

/-- The hooks of an element hold an operator that is not theirs if, and only if, a value does. -/
theorem Hooks.moves_iff {markers : ElementMarkers}
    (settled : ∀ value ∈ markers.dynamicExpressions, value.strands operator = false)
    (handle : ElementHandle) (runtimeGlobal : String) :
    ((∃ hook ∈ ofElement handle runtimeGlobal markers, hook.uses operator = true ∨
        hook.strands operator = true) ↔
      ∃ value ∈ markers.dynamicExpressions, value.uses operator = true) ∧
    (operator ≠ .arguments → (∃ value ∈ markers.dynamicExpressions, value.uses operator = true) →
      ∃ hook ∈ ofElement handle runtimeGlobal markers, hook.strands operator = true) := by
  have unstranded : markers.dynamicExpressions.any (Tree.strands operator) = false :=
    List.any_eq_false.mpr fun value member => Bool.eq_false_iff.mp (settled value member)
  obtain ⟨used, shared, stranded⟩ := operators_ofElement operator handle runtimeGlobal markers
  rw [unstranded, Bool.false_or] at stranded
  simp only [← List.any_eq_true, and_or_left, exists_or]
  refine ⟨⟨?_, fun uses => ?_⟩, fun other uses => ?_⟩
  · rintro (uses | strands)
    · exact used uses
    · rw [stranded] at strands
      exact (Bool.and_eq_true_iff.mp strands).2
  · by_cases context : operator = .arguments
    · exact Or.inl ((shared context).trans uses)
    · exact Or.inr (by rw [stranded, uses, decide_eq_true context, Bool.and_self])
  · rw [stranded, uses, decide_eq_true other, Bool.and_self]

theorem Tracked.Arranged.isFree {runtimeGlobal : String} {elements : List Tracked}
    {hooks : List Tree} (arranged : Tracked.Arranged runtimeGlobal elements hooks)
    (free : ∀ element ∈ elements, (Change.hooks element).IsFree operator) :
    ∀ hook ∈ hooks, hook.IsFree operator := by
  obtain ⟨groups, ordered, rfl⟩ := arranged
  intro hook member
  obtain ⟨group, among, inside⟩ := List.mem_flatten.mp member
  obtain ⟨element, present, rfl⟩ := List.mem_map.mp (ordered.mem_iff.mp among)
  obtain ⟨unused, unstranded⟩ := free element present
  refine Hooks.isFree (fun value evaluated => ⟨?_, unstranded element rfl value evaluated⟩) _ _ hook
    inside
  exact Bool.eq_false_iff.mpr (List.any_eq_false.mp unused value evaluated)

/-- A reference is forwarded to what has no operators if the references of the element have none. -/
theorem ElementRef.isFree_forwarded {explicit? : Option Tree} {spreads : List Tree} {reference : Tree}
    (found : forwarded? explicit? spreads = some reference)
    (free : ∀ part ∈ explicit?.toList ++ spreads, part.IsFree operator) :
    reference.IsFree operator := by
  induction spreads generalizing explicit? with
  | nil =>
    obtain rfl : explicit? = some reference := found
    exact free reference (by simp)
  | cons spread rest ih =>
    have carried : (Code.member spread "ref").IsFree operator := by
      have plain := free spread (by simp)
      exact ⟨by simp [plain.1], by simp [plain.2]⟩
    have next {earlier : Tree} (before : earlier.IsFree operator)
        (found : forwarded? (some earlier) rest = some reference) : reference.IsFree operator :=
      ih found (List.forall_mem_cons.mpr ⟨before, fun part member =>
        free part (List.mem_append_right _ (List.mem_cons_of_mem _ member))⟩)
    cases explicit? with
    | none => exact next carried found
    | some earlier =>
      have before := free earlier (by simp)
      exact next ⟨by simp [carried.1, before.1], by simp [carried.2, before.2]⟩ found

/-- A list that gains hooks or imports without operators has its own ones. -/
theorem Interleaved.any_eq {statements added merged : List Tree}
    (interleaved : Interleaved statements added merged) {test : Tree → Bool}
    (without : added.any test = false) : merged.any test = statements.any test := by
  rw [interleaved.perm.any_eq, List.any_append, without, Bool.or_false]

/-- A generated reference has no operators if what it forwards to and its hooks have none. -/
theorem Attachment.Gives.isFree {attachment : Attachment} {explicit? : Option Tree}
    {hooks : List Tree} {generated : Tree} (gives : attachment.Gives explicit? hooks generated)
    (free : ∀ part ∈ explicit?.toList ++ attachment.spreads, part.IsFree operator)
    (hooked : ∀ hook ∈ hooks, hook.IsFree operator) : generated.IsFree operator := by
  have named := ElementHandle.ne_arguments attachment.handle.name_mem_ownNames
  cases gives with
  | handle => exact ⟨by simp [named], by simp⟩
  | @function reference body forwarded merge =>
    have stored := ElementRef.isFree_forwarded forwarded free
    obtain ⟨unused, unstranded⟩ := Tree.isFree_all.mp hooked
    constructor <;> simp [ElementRef.forwardingFunction, Code.arrow, merge.any_eq unused,
      merge.any_eq unstranded, ElementRef.forwardingBody, ElementRef.forwardName,
      ElementRef.nodeName, Code.typeofIs, stored.1, stored.2, named]

/-- A body that gains hooks without operators has its own ones. -/
theorem Tree.Gains.operators {hooks : List Tree} {body gained : Tree}
    (gains : body.Gains hooks gained) (hooked : ∀ hook ∈ hooks, hook.IsFree operator) :
    (gained.uses operator = body.uses operator) ∧
      (gained.strands operator = body.strands operator) := by
  obtain ⟨unused, unstranded⟩ := isFree_all.mp hooked
  cases gains with
  | @block early late statements merged merge =>
    have plain := operators_plain operator .blockStatement rfl
    simp only [plain, List.any_append, List.any_cons, uses_list, strands_list, merge.any_eq unused,
      merge.any_eq unstranded, and_self]
  | expression => simp [unused, unstranded]

/-- Whether two nodes have the same flags and texts; bodies and attributes are neither. -/
def Fields.Agree (fields other : Fields) : Prop :=
  ∀ field, field ≠ .body → field ≠ .attributes →
    (fields.get field).isTrue = (other.get field).isTrue ∧
      (fields.get field).text? = (other.get field).text?

namespace Fields.Agree

variable {fields other : Fields} (agree : Agree fields other)
include agree

theorem isMadeBy (operator : FunctionOperator) (kind : Kind) :
    operator.isMadeBy kind fields = operator.isMadeBy kind other := by
  unfold FunctionOperator.isMadeBy
  rw [(agree (.other "isAwait") Field.noConfusion Field.noConfusion).1,
    (agree .value Field.noConfusion Field.noConfusion).2]

theorem isOwned (operator : FunctionOperator) (kind : Kind) (field : Field) :
    operator.isOwned kind fields field = operator.isOwned kind other field := by
  unfold FunctionOperator.isOwned Kind.defers
  rw [(agree (.other "isStatic") Field.noConfusion Field.noConfusion).1]

theorem isAllowed (operator : FunctionOperator) (kind : Kind) :
    operator.isAllowed kind fields = operator.isAllowed kind other := by
  unfold FunctionOperator.isAllowed
  rw [(agree .async Field.noConfusion Field.noConfusion).1,
    (agree .generator Field.noConfusion Field.noConfusion).1]

end Fields.Agree

/-- A tree has no stranded operators, and no other operators of the function around it than the one
that it stands for. -/
structure Tree.Settles (operator : FunctionOperator) (source image : Tree) : Prop where
  used : image.uses operator = true → source.uses operator = true
  settled : image.strands operator = false

/-- A node without stranded operators goes on to have none if its parts do. -/
theorem Tree.settles_of_parts {kind : Kind} {images sources : Fields}
    (agree : Fields.Agree images sources) (settled : (node kind sources).strands operator = false)
    (each : ∀ part ∈ images, ∃ source, (part.1, source) ∈ sources ∧
      source.Settles operator part.2) :
    (node kind sources).Settles operator (node kind images) := by
  rw [strands_node] at settled
  constructor
  · intro used
    rw [uses_node, agree.isMadeBy, Bool.or_eq_true, List.any_eq_true] at used
    rw [uses_node, Bool.or_eq_true, List.any_eq_true]
    refine used.imp_right fun ⟨part, member, inside⟩ => ?_
    rw [agree.isOwned, Bool.and_eq_true] at inside
    obtain ⟨source, origin, settles⟩ := each part member
    exact ⟨(part.1, source), origin, Bool.and_eq_true_iff.mpr ⟨inside.1, settles.used inside.2⟩⟩
  · rw [strands_node]
    refine List.any_eq_false.mpr fun part member stranded => ?_
    obtain ⟨source, origin, settles⟩ := each part member
    rw [settles.settled, Bool.false_or, agree.isOwned, agree.isAllowed, Bool.and_eq_true] at stranded
    refine List.any_eq_false.mp settled (part.1, source) origin ?_
    rw [stranded.1, settles.used stranded.2, Bool.and_self, Bool.or_true]

/-- A list settles if each of its trees does, for some tree of the other list. -/
theorem Tree.settles_list {sources images : List Tree}
    (each : ∀ image ∈ images, image.strands operator = false ∧
      (image.uses operator = true → ∃ source ∈ sources, source.uses operator = true)) :
    (list sources).Settles operator (list images) where
  used used := by
    rw [uses_list, List.any_eq_true] at used ⊢
    obtain ⟨image, member, inside⟩ := used
    exact (each image member).2 inside
  settled := by
    rw [strands_list]
    exact List.any_eq_false.mpr fun image member => Bool.eq_false_iff.mp (each image member).1

namespace Rewriting

variable {runtimeGlobal : String} {rewriting : Rewriting}

theorem Allowed.agree {kind : Kind} {sources images : Fields} {changes : List Change}
    (allowed : Allowed runtimeGlobal ⟨.node kind sources, .node kind images, changes⟩) :
    Fields.Agree images sources := by
  intro field notBody notAttributes
  obtain ⟨part, allowedPart, image, source⟩ := allowed.get field notBody notAttributes
  change Fields.get images field = part.image at image
  change Fields.get sources field = part.source at source
  rw [image, source]
  cases allowedPart <;> exact ⟨rfl, rfl⟩

end Rewriting

/-- The attributes of an element settle if what is rewritten among them does. -/
theorem AttributesRewritten.settles {runtimeGlobal : String} {attachment? : Option Attachment}
    {attributes images : List Tree} {within : List Rewriting} {changes : List Change}
    (rewritten : AttributesRewritten runtimeGlobal attachment? attributes within images changes)
    (spread : ∀ attachment ∈ attachment?, ∀ spread ∈ attachment.spreads,
      spread.strands operator = false)
    (each : ∀ item ∈ within, item.source.Settles operator item.image)
    (free : ∀ change ∈ changes, change.IsFree operator) :
    (Tree.list attributes).Settles operator (.list images) := by
  apply Tree.settles_list
  intro image member
  have fromItem {items : List Rewriting} (among : ∀ item ∈ items, item ∈ within)
      (present : image ∈ items.map Rewriting.image) : image.strands operator = false ∧
        (image.uses operator = true →
          ∃ source ∈ items.map Rewriting.source, source.uses operator = true) := by
    obtain ⟨item, inside, rfl⟩ := List.mem_map.mp present
    have settles := each item (among item inside)
    exact ⟨settles.settled, fun used =>
      ⟨item.source, List.mem_map_of_mem inside, settles.used used⟩⟩
  have fromFree (bare : image.IsFree operator) : image.strands operator = false ∧
      (image.uses operator = true → ∃ source ∈ attributes, source.uses operator = true) :=
    ⟨bare.2, fun used => absurd (used.symm.trans bare.1) Bool.true_eq_false.mp⟩
  cases rewritten with
  | plain => exact fromItem (fun _ => id) member
  | @added attachment generated _ gives =>
    rcases List.mem_append.mp member with kept | own
    · exact fromItem (fun _ => id) kept
    · obtain rfl := List.mem_singleton.mp own
      have unused := List.any_eq_false.mp (free (.reference attachment none) (by simp)).1
      refine fromFree (gives.isFree (fun part carried => ?_) (by simp))
      exact ⟨Bool.eq_false_iff.mpr (unused part carried), spread attachment rfl part carried⟩
  | @replaced attachment attr generated front back explicit elements hooks isRef expression arranged
      gives =>
    rcases List.mem_append.mp member with kept | own
    · rcases List.mem_append.mp kept with early | late
      · obtain ⟨settled, used⟩ := fromItem
          (fun item (inside : item ∈ front) => by simp [inside]) early
        exact ⟨settled, fun uses => (used uses).imp fun source => by simp +contextual⟩
      · obtain ⟨settled, used⟩ := fromItem
          (fun item (inside : item ∈ back) => by simp [inside]) late
        exact ⟨settled, fun uses => (used uses).imp fun source => by simp +contextual⟩
    · obtain rfl := List.mem_singleton.mp own
      have unused := List.any_eq_false.mp
        (free (.reference attachment (some explicit.source)) (by simp)).1
      have settles := each explicit (by simp)
      refine fromFree (gives.isFree (fun part carried => ?_)
        (arranged.isFree fun element among => free (.hooks element) (by simp [among])))
      rcases List.mem_cons.mp carried with rfl | behind
      · exact ⟨Bool.eq_false_iff.mpr fun uses => unused explicit.source (by simp)
          (settles.used uses), settles.settled⟩
      · exact ⟨Bool.eq_false_iff.mpr (unused part (List.mem_cons_of_mem _ behind)),
          spread attachment rfl part behind⟩

namespace Rewriting

variable {runtimeGlobal : String} {rewriting : Rewriting}

/-- **A rewritten tree settles** if no change puts an operator into a function of its own. -/
theorem Allowed.settles (allowed : rewriting.Allowed runtimeGlobal)
    (settled : rewriting.source.strands operator = false)
    (free : ∀ change ∈ rewriting.changes, change.IsFree operator) :
    rewriting.source.Settles operator rewriting.image := by
  have hereditary := Tree.hereditary_settled operator
  have inParts {kind : Kind} {fields : Fields} {parts : List (Field × Rewriting)}
      (settled : (Tree.node kind fields).strands operator = false)
      (among : ∀ part ∈ sourcesInParts parts, part ∈ fields)
      (free : ∀ change ∈ changesInParts parts, change.IsFree operator)
      (each : ∀ part ∈ parts, part.2.source.strands operator = false →
        (∀ change ∈ part.2.changes, change.IsFree operator) →
          part.2.source.Settles operator part.2.image) :
      ∀ part ∈ imagesInParts parts, ∃ source, (part.1, source) ∈ fields ∧
        source.Settles operator part.2 := by
    intro part member
    obtain ⟨origin, present, rfl⟩ := List.mem_map.mp member
    have inside := among (origin.1, origin.2.source) (List.mem_map.mpr ⟨origin, present, rfl⟩)
    exact ⟨origin.2.source, inside, each origin present (hereditary.part settled inside)
      fun change here => free change (mem_changesInParts.mpr ⟨origin, present, here⟩)⟩
  induction allowed with
  | unvisited tree => exact ⟨id, settled⟩
  | scalar => exact ⟨id, settled⟩
  | @list items each ih =>
    apply Tree.settles_list
    intro image member
    obtain ⟨item, among, rfl⟩ := List.mem_map.mp member
    have settles := ih item among (hereditary.item settled (List.mem_map_of_mem among))
      fun change here => free change (List.mem_flatMap.mpr ⟨item, among, here⟩)
    exact ⟨settles.settled, fun used => ⟨_, List.mem_map_of_mem among, settles.used used⟩⟩
  | node unattributed each ih =>
    exact Tree.settles_of_parts (Allowed.node unattributed each).agree settled
      (inParts settled (fun _ => id) free ih)
  | @component kind early late body elements hooks gained isFunction each arranged gains ih =>
    refine Tree.settles_of_parts (Allowed.component isFunction each arranged gains).agree settled
      fun part member => ?_
    have kept := inParts settled (fun _ => id)
      (fun change here => free change (List.mem_append_left _ here)) ih
    have split : imagesInParts (early ++ (.body, body) :: late) =
        imagesInParts early ++ (.body, body.image) :: imagesInParts late := by
      simp [imagesInParts]
    rw [split] at kept
    rcases List.mem_append.mp member with before | after
    · exact kept part (List.mem_append_left _ before)
    · rcases List.mem_cons.mp after with rfl | behind
      · obtain ⟨source, origin, settles⟩ := kept (.body, body.image) (by simp)
        obtain ⟨used, stranded⟩ := gains.operators (arranged.isFree fun element among =>
          free (.hooks element) (List.mem_append_right _ (List.mem_map_of_mem among)))
        exact ⟨source, origin, fun uses => settles.used (used.symm.trans uses),
          stranded.trans settles.settled⟩
      · exact kept part (List.mem_append_right _ (List.mem_cons_of_mem _ behind))
  | @opening early late attributes images attachment? within inAttributes others spread each
      eachWithin rewritten ih ihWithin =>
    refine Tree.settles_of_parts (Allowed.opening others spread each eachWithin rewritten).agree
      settled fun part member => ?_
    simp only [List.mem_append] at free
    have inList : ∀ attr ∈ attributes, attr.strands operator = false := fun attr among =>
      hereditary.item (hereditary.part settled (List.mem_append_right _ List.mem_cons_self)) among
    have inTag : (Tree.list (stripMarkers attributes)).Settles operator (.list images) := by
      refine rewritten.settles (fun attachment due expression among => ?_) (fun item among => ?_)
        fun change here => free change (.inl (.inr here))
      · rw [(spread attachment due).1] at among
        exact hereditary.trailingSpreads inList expression among
      · obtain ⟨whole, inside⟩ := rewritten.within hereditary
          (fun attr member => inList attr (List.mem_of_mem_filter member)) item among
        exact ihWithin item among whole fun change here => free change (.inl (.inr (inside change here)))
    rcases List.mem_append.mp member with before | after
    · exact inParts settled (fun _ => List.mem_append_left _)
        (fun change here => free change (.inl (.inl (.inr here))))
        (fun part among => ih part (List.mem_append_left _ among)) part before
    · rcases List.mem_cons.mp after with rfl | behind
      · refine ⟨_, List.mem_append_right _ List.mem_cons_self, fun used => ?_, inTag.settled⟩
        have kept := inTag.used used
        rw [Tree.uses_list, List.any_eq_true] at kept ⊢
        exact kept.imp fun attr => And.imp_left List.mem_of_mem_filter
      · exact inParts settled (fun _ among => List.mem_append_right _ (List.mem_cons_of_mem _ among))
          (fun change here => free change (.inr here))
          (fun part among => ih part (List.mem_append_right _ among)) part behind

end Rewriting

end

/-- An asynchronous component with the given statements. -/
def asyncPageOf (statements : List Tree) : Tree :=
  .node .functionDeclaration
    [(.identifier, Code.reference "Page"), (.params, .list []), (.body, Code.block statements),
      (.async, .bool true)]

/-- `await load()` -/
def awaitedLoad : Tree :=
  .node .awaitExpression [(.argument, Code.call (Code.reference "load") [])]

/-- `const id = await load(); return <div data-track-click={id} />;` -/
def awaitedBefore : List Tree :=
  [Code.constant "id" awaitedLoad,
    Code.returnValue (markedElement "div" "data-track-click" (Code.reference "id"))]

/-- `return <div data-track-click={await load()} />;` -/
def awaitedWithin : List Tree :=
  [Code.returnValue (markedElement "div" "data-track-click" awaitedLoad)]

end JsxTracking
