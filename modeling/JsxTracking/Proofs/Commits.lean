import JsxTracking.Proofs.Evaluation
import JsxTracking.Proofs.FreshHandles

/-! # Commits of a component

The hooks of a handle run in a component whose body declares variables of the handle only, so the
names from outside mean what the browser and React provide. What is proved here holds for the hooks
of every marker: what code leaves alone (`Keeps`), what it finds (`Sees`), how hooks are used in the
first render and in later ones, and what a commit and an event are made of. -/

namespace JsxTracking.Page

open Hooks

variable {setting : Setting} {page before middle after : Page}

/-- The page with more objects. -/
def making (page : Page) (more : List Cell) : Page :=
  { page with cells := page.cells ++ more }

/-- The page with the hook that comes next. -/
def keeping (page : Page) (hook : Hook) : Page :=
  { page with
    hooks := page.hooks.take page.cursor ++ hook :: page.hooks.drop (page.cursor + 1)
    cursor := page.cursor + 1 }

/-- The page after more has been done to the browser. -/
def doing (page : Page) (deeds : List Deed) : Page :=
  { page with trace := page.trace ++ deeds }

/-! ## What is left alone -/

/-- Nothing is lost, except that objects at some addresses may have changed. -/
structure Keeps (changed : List Nat) (before after : Page) : Prop where
  frames : before.frames <+: after.frames
  cells : ∀ {address cell}, address ∉ changed → before.cells[address]? = some cell →
    after.cells[address]? = some cell

namespace Keeps

variable {changed : List Nat}

theorem trans (first : Keeps changed before middle) (second : Keeps changed middle after) :
    Keeps changed before after :=
  ⟨first.frames.trans second.frames, fun other has => second.cells other (first.cells other has)⟩

/-- Neither frames nor objects are touched. -/
theorem of_same (frames : after.frames = before.frames) (cells : after.cells = before.cells) :
    Keeps changed before after :=
  ⟨frames ▸ List.prefix_rfl, fun _ has => cells ▸ has⟩

theorem inside (bound : Variables) : Keeps changed page (page.inside bound) :=
  ⟨List.prefix_append _ _, fun _ has => has⟩

theorem doing (deeds : List Deed) : Keeps changed page (page.doing deeds) :=
  .of_same rfl rfl

theorem keeping (hook : Hook) : Keeps changed page (page.keeping hook) :=
  .of_same rfl rfl

theorem making (more : List Cell) : Keeps changed page (page.making more) := by
  refine ⟨List.prefix_rfl, fun _ has => ?_⟩
  rw [Page.making, List.getElem?_append_left (List.getElem?_eq_some_iff.mp has).1]
  exact has

/-- An object is changed. -/
theorem assigned {address : Nat} {cell : Cell} (among : address ∈ changed)
    (frames : after.frames = before.frames)
    (cells : after.cells = before.cells.set address cell) : Keeps changed before after := by
  refine ⟨frames ▸ List.prefix_rfl, fun other has => ?_⟩
  rw [cells, List.getElem?_set_ne (by rintro rfl; exact other among)]
  exact has

theorem find? (keeps : Keeps changed before after) {name : String} {frames : List Nat}
    (there : ∀ frame ∈ frames, frame < before.frames.length) :
    after.find? name frames = before.find? name frames := by
  induction frames with
  | nil => rfl
  | cons frame outer ih =>
    have same : after.frames[frame]? = before.frames[frame]? := by
      obtain ⟨more, grown⟩ := keeps.frames
      rw [← grown, List.getElem?_append_left (there frame List.mem_cons_self)]
    rw [Page.find?, Page.find?, same, ih fun other among => there other (List.mem_cons_of_mem _ among)]

end Keeps

/-! ## What code finds -/

/-- In an environment code finds some variables, and nothing hides what the browser provides. -/
structure Sees (page : Page) (environment : Environment) (known : List (String × Value)) : Prop where
  there : ∀ frame ∈ environment.frames, frame < page.frames.length
  finds : ∀ {name value}, (name, value) ∈ known →
    page.find? name environment.frames = some (some value)
  provided : ∀ name ∈ ["window", "IntersectionObserver"], page.find? name environment.frames = none

namespace Sees

variable {environment : Environment} {known : List (String × Value)}

theorem keeps {changed : List Nat} (sees : Sees before environment known)
    (keeps : Keeps changed before after) : Sees after environment known where
  there frame among := Nat.lt_of_lt_of_le (sees.there frame among) keeps.frames.length_le
  finds among := (keeps.find? sees.there).trans (sees.finds among)
  provided name among := (keeps.find? sees.there).trans (sees.provided name among)

theorem doing (sees : Sees page environment known) (deeds : List Deed) :
    Sees (page.doing deeds) environment known :=
  sees.keeps (Keeps.doing deeds : Keeps [] page _)

theorem mono {fewer : List (String × Value)} (sees : Sees page environment known)
    (subset : fewer ⊆ known) : Sees page environment fewer where
  there := sees.there
  finds among := sees.finds (subset among)
  provided := sees.provided

/-- What is found in a function whose variables hide nothing that was found outside. -/
theorem enter {render : Nat} {outer : List Nat} {bound : Variables}
    (sees : Sees page ⟨render, outer⟩ known)
    (apart : ∀ name ∈ "window" :: "IntersectionObserver" :: known.map Prod.fst,
      bound.lookup name = none) :
    Sees (page.inside bound) ⟨render, page.frames.length :: outer⟩ known where
  there frame among := by
    rw [inside, List.length_append]
    rcases List.mem_cons.mp among with rfl | among
    · exact Nat.lt_succ_self _
    · exact Nat.lt_succ_of_lt (sees.there frame among)
  finds {name value} among := by
    have hidden : bound.lookup name = none :=
      apart name (List.mem_cons_of_mem _ (List.mem_cons_of_mem _ (List.mem_map_of_mem among)))
    exact (find?_outer hidden sees.there).trans (sees.finds among)
  provided name among := by
    have hidden : bound.lookup name = none := by
      refine apart name ?_
      rcases List.mem_pair.mp among with rfl | rfl
      · exact List.mem_cons_self
      · exact List.mem_cons_of_mem _ List.mem_cons_self
    exact (find?_outer hidden sees.there).trans (sees.provided name among)

/-- A variable of the innermost function is found, too. -/
theorem add {name : String} {value : Value} (sees : Sees page environment known)
    (found : page.find? name environment.frames = some (some value)) :
    Sees page environment ((name, value) :: known) where
  there := sees.there
  finds among := by
    rcases List.mem_cons.mp among with same | among
    · obtain ⟨rfl, rfl⟩ := Prod.mk.inj same
      exact found
    · exact sees.finds among
  provided := sees.provided

end Sees

theorem head_ownName {handle : ElementHandle} {name : String} (own : name ∈ handle.ownNames) :
    name.toList.head? = some 't' := by
  obtain ⟨stem, spelled, ⟨rfl, _⟩ | ⟨rfl, _⟩ | ⟨rfl, _⟩⟩ := ElementHandle.ownNames_spelled own <;>
    rw [spelled] <;> rfl

/-- The reference of a handle is none of the other variables of the handle. -/
theorem name_ne {handle : ElementHandle} :
    handle.name ≠ handle.clickCallback ∧ handle.name ≠ handle.visibilityState := by
  constructor <;> intro same <;> have letter := congrArg (·.toList[8]?) same
  · rw [ElementHandle.toList_name, ElementHandle.toList_clickCallback] at letter
    exact absurd letter (by simp)
  · rw [ElementHandle.toList_name, ElementHandle.toList_visibilityState] at letter
    exact absurd letter (by simp)

/-- A name from outside is none of the variables of a handle. -/
theorem lookup_ownNames {handle : ElementHandle} {bound : Variables} {name : String}
    (own : ∀ known ∈ bound, known.1 ∈ handle.ownNames) (other : name.toList.head? ≠ some 't') :
    bound.lookup name = none := by
  rw [List.lookup_eq_none_iff]
  intro known among
  rw [bne_iff_ne]
  rintro rfl
  exact other (head_ownName (own known among))

/-- A variable of a handle is none of the constants in an effect. -/
theorem lookup_constants {handle : ElementHandle} {bound : Variables} {name : String}
    (own : name ∈ handle.ownNames) (constants : ∀ known ∈ bound, known.1.toList.head? ≠ some 't') :
    bound.lookup name = none := by
  rw [List.lookup_eq_none_iff]
  intro known among
  rw [bne_iff_ne]
  rintro rfl
  exact constants known among (head_ownName own)

/-- The variables in the body of a component: the reference of its handle and one more. -/
def bodyFrame (handle : ElementHandle) (other : String) (element held : Option Value) : Variables :=
  [(handle.name, element), (other, held)]

section

variable {handle : ElementHandle} {other : String} {element held : Option Value} {value : Value}

theorem own_bodyFrame (own : other ∈ handle.ownNames) :
    ∀ known ∈ bodyFrame handle other element held, known.1 ∈ handle.ownNames := by
  simpa [bodyFrame, ElementHandle.ownNames] using own

theorem defined_bodyFrame_name (apart : handle.name ≠ other) :
    defined (bodyFrame handle other element held) handle.name value =
      bodyFrame handle other (some value) held := by
  simp [defined, bodyFrame, apart.symm]

theorem defined_bodyFrame_other (apart : handle.name ≠ other) :
    defined (bodyFrame handle other element held) other value =
      bodyFrame handle other element (some value) := by
  simp [defined, bodyFrame, apart]

theorem lookup_bodyFrame_name :
    (bodyFrame handle other element held).lookup handle.name = some element := by
  simp [bodyFrame]

theorem lookup_bodyFrame_other (apart : handle.name ≠ other) :
    (bodyFrame handle other element held).lookup other = some held := by
  simp [bodyFrame, List.lookup_cons, beq_false_of_ne apart.symm]

end

/-- The body of a component sees its constants once they are initialized. -/
theorem sees_body {handle : ElementHandle} {render : Nat} {bound : Variables}
    {known : List (String × Value)} (own : ∀ known ∈ bound, known.1 ∈ handle.ownNames)
    (has : ∀ {name value}, (name, value) ∈ known → bound.lookup name = some (some value)) :
    Sees (page.inside bound) ⟨render, [page.frames.length]⟩ known where
  there frame among := by
    rw [inside, List.length_append, List.mem_singleton.mp among]
    exact Nat.lt_succ_self _
  finds among := find?_inner (has among)
  provided name among := by
    have other : name.toList.head? ≠ some 't' := by
      rcases List.mem_pair.mp among with rfl | rfl <;> decide
    exact find?_outer (lookup_ownNames own other) (by simp)

/-! ## Hooks -/

section

variable {call : Caller} {handle : ElementHandle} {bound next : Variables} {render : Nat}
  {name : String}

/-- A hook that the body of a component calls. -/
theorem yields_hook_body {function : String} {hook : Provided} {expressions : List Tree}
    {values : List Value} {result : Value} (own : ∀ known ∈ bound, known.1 ∈ handle.ownNames)
    (other : function.toList.head? ≠ some 't')
    (means : setting.global? function = some (.provided hook))
    (given : YieldsAll setting call ⟨render, [page.frames.length]⟩ expressions (page.inside bound)
      values middle)
    (used : Yields (useHook hook values) middle result after) :
    Yields (evaluate setting call ⟨render, [page.frames.length]⟩
      (Code.call (Code.reference function) expressions)) (page.inside bound) result after :=
  have hidden : (page.inside bound).find? function [page.frames.length] = none :=
    find?_outer (lookup_ownNames own other) (by simp)
  yields_hook hidden means given used

/-- What the next hook was in the last render. -/
theorem yields_nextHook {hook? : Option Hook} (past : page.hooks[page.cursor]? = hook?) :
    Yields nextHook? page hook? page :=
  congrArg (fun hook? => Except.ok (hook?, page)) past

/-- A reference in the first render. -/
theorem yields_reference_first (own : ∀ known ∈ bound, known.1 ∈ handle.ownNames)
    (waits : bound.lookup name = some none)
    (becomes : defined bound name (.object page.cells.length) = next)
    (first : page.hooks[page.cursor]? = none) :
    Yields (execute setting call ⟨render, [page.frames.length]⟩
        (Code.constant name (Code.call (Code.reference HookNames.useRef) [Code.nullLiteral])))
      (page.inside bound) .normal
      (((page.making [.record [("current", .null)]]).keeping
        (.reference page.cells.length)).inside next) := by
  subst becomes
  have made : Yields (useHook .useRef [.null]) (page.inside bound) (.object page.cells.length)
      (((page.making [.record [("current", .null)]]).keeping
        (.reference page.cells.length)).inside bound) :=
    have past : Yields nextHook? (page.inside bound) none (page.inside bound) :=
      yields_nextHook first
    past.bind rfl
  exact yields_constant
    (yields_hook_body own (by decide) rfl (.one yields_nullLiteral) made) (yields_define waits)

/-- A reference in a later render. -/
theorem yields_reference_again {holder : Nat} (own : ∀ known ∈ bound, known.1 ∈ handle.ownNames)
    (waits : bound.lookup name = some none) (becomes : defined bound name (.object holder) = next)
    (again : page.hooks[page.cursor]? = some (.reference holder)) :
    Yields (execute setting call ⟨render, [page.frames.length]⟩
        (Code.constant name (Code.call (Code.reference HookNames.useRef) [Code.nullLiteral])))
      (page.inside bound) .normal
      ((page.keeping (.reference holder)).inside next) := by
  subst becomes
  have kept : Yields (useHook .useRef [.null]) (page.inside bound) (.object holder)
      ((page.keeping (.reference holder)).inside bound) :=
    have past : Yields nextHook? (page.inside bound) (some (.reference holder)) (page.inside bound) :=
      yields_nextHook again
    past.bind rfl
  exact yields_constant
    (yields_hook_body own (by decide) rfl (.one yields_nullLiteral) kept) (yields_define waits)

/-- What a hook cleans up with, if it is an effect or is used for the first time. -/
def cleanupOf? : Option Hook → Option Value
  | none => some .undefined
  | some (.effect _ _ cleanup) => some cleanup
  | some _ => none

/-- An effect that runs after every commit. -/
theorem yields_effect {parameters : List Tree} {body : Tree} {cleanup : Value}
    (own : ∀ known ∈ bound, known.1 ∈ handle.ownNames)
    (past : cleanupOf? page.hooks[page.cursor]? = some cleanup) :
    Yields (execute setting call ⟨render, [page.frames.length]⟩
        (Code.perform (Code.call (Code.reference HookNames.useEffect)
          [Code.arrowTo parameters body])))
      (page.inside bound) .normal
      (((page.making [.function parameters body ⟨render, [page.frames.length]⟩]).keeping
        (.effect (some (.object page.cells.length)) none cleanup)).inside bound) := by
  let made := page.making [.function parameters body ⟨render, [page.frames.length]⟩]
  have evaluated : Yields (evaluate setting call ⟨render, [page.frames.length]⟩
      (Code.arrowTo parameters body)) (page.inside bound) (.object page.cells.length)
      (made.inside bound) := yields_arrowTo
  have kept : Yields (useHook .useEffect [.object page.cells.length]) (made.inside bound)
      .undefined ((made.keeping
        (.effect (some (.object page.cells.length)) none cleanup)).inside bound) := by
    refine (yields_nextHook rfl).bind ?_
    change cleanupOf? (made.inside bound).hooks[(made.inside bound).cursor]? = some cleanup at past
    match (made.inside bound).hooks[(made.inside bound).cursor]?, past with
    | none, rfl => rfl
    | some (.effect _ _ _), rfl => rfl
  exact yields_performed (yields_hook_body own (by decide) rfl (.one evaluated) kept)

/-- The objects that are made for a function and a list of what it depends on. -/
def dependent (setting : Setting) (page : Page) (render : Nat) (parameters : List Tree) (body : Tree)
    (dependencies : List Tree) : List Cell :=
  [.function parameters body ⟨render, [page.frames.length]⟩,
    .array (values setting render page.moment dependencies)]

/-- A function and a list of what it depends on, as they are given to hooks. -/
theorem yields_dependent {parameters : List Tree} {body : Tree} {dependencies : List Tree} :
    YieldsAll setting call ⟨render, [page.frames.length]⟩
      [Code.arrowTo parameters body, Code.array dependencies] (page.inside bound)
      [.object page.cells.length, .object (page.cells.length + 1)]
      ((page.making (dependent setting page render parameters body dependencies)).inside bound) := by
  let made := page.making [.function parameters body ⟨render, [page.frames.length]⟩]
  let listed := made.making [.array (values setting render page.moment dependencies)]
  have function : Yields (evaluate setting call ⟨render, [page.frames.length]⟩
      (Code.arrowTo parameters body)) (page.inside bound) (.object page.cells.length)
      (made.inside bound) := yields_arrowTo
  have list : Yields (evaluate setting call ⟨render, [page.frames.length]⟩
      (Code.array dependencies)) (made.inside bound) (.object made.cells.length)
      (listed.inside bound) := yields_array
  have both : listed =
      page.making (dependent setting page render parameters body dependencies) := by
    simp [listed, made, making, dependent]
  have length : made.cells.length = page.cells.length + 1 := by simp [made, making]
  rw [← both, ← length]
  exact .two function list

/-- The items of the list in such objects. -/
theorem yields_itemsOf {parameters : List Tree} {body : Tree} {dependencies : List Tree} :
    Yields (itemsOf (.object (page.cells.length + 1)))
      ((page.making (dependent setting page render parameters body dependencies)).inside bound)
      (values setting render page.moment dependencies)
      ((page.making (dependent setting page render parameters body dependencies)).inside bound) := by
  have has : ((page.making (dependent setting page render parameters body dependencies)).inside
      bound).cells[page.cells.length + 1]? =
        some (.array (values setting render page.moment dependencies)) := by
    simp [inside, making, dependent]
  exact (yields_cellAt has).bind yields_pure

/-- An effect that runs once, after the first commit. -/
def onceKept (past? : Option Hook) (effect : Value) : Hook :=
  match past? with
  | some (.effect _ _ cleanup) => .effect none (some []) cleanup
  | _ => .effect (some effect) (some []) .undefined

theorem yields_effect_once {parameters : List Tree} {body : Tree}
    (own : ∀ known ∈ bound, known.1 ∈ handle.ownNames)
    (past : page.hooks[page.cursor]? = none ∨
      ∃ cleanup, page.hooks[page.cursor]? = some (.effect none (some []) cleanup)) :
    Yields (execute setting call ⟨render, [page.frames.length]⟩
        (Code.perform (Code.call (Code.reference HookNames.useEffect)
          [Code.arrowTo parameters body, Code.array []])))
      (page.inside bound) .normal
      (((page.making (dependent setting page render parameters body [])).keeping
        (onceKept page.hooks[page.cursor]? (.object page.cells.length))).inside bound) := by
  let made := page.making (dependent setting page render parameters body [])
  have kept : Yields (useHook .useEffect
      [.object page.cells.length, .object (page.cells.length + 1)]) (made.inside bound) .undefined
      ((made.keeping
        (onceKept page.hooks[page.cursor]? (.object page.cells.length))).inside bound) := by
    refine yields_itemsOf.bind ?_
    have used : Yields nextHook? (made.inside bound) page.hooks[page.cursor]? (made.inside bound) :=
      yields_nextHook rfl
    refine used.bind ?_
    rcases past with first | ⟨cleanup, again⟩
    · rw [first]
      rfl
    · rw [again]
      rfl
  exact yields_performed (yields_hook_body own (by decide) rfl yields_dependent kept)

/-- The function that is memoized: the past one as long as its dependencies are the same. -/
def memoized (past? : Option Hook) (callback : Value) (dependencies : List Value) : Value :=
  match past? with
  | some (.memo past same) => if same = dependencies then past else callback
  | _ => callback

/-- A memoized function. -/
theorem yields_callback {parameters : List Tree} {body : Tree} {dependencies : List Tree}
    (own : ∀ known ∈ bound, known.1 ∈ handle.ownNames) (waits : bound.lookup name = some none)
    (becomes : defined bound name (memoized page.hooks[page.cursor]? (.object page.cells.length)
      (values setting render page.moment dependencies)) = next)
    (past : page.hooks[page.cursor]? = none ∨
      ∃ callback same, page.hooks[page.cursor]? = some (.memo callback same)) :
    Yields (execute setting call ⟨render, [page.frames.length]⟩
        (Code.constant name (Code.call (Code.reference HookNames.useCallback)
          [Code.arrowTo parameters body, Code.array dependencies])))
      (page.inside bound) .normal
      (((page.making (dependent setting page render parameters body dependencies)).keeping
        (.memo (memoized page.hooks[page.cursor]? (.object page.cells.length)
            (values setting render page.moment dependencies))
          (values setting render page.moment dependencies))).inside next) := by
  subst becomes
  let made := page.making (dependent setting page render parameters body dependencies)
  let current := values setting render page.moment dependencies
  have kept : Yields (useHook .useCallback
      [.object page.cells.length, .object (page.cells.length + 1)]) (made.inside bound)
      (memoized page.hooks[page.cursor]? (.object page.cells.length) current)
      ((made.keeping (.memo (memoized page.hooks[page.cursor]? (.object page.cells.length) current)
        current)).inside bound) := by
    refine yields_itemsOf.bind ?_
    have used : Yields nextHook? (made.inside bound) page.hooks[page.cursor]? (made.inside bound) :=
      yields_nextHook rfl
    refine used.bind ?_
    rcases past with first | ⟨callback, same, again⟩
    · rw [first]
      rfl
    · rw [again]
      by_cases unchanged : same = current
      · simp only [memoized, unchanged, current, ↓reduceIte]
        rfl
      · simp only [memoized, unchanged, current, ↓reduceIte]
        rfl
  exact yields_constant (yields_hook_body own (by decide) rfl yields_dependent kept)
    (yields_define waits)

end

/-! ## What references hold -/

/-- A reference holds a value. -/
def Holds (page : Page) (holder : Nat) (value : Value) : Prop :=
  page.cells[holder]? = some (.record [("current", value)])

/-- The page with a reference that holds a value. -/
def putting (page : Page) (holder : Nat) (value : Value) : Page :=
  { page with cells := page.cells.set holder (.record [("current", value)]) }

section

variable {call : Caller} {environment : Environment} {holder : Nat} {held value : Value}

theorem Holds.keeps {changed : List Nat} (holds : Holds before holder held)
    (keeps : Keeps changed before after) (other : holder ∉ changed) : Holds after holder held :=
  keeps.cells other holds

theorem Holds.put (holds : Holds page holder held) : Holds (page.putting holder value) holder value :=
  List.getElem?_set_self (List.getElem?_eq_some_iff.mp holds).1

/-- Where a single object is changed, it is a reference. -/
theorem Holds.references (holds : Holds page holder held) :
    ∀ other ∈ [holder], ∃ held, Holds page other held :=
  List.forall_mem_singleton.mpr ⟨held, holds⟩

/-- An object that is no reference is none of the references. -/
theorem not_mem_of_cells {changed : List Nat} {address : Nat} {cell : Cell}
    (references : ∀ holder ∈ changed, ∃ held, Holds page holder held)
    (has : page.cells[address]? = some cell)
    (other : ∀ held, cell ≠ .record [("current", held)]) : address ∉ changed := by
  intro among
  obtain ⟨held, holds⟩ := references address among
  exact other held (Option.some.inj (has.symm.trans holds))

theorem Keeps.put {changed : List Nat} (among : holder ∈ changed) :
    Keeps changed page (page.putting holder value) :=
  .assigned among rfl rfl

theorem yields_put (holds : Holds page holder held) :
    Yields (assign (.object holder) "current" value) page ⟨⟩ (page.putting holder value) :=
  yields_assign holds

/-- A constant for what a reference of the component holds. -/
theorem yields_readCurrent {bound : Variables} {render : Nat} {outer : List Nat}
    {known : List (String × Value)} {name variableName : String}
    (hidden : bound.lookup variableName = none) (waits : bound.lookup name = some none)
    (sees : Sees page ⟨render, outer⟩ known)
    (among : (variableName, .object holder) ∈ known) (holds : Holds page holder held) :
    Yields (execute setting call ⟨render, page.frames.length :: outer⟩
        (Visibility.readCurrent name variableName))
      (page.inside bound) .normal (page.inside (defined bound name held)) := by
  have found : (page.inside bound).find? variableName (page.frames.length :: outer) =
      some (some (.object holder)) :=
    (find?_outer hidden sees.there).trans (sees.finds among)
  have held : Yields (property setting "current" (.object holder)) (page.inside bound) held
      (page.inside bound) := yields_property holds rfl
  exact yields_constant (yields_member (yields_reference found) held) (yields_define waits)

end

/-! ## Commits and events -/

section

variable {depth : Nat} {component : Component} {environment : Environment}

/-- The page when a render begins. -/
def rendering (page : Page) : Page :=
  { page with cursor := 0, renders := page.renders + 1 }

theorem yields_render
    (runs : Yields (executeAll setting (call setting depth) ⟨page.renders, [page.frames.length]⟩
        component.statements)
      (page.rendering.inside (declared component.statements)) .normal after) :
    Yields (render setting depth component) page ⟨page.renders, [page.frames.length]⟩ after :=
  have entered : Yields (enter (declared component.statements)) page.rendering page.frames.length
      (page.rendering.inside (declared component.statements)) := yields_enter
  yields_get.bind (Yields.bind rfl (entered.bind (runs.bind yields_pure)))

/-- The page after React has attached the element to a reference. -/
def attaching (page : Page) (holder : Nat) (node? : Option Nat) : Page :=
  { page.putting holder (elementValue node?) with attached? := some holder }

theorem attaching_keeps {holder : Nat} {node? : Option Nat} :
    Keeps [holder] page (page.attaching holder node?) :=
  (Keeps.put List.mem_cons_self).trans (.of_same rfl rfl)

theorem yields_attach {known : List (String × Value)} {holder : Nat} {held : Value}
    {node? : Option Nat} (sees : Sees page environment known)
    (among : (component.handle.name, .object holder) ∈ known) (holds : Holds page holder held) :
    Yields (attach setting component environment node?) page ⟨⟩ (page.attaching holder node?) :=
  (yields_lookup (sees.finds among)).bind ((yields_put holds).bind (yields_modify _))

/-- A commit is a render, and then the element is attached and the effects that are due are cleaned
up after and run. -/
theorem yields_commit {node? : Option Nat} {rendered attached cleaned settled : Page}
    {hooks : List Hook}
    (renders : Yields (render setting depth component) page environment rendered)
    (attaches : Yields (attach setting component environment node?) rendered ⟨⟩ attached)
    (cleans : Yields (cleanUpDue (call setting depth) attached.hooks) attached ⟨⟩ cleaned)
    (runs : Yields (runDue (call setting depth) attached.hooks) cleaned hooks settled) :
    Yields (commit setting depth component node?) page ⟨⟩ { settled with hooks := hooks } :=
  renders.bind (attaches.bind (yields_get.bind (cleans.bind (runs.bind (yields_modify _)))))

/-- Whether an effect is to run after the commit. -/
def Hook.isDue : Hook → Bool
  | .effect (some _) _ _ => true
  | _ => false

/-- What is not due is left alone. -/
theorem yields_cleanUpDue_other {call : Caller} {hook : Hook} {rest : List Hook}
    (idle : hook.isDue = false) (others : Yields (cleanUpDue call rest) before ⟨⟩ after) :
    Yields (cleanUpDue call (hook :: rest)) before ⟨⟩ after := by
  match hook, idle with
  | .reference _, _ | .memo _ _, _ | .effect none _ _, _ => exact others

theorem yields_cleanUpDue {call : Caller} {effect cleanup : Value}
    {dependencies? : Option (List Value)} {rest : List Hook}
    (disposes : Yields (dispose call cleanup) before ⟨⟩ middle)
    (others : Yields (cleanUpDue call rest) middle ⟨⟩ after) :
    Yields (cleanUpDue call (.effect (some effect) dependencies? cleanup :: rest)) before ⟨⟩ after :=
  disposes.bind others

theorem yields_runDue_other {call : Caller} {hook : Hook} {rest hooks : List Hook}
    (idle : hook.isDue = false) (others : Yields (runDue call rest) before hooks after) :
    Yields (runDue call (hook :: rest)) before (hook :: hooks) after := by
  match hook, idle with
  | .reference _, _ | .memo _ _, _ | .effect none _ _, _ => exact others.bind yields_pure

/-- An effect that is due runs. -/
theorem yields_runDue {effect cleanup past : Value} {dependencies? : Option (List Value)}
    {rest hooks : List Hook} {call : Caller}
    (runs : Yields (call effect []) before cleanup middle)
    (others : Yields (runDue call rest) middle hooks after) :
    Yields (runDue call (.effect (some effect) dependencies? past :: rest)) before
      (.effect none dependencies? cleanup :: hooks) after :=
  runs.bind (others.bind yields_pure)

/-- A component that was never on the page is taken off. -/
theorem yields_unmount_fresh (hooks : page.hooks = []) (attached : page.attached? = none) :
    Yields (unmount setting depth) page ⟨⟩ page := by
  refine yields_get.bind ?_
  rw [attached]
  refine Yields.bind yields_get ?_
  rw [hooks]
  have same : ({ page with hooks := [], attached? := none } : Page) = page := by
    rw [← hooks, ← attached]
  exact Yields.bind yields_pure (same ▸ yields_modify _)

/-- A component is taken off the page: the element is detached, and all effects are cleaned up
after. -/
theorem yields_unmount {holder : Nat} {held : Value} (attached : page.attached? = some holder)
    (holds : Holds page holder held)
    (cleans : Yields (cleanUpAll (call setting depth) page.hooks) (page.putting holder .null) ⟨⟩
      after) :
    Yields (unmount setting depth) page ⟨⟩ { after with hooks := [], attached? := none } := by
  refine yields_get.bind ?_
  rw [attached]
  exact (yields_put holds).bind (Yields.bind yields_get (cleans.bind (yields_modify _)))

/-- The page when an event happens. -/
def ticking (page : Page) : Page := { page with moment := page.moment + 1 }

theorem yields_step_commit {node? : Option Nat}
    (commits : Yields (commit setting depth component node?) page.ticking ⟨⟩ after) :
    Yields (step setting depth component (.commit node?)) page ⟨⟩ after :=
  Yields.bind (yields_modify _) commits

theorem yields_step_intersect {observer : Nat} {entries : List Bool}
    (intersects : Yields (intersect setting depth observer entries) page.ticking ⟨⟩ after) :
    Yields (step setting depth component (.intersect observer entries)) page ⟨⟩ after :=
  Yields.bind (yields_modify _) intersects

theorem yields_step_click {node : Nat}
    (clicks : Yields (click setting depth node) page.ticking ⟨⟩ after) :
    Yields (step setting depth component (.click node)) page ⟨⟩ after :=
  Yields.bind (yields_modify _) clicks

theorem yields_step_runtime {present : Bool} :
    Yields (step setting depth component (.runtime present)) page ⟨⟩
      { page.ticking with hasRuntime := present } :=
  Yields.bind (yields_modify _) (yields_modify _)

end

/-! ## Runs -/

/-- The element after an event. -/
def nodeAfter (node? : Option Nat) : Event → Option Nat
  | .commit next? => next?
  | _ => node?

/-- The element after some events: that of the last commit. -/
def currentNode (events : List Event) : Option Nat :=
  events.foldl nodeAfter none

section

variable {depth : Nat} {component : Component}

/-- What every event preserves holds after some events. -/
theorem exists_stepAll {Invariant : Option Nat → Page → Prop} {events : List Event}
    (steps : ∀ event ∈ events, ∀ node? page, Invariant node? page →
      ∃ after, Yields (step setting depth component event) page ⟨⟩ after ∧
        Invariant (nodeAfter node? event) after)
    {node? : Option Nat} (holds : Invariant node? page) :
    ∃ after, Yields (stepAll setting depth component events) page ⟨⟩ after ∧
      Invariant (events.foldl nodeAfter node?) after := by
  induction events generalizing node? page with
  | nil => exact ⟨page, yields_pure, holds⟩
  | cons event rest ih =>
    obtain ⟨middle, stepped, preserved⟩ := steps event List.mem_cons_self node? page holds
    obtain ⟨after, ran, kept⟩ :=
      ih (fun other among => steps other (List.mem_cons_of_mem _ among)) preserved
    exact ⟨after, stepped.bind ran, kept⟩

theorem stepAll_append {events more : List Event} :
    stepAll setting depth component (events ++ more) =
      stepAll setting depth component events >>= fun _ => stepAll setting depth component more := by
  induction events with
  | nil => rw [List.nil_append, stepAll, pure_bind]
  | cons event rest ih => rw [List.cons_append, stepAll, stepAll, ih, bind_assoc]

theorem run_of_yields {events : List Event}
    (yields : Yields (stepAll setting depth component events) {} ⟨⟩ after) :
    run setting depth component events = .ok after :=
  congrArg (Prod.snd <$> ·) yields

theorem runToEnd_of_yields {events : List Event}
    (yields : Yields (stepAll setting depth component events) {} ⟨⟩ middle)
    (ends : Yields (unmount setting depth) middle ⟨⟩ after) :
    runToEnd setting depth component events = .ok after :=
  congrArg (Prod.snd <$> ·) (yields.bind ends)

end

end JsxTracking.Page
