import JsxTracking.Proofs.Commits

/-! # The effects of a show marker

The hooks of a show marker keep a state in a reference: nothing, or an element with its observer.
Here it is told what the three functions of the hooks do to it, each whenever it runs: the effect
after a commit (`exists_watchingBody`), what cleans up in the end (`yields_unmountingBody`), and what
an observer does when it is told of entries (`exists_reporting`). -/

namespace JsxTracking.Page

open Hooks Hooks.Visibility

variable {setting : Setting} {handle : ElementHandle} {value : MarkerValue}
  {page before middle after : Page} {call : Caller}

/-! ## The state of the hooks -/

/-- What an observer does with the entries it is given. -/
def reporting (value : MarkerValue) (runtimeGlobal : String) : List Tree :=
  [Code.ifThen
    (Code.methodCall (Code.reference entriesName) "some"
      [Code.arrowTo [Code.binding entryName]
        (Code.member (Code.reference entryName) "isIntersecting")])
    [Code.guardedRuntimeCall runtimeGlobal "show" value.expression,
      Code.perform (Code.methodCall (Code.reference observerName) "disconnect" [])]]

theorem observerCallback_eq (runtimeGlobal : String) :
    observerCallback value runtimeGlobal =
      Code.arrowTo [Code.binding entriesName] (Code.block (reporting value runtimeGlobal)) := rfl

/-- What the state is: idle, or an element with the observer that was made for it. -/
inductive Tracked (setting : Setting) (value : MarkerValue) (page : Page) :
    Value → Option (Nat × Nat) → Prop where
  | idle : Tracked setting value page .null none
  | tracking {state observer node callback : Nat} {environment : Environment}
      (record : page.cells[state]? =
        some (.record [("element", .element node), ("observer", .object observer)]))
      (made : page.cells[observer]? = some (.observer (.object callback)))
      (reports : page.cells[callback]? = some (.function [Code.binding entriesName]
        (Code.block (reporting value setting.runtimeGlobal)) environment))
      (sees : Sees page environment [(observerName, .object observer)]) :
      Tracked setting value page (.object state) (some (observer, node))

theorem Tracked.keeps {changed : List Nat} {state : Value} {tracked? : Option (Nat × Nat)}
    (tracked : Tracked setting value before state tracked?) (keeps : Keeps changed before after)
    (references : ∀ holder ∈ changed, ∃ held, Holds before holder held) :
    Tracked setting value after state tracked? := by
  cases tracked with
  | idle => exact .idle
  | tracking record made reports sees =>
    exact .tracking
      (keeps.cells (not_mem_of_cells references record (by simp)) record)
      (keeps.cells (not_mem_of_cells references made (by simp)) made)
      (keeps.cells (not_mem_of_cells references reports (by simp)) reports)
      (sees.keeps keeps)

/-- The observers that are disconnected before another element is watched. -/
def released : Option (Nat × Nat) → List Deed
  | none => []
  | some (observer, _) => [.disconnect observer]

section

variable {render holder : Nat} {outer : List Nat} {bound : Variables} {state : Value}
  {tracked? : Option (Nat × Nat)}

/-- The last observer is disconnected. -/
theorem yields_disconnectPrevious (has : bound.lookup stateName = some (some state))
    (tracked : Tracked setting value page state tracked?) :
    Yields (execute setting call ⟨render, page.frames.length :: outer⟩ disconnectPrevious)
      (page.inside bound) .normal ((page.doing (released tracked?)).inside bound) := by
  have state : Yields (evaluate setting call ⟨render, page.frames.length :: outer⟩
      (Code.reference stateName)) (page.inside bound) state (page.inside bound) :=
    yields_reference (find?_inner has)
  cases tracked with
  | idle =>
    rw [released, doing, List.append_nil]
    exact yields_ifThen_not state rfl
  | tracking record made _ _ =>
    have observer : Yields (evaluate setting call ⟨render, page.frames.length :: outer⟩
        (Code.member (Code.reference stateName) "observer")) (page.inside bound) (.object _)
        (page.inside bound) :=
      yields_member state (yields_property record rfl)
    have disconnected := yields_methodCall observer .nil (yields_disconnect made)
    exact yields_ifThen state rfl ((yields_performed disconnected).then yields_nil)

/-- The state becomes idle. -/
theorem yields_resetState {known : List (String × Value)} {held : Value}
    (hidden : bound.lookup handle.visibilityState = none) (sees : Sees page ⟨render, outer⟩ known)
    (among : (handle.visibilityState, .object holder) ∈ known) (holds : Holds page holder held) :
    Yields (execute setting call ⟨render, page.frames.length :: outer⟩
        (resetState handle.visibilityState))
      (page.inside bound) .normal ((page.putting holder .null).inside bound) := by
  have found : (page.inside bound).find? handle.visibilityState (page.frames.length :: outer) =
      some (some (.object holder)) :=
    (find?_outer hidden sees.there).trans (sees.finds among)
  have put : Yields (assign (.object holder) "current" .null) (page.inside bound) ⟨⟩
      ((page.putting holder .null).inside bound) := yields_put holds
  exact yields_performed (yields_assignMember (yields_reference found) yields_nullLiteral put)

/-- Both together: what was watched is not watched any longer. -/
theorem yields_teardown {known : List (String × Value)} {rest : List Tree} {completion : Completion}
    (has : bound.lookup stateName = some (some state))
    (hidden : bound.lookup handle.visibilityState = none) (sees : Sees page ⟨render, outer⟩ known)
    (among : (handle.visibilityState, .object holder) ∈ known) (holds : Holds page holder state)
    (tracked : Tracked setting value page state tracked?)
    (further : Yields (executeAll setting call ⟨render, page.frames.length :: outer⟩ rest)
      (((page.doing (released tracked?)).putting holder .null).inside bound) completion after) :
    Yields (executeAll setting call ⟨render, page.frames.length :: outer⟩
        (disconnectPrevious :: resetState handle.visibilityState :: rest))
      (page.inside bound) completion after := by
  have idle : Sees (page.doing (released tracked?)) ⟨render, outer⟩ known := sees.doing _
  have reset : Yields (execute setting call ⟨render, page.frames.length :: outer⟩
      (resetState handle.visibilityState)) ((page.doing (released tracked?)).inside bound) .normal
      (((page.doing (released tracked?)).putting holder .null).inside bound) :=
    yields_resetState hidden idle among holds
  exact (yields_disconnectPrevious has tracked).then (reset.then further)

end

/-! ## The effect that watches -/

/-- The test for the element that is tracked. -/
def sameElement : Tree :=
  Code.binary "&&" (Code.reference stateName)
    (Code.binary "===" (Code.member (Code.reference stateName) "element")
      (Code.reference elementName))

/-- The test for no element, or a browser without observers. -/
def cannotObserve : Tree :=
  Code.binary "||" (Code.unary "!" (Code.reference elementName))
    (Code.typeofIs (Code.reference "IntersectionObserver") "undefined")

/-- The statements that watch an element. -/
def starting (handle : ElementHandle) (value : MarkerValue) (runtimeGlobal : String) : List Tree :=
  [Code.constant observerName (Code.construct "IntersectionObserver"
      [observerCallback value runtimeGlobal,
        Code.object [("threshold", Code.number threshold)]]),
    Code.perform (Code.assignMember (Code.reference handle.visibilityState) "current"
      (Code.object [("element", Code.reference elementName),
        ("observer", Code.reference observerName)])),
    Code.perform (Code.methodCall (Code.reference observerName) "observe"
      [Code.reference elementName])]

/-- What the effect does after every commit. -/
def watchingBody (handle : ElementHandle) (value : MarkerValue) (runtimeGlobal : String) :
    List Tree :=
  [readCurrent elementName handle.name,
    readCurrent stateName handle.visibilityState,
    Code.ifThen sameElement [Code.returnNothing],
    disconnectPrevious,
    resetState handle.visibilityState,
    Code.ifThen cannotObserve [Code.returnNothing]] ++
    starting handle value runtimeGlobal

theorem watching_eq (runtimeGlobal : String) :
    watching handle value runtimeGlobal =
      Code.perform (Code.call (Code.reference HookNames.useEffect)
        [Code.arrowTo [] (Code.block (watchingBody handle value runtimeGlobal))]) := rfl

/-- The constants of the effect. -/
def watchingFrame (element state observer : Option Value) : Variables :=
  [(elementName, element), (stateName, state), (observerName, observer)]

theorem frame_watchingBody (runtimeGlobal : String) :
    parametersBound [] [] ++ declared (watchingBody handle value runtimeGlobal) =
      watchingFrame none none none := rfl

theorem lookup_watchingFrame {name : String} {element state observer : Option Value}
    (own : name ∈ handle.ownNames) : (watchingFrame element state observer).lookup name = none :=
  lookup_constants own (by simp only [watchingFrame, List.forall_mem_cons]; decide +revert)

section

variable {render elementHolder holder : Nat} {outer : List Nat} {state : Value}
  {node? : Option Nat} {tracked? : Option (Nat × Nat)}

/-- Whether the element is the one that is tracked. -/
def isTracked : Option (Nat × Nat) → Option Nat → Bool
  | some (_, tracked), some node => tracked = node
  | _, _ => false

/-- How the first test ends: the effect returns if the element is tracked already. -/
theorem yields_sameElement {observer : Option Value}
    (tracked : Tracked setting value page state tracked?) :
    Yields (execute setting call ⟨render, page.frames.length :: outer⟩
        (Code.ifThen sameElement [Code.returnNothing]))
      (page.inside (watchingFrame (some (elementValue node?)) (some state) observer))
      (if isTracked tracked? node? then .returned .undefined else .normal)
      (page.inside (watchingFrame (some (elementValue node?)) (some state) observer)) := by
  have read {name : String} {held : Value}
      (has : (watchingFrame (some (elementValue node?)) (some state) observer).lookup name =
        some (some held)) :
      Yields (evaluate setting call ⟨render, page.frames.length :: outer⟩ (Code.reference name))
        (page.inside (watchingFrame (some (elementValue node?)) (some state) observer)) held
        (page.inside (watchingFrame (some (elementValue node?)) (some state) observer)) :=
    yields_reference (find?_inner has)
  cases tracked with
  | idle => exact yields_ifThen_not (yields_and_first (read rfl) rfl) rfl
  | @tracking state made node _ _ record =>
    have element : Yields (evaluate setting call ⟨render, page.frames.length :: outer⟩
        (Code.member (Code.reference stateName) "element"))
        (page.inside (watchingFrame (some (elementValue node?)) (some (.object state)) observer))
        (.element node)
        (page.inside (watchingFrame (some (elementValue node?)) (some (.object state)) observer)) :=
      yields_member (read rfl) (yields_property record rfl)
    have compared : (Value.element node).equals? (elementValue node?) =
        some (isTracked (some (made, node)) node?) := by
      cases node? with
      | none => rfl
      | some other => simp [elementValue, Value.equals?, isTracked]
    have current : Yields (evaluate setting call ⟨render, page.frames.length :: outer⟩
        (Code.reference elementName))
        (page.inside (watchingFrame (some (elementValue node?)) (some (.object state)) observer))
        (elementValue node?)
        (page.inside (watchingFrame (some (elementValue node?)) (some (.object state)) observer)) :=
      read rfl
    have present : Yields (evaluate setting call ⟨render, page.frames.length :: outer⟩
        (Code.reference stateName))
        (page.inside (watchingFrame (some (elementValue node?)) (some (.object state)) observer))
        (.object state)
        (page.inside (watchingFrame (some (elementValue node?)) (some (.object state)) observer)) :=
      read rfl
    have test := yields_and_second present rfl (yields_equals element current compared)
    cases same : isTracked (some (made, node)) node? with
    | true => exact yields_ifThen (same ▸ test) rfl (Yields.returns yields_returnNothing)
    | false => exact yields_ifThen_not (same ▸ test) rfl

/-- How the second test ends: the effect returns if there is nothing to watch. -/
theorem yields_cannotObserve {known : List (String × Value)} {state observer : Option Value}
    (sees : Sees page ⟨render, outer⟩ known) :
    Yields (execute setting call ⟨render, page.frames.length :: outer⟩
        (Code.ifThen cannotObserve [Code.returnNothing]))
      (page.inside (watchingFrame (some (elementValue node?)) state observer))
      (if node?.isNone || !setting.observes then .returned .undefined else .normal)
      (page.inside (watchingFrame (some (elementValue node?)) state observer)) := by
  have hidden : (page.inside (watchingFrame (some (elementValue node?)) state observer)).find?
      "IntersectionObserver" (page.frames.length :: outer) = none :=
    (find?_outer rfl sees.there).trans (sees.provided _ (by simp))
  have element : Yields (evaluate setting call ⟨render, page.frames.length :: outer⟩
      (Code.reference elementName))
      (page.inside (watchingFrame (some (elementValue node?)) state observer)) (elementValue node?)
      (page.inside (watchingFrame (some (elementValue node?)) state observer)) :=
    yields_reference (find?_inner rfl)
  cases node? with
  | none =>
    exact yields_ifThen (yields_or_first (yields_not element rfl) rfl) rfl
      (Yields.returns yields_returnNothing)
  | some node =>
    have test := yields_or_second (yields_not element rfl) rfl (yields_typeofObserver hidden)
    cases observes : setting.observes with
    | true => exact yields_ifThen_not (observes ▸ test) rfl
    | false => exact yields_ifThen (observes ▸ test) rfl (Yields.returns yields_returnNothing)

/-- The objects that are made for an element that is watched from now on: what the observer does,
its options, the observer and the state. -/
def observing (setting : Setting) (value : MarkerValue) (page : Page) (environment : Environment)
    (node : Nat) : List Cell :=
  [.function [Code.binding entriesName] (Code.block (reporting value setting.runtimeGlobal))
      environment,
    .record [("threshold", .number threshold)],
    .observer (.object page.cells.length),
    .record [("element", .element node), ("observer", .object (page.cells.length + 2))]]

/-- The page after an element is watched. -/
def startingOn (setting : Setting) (value : MarkerValue) (page : Page) (environment : Environment)
    (holder node : Nat) : Page :=
  ((page.making (observing setting value page environment node)).doing
    [.create (page.cells.length + 2), .observe (page.cells.length + 2) node]).putting holder
      (.object (page.cells.length + 3))

theorem yields_starting {known : List (String × Value)} {node : Nat} {held : Value}
    {state : Option Value} (sees : Sees page ⟨render, outer⟩ known)
    (among : (handle.visibilityState, .object holder) ∈ known) (holds : Holds page holder held)
    (observes : setting.observes = true) :
    Yields (executeAll setting call ⟨render, page.frames.length :: outer⟩
        (starting handle value setting.runtimeGlobal))
      (page.inside (watchingFrame (some (.element node)) state none)) .normal
      ((page.startingOn setting value ⟨render, page.frames.length :: outer⟩ holder node).inside
        (watchingFrame (some (.element node)) state
          (some (.object (page.cells.length + 2))))) := by
  let environment : Environment := ⟨render, page.frames.length :: outer⟩
  let waiting := watchingFrame (some (.element node)) state none
  let reported := page.making [.function [Code.binding entriesName]
    (Code.block (reporting value setting.runtimeGlobal)) environment]
  let optioned := reported.making [.record [("threshold", .number threshold)]]
  let observer := optioned.cells.length
  let constructed := (optioned.making [.observer (.object page.cells.length)]).doing
    [.create observer]
  let bound := watchingFrame (some (.element node)) state (some (.object observer))
  let described := constructed.making
    [.record [("element", .element node), ("observer", .object observer)]]
  let put := described.putting holder (.object constructed.cells.length)
  have kept : Keeps [] page constructed :=
    (Keeps.making _).trans ((Keeps.making _).trans ((Keeps.making _).trans (Keeps.doing _)))
  -- The observer is made.
  have callback : Yields (evaluate setting call environment
      (observerCallback value setting.runtimeGlobal)) (page.inside waiting)
      (.object page.cells.length) (reported.inside waiting) := by
    rw [observerCallback_eq]
    exact yields_arrowTo
  have options : Yields (evaluate setting call environment
      (Code.object [("threshold", Code.number threshold)])) (reported.inside waiting)
      (.object reported.cells.length) (optioned.inside waiting) := yields_object_one yields_number
  have hidden : (page.inside waiting).find? "IntersectionObserver" environment.frames = none :=
    (find?_outer rfl sees.there).trans (sees.provided _ (by simp))
  have made : Yields (evaluate setting call environment (Code.construct "IntersectionObserver"
      [observerCallback value setting.runtimeGlobal,
        Code.object [("threshold", Code.number threshold)]])) (page.inside waiting)
      (.object observer) (constructed.inside waiting) :=
    yields_construct hidden observes callback options
  have defines : Yields (define environment observerName (.object observer))
      (constructed.inside waiting) ⟨⟩ (constructed.inside bound) := yields_define rfl
  -- It is put into the state, together with the element.
  have read {name : String} {held : Value} (has : bound.lookup name = some (some held))
      {page : Page} : Yields (evaluate setting call ⟨render, page.frames.length :: outer⟩
        (Code.reference name)) (page.inside bound) held (page.inside bound) :=
    yields_reference (find?_inner has)
  have seen : Sees constructed ⟨render, outer⟩ known := sees.keeps kept
  have own : bound.lookup handle.visibilityState = none :=
    lookup_watchingFrame handle.visibilityState_mem_ownNames
  have state : Yields (evaluate setting call environment (Code.reference handle.visibilityState))
      (constructed.inside bound) (.object holder) (constructed.inside bound) :=
    yields_reference ((find?_outer own seen.there).trans (seen.finds among))
  have object : Yields (evaluate setting call environment
      (Code.object [("element", Code.reference elementName),
        ("observer", Code.reference observerName)])) (constructed.inside bound)
      (.object constructed.cells.length) (described.inside bound) :=
    yields_object_two (read rfl) (read rfl)
  have grown : Keeps [] page described := kept.trans (Keeps.making _)
  have still : Holds described holder held := holds.keeps grown List.not_mem_nil
  have assigns : Yields (assign (.object holder) "current" (.object constructed.cells.length))
      (described.inside bound) ⟨⟩ (put.inside bound) := yields_put still
  -- The element is observed.
  have cell : put.cells[observer]? = some (.observer (.object page.cells.length)) := by
    have made : described.cells[observer]? = some (.observer (.object page.cells.length)) := by
      simp [described, constructed, observer, making, doing]
    have other : holder ≠ observer := by
      rintro rfl
      exact absurd (made.symm.trans still) (by simp)
    exact (List.getElem?_set_ne other).trans made
  have observed : Yields (invoke call (.object observer) "observe" [.element node])
      (put.inside bound) .undefined ((put.doing [.observe observer node]).inside bound) :=
    yields_observe cell
  have yields : Yields (executeAll setting call environment
      (starting handle value setting.runtimeGlobal)) (page.inside waiting) .normal
      ((put.doing [.observe observer node]).inside bound) :=
    (yields_constant made defines).then
      ((yields_performed (yields_assignMember state object assigns)).then
        ((yields_performed (yields_methodCall (read rfl) (.one (read rfl)) observed)).then
          yields_nil))
  have length : page.cells.length + 2 = observer := by simp [observer, optioned, reported, making]
  have result : put.doing [.observe observer node] =
      page.startingOn setting value environment holder node := by
    simp [startingOn, observing, put, described, constructed, optioned, reported, making, doing,
      putting, ← length]
  rw [← result, length]
  exact yields

theorem startingOn_keeps {environment : Environment} {node : Nat} :
    Keeps [holder] page (page.startingOn setting value environment holder node) :=
  (Keeps.making _).trans ((Keeps.doing _).trans (Keeps.put List.mem_cons_self))

/-- The state of the hooks: a reference holds what is tracked. -/
def Watching (setting : Setting) (value : MarkerValue) (page : Page) (holder : Nat)
    (tracked? : Option (Nat × Nat)) : Prop :=
  ∃ state, Holds page holder state ∧ Tracked setting value page state tracked?

theorem watching_startingOn {known : List (String × Value)} {node : Nat} {held : Value}
    {state : Option Value} (sees : Sees page ⟨render, outer⟩ known) (holds : Holds page holder held) :
    Watching setting value
      ((page.startingOn setting value ⟨render, page.frames.length :: outer⟩ holder node).inside
        (watchingFrame (some (.element node)) state (some (.object (page.cells.length + 2)))))
      holder (some (page.cells.length + 2, node)) := by
  let environment : Environment := ⟨render, page.frames.length :: outer⟩
  let made := page.making (observing setting value page environment node)
  let started := page.startingOn setting value environment holder node
  have still : Holds made holder held := holds.keeps (Keeps.making _ : Keeps [] _ _) (by simp)
  have kept {address : Nat} {cell : Cell} (has : made.cells[address]? = some cell)
      (other : cell ≠ .record [("current", held)]) : started.cells[address]? = some cell := by
    refine (List.getElem?_set_ne ?_).trans has
    rintro rfl
    exact other (Option.some.inj (has.symm.trans still))
  have record : started.cells[page.cells.length + 3]? =
      some (.record [("element", .element node), ("observer", .object (page.cells.length + 2))]) :=
    kept (by simp [made, making, observing]) (by simp)
  have observer : started.cells[page.cells.length + 2]? =
      some (.observer (.object page.cells.length)) :=
    kept (by simp [made, making, observing]) (by simp)
  have callback : started.cells[page.cells.length]? = some (.function [Code.binding entriesName]
      (Code.block (reporting value setting.runtimeGlobal)) environment) :=
    kept (by simp [made, making, observing]) (by simp)
  have seen : Sees started ⟨render, outer⟩ [] :=
    (sees.keeps startingOn_keeps).mono (List.nil_subset _)
  let bound :=
    watchingFrame (some (.element node)) state (some (.object (page.cells.length + 2)))
  have inner : Sees (started.inside bound) environment
      [(observerName, .object (page.cells.length + 2))] :=
    (seen.enter
      (by simp [bound, watchingFrame, elementName, stateName, observerName])).add (find?_inner rfl)
  exact ⟨_, still.put, .tracking record observer callback inner⟩

/-- What is tracked from now on, if what was tracked is not tracked any longer. -/
def started (observes : Bool) (fresh : Nat) (node? : Option Nat) : Option (Nat × Nat) :=
  if observes then node?.map (fresh, ·) else none

theorem started_eq_none {observes : Bool} {fresh : Nat} {node? : Option Nat}
    (nothing : (node?.isNone || !observes) = true) : started observes fresh node? = none := by
  cases observes with
  | false => rfl
  | true => simpa [started] using nothing

/-- What is done to the browser when an element is tracked. -/
def announced : Option (Nat × Nat) → List Deed
  | none => []
  | some (observer, node) => [.create observer, .observe observer node]

/-- What is tracked after a commit. -/
def retracked (observes : Bool) (fresh : Nat) (tracked? : Option (Nat × Nat)) (node? : Option Nat) :
    Option (Nat × Nat) :=
  if isTracked tracked? node? then tracked? else started observes fresh node?

/-- What is done to the browser in a commit. -/
def commitDeeds (observes : Bool) (fresh : Nat) (tracked? : Option (Nat × Nat)) (node? : Option Nat) :
    List Deed :=
  if isTracked tracked? node? then []
  else released tracked? ++ announced (started observes fresh node?)

theorem exists_watchingBody (call : Caller) {known : List (String × Value)}
    (sees : Sees page ⟨render, outer⟩ known)
    (element : (handle.name, .object elementHolder) ∈ known)
    (among : (handle.visibilityState, .object holder) ∈ known)
    (attached : Holds page elementHolder (elementValue node?))
    (watching : Watching setting value page holder tracked?) :
    ∃ completion after, completion.result = .undefined ∧
      Yields (executeAll setting call ⟨render, page.frames.length :: outer⟩
          (watchingBody handle value setting.runtimeGlobal))
        (page.inside (watchingFrame none none none)) completion after ∧
      Keeps [holder] page after ∧ after.attached? = page.attached? ∧
      ∃ fresh, Watching setting value after holder
          (retracked setting.observes fresh tracked? node?) ∧
        after.trace = page.trace ++ commitDeeds setting.observes fresh tracked? node? := by
  obtain ⟨state, holds, tracked⟩ := watching
  let environment : Environment := ⟨render, page.frames.length :: outer⟩
  let read := watchingFrame (some (elementValue node?)) (some state) none
  have readElement : Yields (execute setting call environment (readCurrent elementName handle.name))
      (page.inside (watchingFrame none none none)) .normal
      (page.inside (watchingFrame (some (elementValue node?)) none none)) :=
    yields_readCurrent (lookup_watchingFrame handle.name_mem_ownNames) rfl sees element attached
  have readState : Yields (execute setting call environment
        (readCurrent stateName handle.visibilityState))
      (page.inside (watchingFrame (some (elementValue node?)) none none)) .normal
      (page.inside read) :=
    yields_readCurrent (lookup_watchingFrame handle.visibilityState_mem_ownNames) rfl sees among holds
  have compares : Yields (execute setting call environment
      (Code.ifThen sameElement [Code.returnNothing])) (page.inside read)
      (if isTracked tracked? node? then .returned .undefined else .normal) (page.inside read) :=
    yields_sameElement tracked
  by_cases same : isTracked tracked? node? = true
  · rw [if_pos same] at compares
    refine ⟨_, _, rfl, readElement.then (readState.then (Yields.returns compares)), Keeps.inside _, rfl,
      0, ?_, ?_⟩
    · rw [retracked, if_pos same]
      have kept : Keeps [] page (page.inside read) := Keeps.inside _
      exact ⟨state, holds.keeps kept List.not_mem_nil, tracked.keeps kept (by simp)⟩
    · rw [commitDeeds, if_pos same, List.append_nil]
      rfl
  · rw [if_neg same] at compares
    let idle := (page.doing (released tracked?)).putting holder .null
    have kept : Keeps [holder] page idle := (Keeps.doing _).trans (Keeps.put List.mem_cons_self)
    have seen : Sees idle ⟨render, outer⟩ known := sees.keeps kept
    have resting : Holds idle holder .null := Holds.put holds
    have test : Yields (execute setting call environment
        (Code.ifThen cannotObserve [Code.returnNothing])) (idle.inside read)
        (if node?.isNone || !setting.observes then .returned .undefined else .normal)
        (idle.inside read) := yields_cannotObserve seen
    cases startable : node?.isNone || !setting.observes with
    | true =>
      rw [startable, if_pos rfl] at test
      have nothing (fresh : Nat) : started setting.observes fresh node? = none :=
        started_eq_none startable
      refine ⟨_, _, rfl, readElement.then (readState.then (compares.then
        (yields_teardown rfl (lookup_watchingFrame handle.visibilityState_mem_ownNames) sees among holds tracked
          (Yields.returns test)))), kept.trans (Keeps.inside _), rfl, 0, ?_, ?_⟩
      · rw [retracked, if_neg same, nothing]
        exact ⟨.null, resting, .idle⟩
      · rw [commitDeeds, if_neg same, nothing, announced, List.append_nil]
        rfl
    | false =>
      rw [startable, if_neg Bool.false_ne_true] at test
      obtain ⟨⟨node, rfl⟩, observes⟩ : (∃ node, node? = some node) ∧ setting.observes = true := by
        simpa [Option.isSome_iff_exists] using startable
      refine ⟨_, _, rfl, readElement.then (readState.then (compares.then
        (yields_teardown rfl (lookup_watchingFrame handle.visibilityState_mem_ownNames) sees among holds tracked
          (test.then (yields_starting seen among resting observes))))),
        kept.trans (startingOn_keeps.trans (Keeps.inside _)), rfl, idle.cells.length + 2, ?_, ?_⟩
      · rw [retracked, if_neg same, started, if_pos observes]
        exact watching_startingOn seen resting
      · rw [commitDeeds, if_neg same, started, if_pos observes]
        exact List.append_assoc _ _ _

end

/-! ## The effect that cleans up -/

/-- What is done when the component unmounts. -/
def unmountingBody (handle : ElementHandle) : List Tree :=
  [readCurrent stateName handle.visibilityState, disconnectPrevious,
    resetState handle.visibilityState]

theorem unmounting_eq :
    unmounting handle =
      Code.perform (Code.call (Code.reference HookNames.useEffect)
        [Code.arrowTo [] (Code.arrowTo [] (Code.block (unmountingBody handle))), Code.array []]) :=
  rfl

theorem yields_unmountingBody {render holder : Nat} {outer : List Nat}
    {known : List (String × Value)} {state : Value} {tracked? : Option (Nat × Nat)}
    (sees : Sees page ⟨render, outer⟩ known)
    (among : (handle.visibilityState, .object holder) ∈ known) (holds : Holds page holder state)
    (tracked : Tracked setting value page state tracked?) :
    Yields (executeAll setting call ⟨render, page.frames.length :: outer⟩ (unmountingBody handle))
      (page.inside [(stateName, none)]) .normal
      (((page.doing (released tracked?)).putting holder .null).inside
        [(stateName, some state)]) := by
  have hidden (state? : Option Value) :
      List.lookup handle.visibilityState [(stateName, state?)] = none :=
    lookup_constants handle.visibilityState_mem_ownNames
      (by simp only [List.forall_mem_cons]; decide +revert)
  have readState : Yields (execute setting call ⟨render, page.frames.length :: outer⟩
        (readCurrent stateName handle.visibilityState))
      (page.inside [(stateName, none)]) .normal (page.inside [(stateName, some state)]) :=
    yields_readCurrent (hidden _) rfl sees among holds
  exact readState.then (yields_teardown rfl (hidden _) sees among holds tracked yields_nil)

/-! ## What observers do -/

/-- The page with more frames. -/
def entering (page : Page) (more : List Variables) : Page :=
  { page with frames := page.frames ++ more }

theorem Keeps.entering {changed : List Nat} (more : List Variables) :
    Keeps changed page (page.entering more) :=
  ⟨List.prefix_append _ _, fun _ has => has⟩

/-- An entry tells whether the element intersects the viewport. -/
def IsEntry (cells : List Cell) (item : Value) (intersects : Bool) : Prop :=
  ∃ address, item = .object address ∧
    cells[address]? = some (.record [("isIntersecting", .bool intersects)])

section

variable {depth : Nat} {items : List Value} {entries : List Bool}

/-- The test of an entry. -/
theorem yields_isIntersecting {test address : Nat} {environment : Environment} {intersects : Bool}
    (tests : page.cells[test]? = some (.function [Code.binding entryName]
      (Code.member (Code.reference entryName) "isIntersecting") environment))
    (entry : page.cells[address]? = some (.record [("isIntersecting", .bool intersects)])) :
    Yields (Page.call setting (depth + 1) (.object test) [.object address]) page (.bool intersects)
      (page.inside [(entryName, some (.object address))]) := by
  have read : Yields (evaluate setting (Page.call setting depth)
      { environment with frames := page.frames.length :: environment.frames }
      (Code.reference entryName)) (page.inside [(entryName, some (.object address))])
      (.object address) (page.inside [(entryName, some (.object address))]) :=
    yields_reference (find?_inner rfl)
  have found : Yields (property setting "isIntersecting" (.object address))
      (page.inside [(entryName, some (.object address))]) (.bool intersects)
      (page.inside [(entryName, some (.object address))]) := yields_property entry rfl
  exact yields_call_expression tests (by simp [Code.member, Code.block]) (yields_member read found)

theorem exists_anyItem {cells : List Cell} {test : Nat} {environment : Environment}
    (told : List.Forall₂ (IsEntry cells) items entries) (same : page.cells = cells)
    (tests : cells[test]? = some (.function [Code.binding entryName]
      (Code.member (Code.reference entryName) "isIntersecting") environment)) :
    ∃ more, Yields (anyItem (Page.call setting (depth + 1)) (.object test) items) page
      (entries.any id) (page.entering more) := by
  induction told generalizing page with
  | nil => exact ⟨[], by rw [entering, List.append_nil]; exact yields_pure⟩
  | @cons item intersects items entries told _ ih =>
    obtain ⟨address, rfl, record⟩ := told
    subst same
    have tested : Yields (Page.call setting (depth + 1) (.object test) [.object address]) page
        (.bool intersects) (page.inside [(entryName, some (.object address))]) :=
      yields_isIntersecting tests record
    cases intersects with
    | true => exact ⟨[_], tested.bind ((yields_decideOn rfl).bind yields_pure)⟩
    | false =>
      obtain ⟨more, others⟩ := ih (rfl : (page.inside _).cells = page.cells)
      have entered : (page.inside [(entryName, some (.object address))]).entering more =
          page.entering ([(entryName, some (.object address))] :: more) := by
        simp [inside, entering]
      exact ⟨_, tested.bind ((yields_decideOn rfl).bind (entered ▸ others))⟩

/-- The object for an entry. -/
def entryCell (intersects : Bool) : Cell :=
  .record [("isIntersecting", .bool intersects)]

/-- The entries that an observer is told of. -/
theorem exists_makeEntries :
    ∃ items, Yields (makeEntries entries) page items (page.making (entries.map entryCell)) ∧
      List.Forall₂ (IsEntry (page.making (entries.map entryCell)).cells) items entries := by
  induction entries generalizing page with
  | nil => exact ⟨[], by rw [List.map_nil, making, List.append_nil]; exact yields_pure, .nil⟩
  | cons intersects rest ih =>
    obtain ⟨items, others, told⟩ := @ih (page.making [entryCell intersects])
    have made : (page.making [entryCell intersects]).making (rest.map entryCell) =
        page.making ((intersects :: rest).map entryCell) := by simp [making]
    rw [made] at others told
    have first : (page.making ((intersects :: rest).map entryCell)).cells[page.cells.length]? =
        some (entryCell intersects) := by simp [making]
    exact ⟨.object page.cells.length :: items, Yields.bind yields_allocate (others.bind yields_pure),
      .cons ⟨_, rfl, first⟩ told⟩

/-- What is done to the browser when an observer is told whether its element is seen. -/
def seenDeeds (setting : Setting) (value : MarkerValue) (render : Nat) (page : Page)
    (observer : Nat) : Bool → List Deed
  | true =>
    (if page.hasRuntime = true then
      [.report "show" (.own (setting.worth render page.moment value.expression))]
      else []) ++ [.disconnect observer]
  | false => []

theorem frame_reporting {given : Value} (runtimeGlobal : String) :
    parametersBound [Code.binding entriesName] [given] ++ declared (reporting value runtimeGlobal) =
      [(entriesName, some given)] := rfl

theorem exists_reporting (setting : Setting) (depth : Nat) {callback observer list : Nat}
    {environment : Environment} {made : Value}
    (function : page.cells[callback]? = some (.function [Code.binding entriesName]
      (Code.block (reporting value setting.runtimeGlobal)) environment))
    (sees : Sees page environment [(observerName, .object observer)])
    (constructed : page.cells[observer]? = some (.observer made))
    (listed : page.cells[list]? = some (.array items))
    (told : List.Forall₂ (IsEntry page.cells) items entries) :
    ∃ after, Yields (Page.call setting (depth + 2) (.object callback) [.object list]) page
        .undefined after ∧
      Keeps [] page after ∧ after.hooks = page.hooks ∧ after.attached? = page.attached? ∧
      after.trace = page.trace ++
        seenDeeds setting value environment.render page observer (entries.any id) := by
  let inner : Environment := { environment with frames := page.frames.length :: environment.frames }
  let entered := page.inside [(entriesName, some (.object list))]
  let tested := entered.making [.function [Code.binding entryName]
    (Code.member (Code.reference entryName) "isIntersecting") inner]
  have seen : Sees entered inner
      [(entriesName, .object list), (observerName, .object observer)] :=
    (sees.enter (by simp [entriesName, observerName])).add (find?_inner rfl)
  have tests : tested.cells[entered.cells.length]? = some (.function [Code.binding entryName]
      (Code.member (Code.reference entryName) "isIntersecting") inner) :=
    List.getElem?_concat_length
  have grown : Keeps [] page tested := (Keeps.inside _).trans (Keeps.making _)
  have told : List.Forall₂ (IsEntry tested.cells) items entries :=
    told.imp fun _ _ ⟨address, same, has⟩ => ⟨address, same, grown.cells List.not_mem_nil has⟩
  obtain ⟨more, any⟩ : ∃ more, Yields (anyItem (Page.call setting (depth + 1))
      (.object entered.cells.length) items) tested (entries.any id) (tested.entering more) :=
    exists_anyItem told rfl tests
  let looked := tested.entering more
  have kept : Keeps [] page looked := grown.trans (Keeps.entering _)
  have still : Sees looked inner [(entriesName, .object list), (observerName, .object observer)] :=
    seen.keeps ((Keeps.making _).trans (Keeps.entering _) : Keeps [] entered looked)
  have test : Yields (evaluate setting (Page.call setting (depth + 1)) inner
      (Code.methodCall (Code.reference entriesName) "some"
        [Code.arrowTo [Code.binding entryName]
          (Code.member (Code.reference entryName) "isIntersecting")])) entered
      (.bool (entries.any id)) looked :=
    yields_methodCall (yields_reference (seen.finds (by simp))) (.one yields_arrowTo)
      (yields_anyItem (grown.cells List.not_mem_nil listed) any)
  cases intersects : entries.any id with
  | false =>
    rw [intersects] at test
    have runs : Yields (executeAll setting (Page.call setting (depth + 1)) inner
        (reporting value setting.runtimeGlobal)) entered .normal looked :=
      (yields_ifThen_not test rfl).then yields_nil
    exact ⟨_, yields_call function (by rw [frame_reporting]; exact runs), kept, rfl, rfl,
      (List.append_nil _).symm⟩
  | true =>
    rw [intersects] at test
    have shown : Yields (execute setting (Page.call setting (depth + 1)) inner
        (Code.guardedRuntimeCall setting.runtimeGlobal "show" value.expression)) looked .normal
        (looked.doing (if page.hasRuntime = true then
          [.report "show" (.own (setting.worth environment.render page.moment value.expression))]
          else [])) :=
      yields_guardedRuntimeCall (still.provided _ (by simp)) (.inl rfl)
    let reported := looked.doing (if page.hasRuntime = true then
      [.report "show" (.own (setting.worth environment.render page.moment value.expression))]
      else [])
    have disconnected : Yields (execute setting (Page.call setting (depth + 1)) inner
        (Code.perform (Code.methodCall (Code.reference observerName) "disconnect" []))) reported
        .normal (reported.doing [.disconnect observer]) :=
      have found : reported.find? observerName inner.frames = some (some (.object observer)) :=
        (still.doing _).finds (List.mem_cons_of_mem _ List.mem_cons_self)
      yields_performed (yields_methodCall (yields_reference found) .nil
        (yields_disconnect (kept.cells List.not_mem_nil constructed)))
    have runs : Yields (executeAll setting (Page.call setting (depth + 1)) inner
        (reporting value setting.runtimeGlobal)) entered .normal
        (reported.doing [.disconnect observer]) :=
      Yields.then (yields_ifThen test rfl (shown.then (disconnected.then yields_nil))) yields_nil
    exact ⟨_, yields_call function (by rw [frame_reporting]; exact runs),
      kept.trans ((Keeps.doing _).trans (Keeps.doing _)), rfl, rfl, List.append_assoc _ _ _⟩

end

end JsxTracking.Page
