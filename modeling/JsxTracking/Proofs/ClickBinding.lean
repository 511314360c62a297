import JsxTracking.Proofs.Commits

/-! # Clicks are bound once

A component with the hooks of a click marker goes through commits, with an element or without one,
and through whatever else happens on a page. Between two events the memoized listener is bound to the
element of the last commit and to nothing else, so a click on that element is reported exactly once
while the runtime is there. -/

namespace JsxTracking.Page.Clicking

open Hooks Hooks.Click

variable {setting : Setting} {handle : ElementHandle} {value : MarkerValue}
  {page before middle after : Page} {call : Caller} {node? : Option Nat}

/-! ## The listener and the effect -/

/-- What the listener does. -/
def heard (value : MarkerValue) (runtimeGlobal : String) : List Tree :=
  [Code.guardedRuntimeCall runtimeGlobal "click" value.expression]

theorem listener_eq (runtimeGlobal : String) :
    listener handle value runtimeGlobal =
      Code.constant handle.clickCallback (Code.call (Code.reference HookNames.useCallback)
        [Code.arrowTo [] (Code.block (heard value runtimeGlobal)),
          Code.array (dependencies value)]) := rfl

/-- What cleans up after the effect. -/
def unbinding (handle : ElementHandle) : List Tree :=
  [listenerCall "removeEventListener" handle.clickCallback]

/-- What the effect does after every commit. -/
def bindingBody (handle : ElementHandle) : List Tree :=
  [Visibility.readCurrent elementName handle.name,
    Code.ifThen (Code.unary "!" (Code.reference elementName)) [Code.returnNothing],
    listenerCall "removeEventListener" handle.clickCallback,
    listenerCall "addEventListener" handle.clickCallback,
    Code.returnValue (Code.arrowTo [] (Code.block (unbinding handle)))]

theorem binding_eq :
    binding handle = Code.perform (Code.call (Code.reference HookNames.useEffect)
      [Code.arrowTo [] (Code.block (bindingBody handle))]) := rfl

/-- A page has a listener that reports clicks. It was made in a render in which its dependencies were
worth what is given. -/
def IsListener (setting : Setting) (value : MarkerValue) (page : Page) (callback : Nat)
    (current : List Value) : Prop :=
  ∃ environment moment, page.cells[callback]? = some
      (.function [] (Code.block (heard value setting.runtimeGlobal)) environment) ∧
    Sees page environment [] ∧
    values setting environment.render moment (dependencies value) = current

theorem IsListener.keeps {changed : List Nat} {callback : Nat} {current : List Value}
    (listener : IsListener setting value before callback current) (keeps : Keeps changed before after)
    (references : ∀ holder ∈ changed, ∃ held, Holds before holder held) :
    IsListener setting value after callback current := by
  obtain ⟨environment, moment, function, sees, worth⟩ := listener
  exact ⟨environment, moment,
    keeps.cells (not_mem_of_cells references function (by simp)) function, sees.keeps keeps, worth⟩

/-- What cleans up after the last run of the effect: nothing if there was no element, or a function
that releases the listener from the element. -/
inductive Releases (handle : ElementHandle) (page : Page) (callback : Nat) :
    Option Nat → Value → Prop where
  | nothing : Releases handle page callback none .undefined
  | listener {node cleanup : Nat} {environment : Environment}
      (function : page.cells[cleanup]? =
        some (.function [] (Code.block (unbinding handle)) environment))
      (sees : Sees page environment
        [(elementName, .element node), (handle.clickCallback, .object callback)]) :
      Releases handle page callback (some node) (.object cleanup)

theorem Releases.keeps {changed : List Nat} {callback : Nat} {cleanup : Value}
    (releases : Releases handle before callback node? cleanup) (keeps : Keeps changed before after)
    (references : ∀ holder ∈ changed, ∃ held, Holds before holder held) :
    Releases handle after callback node? cleanup := by
  cases releases with
  | nothing => exact .nothing
  | listener function sees =>
    exact .listener (keeps.cells (not_mem_of_cells references function (by simp)) function)
      (sees.keeps keeps)

section

variable {environment : Environment} {node callback : Nat}

/-- A call of a method with the listener. -/
theorem yields_arguments {known : List (String × Value)} (sees : Sees page environment known)
    (listens : (handle.clickCallback, .object callback) ∈ known) :
    YieldsAll setting call environment [Code.string "click", Code.reference handle.clickCallback] page
      [.text "click", .object callback] page :=
  .two yields_string (yields_reference (sees.finds listens))

theorem yields_remove {known : List (String × Value)} (sees : Sees page environment known)
    (element : (elementName, .element node) ∈ known)
    (listens : (handle.clickCallback, .object callback) ∈ known) :
    Yields (execute setting call environment
        (listenerCall "removeEventListener" handle.clickCallback)) page .normal
      (page.doing [.unlisten node "click" (.object callback)]) :=
  yields_performed (yields_elementCall (yields_reference (sees.finds element))
    (yields_arguments sees listens) yields_unlisten)

theorem yields_add {known : List (String × Value)} (sees : Sees page environment known)
    (element : (elementName, .element node) ∈ known)
    (listens : (handle.clickCallback, .object callback) ∈ known) :
    Yields (execute setting call environment
        (listenerCall "addEventListener" handle.clickCallback)) page .normal
      (page.doing [.listen node "click" (.object callback)]) :=
  yields_performed (yields_elementCall (yields_reference (sees.finds element))
    (yields_arguments sees listens) yields_listen)

end

/-- What is done to the browser when the listener is bound. -/
def bound (callback : Nat) : Option Nat → List Deed
  | none => []
  | some node =>
    [.unlisten node "click" (.object callback), .listen node "click" (.object callback)]

/-- What is done to the browser when the listener is released. -/
def released (callback : Nat) : Option Nat → List Deed
  | none => []
  | some node => [.unlisten node "click" (.object callback)]

/-- The effect binds the listener to the element, if there is one. -/
theorem exists_bindingBody (call : Caller) {render elementHolder callback : Nat} {outer : List Nat}
    {known : List (String × Value)} (sees : Sees page ⟨render, outer⟩ known)
    (element : (handle.name, .object elementHolder) ∈ known)
    (listens : (handle.clickCallback, .object callback) ∈ known)
    (attached : Holds page elementHolder (elementValue node?)) :
    ∃ completion after, Yields (executeAll setting call ⟨render, page.frames.length :: outer⟩
          (bindingBody handle)) (page.inside [(elementName, none)]) completion after ∧
      Keeps [] page after ∧ after.attached? = page.attached? ∧
      Releases handle after callback node? completion.result ∧
      after.trace = page.trace ++ bound callback node? := by
  have hidden {name : String} (own : name ∈ handle.ownNames) (element? : Option Value) :
      List.lookup name [(elementName, element?)] = none :=
    lookup_constants own (by simp only [List.forall_mem_cons]; decide +revert)
  let environment : Environment := ⟨render, page.frames.length :: outer⟩
  let entered := page.inside [(elementName, some (elementValue node?))]
  have read : Yields (execute setting call environment
        (Visibility.readCurrent elementName handle.name))
      (page.inside [(elementName, none)]) .normal entered :=
    yields_readCurrent (hidden handle.name_mem_ownNames _) rfl sees element attached
  have found : Yields (evaluate setting call environment (Code.reference elementName)) entered
      (elementValue node?) entered := yields_reference (find?_inner rfl)
  cases node? with
  | none =>
    exact ⟨_, _, read.then (Yields.returns (yields_ifThen (yields_not found rfl) rfl
      (Yields.returns yields_returnNothing))), Keeps.inside _, rfl, .nothing,
      (List.append_nil _).symm⟩
  | some node =>
    let removed := entered.doing [.unlisten node "click" (.object callback)]
    let added := removed.doing [.listen node "click" (.object callback)]
    let after := added.making [.function [] (Code.block (unbinding handle)) environment]
    have seen : Sees entered environment
        [(elementName, .element node), (handle.clickCallback, .object callback)] := by
      have fewer : Sees page ⟨render, outer⟩ [(handle.clickCallback, .object callback)] :=
        sees.mono (by simpa using listens)
      refine (fewer.enter fun name among => ?_).add (find?_inner rfl)
      rcases (by simpa using among : name = "window" ∨ name = "IntersectionObserver" ∨
        name = handle.clickCallback) with rfl | rfl | rfl
      · rfl
      · rfl
      · exact hidden handle.clickCallback_mem_ownNames _
    have removes : Yields (execute setting call environment
        (listenerCall "removeEventListener" handle.clickCallback)) entered .normal removed :=
      yields_remove seen (by simp) (by simp)
    have adds : Yields (execute setting call environment
        (listenerCall "addEventListener" handle.clickCallback)) removed .normal added :=
      yields_add (seen.doing _) (by simp) (by simp)
    have returns : Yields (execute setting call environment
        (Code.returnValue (Code.arrowTo [] (Code.block (unbinding handle))))) added
        (.returned (.object added.cells.length)) after := yields_returnValue yields_arrowTo
    have released : Sees after environment
        [(elementName, .element node), (handle.clickCallback, .object callback)] :=
      ((seen.doing _).doing _).keeps (Keeps.making _ : Keeps [] added _)
    exact ⟨_, _, read.then ((yields_ifThen_not (yields_not found rfl) rfl).then
        (removes.then (adds.then (Yields.returns returns)))),
      (Keeps.inside _).trans ((Keeps.doing _).trans ((Keeps.doing _).trans (Keeps.making _))), rfl,
      .listener List.getElem?_concat_length released, List.append_assoc _ _ _⟩

/-- What cleans up after the effect releases the listener. -/
theorem exists_dispose (setting : Setting) (depth : Nat) {callback : Nat} {cleanup : Value}
    (releases : Releases handle page callback node? cleanup) :
    ∃ after, Yields (dispose (Page.call setting (depth + 1)) cleanup) page ⟨⟩ after ∧
      Keeps [] page after ∧ after.attached? = page.attached? ∧ after.hooks = page.hooks ∧
      after.trace = page.trace ++ released callback node? := by
  cases releases with
  | nothing => exact ⟨page, yields_pure, .of_same rfl rfl, rfl, rfl, (List.append_nil _).symm⟩
  | @listener node cleanup environment function sees =>
    let entered := page.inside []
    let inner : Environment :=
      { environment with frames := page.frames.length :: environment.frames }
    have seen : Sees entered inner
        [(elementName, .element node), (handle.clickCallback, .object callback)] :=
      sees.enter (by simp)
    have removes : Yields (execute setting (Page.call setting depth) inner
        (listenerCall "removeEventListener" handle.clickCallback)) entered .normal
        (entered.doing [.unlisten node "click" (.object callback)]) :=
      yields_remove seen (by simp) (by simp)
    have called : Yields (Page.call setting (depth + 1) (.object cleanup) []) page .undefined
        (entered.doing [.unlisten node "click" (.object callback)]) :=
      yields_call function (removes.then yields_nil)
    exact ⟨_, called.bind yields_pure, (Keeps.inside _).trans (Keeps.doing _), rfl, rfl, rfl⟩

/-- A call of the listener reports a click if the runtime is there. -/
theorem exists_heard (setting : Setting) (depth : Nat) {callback : Nat} {current : List Value}
    (listener : IsListener setting value page callback current) :
    ∃ after render moment,
      Yields (Page.call setting (depth + 1) (.object callback) []) page .undefined after ∧
      Keeps [] page after ∧ after.attached? = page.attached? ∧ after.hooks = page.hooks ∧
      values setting render moment (dependencies value) = current ∧
      after.trace = page.trace ++ if page.hasRuntime = true then
        [.report "click" (.own (setting.worth render page.moment value.expression))] else [] := by
  obtain ⟨environment, moment, function, sees, worth⟩ := listener
  let entered := page.inside []
  let inner : Environment :=
    { environment with frames := page.frames.length :: environment.frames }
  have seen : Sees entered inner [] := sees.enter (by simp)
  have reports : Yields (execute setting (Page.call setting depth) inner
      (Code.guardedRuntimeCall setting.runtimeGlobal "click" value.expression)) entered .normal
      (entered.doing (if page.hasRuntime = true then
        [.report "click" (.own (setting.worth environment.render page.moment value.expression))]
        else [])) :=
    yields_guardedRuntimeCall (seen.provided _ (by simp)) (.inr rfl)
  exact ⟨_, environment.render, moment, yields_call function (reports.then yields_nil),
    (Keeps.inside _).trans (Keeps.doing _), rfl, rfl, worth, rfl⟩

/-! ## The state of the page -/

/-- The listeners that are bound: the memoized one, to the element of the last commit. -/
def bindings (node? : Option Nat) (memo? : Option (Nat × List Value)) :
    List (Nat × String × Value) :=
  match node?, memo? with
  | some node, some (callback, _) => [(node, "click", .object callback)]
  | _, _ => []

/-- The hooks of the component between two events, with the listener that is memoized. -/
inductive Mounted (setting : Setting) (handle : ElementHandle) (value : MarkerValue) (page : Page) :
    Option Nat → Option (Nat × List Value) → Prop where
  | fresh (hooks : page.hooks = []) (attached : page.attached? = none) :
      Mounted setting handle value page none none
  | committed {elementHolder callback : Nat} {current : List Value} {cleanup : Value}
      {node? : Option Nat}
      (hooks : page.hooks = [.reference elementHolder, .memo (.object callback) current,
        .effect none none cleanup])
      (attached : page.attached? = some elementHolder)
      (element : Holds page elementHolder (elementValue node?))
      (listener : IsListener setting value page callback current)
      (releases : Releases handle page callback node? cleanup) :
      Mounted setting handle value page node? (some (callback, current))

theorem Mounted.keeps {memo? : Option (Nat × List Value)}
    (mounted : Mounted setting handle value before node? memo?)
    (keeps : Keeps [] before after) (hooks : after.hooks = before.hooks)
    (attached : after.attached? = before.attached?) :
    Mounted setting handle value after node? memo? := by
  cases mounted with
  | fresh none unattached => exact .fresh (hooks.trans none) (attached.trans unattached)
  | committed all holder element listener releases =>
    exact .committed (hooks.trans all) (attached.trans holder) (element.keeps keeps List.not_mem_nil)
      (listener.keeps keeps (by simp)) (releases.keeps keeps (by simp))

/-- A component with the hooks of a click marker. -/
def clicking (handle : ElementHandle) (value : MarkerValue) (runtimeGlobal : String) : Component :=
  ⟨handle, Hooks.declaration handle :: Hooks.click handle value runtimeGlobal⟩

theorem declared_clicking (runtimeGlobal : String) :
    declared (clicking handle value runtimeGlobal).statements =
      bodyFrame handle handle.clickCallback none none := rfl

/-- The listener after a render: the past one if its dependencies are the same, and otherwise a new
one. -/
def IsMemoized (page : Page) (memo? : Option (Nat × List Value)) (callback : Nat)
    (current : List Value) : Prop :=
  match memo? with
  | some (past, same) => if same = current then callback = past else page.cells.length ≤ callback
  | none => True

/-- What the last commit has left behind cleans up after it. -/
def Cleans (handle : ElementHandle) (page : Page) (node? : Option Nat)
    (memo? : Option (Nat × List Value)) (cleanup : Value) : Prop :=
  match memo? with
  | some (past, _) => Releases handle page past node? cleanup
  | none => cleanup = .undefined

/-- The page after a render. -/
structure Rendered (setting : Setting) (handle : ElementHandle) (value : MarkerValue)
    (node? : Option Nat) (memo? : Option (Nat × List Value)) (before after : Page)
    (environment : Environment) (callback : Nat) : Prop where
  trace : after.trace = before.trace
  memoized : IsMemoized before memo? callback
    (values setting before.renders before.moment (dependencies value))
  hooks : ∃ elementHolder effect cleanup, after.hooks = [.reference elementHolder,
      .memo (.object callback) (values setting before.renders before.moment (dependencies value)),
      .effect (some (.object effect)) none cleanup] ∧
    after.cells[effect]? = some (.function [] (Code.block (bindingBody handle)) environment) ∧
    Sees after environment
      [(handle.name, .object elementHolder), (handle.clickCallback, .object callback)] ∧
    (∃ held, Holds after elementHolder held) ∧
    IsListener setting value after callback
      (values setting before.renders before.moment (dependencies value)) ∧
    Cleans handle after node? memo? cleanup

/-- The hooks when the reference is declared. -/
inductive Pending (setting : Setting) (handle : ElementHandle) (value : MarkerValue)
    (node? : Option Nat) (page : Page) (elementHolder : Nat) : Option (Nat × List Value) → Prop where
  | first (hooks : page.hooks = [.reference elementHolder]) :
      Pending setting handle value node? page elementHolder none
  | again {callback : Nat} {same : List Value} {cleanup : Value}
      (hooks : page.hooks = [.reference elementHolder, .memo (.object callback) same,
        .effect none none cleanup])
      (listener : IsListener setting value page callback same)
      (releases : Releases handle page callback node? cleanup) :
      Pending setting handle value node? page elementHolder (some (callback, same))

section

variable {memo? : Option (Nat × List Value)}

/-- The reference is declared, whether it is there already or not. -/
theorem exists_declared (call : Caller) (mounted : Mounted setting handle value page node? memo?) :
    ∃ (first : Page) (elementHolder : Nat),
      Yields (execute setting call ⟨page.renders, [page.frames.length]⟩ (Hooks.declaration handle))
        (page.rendering.inside (bodyFrame handle handle.clickCallback none none)) .normal
        (first.inside (bodyFrame handle handle.clickCallback (some (.object elementHolder)) none)) ∧
      first.frames = page.frames ∧ first.trace = page.trace ∧ first.moment = page.moment ∧
      first.cursor = 1 ∧ page.cells.length ≤ first.cells.length ∧
      Pending setting handle value node? first elementHolder memo? ∧
      ∃ held, Holds first elementHolder held := by
  have own := handle.clickCallback_mem_ownNames
  let start := page.rendering
  cases mounted with
  | fresh hooks attached =>
    let first := (start.making [.record [("current", .null)]]).keeping
      (.reference start.cells.length)
    refine ⟨first, start.cells.length, yields_reference_first (own_bodyFrame own)
      lookup_bodyFrame_name (defined_bodyFrame_name name_ne.1) (by simp [rendering, hooks]), rfl, rfl,
      rfl, rfl, ?_, .first ?_, .null, ?_⟩
    · simp [first, start, rendering, making, keeping]
    · simp [first, start, rendering, making, keeping, hooks]
    · simp [Holds, first, making, keeping]
  | @committed elementHolder callback same cleanup _ hooks attached element listener releases =>
    let first := start.keeping (.reference elementHolder)
    have kept : Keeps [] page first := .of_same rfl rfl
    refine ⟨first, elementHolder, yields_reference_again (own_bodyFrame own) lookup_bodyFrame_name
      (defined_bodyFrame_name name_ne.1) (by simp [rendering, hooks]), rfl, rfl, rfl, rfl,
      Nat.le_refl _, .again ?_ (listener.keeps kept (by simp)) (releases.keeps kept (by simp)), _, element⟩
    simp [first, start, rendering, keeping, hooks]

/-- The listener that is memoized: the past one, or the one that is made now. -/
theorem Pending.exists_memoized {elementHolder : Nat}
    (pending : Pending setting handle value node? page elementHolder memo?) (current : List Value)
    (cursor : page.cursor = 1)
    (grown : before.cells.length ≤ page.cells.length) :
    ∃ callback, memoized page.hooks[page.cursor]? (.object page.cells.length) current =
        .object callback ∧
      IsMemoized before memo? callback current ∧
      (callback = page.cells.length ∨ IsListener setting value page callback current) := by
  cases pending with
  | first hooks =>
    exact ⟨page.cells.length, by simp [memoized, hooks, cursor], trivial, .inl rfl⟩
  | @again callback same cleanup hooks listener releases =>
    by_cases unchanged : same = current
    · exact ⟨callback, by simp [memoized, hooks, cursor, unchanged],
        by simp [IsMemoized, unchanged], .inr (unchanged ▸ listener)⟩
    · exact ⟨page.cells.length, by simp [memoized, hooks, cursor, unchanged],
        by simpa [IsMemoized, unchanged] using grown, .inl rfl⟩

theorem Pending.exists_cleanup {elementHolder : Nat}
    (pending : Pending setting handle value node? page elementHolder memo?) :
    ∃ cleanup, cleanupOf? page.hooks[2]? = some cleanup ∧
      Cleans handle page node? memo? cleanup := by
  cases pending with
  | first hooks => exact ⟨.undefined, by simp [hooks, cleanupOf?], rfl⟩
  | again hooks listener releases => exact ⟨_, by simp [hooks, cleanupOf?], releases⟩

/-- A render, whether it is the first or not. -/
theorem exists_render (depth : Nat) (mounted : Mounted setting handle value page node? memo?) :
    ∃ environment after callback,
      Yields (render setting depth (clicking handle value setting.runtimeGlobal)) page environment
        after ∧
      Rendered setting handle value node? memo? page after environment callback := by
  have own := handle.clickCallback_mem_ownNames
  obtain ⟨first, elementHolder, declares, frames, trace, moment, cursor, grown, pending, held,
    element⟩ := exists_declared (Page.call setting depth) mounted
  let environment : Environment := ⟨page.renders, [first.frames.length]⟩
  have same : environment = ⟨page.renders, [page.frames.length]⟩ := by
    simp only [environment, frames]
  let current := values setting page.renders first.moment (dependencies value)
  obtain ⟨callback, memoizes, isMemoized, source⟩ :=
    pending.exists_memoized current cursor grown
  obtain ⟨cleanup, cleans, releases⟩ := pending.exists_cleanup
  let objects := dependent setting first page.renders []
    (Code.block (heard value setting.runtimeGlobal)) (dependencies value)
  let second := (first.making objects).keeping (.memo (.object callback) current)
  let waiting := bodyFrame handle handle.clickCallback (some (.object elementHolder)) none
  let frame := bodyFrame handle handle.clickCallback (some (.object elementHolder))
    (some (.object callback))
  have listens : Yields (execute setting (Page.call setting depth) environment
      (listener handle value setting.runtimeGlobal)) (first.inside waiting) .normal
      (second.inside frame) := by
    have becomes : defined waiting handle.clickCallback
        (memoized first.hooks[first.cursor]? (.object first.cells.length) current) = frame := by
      rw [memoizes]
      exact defined_bodyFrame_other name_ne.1
    have past : first.hooks[first.cursor]? = none ∨
        ∃ callback same, first.hooks[first.cursor]? = some (.memo callback same) := by
      cases pending with
      | first hooks => simp [hooks, cursor]
      | again hooks => simp [hooks, cursor]
    have used : Yields (execute setting (Page.call setting depth) environment
        (listener handle value setting.runtimeGlobal)) (first.inside waiting) .normal
        (((first.making objects).keeping (.memo (memoized first.hooks[first.cursor]?
          (.object first.cells.length) current) current)).inside frame) := by
      rw [listener_eq]
      exact yields_callback (own_bodyFrame own) (lookup_bodyFrame_other name_ne.1) becomes past
    rwa [memoizes] at used
  let after := (second.making [.function [] (Code.block (bindingBody handle)) environment]).keeping
    (.effect (some (.object second.cells.length)) none cleanup)
  have binds : Yields (execute setting (Page.call setting depth) environment (binding handle))
      (second.inside frame) .normal (after.inside frame) := by
    rw [binding_eq]
    refine yields_effect (own_bodyFrame own) ?_
    rw [← cleans]
    cases pending with
    | first hooks => simp [second, making, keeping, hooks, cursor]
    | again hooks => simp [second, making, keeping, hooks, cursor]
  have runs : Yields (executeAll setting (Page.call setting depth) environment
      (clicking handle value setting.runtimeGlobal).statements)
      (page.rendering.inside (bodyFrame handle handle.clickCallback none none)) .normal
      (after.inside frame) :=
    Yields.then (same ▸ declares) (listens.then (binds.then yields_nil))
  have rendered : Yields (render setting depth (clicking handle value setting.runtimeGlobal)) page
      environment (after.inside frame) := by
    rw [same]
    exact yields_render (by rw [declared_clicking]; exact same ▸ runs)
  have kept : Keeps [] first (after.inside frame) :=
    (Keeps.making _).trans ((Keeps.keeping _).trans
      ((Keeps.making _).trans ((Keeps.keeping _).trans (Keeps.inside _))))
  have sees : Sees (after.inside frame) environment
      [(handle.name, .object elementHolder), (handle.clickCallback, .object callback)] := by
    refine sees_body (own_bodyFrame own) fun among => ?_
    rcases List.mem_pair.mp among with same | same <;> obtain ⟨rfl, rfl⟩ := Prod.mk.inj same
    · exact lookup_bodyFrame_name
    · exact lookup_bodyFrame_other name_ne.1
  have isListener : IsListener setting value (after.inside frame) callback current := by
    rcases source with rfl | listener
    · exact ⟨environment, first.moment,
        by simp [inside, after, second, making, keeping, objects, dependent, environment],
        sees.mono (List.nil_subset _), rfl⟩
    · exact listener.keeps kept (by simp)
  have worth : current = values setting page.renders page.moment (dependencies value) := by
    simp only [current, moment]
  refine ⟨environment, after.inside frame, callback, rendered, trace, worth ▸ isMemoized,
    elementHolder, second.cells.length, cleanup, ?_, ?_, sees, ⟨held, element.keeps kept List.not_mem_nil⟩,
    worth ▸ isListener, ?_⟩
  · rw [← worth]
    cases pending with
    | first hooks => simp [inside, after, second, making, keeping, hooks, cursor]
    | again hooks => simp [inside, after, second, making, keeping, hooks, cursor]
  · simp [inside, after, making, keeping]
  · cases pending with
    | first hooks => exact releases
    | again hooks listener past => exact releases.keeps kept (by simp)

/-- What is done to the browser in a commit: the listener of the last commit is released, and the one
that is memoized now is bound. -/
def commitDeeds (node? next? : Option Nat) (memo? : Option (Nat × List Value)) (callback : Nat) :
    List Deed :=
  (memo?.elim [] fun memo => released memo.1 node?) ++ bound callback next?

theorem exists_commit (depth : Nat) (next? : Option Nat)
    (before : Mounted setting handle value page node? memo?) :
    ∃ after callback, Yields (commit setting (depth + 1)
          (clicking handle value setting.runtimeGlobal) next?) page ⟨⟩ after ∧
      Mounted setting handle value after next?
        (some (callback, values setting page.renders page.moment (dependencies value))) ∧
      IsMemoized page memo? callback (values setting page.renders page.moment (dependencies value)) ∧
      after.trace = page.trace ++ commitDeeds node? next? memo? callback := by
  obtain ⟨environment, rendered, callback, renders, ⟨unchanged, memoized, elementHolder, effect,
    cleanup, hooks, function, sees, ⟨_, element⟩, listener, releases⟩⟩ :=
    exists_render (depth + 1) before
  let attached := rendered.attaching elementHolder next?
  have attaches : Yields (attach setting (clicking handle value setting.runtimeGlobal) environment
      next?) rendered ⟨⟩ attached :=
    yields_attach sees List.mem_cons_self element
  have kept : Keeps [elementHolder] rendered attached := attaching_keeps
  have references := element.references
  have put : Holds attached elementHolder (elementValue next?) := Holds.put element
  -- The last run of the effect is cleaned up after.
  obtain ⟨cleaned, disposes, keptCleaning, sameAttached, sameHooks, released⟩ :
      ∃ cleaned, Yields (dispose (Page.call setting (depth + 1)) cleanup) attached ⟨⟩ cleaned ∧
        Keeps [] attached cleaned ∧ cleaned.attached? = attached.attached? ∧
        cleaned.hooks = attached.hooks ∧
        cleaned.trace = attached.trace ++ memo?.elim [] fun memo => released memo.1 node? := by
    cases memo? with
    | none =>
      obtain rfl : cleanup = .undefined := releases
      exact ⟨attached, yields_pure, .of_same rfl rfl, rfl, rfl, (List.append_nil _).symm⟩
    | some memo => exact exists_dispose setting depth (Releases.keeps releases kept references)
  have cleans : Yields (cleanUpDue (Page.call setting (depth + 1)) attached.hooks) attached ⟨⟩
      cleaned := by
    change Yields (cleanUpDue _ rendered.hooks) _ _ _
    rw [hooks]
    exact yields_cleanUpDue_other rfl (yields_cleanUpDue_other rfl
      (yields_cleanUpDue disposes yields_pure))
  -- The effect runs.
  have keptBoth : Keeps [elementHolder] rendered cleaned :=
    kept.trans ⟨keptCleaning.frames, fun _ has => keptCleaning.cells List.not_mem_nil has⟩
  obtain ⟨completion, settled, body, keptBinding, sameSettled, releases, bound⟩ :=
    exists_bindingBody (Page.call setting depth) (sees.keeps keptBoth) List.mem_cons_self
      (List.mem_cons_of_mem _ List.mem_cons_self) (put.keeps keptCleaning List.not_mem_nil)
  have runs : Yields (Page.call setting (depth + 1) (.object effect) []) cleaned completion.result
      settled :=
    yields_call (keptBoth.cells (not_mem_of_cells references function (by simp)) function) body
  let current := values setting page.renders page.moment (dependencies value)
  let after := { settled with
    hooks := [.reference elementHolder, .memo (.object callback) current,
      .effect none none completion.result] }
  have due : Yields (runDue (Page.call setting (depth + 1)) attached.hooks) cleaned after.hooks
      settled := by
    change Yields (runDue _ rendered.hooks) _ _ _
    rw [hooks]
    exact yields_runDue_other rfl (yields_runDue_other rfl (yields_runDue runs yields_pure))
  have last : Keeps [] settled after := .of_same rfl rfl
  have keptAll : Keeps [] attached after := keptCleaning.trans (keptBinding.trans last)
  refine ⟨after, callback, yields_commit renders attaches cleans due,
    .committed rfl (sameSettled.trans sameAttached) (put.keeps keptAll List.not_mem_nil)
      ((listener.keeps kept references).keeps keptAll (by simp)) (releases.keeps last (by simp)),
    memoized, ?_⟩
  calc after.trace = cleaned.trace ++ Clicking.bound callback next? := bound
    _ = rendered.trace ++ (memo?.elim [] fun memo => Clicking.released memo.1 node?) ++
        Clicking.bound callback next? := by rw [released]; rfl
    _ = page.trace ++ commitDeeds node? next? memo? callback := by
      rw [unchanged, commitDeeds, List.append_assoc]

/-- The component is taken off the page. -/
theorem exists_unmount (setting : Setting) (depth : Nat)
    (mounted : Mounted setting handle value page node? memo?) :
    ∃ after, Yields (unmount setting (depth + 1)) page ⟨⟩ after ∧
      after.trace = page.trace ++ memo?.elim [] fun memo => released memo.1 node? := by
  cases mounted with
  | fresh hooks attached =>
    exact ⟨page, yields_unmount_fresh hooks attached, (List.append_nil _).symm⟩
  | @committed elementHolder callback current cleanup _ hooks attached element listener releases =>
    have kept : Keeps [elementHolder] page (page.putting elementHolder .null) :=
      Keeps.put List.mem_cons_self
    have references := element.references
    obtain ⟨cleaned, disposes, _, _, _, trace⟩ :=
      exists_dispose setting depth (releases.keeps kept references)
    have cleans : Yields (cleanUpAll (Page.call setting (depth + 1)) page.hooks)
        (page.putting elementHolder .null) ⟨⟩ cleaned := by
      rw [hooks]
      exact disposes.bind yields_pure
    exact ⟨_, yields_unmount attached element cleans, trace⟩

end

/-! ## What is bound -/

section

variable {memo? : Option (Nat × List Value)} {trace : List Deed} {callback : Nat}

theorem listeners_released (binds : listeners trace = bindings node? memo?) :
    listeners (trace ++ memo?.elim [] fun memo => released memo.1 node?) = [] := by
  match node?, memo? with
  | none, none | some _, none | none, some _ => simpa [released, bindings] using binds
  | some node, some (past, _) =>
    have left : listeners (trace ++ [.unlisten node "click" (.object past)]) =
        (listeners trace).filter fun listener => listener ≠ (node, "click", .object past) := by
      simp [listeners]
    change listeners (trace ++ [.unlisten node "click" (.object past)]) = []
    rw [left, binds]
    simp [bindings]

theorem listeners_bound {next? : Option Nat} {current : List Value} (nothing : listeners trace = []) :
    listeners (trace ++ bound callback next?) = bindings next? (some (callback, current)) := by
  cases next? with
  | none => simpa [bound, bindings] using nothing
  | some node =>
    have binds : listeners (trace ++ bound callback (some node)) =
        (bound callback (some node)).foldl _ (listeners trace) := List.foldl_append
    rw [binds, nothing]
    rfl

theorem listeners_commit {next? : Option Nat} {current : List Value}
    (binds : listeners trace = bindings node? memo?) :
    listeners (trace ++ commitDeeds node? next? memo? callback) =
      bindings next? (some (callback, current)) := by
  rw [commitDeeds, ← List.append_assoc]
  exact listeners_bound (listeners_released binds)

theorem watched_commit {next? : Option Nat} :
    watched (trace ++ commitDeeds node? next? memo? callback) = watched trace := by
  rw [watched, List.foldl_append, ← watched]
  cases memo? <;> cases node? <;> cases next? <;> rfl

/-- The page between two events. -/
def Settled (setting : Setting) (handle : ElementHandle) (value : MarkerValue) (node? : Option Nat)
    (page : Page) : Prop :=
  ∃ memo?, Mounted setting handle value page node? memo? ∧
    listeners page.trace = bindings node? memo? ∧ watched page.trace = []

end

/-! ## Runs -/

theorem Mounted.tick {memo? : Option (Nat × List Value)}
    (mounted : Mounted setting handle value page node? memo?) :
    Mounted setting handle value page.ticking node? memo? :=
  mounted.keeps (.of_same rfl rfl) rfl rfl

/-- A click is heard by the listener that is bound to the element, and by nothing else. -/
theorem exists_click (depth : Nat) (node : Nat) (settled : Settled setting handle value node? page) :
    ∃ after render, Yields (click setting (depth + 1) node) page ⟨⟩ after ∧
      Settled setting handle value node? after ∧
      (after.trace = page.trace ++ if node? = some node ∧ page.hasRuntime = true then
        [.report "click" (.own (setting.worth render page.moment value.expression))] else []) ∧
      (node? = some node → ∃ callback moment, page.hooks[1]? =
        some (.memo callback (values setting render moment (dependencies value)))) := by
  obtain ⟨memo?, mounted, binds, unwatched⟩ := settled
  by_cases current : node? = some node
  · subst current
    cases mounted with
    | @committed elementHolder callback same cleanup _ hooks attached element listener releases =>
      obtain ⟨after, render, moment, called, kept, sameAttached, sameHooks, worth, trace⟩ :=
        exists_heard setting depth listener
      have all : Mounted setting handle value page (some node) (some (callback, same)) :=
        .committed hooks attached element listener releases
      refine ⟨after, render, ?_, ⟨_, all.keeps kept sameHooks sameAttached, ?_, ?_⟩, ?_, fun _ =>
        ⟨.object callback, moment, by simp [hooks, worth]⟩⟩
      · refine yields_get.bind ?_
        rw [binds]
        have one : (bindings (some node) (some (callback, same))).filter
            (fun listener => listener.1 = node ∧ listener.2.1 = "click") =
            [(node, "click", .object callback)] := by simp [bindings]
        rw [one]
        exact called.bind yields_pure
      · rw [trace, ← binds]
        split <;> simp [listeners]
      · rw [trace, ← unwatched]
        split <;> simp [watched]
      · simpa using trace
  · refine ⟨page, 0, ?_, ⟨memo?, mounted, binds, unwatched⟩, by simp [current],
      fun same => absurd same current⟩
    refine yields_get.bind ?_
    have nobody : (listeners page.trace).filter
        (fun listener => listener.1 = node ∧ listener.2.1 = "click") = [] := by
      rw [binds]
      match node?, memo? with
      | none, none | none, some _ | some _, none => rfl
      | some other, some _ =>
        have apart : other ≠ node := fun same => current (congrArg some same)
        simp [bindings, apart]
    rw [nobody]
    exact yields_pure

/-- The second hook of the component memoizes the listener. -/
theorem Mounted.hook {callback : Nat} {current : List Value}
    (mounted : Mounted setting handle value page node? (some (callback, current))) :
    page.hooks[1]? = some (.memo (.object callback) current) := by
  cases mounted with
  | committed hooks => simp [hooks]

theorem Mounted.exists_memo {memo? : Option (Nat × List Value)} {node : Nat}
    (mounted : Mounted setting handle value page (some node) memo?) :
    ∃ callback current, memo? = some (callback, current) := by
  cases mounted with
  | committed => exact ⟨_, _, rfl⟩

theorem Mounted.of_hook {memo? : Option (Nat × List Value)} {past : Value} {same : List Value}
    (mounted : Mounted setting handle value page node? memo?)
    (hook : page.hooks[1]? = some (.memo past same)) :
    ∃ callback, past = .object callback ∧ memo? = some (callback, same) ∧
      callback < page.cells.length := by
  cases mounted with
  | fresh hooks => simp [hooks] at hook
  | @committed _ callback current _ _ hooks _ _ listener _ =>
    obtain ⟨rfl, rfl⟩ : .object callback = past ∧ current = same := by simpa [hooks] using hook
    obtain ⟨_, _, function, _⟩ := listener
    exact ⟨callback, rfl, rfl, (List.getElem?_eq_some_iff.mp function).1⟩

/-- A commit binds the memoized listener, which is a new one exactly when its dependencies have
changed. -/
theorem exists_step_commit (depth : Nat) (next? : Option Nat)
    (settled : Settled setting handle value node? page) :
    ∃ after callback, Yields (step setting (depth + 1)
          (clicking handle value setting.runtimeGlobal) (.commit next?)) page ⟨⟩ after ∧
      Settled setting handle value next? after ∧
      after.hooks[1]? = some (.memo (.object callback)
        (values setting page.renders (page.moment + 1) (dependencies value))) ∧
      listeners after.trace = (next?.map fun node => (node, "click", .object callback)).toList ∧
      ∀ past same, page.hooks[1]? = some (.memo past same) →
        (.object callback = past ↔
          same = values setting page.renders (page.moment + 1) (dependencies value)) := by
  obtain ⟨memo?, mounted, binds, unwatched⟩ := settled
  obtain ⟨after, callback, commits, remounted, memoized, trace⟩ :=
    exists_commit depth next? mounted.tick
  let current := values setting page.renders (page.moment + 1) (dependencies value)
  have rebound : listeners after.trace = bindings next? (some (callback, current)) := by
    rw [trace]
    exact listeners_commit binds
  refine ⟨after, callback, yields_step_commit commits, ⟨_, remounted, rebound, ?_⟩, remounted.hook,
    ?_, ?_⟩
  · rw [trace, watched_commit]
    exact unwatched
  · rw [rebound]
    cases next? <;> rfl
  · intro past same hook
    obtain ⟨last, rfl, rfl, there⟩ := mounted.of_hook hook
    change if same = current then callback = last else page.cells.length ≤ callback at memoized
    by_cases unchanged : same = current
    · rw [if_pos unchanged] at memoized
      exact ⟨fun _ => unchanged, fun _ => congrArg Value.object memoized⟩
    · rw [if_neg unchanged] at memoized
      refine ⟨fun kept => ?_, fun kept => absurd kept unchanged⟩
      have again : callback = last := Value.object.inj kept
      omega

theorem exists_step (depth : Nat) (node? : Option Nat) (event : Event)
    (settled : Settled setting handle value node? page) :
    ∃ after, Yields (step setting (depth + 1) (clicking handle value setting.runtimeGlobal) event)
        page ⟨⟩ after ∧
      Settled setting handle value (nodeAfter node? event) after := by
  cases event with
  | commit next? =>
    obtain ⟨after, _, stepped, resettled, _⟩ := exists_step_commit depth next? settled
    exact ⟨after, stepped, resettled⟩
  | intersect observer entries =>
    obtain ⟨memo?, mounted, binds, unwatched⟩ := settled
    have ignored : Yields (intersect setting (depth + 1) observer entries) page.ticking ⟨⟩
        page.ticking := by
      refine yields_get.bind ?_
      rw [if_neg]
      · exact yields_pure
      · change observer ∉ (watched page.trace).map Prod.fst
        simp [unwatched]
    exact ⟨_, yields_step_intersect ignored, memo?, mounted.tick, binds, unwatched⟩
  | click node =>
    obtain ⟨memo?, mounted, binds, unwatched⟩ := settled
    have ticked : Settled setting handle value node? page.ticking :=
      ⟨memo?, mounted.tick, binds, unwatched⟩
    obtain ⟨after, _, clicked, resettled, _⟩ := exists_click depth node ticked
    exact ⟨after, yields_step_click clicked, resettled⟩
  | runtime present =>
    obtain ⟨memo?, mounted, binds, unwatched⟩ := settled
    exact ⟨_, yields_step_runtime, memo?, mounted.keeps (.of_same rfl rfl) rfl rfl, binds, unwatched⟩

theorem exists_run_clicking (setting : Setting) (handle : ElementHandle) (value : MarkerValue)
    (depth : Nat) (events : List Event) :
    ∃ page, Yields (stepAll setting (depth + 1) (clicking handle value setting.runtimeGlobal) events)
        {} ⟨⟩ page ∧
      Settled setting handle value (currentNode events) page :=
  exists_stepAll (fun event _ node? _ settled => exists_step depth node? event settled)
    ⟨none, .fresh rfl rfl, rfl, rfl⟩

/-- **A click is reported once.** A component with the hooks of a click marker never throws, whatever
happens to its page. Between two events exactly one listener is bound, to the element of the last
commit, and none if that commit had no element. It is the one that is memoized: a commit keeps it as
long as what it depends on is worth the same, and binds a new one otherwise. A click on the element is
reported exactly once if the runtime is there, with the name as of a render in which the dependencies
were worth what they are worth now; a click on another element is not reported. When the component is
gone, nothing is bound. -/
theorem clicks_bound (setting : Setting) (handle : ElementHandle) (value : MarkerValue) (depth : Nat)
    (events : List Event) :
    let component := clicking handle value setting.runtimeGlobal
    ∃ page, run setting (depth + 1) component events = .ok page ∧
      (∀ node, currentNode events = some node → ∃ callback current,
        page.hooks[1]? = some (.memo callback current) ∧
        listeners page.trace = [(node, "click", callback)]) ∧
      (currentNode events = none → listeners page.trace = []) ∧
      (∀ node?, ∃ next callback,
        run setting (depth + 1) component (events ++ [.commit node?]) = .ok next ∧
        next.hooks[1]? = some (.memo callback
          (values setting page.renders (page.moment + 1) (dependencies value))) ∧
        listeners next.trace = (node?.map fun node => (node, "click", callback)).toList ∧
        ∀ past same, page.hooks[1]? = some (.memo past same) →
          (callback = past ↔
            same = values setting page.renders (page.moment + 1) (dependencies value))) ∧
      (∀ node, ∃ clicked render,
        run setting (depth + 1) component (events ++ [.click node]) = .ok clicked ∧
        (clicked.trace = page.trace ++
          if currentNode events = some node ∧ page.hasRuntime = true then
            [.report "click" (.own (setting.worth render (page.moment + 1) value.expression))]
          else []) ∧
        (currentNode events = some node → ∃ callback moment, page.hooks[1]? =
          some (.memo callback (values setting render moment (dependencies value))))) ∧
      ∃ last, runToEnd setting (depth + 1) component events = .ok last ∧
        listeners last.trace = [] := by
  intro component
  obtain ⟨page, ran, settled⟩ := exists_run_clicking setting handle value depth events
  obtain ⟨memo?, mounted, binds, unwatched⟩ := id settled
  have further {event : Event} {after : Page}
      (stepped : Yields (step setting (depth + 1) component event) page ⟨⟩ after) :
      run setting (depth + 1) component (events ++ [event]) = .ok after :=
    run_of_yields (stepAll_append ▸ ran.bind (stepped.bind yields_pure))
  refine ⟨page, run_of_yields ran, ?_, ?_, ?_, ?_, ?_⟩
  · intro node same
    rw [same] at mounted binds
    obtain ⟨callback, current, rfl⟩ := mounted.exists_memo
    exact ⟨.object callback, current, mounted.hook, binds⟩
  · intro nothing
    rw [binds, nothing]
    rfl
  · intro node?
    obtain ⟨next, callback, stepped, _, hook, bound, changes⟩ :=
      exists_step_commit depth node? settled
    exact ⟨next, .object callback, further stepped, hook, bound, changes⟩
  · intro node
    have ticked : Settled setting handle value (currentNode events) page.ticking :=
      ⟨memo?, mounted.tick, binds, unwatched⟩
    obtain ⟨clicked, render, hears, _, trace, memoized⟩ := exists_click depth node ticked
    exact ⟨clicked, render, further (yields_step_click hears), trace, memoized⟩
  · obtain ⟨last, unmounts, trace⟩ := exists_unmount setting depth mounted
    refine ⟨last, runToEnd_of_yields ran unmounts, ?_⟩
    rw [trace]
    exact listeners_released binds

end JsxTracking.Page.Clicking
