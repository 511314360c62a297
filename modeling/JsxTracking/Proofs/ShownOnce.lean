import JsxTracking.Proofs.Observers

/-! # Elements are shown once

A component with the hooks of a show marker goes through commits, with an element or without one,
and through whatever else happens on a page. At any time at most one element is watched, and it is
the element of the last commit. An element is shown once at most until another one takes its place,
and nothing is watched any longer when the component is gone. -/

namespace JsxTracking.Page

open Hooks Hooks.Visibility

variable {setting : Setting} {handle : ElementHandle} {value : MarkerValue}
  {page before middle after : Page} {tracked? : Option (Nat × Nat)} {node? : Option Nat}

/-! ## What is done to the browser -/

/-- No two elements are watched at any time. -/
def AtMostOne (trace : List Deed) : Prop :=
  ∀ past, past <+: trace → (watched past).length ≤ 1

/-- What is tracked is the only thing that may be watched, and nothing else ever was watched with
it. -/
structure Calm (trace : List Deed) (tracked? : Option (Nat × Nat)) : Prop where
  watched : watched trace = [] ∨ watched trace = tracked?.toList
  once : AtMostOne trace
  quiet : listeners trace = []

theorem AtMostOne.append {trace : List Deed} {deed : Deed} (once : AtMostOne trace)
    (le : (watched (trace ++ [deed])).length ≤ 1) : AtMostOne (trace ++ [deed]) := by
  intro past earlier
  rcases List.prefix_concat_iff.mp earlier with rfl | earlier
  · exact le
  · exact once past earlier

namespace Calm

variable {trace : List Deed} {observer fresh node : Nat}

theorem length_le (calm : Calm trace tracked?) : (Page.watched trace).length ≤ 1 :=
  calm.once trace List.prefix_rfl

/-- A deed that binds no listener. -/
theorem append {deed : Deed} {next? : Option (Nat × Nat)} (calm : Calm trace tracked?)
    (watched : Page.watched (trace ++ [deed]) = [] ∨ Page.watched (trace ++ [deed]) = next?.toList)
    (quiet : listeners (trace ++ [deed]) = listeners trace) : Calm (trace ++ [deed]) next? := by
  refine ⟨watched, calm.once.append ?_, quiet.trans calm.quiet⟩
  rcases watched with same | same <;> rw [same]
  · exact Nat.zero_le 1
  · cases next? <;> simp

theorem create (calm : Calm trace tracked?) : Calm (trace ++ [.create observer]) tracked? :=
  calm.append (by simpa [Page.watched] using calm.watched) (by simp [listeners])

theorem report {method : String} {name : Value} (calm : Calm trace tracked?) :
    Calm (trace ++ [.report method name]) tracked? :=
  calm.append (by simpa [Page.watched] using calm.watched) (by simp [listeners])

/-- Disconnecting the tracked observer leaves nothing watched. -/
theorem watched_disconnect (calm : Calm trace (some (observer, node))) :
    Page.watched (trace ++ [.disconnect observer]) = [] := by
  have filtered : Page.watched (trace ++ [.disconnect observer]) =
      (Page.watched trace).filter fun pair => pair.1 ≠ observer := by
    simp [Page.watched]
  rcases calm.watched with none | one
  · rw [filtered, none, List.filter_nil]
  · rw [filtered, one]
    simp

theorem disconnect (calm : Calm trace (some (observer, node))) {next? : Option (Nat × Nat)} :
    Calm (trace ++ [.disconnect observer]) next? :=
  calm.append (.inl calm.watched_disconnect) (by simp [listeners])

/-- An element that is observed is the only one if nothing was watched. -/
theorem watched_observe (none : Page.watched trace = []) :
    Page.watched (trace ++ [.observe observer node]) = [(observer, node)] := by
  have step : Page.watched (trace ++ [.observe observer node]) =
      if (observer, node) ∈ Page.watched trace then Page.watched trace
      else Page.watched trace ++ [(observer, node)] := by
    simp [Page.watched]
  simp [step, none]

theorem release (calm : Calm trace tracked?) :
    Page.watched (trace ++ released tracked?) = [] ∧
      Calm (trace ++ released tracked?) none := by
  cases tracked? with
  | none =>
    have none : Page.watched trace = [] := by simpa using calm.watched
    rw [released, List.append_nil]
    exact ⟨none, calm⟩
  | some pair => exact ⟨calm.watched_disconnect, calm.disconnect⟩

theorem announce (calm : Calm trace none) {next? : Option (Nat × Nat)} :
    Page.watched (trace ++ announced next?) = next?.toList ∧
      Calm (trace ++ announced next?) next? := by
  cases next? with
  | none =>
    rw [announced, List.append_nil]
    exact ⟨by simpa using calm.watched, calm⟩
  | some pair =>
    obtain ⟨observer, node⟩ := pair
    have created : Calm (trace ++ [.create observer]) none := calm.create
    have none : Page.watched (trace ++ [.create observer]) = [] := by simpa using created.watched
    have one : Page.watched ((trace ++ [.create observer]) ++ [.observe observer node]) =
        [(observer, node)] := watched_observe none
    have both : trace ++ announced (some (observer, node)) =
        (trace ++ [.create observer]) ++ [.observe observer node] := by simp [announced]
    rw [both]
    exact ⟨one, created.append (.inr one) (by simp [listeners])⟩

/-- The observer that is connected is the tracked one. -/
theorem eq_of_connected (calm : Calm trace tracked?)
    (connected : observer ∈ (Page.watched trace).map Prod.fst) :
    ∃ node, tracked? = some (observer, node) ∧ Page.watched trace = [(observer, node)] := by
  rcases calm.watched with none | one
  · rw [none] at connected
    exact absurd connected List.not_mem_nil
  · rw [one] at connected
    obtain ⟨node, rfl⟩ : ∃ node, tracked? = some (observer, node) := by simpa using connected
    exact ⟨node, rfl, one⟩

/-- The deeds of a commit. -/
theorem commit (calm : Calm trace tracked?) {observes : Bool} :
    Calm (trace ++ commitDeeds observes fresh tracked? node?)
      (retracked observes fresh tracked? node?) := by
  by_cases same : isTracked tracked? node? = true
  · rw [commitDeeds, if_pos same, retracked, if_pos same, List.append_nil]
    exact calm
  · rw [commitDeeds, if_neg same, retracked, if_neg same, ← List.append_assoc]
    exact calm.release.2.announce.2

/-- The deeds of an observer that is told of entries. -/
theorem seen (calm : Calm trace (some (observer, node))) {render : Nat} {intersects : Bool} :
    Calm (trace ++ seenDeeds setting value render page observer intersects)
      (some (observer, node)) := by
  cases intersects with
  | false =>
    rw [seenDeeds, List.append_nil]
    exact calm
  | true =>
    rw [seenDeeds, ← List.append_assoc]
    split
    · exact calm.report.disconnect
    · rw [List.append_nil]
      exact calm.disconnect

end Calm

/-- How often an element is shown or may yet be shown. -/
def shows (trace : List Deed) : Nat :=
  reports "show" trace + (watched trace).length

theorem reports_append (trace more : List Deed) :
    reports "show" (trace ++ more) = reports "show" trace + reports "show" more :=
  List.countP_append

theorem reports_commitDeeds {observes : Bool} {fresh : Nat} :
    reports "show" (commitDeeds observes fresh tracked? node?) = 0 := by
  rw [commitDeeds]
  split
  · rfl
  · rw [reports_append]
    cases tracked? <;> cases started observes fresh node? <;> rfl

/-- Being told of entries does not allow for more. -/
theorem shows_seen {trace : List Deed} {observer node render : Nat} {intersects : Bool}
    (calm : Calm trace (some (observer, node))) (watches : watched trace = [(observer, node)]) :
    shows (trace ++ seenDeeds setting value render page observer intersects) ≤ shows trace := by
  cases intersects with
  | false =>
    exact Nat.le_of_eq (by rw [seenDeeds, List.append_nil])
  | true =>
    rw [shows, shows, seenDeeds, ← List.append_assoc]
    split
    · rw [calm.report.watched_disconnect, watches, reports_append, reports_append]
      simp [reports]
    · rw [List.append_nil, calm.watched_disconnect, watches, reports_append]
      simp [reports]

/-! ## The state of the page -/

/-- A function cleans up after what is tracked. -/
def Unmounts (handle : ElementHandle) (page : Page) (holder cleanup : Nat) : Prop :=
  ∃ environment, page.cells[cleanup]? =
      some (.function [] (Code.block (unmountingBody handle)) environment) ∧
    Sees page environment [(handle.visibilityState, .object holder)]

theorem Unmounts.keeps {changed : List Nat} {holder cleanup : Nat}
    (unmounts : Unmounts handle before holder cleanup) (keeps : Keeps changed before after)
    (references : ∀ holder ∈ changed, ∃ held, Holds before holder held) :
    Unmounts handle after holder cleanup := by
  obtain ⟨environment, has, sees⟩ := unmounts
  exact ⟨environment, keeps.cells (not_mem_of_cells references has (by simp)) has, sees.keeps keeps⟩

/-- The hooks of the component between two events: they have not been used yet, or they are as the
last commit has left them. -/
inductive Mounted (setting : Setting) (handle : ElementHandle) (value : MarkerValue) (page : Page) :
    Option Nat → Option (Nat × Nat) → Prop where
  | fresh (hooks : page.hooks = []) (attached : page.attached? = none) :
      Mounted setting handle value page none none
  | committed {elementHolder holder cleanup : Nat} {node? : Option Nat}
      {tracked? : Option (Nat × Nat)}
      (hooks : page.hooks = [.reference elementHolder, .reference holder,
        .effect none none .undefined, .effect none (some []) (.object cleanup)])
      (attached : page.attached? = some elementHolder)
      (apart : elementHolder ≠ holder)
      (element : Holds page elementHolder (elementValue node?))
      (watching : Watching setting value page holder tracked?)
      (unmounts : Unmounts handle page holder cleanup)
      (current : tracked?.map Prod.snd = if setting.observes then node? else none) :
      Mounted setting handle value page node? tracked?

theorem Watching.keeps {changed : List Nat} {holder : Nat}
    (watching : Watching setting value before holder tracked?) (keeps : Keeps changed before after)
    (other : holder ∉ changed) (references : ∀ holder ∈ changed, ∃ held, Holds before holder held) :
    Watching setting value after holder tracked? := by
  obtain ⟨state, holds, tracked⟩ := watching
  exact ⟨state, holds.keeps keeps other, tracked.keeps keeps references⟩

theorem Mounted.keeps (mounted : Mounted setting handle value before node? tracked?)
    (keeps : Keeps [] before after) (hooks : after.hooks = before.hooks)
    (attached : after.attached? = before.attached?) :
    Mounted setting handle value after node? tracked? := by
  cases mounted with
  | fresh none unattached => exact .fresh (hooks.trans none) (attached.trans unattached)
  | committed all holder apart element watching unmounts current =>
    exact .committed (hooks.trans all) (attached.trans holder) apart
      (element.keeps keeps List.not_mem_nil) (watching.keeps keeps List.not_mem_nil (by simp))
      (unmounts.keeps keeps (by simp)) current

/-! ## Renders -/

/-- A component with the hooks of a show marker. -/
def showing (handle : ElementHandle) (value : MarkerValue) (runtimeGlobal : String) : Component :=
  ⟨handle, Hooks.declaration handle :: Hooks.visibility handle value runtimeGlobal⟩

/-- The effect that is used last: it is due after the first commit only. -/
inductive Mounting (handle : ElementHandle) (page : Page) (environment : Environment)
    (holder : Nat) : Hook → Prop where
  | due {effect : Nat}
      (function : page.cells[effect]? = some (.function []
        (Code.arrowTo [] (Code.block (unmountingBody handle))) environment)) :
      Mounting handle page environment holder
        (.effect (some (.object effect)) (some []) .undefined)
  | done {cleanup : Nat} (unmounts : Unmounts handle page holder cleanup) :
      Mounting handle page environment holder (.effect none (some []) (.object cleanup))

/-- The page after a render. -/
structure Rendered (setting : Setting) (handle : ElementHandle) (value : MarkerValue)
    (tracked? : Option (Nat × Nat)) (page : Page) (environment : Environment) : Prop where
  hooks : ∃ elementHolder holder effect last,
    page.hooks = [.reference elementHolder, .reference holder,
      .effect (some (.object effect)) none .undefined, last] ∧
    page.cells[effect]? = some (.function []
      (Code.block (watchingBody handle value setting.runtimeGlobal)) environment) ∧
    Mounting handle page environment holder last ∧
    elementHolder ≠ holder ∧
    Sees page environment
      [(handle.name, .object elementHolder), (handle.visibilityState, .object holder)] ∧
    (∃ held, Holds page elementHolder held) ∧
    Watching setting value page holder tracked?

theorem declared_showing (runtimeGlobal : String) :
    declared (showing handle value runtimeGlobal).statements =
      bodyFrame handle handle.visibilityState none none := rfl

/-- The hooks when the references are declared. -/
def Pending (handle : ElementHandle) (page : Page) (elementHolder holder : Nat) : Prop :=
  page.hooks = [.reference elementHolder, .reference holder] ∨
    ∃ cleanup, page.hooks = [.reference elementHolder, .reference holder,
      .effect none none .undefined, .effect none (some []) (.object cleanup)] ∧
      Unmounts handle page holder cleanup

section

variable {depth : Nat}

/-- The references are declared, whether they are there already or not. -/
theorem exists_declared (call : Caller) (mounted : Mounted setting handle value page node? tracked?) :
    ∃ (first settled : Page) (elementHolder holder : Nat),
      Yields (execute setting call ⟨page.renders, [page.frames.length]⟩ (Hooks.declaration handle))
        (page.rendering.inside (bodyFrame handle handle.visibilityState none none)) .normal
        (first.inside
          (bodyFrame handle handle.visibilityState (some (.object elementHolder)) none)) ∧
      Yields (execute setting call ⟨page.renders, [page.frames.length]⟩ (Visibility.state handle))
        (first.inside
          (bodyFrame handle handle.visibilityState (some (.object elementHolder)) none)) .normal
        (settled.inside (bodyFrame handle handle.visibilityState (some (.object elementHolder))
          (some (.object holder)))) ∧
      settled.frames = page.frames ∧ settled.trace = page.trace ∧ settled.cursor = 2 ∧
      Pending handle settled elementHolder holder ∧ elementHolder ≠ holder ∧
      (∃ held, Holds settled elementHolder held) ∧ Watching setting value settled holder tracked? := by
  have own := handle.visibilityState_mem_ownNames
  let start := page.rendering
  cases mounted with
  | fresh hooks attached =>
    let first := (start.making [.record [("current", .null)]]).keeping
      (.reference start.cells.length)
    let settled := (first.making [.record [("current", .null)]]).keeping
      (.reference first.cells.length)
    refine ⟨first, settled, start.cells.length, first.cells.length,
      yields_reference_first (own_bodyFrame own) lookup_bodyFrame_name
        (defined_bodyFrame_name name_ne.2) (by simp [rendering, hooks]),
      yields_reference_first (own_bodyFrame own) (lookup_bodyFrame_other name_ne.2)
        (defined_bodyFrame_other name_ne.2)
        (by simp [first, start, rendering, making, keeping, hooks]), rfl, rfl, rfl, .inl ?_, ?_,
      ⟨.null, ?_⟩, .null, ?_, .idle⟩
    · simp [settled, first, start, rendering, making, keeping, hooks]
    · simp [first, making, keeping]
    · simp [Holds, settled, first, making, keeping]
    · simp [Holds, settled, making, keeping]
  | @committed elementHolder holder cleanup _ _ hooks attached apart element watching unmounts _ =>
    let first := start.keeping (.reference elementHolder)
    let settled := first.keeping (.reference holder)
    have kept : Keeps [] page settled := .of_same rfl rfl
    refine ⟨first, settled, elementHolder, holder,
      yields_reference_again (own_bodyFrame own) lookup_bodyFrame_name
        (defined_bodyFrame_name name_ne.2) (by simp [rendering, hooks]),
      yields_reference_again (own_bodyFrame own) (lookup_bodyFrame_other name_ne.2)
        (defined_bodyFrame_other name_ne.2) (by simp [first, start, rendering, keeping, hooks]),
      rfl, rfl, rfl, .inr ⟨cleanup, ?_, unmounts.keeps kept (by simp)⟩, apart, ⟨_, element⟩,
      watching.keeps kept List.not_mem_nil (by simp)⟩
    simp [settled, first, start, rendering, keeping, hooks]

/-- A render, whether it is the first or not. -/
theorem exists_render (depth : Nat) (mounted : Mounted setting handle value page node? tracked?) :
    ∃ environment after, Yields (render setting depth (showing handle value setting.runtimeGlobal))
        page environment after ∧
      after.trace = page.trace ∧ Rendered setting handle value tracked? after environment := by
  have own := handle.visibilityState_mem_ownNames
  obtain ⟨first, settled, elementHolder, holder, declares, states, frames, trace, cursor, pending,
    apart, element, watching⟩ := exists_declared (call setting depth) mounted
  let environment : Environment := ⟨page.renders, [settled.frames.length]⟩
  let bound := bodyFrame handle handle.visibilityState (some (.object elementHolder))
    (some (.object holder))
  let watched := (settled.making [.function []
    (Code.block (watchingBody handle value setting.runtimeGlobal)) environment]).keeping
      (.effect (some (.object settled.cells.length)) none .undefined)
  have watches : Yields (execute setting (call setting depth) environment
      (Visibility.watching handle value setting.runtimeGlobal)) (settled.inside bound) .normal
      (watched.inside bound) := by
    rw [watching_eq]
    refine yields_effect (own_bodyFrame own) ?_
    rcases pending with hooks | ⟨_, hooks, _⟩ <;> simp [hooks, cursor, cleanupOf?]
  let last := onceKept watched.hooks[watched.cursor]? (.object watched.cells.length)
  let after := (watched.making (dependent setting watched page.renders []
    (Code.arrowTo [] (Code.block (unmountingBody handle))) [])).keeping last
  have unmounts : Yields (execute setting (call setting depth) environment
      (Visibility.unmounting handle)) (watched.inside bound) .normal (after.inside bound) := by
    rw [unmounting_eq]
    refine yields_effect_once (own_bodyFrame own) ?_
    rcases pending with hooks | ⟨cleanup, hooks, _⟩
    · left
      simp [watched, making, keeping, hooks, cursor]
    · right
      exact ⟨.object cleanup, by simp [watched, making, keeping, hooks, cursor]⟩
  have same : environment = ⟨page.renders, [page.frames.length]⟩ := by
    simp only [environment, frames]
  have runs : Yields (executeAll setting (call setting depth) environment
      (showing handle value setting.runtimeGlobal).statements)
      (page.rendering.inside (bodyFrame handle handle.visibilityState none none)) .normal
      (after.inside bound) :=
    Yields.then (same ▸ declares) (Yields.then (same ▸ states)
      (watches.then (unmounts.then yields_nil)))
  have rendered : Yields (render setting depth (showing handle value setting.runtimeGlobal)) page
      environment (after.inside bound) := by
    rw [same]
    exact yields_render (by rw [declared_showing]; exact same ▸ runs)
  have kept : Keeps [] settled (after.inside bound) :=
    (Keeps.making _).trans ((Keeps.keeping _).trans
      ((Keeps.making _).trans ((Keeps.keeping _).trans (Keeps.inside _))))
  have sees : Sees (after.inside bound) environment
      [(handle.name, .object elementHolder), (handle.visibilityState, .object holder)] := by
    refine sees_body (own_bodyFrame own) fun among => ?_
    rcases List.mem_pair.mp among with same | same <;> obtain ⟨rfl, rfl⟩ := Prod.mk.inj same
    · exact lookup_bodyFrame_name
    · exact lookup_bodyFrame_other name_ne.2
  refine ⟨environment, after.inside bound, rendered, trace, ⟨elementHolder, holder,
    settled.cells.length, last, ?_, ?_, ?_, apart, sees,
    element.imp fun _ holds => holds.keeps kept List.not_mem_nil,
    watching.keeps kept List.not_mem_nil (by simp)⟩⟩
  · rcases pending with hooks | ⟨_, hooks, _⟩ <;>
      simp [inside, after, watched, making, keeping, hooks, cursor]
  · simp [inside, after, watched, making, keeping]
  · rcases pending with hooks | ⟨cleanup, hooks, cleans⟩
    · have due : last = .effect (some (.object watched.cells.length)) (some []) .undefined := by
        simp [last, onceKept, watched, making, keeping, hooks, cursor]
      rw [due]
      exact .due (by simp [inside, after, making, keeping, dependent, watched, environment])
    · have done : last = .effect none (some []) (.object cleanup) := by
        simp [last, onceKept, watched, making, keeping, hooks, cursor]
      rw [done]
      exact .done (cleans.keeps kept (by simp))

theorem Mounting.keeps {changed : List Nat} {holder : Nat} {environment : Environment} {last : Hook}
    (mounting : Mounting handle before environment holder last) (keeps : Keeps changed before after)
    (references : ∀ holder ∈ changed, ∃ held, Holds before holder held) :
    Mounting handle after environment holder last := by
  cases mounting with
  | due function =>
    exact .due (keeps.cells (not_mem_of_cells references function (by simp)) function)
  | done unmounts => exact .done (unmounts.keeps keeps references)

/-- The effect that is used last leaves behind what cleans up in the end. -/
theorem exists_mount (setting : Setting) (depth : Nat) {holder : Nat} {environment : Environment}
    {last : Hook} (mounting : Mounting handle page environment holder last)
    (sees : Sees page environment [(handle.visibilityState, .object holder)]) :
    ∃ cleanup after, Yields (runDue (call setting (depth + 1)) [last]) page
        [.effect none (some []) (.object cleanup)] after ∧
      Keeps [] page after ∧ after.trace = page.trace ∧ after.attached? = page.attached? ∧
      Unmounts handle after holder cleanup := by
  cases mounting with
  | @done cleanup unmounts =>
    exact ⟨cleanup, page, yields_runDue_other rfl yields_pure, .of_same rfl rfl, rfl, rfl, unmounts⟩
  | @due effect function =>
    let entered := page.inside []
    let inner : Environment :=
      { environment with frames := page.frames.length :: environment.frames }
    let after := entered.making [.function [] (Code.block (unmountingBody handle)) inner]
    have made : Yields (call setting (depth + 1) (.object effect) []) page
        (.object entered.cells.length) after :=
      yields_call_expression function (by simp [Code.arrowTo, Code.block]) yields_arrowTo
    have kept : Keeps [] entered after := Keeps.making _
    have seen : Sees entered inner [(handle.visibilityState, .object holder)] :=
      sees.enter (by simp)
    exact ⟨entered.cells.length, after, yields_runDue made yields_pure,
      (Keeps.inside _).trans kept, rfl, rfl, inner, List.getElem?_concat_length, seen.keeps kept⟩

theorem map_retracked {observes : Bool} {fresh : Nat} {next? : Option Nat}
    (observed : tracked?.isSome → observes = true) :
    (retracked observes fresh tracked? next?).map Prod.snd = if observes then next? else none := by
  by_cases same : isTracked tracked? next? = true
  · rw [retracked, if_pos same]
    cases tracked? with
    | none => exact absurd same (by simp [isTracked])
    | some tracked =>
      cases next? with
      | none => exact absurd same (by simp [isTracked])
      | some node =>
        have current : tracked.2 = node := by simpa [isTracked] using same
        simp [observed rfl, current]
  · rw [retracked, if_neg same]
    cases observes <;> cases next? <;> rfl

theorem Mounted.observed (mounted : Mounted setting handle value page node? tracked?)
    (tracks : tracked?.isSome) : setting.observes = true := by
  cases mounted with
  | fresh => exact absurd tracks Bool.false_ne_true
  | committed _ _ _ _ _ _ current =>
    by_contra blind
    rw [if_neg blind, Option.map_eq_none_iff] at current
    exact absurd tracks (by simp [current])

theorem exists_commit (depth : Nat) (next? : Option Nat)
    (before : Mounted setting handle value page node? tracked?) :
    ∃ after fresh, Yields (commit setting (depth + 1) (showing handle value setting.runtimeGlobal)
          next?) page ⟨⟩ after ∧
      Mounted setting handle value after next? (retracked setting.observes fresh tracked? next?) ∧
      after.trace = page.trace ++ commitDeeds setting.observes fresh tracked? next? := by
  obtain ⟨environment, rendered, renders, unchanged, ⟨elementHolder, holder, effect, last, hooks,
    function, mounting, apart, sees, ⟨_, element⟩, watching⟩⟩ :=
    exists_render (depth + 1) before
  let attached := rendered.attaching elementHolder next?
  have attaches : Yields (attach setting (showing handle value setting.runtimeGlobal) environment
      next?) rendered ⟨⟩ attached :=
    yields_attach sees List.mem_cons_self element
  have kept : Keeps [elementHolder] rendered attached := attaching_keeps
  have references := element.references
  have mounting : Mounting handle attached environment holder last := mounting.keeps kept references
  have cleans : Yields (cleanUpDue (call setting (depth + 1)) attached.hooks) attached ⟨⟩
      attached := by
    have rest : Yields (cleanUpDue (call setting (depth + 1)) [last]) attached ⟨⟩ attached := by
      cases mounting <;> exact yields_pure
    change Yields (cleanUpDue _ rendered.hooks) _ _ _
    rw [hooks]
    exact yields_cleanUpDue_other rfl (yields_cleanUpDue_other rfl (yields_cleanUpDue yields_pure rest))
  have holding : Watching setting value attached holder tracked? :=
    watching.keeps kept (by simpa using apart.symm) references
  have put : Holds attached elementHolder (elementValue next?) := Holds.put element
  -- The effect that watches runs, and then the one that cleans up in the end.
  obtain ⟨completion, watched, result, body, keptWatching, same, fresh, watching, trace⟩ :=
    exists_watchingBody (call setting depth) (sees.keeps kept) List.mem_cons_self
      (List.mem_cons_of_mem _ List.mem_cons_self) put holding
  have runs : Yields (call setting (depth + 1) (.object effect) []) attached .undefined watched := by
    rw [← result]
    rw [← frame_watchingBody setting.runtimeGlobal] at body
    exact yields_call (kept.cells (not_mem_of_cells references function (by simp)) function) body
  obtain ⟨_, held, _⟩ := id holding
  obtain ⟨cleanup, mounted, mounts, keptMounting, still, also, unmounts⟩ :=
    exists_mount setting depth (mounting.keeps keptWatching held.references)
      (((sees.keeps kept).keeps keptWatching).mono (by simp))
  have due : Yields (runDue (call setting (depth + 1)) attached.hooks) attached
      [.reference elementHolder, .reference holder, .effect none none .undefined,
        .effect none (some []) (.object cleanup)] mounted := by
    change Yields (runDue _ rendered.hooks) _ _ _
    rw [hooks]
    exact yields_runDue_other rfl (yields_runDue_other rfl (yields_runDue runs mounts))
  let after := { mounted with
    hooks := [.reference elementHolder, .reference holder, .effect none none .undefined,
      .effect none (some []) (.object cleanup)] }
  have settled : Keeps [] mounted after := .of_same rfl rfl
  have keptLast : Keeps [] watched after := keptMounting.trans settled
  refine ⟨after, fresh, yields_commit renders attaches cleans due,
    .committed rfl (also.trans same) apart
      ((put.keeps keptWatching (by simpa using apart)).keeps keptLast List.not_mem_nil)
      (watching.keeps keptLast List.not_mem_nil (by simp)) (unmounts.keeps settled (by simp))
      (map_retracked before.observed), ?_⟩
  calc after.trace = watched.trace := still
    _ = rendered.trace ++ commitDeeds setting.observes fresh tracked? next? := trace
    _ = page.trace ++ commitDeeds setting.observes fresh tracked? next? := by rw [unchanged]

end

/-! ## Other events -/

section

variable {depth : Nat}

/-- An observer is told of entries. Only the one that is tracked may be told. -/
theorem exists_intersect (depth observer : Nat) (entries : List Bool)
    (mounted : Mounted setting handle value page node? tracked?)
    (calm : Calm page.trace tracked?) :
    ∃ after render, Yields (intersect setting (depth + 2) observer entries) page ⟨⟩ after ∧
      Mounted setting handle value after node? tracked? ∧
      after.trace = page.trace ++
        if observer ∈ (watched page.trace).map Prod.fst then
          seenDeeds setting value render page observer (entries.any id)
        else [] := by
  by_cases connected : observer ∈ (watched page.trace).map Prod.fst
  · obtain ⟨node, rfl, _⟩ := calm.eq_of_connected connected
    cases mounted with
    | committed hooks attached apart element watching unmounts current =>
      obtain ⟨state, holds, tracked⟩ := id watching
      cases tracked with
      | @tracking state _ _ callback environment record made reports sees =>
        obtain ⟨items, makes, told⟩ : ∃ items, Yields (makeEntries entries) page items
              (page.making (entries.map entryCell)) ∧
            List.Forall₂ (IsEntry (page.making (entries.map entryCell)).cells) items entries :=
          exists_makeEntries
        let entered := page.making (entries.map entryCell)
        let listed := entered.making [.array items]
        have kept : Keeps [] entered listed := Keeps.making _
        have keptAll : Keeps [] page listed := (Keeps.making _).trans kept
        obtain ⟨after, called, keptCall, sameHooks, sameAttached, trace⟩ :=
          exists_reporting setting depth (keptAll.cells List.not_mem_nil reports)
            (sees.keeps keptAll) (keptAll.cells List.not_mem_nil made) List.getElem?_concat_length
            (told.imp fun _ _ ⟨address, same, has⟩ =>
              ⟨address, same, kept.cells List.not_mem_nil has⟩)
        have all : Mounted setting handle value page node? (some (observer, node)) :=
          .committed hooks attached apart element watching unmounts current
        refine ⟨after, environment.render, ?_,
          all.keeps (keptAll.trans keptCall) sameHooks sameAttached, ?_⟩
        · refine yields_get.bind ?_
          rw [if_pos connected]
          have lists : Yields (allocate (.array items)) entered (.object entered.cells.length) listed :=
            yields_allocate
          exact (yields_cellAt made).bind (makes.bind (lists.bind (called.bind yields_pure)))
        · rw [if_pos connected]
          exact trace
  · refine ⟨page, 0, ?_, mounted, ?_⟩
    · refine yields_get.bind ?_
      rw [if_neg connected]
      exact yields_pure
    · rw [if_neg connected, List.append_nil]

/-- Nobody hears a click. -/
theorem yields_click_quiet {node : Nat} (quiet : listeners page.trace = []) :
    Yields (click setting depth node) page ⟨⟩ page := by
  refine yields_get.bind ?_
  rw [quiet]
  exact yields_pure

/-- What is tracked is disconnected when the component is taken off the page. -/
theorem exists_unmount (setting : Setting) (depth : Nat)
    (mounted : Mounted setting handle value page node? tracked?) :
    ∃ after, Yields (unmount setting (depth + 1)) page ⟨⟩ after ∧
      after.trace = page.trace ++ released tracked? := by
  cases mounted with
  | fresh hooks attached =>
    exact ⟨page, yields_unmount_fresh hooks attached, (List.append_nil _).symm⟩
  | @committed elementHolder holder cleanup _ _ hooks attached apart element watching unmounts =>
    obtain ⟨environment, function, sees⟩ := unmounts
    obtain ⟨state, holds, tracked⟩ := watching
    let detached := page.putting elementHolder .null
    have kept : Keeps [elementHolder] page detached := Keeps.put List.mem_cons_self
    have references := element.references
    let cleaned := ((detached.doing (released tracked?)).putting holder .null).inside
      [(stateName, some state)]
    have called : Yields (call setting (depth + 1) (.object cleanup) []) detached .undefined cleaned :=
      yields_call (kept.cells (not_mem_of_cells references function (by simp)) function)
        (yields_unmountingBody (sees.keeps kept) List.mem_cons_self
          (holds.keeps kept (by simpa using apart.symm)) (tracked.keeps kept references))
    have cleans : Yields (cleanUpAll (call setting (depth + 1)) page.hooks) detached ⟨⟩ cleaned := by
      rw [hooks]
      exact Yields.bind yields_pure (Yields.bind (called.bind yields_pure) yields_pure)
    exact ⟨_, yields_unmount attached element cleans, rfl⟩

end

/-! ## Runs -/

theorem Mounted.current (mounted : Mounted setting handle value page node? tracked?) :
    tracked?.map Prod.snd = if setting.observes then node? else none := by
  cases mounted with
  | fresh => simp
  | committed _ _ _ _ _ _ current => exact current

/-- A commit with the same element does nothing. -/
theorem commitDeeds_same {observes : Bool} {fresh : Nat}
    (current : tracked?.map Prod.snd = if observes then node? else none) :
    commitDeeds observes fresh tracked? node? = [] := by
  match tracked?, observes, node?, current with
  | none, false, _, _ => rfl
  | none, true, none, _ => rfl
  | some (_, tracked), true, some node, current =>
    obtain rfl : tracked = node := by simpa using current
    simp [commitDeeds, isTracked]

/-- After a commit with another element, that element is watched if the browser can. -/
theorem Calm.watched_commit {trace : List Deed} {observes : Bool} {fresh : Nat} {next? : Option Nat}
    (calm : Calm trace tracked?)
    (current : tracked?.map Prod.snd = if observes then node? else none) (other : next? ≠ node?) :
    Page.watched (trace ++ commitDeeds observes fresh tracked? next?) =
      (started observes fresh next?).toList := by
  have changed : isTracked tracked? next? ≠ true := by
    intro same
    match tracked?, observes, node?, next?, current with
    | some (_, tracked), true, some node, some next, current =>
      obtain rfl : tracked = node := by simpa using current
      obtain rfl : tracked = next := by simpa [isTracked] using same
      exact other rfl
  rw [commitDeeds, if_neg changed, ← List.append_assoc]
  exact calm.release.2.announce.1

/-- The page between two events. -/
def Settled (setting : Setting) (handle : ElementHandle) (value : MarkerValue) (node? : Option Nat)
    (page : Page) : Prop :=
  ∃ tracked?, Mounted setting handle value page node? tracked? ∧ Calm page.trace tracked?

section

variable {depth : Nat}

theorem Mounted.tick (mounted : Mounted setting handle value page node? tracked?) :
    Mounted setting handle value page.ticking node? tracked? :=
  mounted.keeps (.of_same rfl rfl) rfl rfl

/-- A commit shows nothing. If the element is the same, nothing is done at all, and if it is another
one, that one is watched from then on. -/
theorem exists_step_commit (depth : Nat) (next? : Option Nat)
    (settled : Settled setting handle value node? page) :
    ∃ after, Yields (step setting (depth + 1) (showing handle value setting.runtimeGlobal)
          (.commit next?)) page ⟨⟩ after ∧
      Settled setting handle value next? after ∧
      reports "show" after.trace = reports "show" page.trace ∧
      (next? = node? → after.trace = page.trace) ∧
      (next? ≠ node? → ∃ fresh, watched after.trace =
        (started setting.observes fresh next?).toList) := by
  obtain ⟨tracked?, mounted, calm⟩ := settled
  obtain ⟨after, fresh, commits, remounted, trace⟩ :=
    exists_commit depth next? mounted.tick
  have calmly : Calm after.trace (retracked setting.observes fresh tracked? next?) := by
    rw [trace]
    exact calm.commit
  refine ⟨after, yields_step_commit commits, ⟨_, remounted, calmly⟩, ?_, ?_, fun other => ⟨fresh, ?_⟩⟩
  · rw [trace, reports_append, reports_commitDeeds, Nat.add_zero]
    rfl
  · rintro rfl
    rw [trace, commitDeeds_same mounted.current, List.append_nil]
    rfl
  · rw [trace]
    exact calm.watched_commit mounted.current other

/-- Other events do not allow for an element to be shown again. -/
theorem exists_step_other (depth : Nat) {event : Event} (other : ∀ next?, event ≠ .commit next?)
    (settled : Settled setting handle value node? page) :
    ∃ after, Yields (step setting (depth + 2) (showing handle value setting.runtimeGlobal) event) page
        ⟨⟩ after ∧
      Settled setting handle value node? after ∧ shows after.trace ≤ shows page.trace := by
  obtain ⟨tracked?, mounted, calm⟩ := settled
  cases event with
  | commit next? => exact absurd rfl (other next?)
  | intersect observer entries =>
    obtain ⟨after, render, intersects, remounted, trace⟩ :=
      exists_intersect depth observer entries mounted.tick calm
    refine ⟨after, yields_step_intersect intersects, ?_⟩
    change after.trace = page.trace ++ if observer ∈ (watched page.trace).map Prod.fst then
      seenDeeds setting value render page.ticking observer (entries.any id) else [] at trace
    by_cases connected : observer ∈ (watched page.trace).map Prod.fst
    · obtain ⟨node, rfl, watches⟩ := calm.eq_of_connected connected
      have told : after.trace = page.trace ++
          seenDeeds setting value render page.ticking observer (entries.any id) :=
        trace.trans (by rw [if_pos connected])
      rw [told]
      exact ⟨⟨_, remounted, told ▸ calm.seen⟩, shows_seen calm watches⟩
    · have untold : after.trace = page.trace :=
        trace.trans (by rw [if_neg connected, List.append_nil])
      rw [untold]
      exact ⟨⟨_, remounted, untold ▸ calm⟩, Nat.le_refl _⟩
  | click node =>
    exact ⟨page.ticking, yields_step_click (yields_click_quiet calm.quiet),
      ⟨tracked?, mounted.tick, calm⟩, Nat.le_refl _⟩
  | runtime present =>
    exact ⟨_, yields_step_runtime, ⟨tracked?, mounted.keeps (.of_same rfl rfl) rfl rfl, calm⟩,
      Nat.le_refl _⟩

theorem exists_step (depth : Nat) (node? : Option Nat) (event : Event)
    (settled : Settled setting handle value node? page) :
    ∃ after, Yields (step setting (depth + 2) (showing handle value setting.runtimeGlobal) event) page
        ⟨⟩ after ∧
      Settled setting handle value (nodeAfter node? event) after := by
  by_cases commits : ∃ next?, event = .commit next?
  · obtain ⟨next?, rfl⟩ := commits
    obtain ⟨after, stepped, resettled, _⟩ := exists_step_commit (depth + 1) next? settled
    exact ⟨after, stepped, resettled⟩
  · have other (next? : Option Nat) : event ≠ .commit next? := fun same => commits ⟨next?, same⟩
    obtain ⟨after, stepped, resettled, _⟩ := exists_step_other depth other settled
    have same : nodeAfter node? event = node? := by
      cases event <;> first | rfl | exact absurd rfl (other _)
    rw [same]
    exact ⟨after, stepped, resettled⟩

theorem settled_blank : Settled setting handle value none {} :=
  ⟨none, .fresh rfl rfl, .inl rfl, fun past earlier => by
    rw [List.prefix_nil.mp earlier]
    exact Nat.zero_le 1, rfl⟩

/-- What is watched is the current element. -/
theorem Settled.watched (settled : Settled setting handle value node? page) {observer node : Nat}
    (watches : (observer, node) ∈ watched page.trace) : node? = some node := by
  obtain ⟨tracked?, mounted, calm⟩ := settled
  obtain ⟨same, rfl, one⟩ := calm.eq_of_connected (List.mem_map_of_mem watches)
  rw [one] at watches
  obtain ⟨_, rfl⟩ := Prod.mk.inj (List.mem_singleton.mp watches)
  have current := mounted.current
  rw [if_pos (mounted.observed rfl)] at current
  exact current.symm

theorem exists_run_showing (setting : Setting) (handle : ElementHandle) (value : MarkerValue)
    (depth : Nat) (events : List Event) :
    ∃ page, Yields (stepAll setting (depth + 2) (showing handle value setting.runtimeGlobal) events) {}
        ⟨⟩ page ∧
      Settled setting handle value (currentNode events) page :=
  exists_stepAll (fun event _ node? _ settled => exists_step depth node? event settled) settled_blank

/-- What may be shown while no commit changes the element. -/
theorem exists_unchanged (depth : Nat) {more : List Event}
    (same : ∀ other?, .commit other? ∈ more → other? = node?)
    (settled : Settled setting handle value node? page) :
    ∃ after, Yields (stepAll setting (depth + 2) (showing handle value setting.runtimeGlobal) more)
        page ⟨⟩ after ∧ shows after.trace ≤ shows page.trace := by
  let Invariant (current? : Option Nat) (later : Page) : Prop :=
    current? = node? ∧ Settled setting handle value node? later ∧ shows later.trace ≤ shows page.trace
  have steps : ∀ event ∈ more, ∀ current? later, Invariant current? later →
      ∃ after, Yields (step setting (depth + 2) (showing handle value setting.runtimeGlobal) event)
          later ⟨⟩ after ∧ Invariant (nodeAfter current? event) after := by
    rintro event among current? later ⟨rfl, settled, le⟩
    by_cases commits : ∃ next?, event = .commit next?
    · obtain ⟨next?, rfl⟩ := commits
      obtain rfl := same next? among
      obtain ⟨after, stepped, resettled, _, unchanged, _⟩ :=
        exists_step_commit (depth + 1) next? settled
      exact ⟨after, stepped, rfl, resettled, by rw [unchanged rfl]; exact le⟩
    · have other (next? : Option Nat) : event ≠ .commit next? := fun same => commits ⟨next?, same⟩
      obtain ⟨after, stepped, resettled, fewer⟩ := exists_step_other depth other settled
      have kept : nodeAfter current? event = current? := by
        cases event <;> first | rfl | exact absurd rfl (other _)
      exact ⟨after, stepped, kept, resettled, Nat.le_trans fewer le⟩
  obtain ⟨after, ran, _, _, le⟩ :=
    exists_stepAll steps (⟨rfl, settled, Nat.le_refl _⟩ : Invariant node? page)
  exact ⟨after, ran, le⟩

/-- **An element is shown once.** A component with the hooks of a show marker never throws, whatever
happens to its page. At any time at most one element is watched, and between two events it is the
element of the last commit; after a commit without an element nothing is watched. A commit with the
same element does nothing to the browser, and after one with another element exactly that one is
watched, if the browser can. While no commit changes the element, it is shown at most once. When the
component is gone, nothing is watched. -/
theorem shown_once (setting : Setting) (handle : ElementHandle) (value : MarkerValue) (depth : Nat)
    (events : List Event) :
    let component := showing handle value setting.runtimeGlobal
    ∃ page, run setting (depth + 2) component events = .ok page ∧
      (∀ past, past <+: page.trace → (watched past).length ≤ 1) ∧
      (∀ observer node, (observer, node) ∈ watched page.trace → currentNode events = some node) ∧
      (currentNode events = none → watched page.trace = []) ∧
      (∃ same, run setting (depth + 2) component (events ++ [.commit (currentNode events)]) = .ok same ∧
        same.trace = page.trace) ∧
      (∀ node, currentNode events ≠ some node → setting.observes = true →
        ∃ next observer, run setting (depth + 2) component (events ++ [.commit (some node)]) = .ok next ∧
          watched next.trace = [(observer, node)]) ∧
      (∀ node? more, (∀ other?, .commit other? ∈ more → other? = node?) →
        ∃ later, run setting (depth + 2) component (events ++ .commit node? :: more) = .ok later ∧
          reports "show" later.trace ≤ reports "show" page.trace + 1) ∧
      ∃ last, runToEnd setting (depth + 2) component events = .ok last ∧
        (∀ past, past <+: last.trace → (watched past).length ≤ 1) ∧ watched last.trace = [] := by
  intro component
  obtain ⟨page, ran, settled⟩ := exists_run_showing setting handle value depth events
  obtain ⟨tracked?, mounted, calm⟩ := id settled
  have further {more : List Event} {after : Page}
      (yields : Yields (stepAll setting (depth + 2) component more) page ⟨⟩ after) :
      run setting (depth + 2) component (events ++ more) = .ok after :=
    run_of_yields (stepAll_append ▸ ran.bind yields)
  refine ⟨page, run_of_yields ran, calm.once, fun observer node among => settled.watched among, ?_, ?_,
    ?_, ?_, ?_⟩
  · intro nothing
    rw [List.eq_nil_iff_forall_not_mem]
    intro pair among
    exact absurd (nothing.symm.trans (settled.watched among)) (by simp)
  · obtain ⟨same, stepped, _, _, unchanged, _⟩ :=
      exists_step_commit (depth + 1) (currentNode events) settled
    exact ⟨same, further (stepped.bind yields_pure), unchanged rfl⟩
  · intro node other observes
    obtain ⟨next, stepped, _, _, _, changed⟩ := exists_step_commit (depth + 1) (some node) settled
    obtain ⟨observer, watches⟩ := changed other.symm
    have watches : watched next.trace = [(observer, node)] := by
      simpa [started, observes] using watches
    exact ⟨next, observer, further (stepped.bind yields_pure), watches⟩
  · intro node? more same
    obtain ⟨middle, stepped, resettled, silent, _⟩ :=
      exists_step_commit (depth + 1) node? settled
    obtain ⟨later, stayed, fewer⟩ := exists_unchanged depth same resettled
    obtain ⟨_, _, calmly⟩ := resettled
    refine ⟨later, further (stepped.bind stayed), ?_⟩
    calc reports "show" later.trace ≤ shows later.trace := Nat.le_add_right _ _
      _ ≤ shows middle.trace := fewer
      _ = reports "show" page.trace + (watched middle.trace).length := by rw [shows, silent]
      _ ≤ reports "show" page.trace + 1 := Nat.add_le_add_left calmly.length_le _
  · obtain ⟨last, unmounts, trace⟩ := exists_unmount setting (depth + 1) mounted
    refine ⟨last, runToEnd_of_yields ran unmounts, ?_, ?_⟩ <;> rw [trace]
    · exact calm.release.2.once
    · exact calm.release.1

/-- The first time that the watched element is seen, it is shown if the runtime is there, and its
observer is disconnected. -/
theorem shown_when_seen (setting : Setting) (handle : ElementHandle) (value : MarkerValue)
    (depth : Nat) (events : List Event) :
    let component := showing handle value setting.runtimeGlobal
    ∃ page, run setting (depth + 2) component events = .ok page ∧
      ∀ observer ∈ (watched page.trace).map Prod.fst, ∀ entries, true ∈ entries →
        ∃ seen name, run setting (depth + 2) component (events ++ [.intersect observer entries]) =
            .ok seen ∧
          seen.trace = page.trace ++
            (if page.hasRuntime = true then [.report "show" name] else []) ++
              [.disconnect observer] := by
  intro component
  obtain ⟨page, ran, tracked?, mounted, calm⟩ :=
    exists_run_showing setting handle value depth events
  refine ⟨page, run_of_yields ran, fun observer connected entries intersects => ?_⟩
  obtain ⟨seen, render, told, _, trace⟩ := exists_intersect depth observer entries mounted.tick calm
  refine ⟨seen, .own (setting.worth render (page.moment + 1) value.expression),
    run_of_yields (stepAll_append ▸ ran.bind ((yields_step_intersect told).bind yields_pure)), ?_⟩
  have any : entries.any id = true := List.any_eq_true.mpr ⟨true, intersects, rfl⟩
  rw [trace, any, List.append_assoc]
  exact congrArg (page.trace ++ ·) (if_pos connected)

end

end JsxTracking.Page
