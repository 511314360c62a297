import JsxTracking.Proofs.Running

/-! # What generated code evaluates to

For every form of generated code there is a rule that tells the outcome of the form from the outcomes
of its parts. A rule is only about code that goes through: `Yields` says that it gives a value and
leaves a page. -/

namespace JsxTracking.Page

variable {α β : Type}

/-- Code that runs on a page gives a value and leaves a page. -/
def Yields (script : Script α) (before : Page) (value : α) (after : Page) : Prop :=
  script.run before = .ok (value, after)

variable {before middle after last page : Page} {value : α}

theorem yields_pure : Yields (pure value) page value page := rfl

/-- Code that goes on with a value. -/
theorem Yields.bind {first : Script α} {next : α → Script β} {result : β}
    (gives : Yields first before value middle) (further : Yields (next value) middle result after) :
    Yields (first >>= next) before result after := by
  rw [Yields, StateT.run_bind, gives]
  exact further

theorem yields_get : Yields get page page page := rfl

theorem yields_modify (change : Page → Page) :
    Yields (modify change : Script PUnit) page ⟨⟩ (change page) := rfl

/-! ## Variables and objects -/

section

variable {setting : Setting} {environment : Environment} {name : String} {address : Nat}

theorem yields_lookup {found : Value}
    (has : page.find? name environment.frames = some (some found)) :
    Yields (lookup? setting environment name) page (some found) page := by
  refine yields_get.bind ?_
  rw [has]
  exact yields_pure

theorem yields_lookup_global (none : page.find? name environment.frames = none) :
    Yields (lookup? setting environment name) page (setting.global? name) page := by
  refine yields_get.bind ?_
  rw [none]
  exact yields_pure

/-- The page with a frame of variables that was entered last. -/
def inside (page : Page) (bound : Variables) : Page :=
  { page with frames := page.frames ++ [bound] }

theorem yields_enter {bound : Variables} :
    Yields (enter bound) page page.frames.length (page.inside bound) := rfl

theorem yields_allocate {cell : Cell} :
    Yields (allocate cell) page (.object page.cells.length)
      { page with cells := page.cells ++ [cell] } := rfl

theorem yields_cellAt {cell : Cell} (has : page.cells[address]? = some cell) :
    Yields (cellAt address) page cell page := by
  refine yields_get.bind ?_
  rw [has]
  exact yields_pure

theorem yields_perform {deed : Deed} :
    Yields (perform deed) page ⟨⟩ { page with trace := page.trace ++ [deed] } := rfl

theorem yields_decideOn {found : Value} {holds : Bool} (truth : found.isTruthy? = some holds) :
    Yields (decideOn found) page holds page := by
  rw [decideOn, truth]
  exact yields_pure

theorem yields_property {members : List (String × Value)} {found : Value}
    (has : page.cells[address]? = some (.record members))
    (member : members.lookup name = some found) :
    Yields (property setting name (.object address)) page found page := by
  refine (yields_cellAt has).bind ?_
  simp only [member, Option.getD_some]
  exact yields_pure

theorem yields_assign {members : List (String × Value)} {given : Value}
    (has : page.cells[address]? = some (.record members)) :
    Yields (assign (.object address) name given) page ⟨⟩
      { page with
        cells := page.cells.set address
          (.record ((name, given) :: members.filter fun member => member.1 ≠ name)) } :=
  (yields_cellAt has).bind (yields_modify _)

theorem getElem?_inside {bound : Variables} :
    (page.inside bound).frames[page.frames.length]? = some bound :=
  List.getElem?_concat_length

/-- A variable of the frame that was entered last is defined. -/
theorem yields_define {bound : Variables} {render : Nat} {outer : List Nat} {given : Value}
    (waits : bound.lookup name = some none) :
    Yields (define ⟨render, page.frames.length :: outer⟩ name given) (page.inside bound) ⟨⟩
      (page.inside (defined bound name given)) := by
  refine yields_get.bind ?_
  simp only [getElem?_inside, Option.getD_some, waits, ↓reduceIte]
  have changed : (page.inside bound).frames.set page.frames.length
      (defined bound name given) = page.frames ++ [defined bound name given] := by
    rw [inside, List.set_append_right _ _ (Nat.le_refl _), Nat.sub_self]
    rfl
  rw [changed]
  rfl

/-- A variable of the frame that was entered last. -/
theorem find?_inner {bound : Variables} {outer : List Nat} {found : Option Value}
    (has : bound.lookup name = some found) :
    (page.inside bound).find? name (page.frames.length :: outer) = some found := by
  simp only [find?, getElem?_inside, Option.getD_some, has]

/-- Frames that were there before are not changed when a frame is entered. -/
theorem find?_inside {bound : Variables} {frames : List Nat}
    (there : ∀ frame ∈ frames, frame < page.frames.length) :
    (page.inside bound).find? name frames = page.find? name frames := by
  induction frames with
  | nil => rfl
  | cons frame outer ih =>
    have same : (page.inside bound).frames[frame]? = page.frames[frame]? :=
      List.getElem?_append_left (there frame List.mem_cons_self)
    rw [find?, find?, same, ih fun other among => there other (List.mem_cons_of_mem _ among)]

/-- A variable of a frame further out. -/
theorem find?_outer {bound : Variables} {outer : List Nat}
    (none : bound.lookup name = none)
    (there : ∀ frame ∈ outer, frame < page.frames.length) :
    (page.inside bound).find? name (page.frames.length :: outer) = page.find? name outer := by
  rw [find?]
  simp only [getElem?_inside, Option.getD_some, none]
  exact find?_inside there

end

/-! ## Expressions -/

section

variable {setting : Setting} {call : Caller} {environment : Environment} {name : String}

theorem yields_reference {found : Value}
    (has : page.find? name environment.frames = some (some found)) :
    Yields (evaluate setting call environment (Code.reference name)) page found page :=
  (yields_lookup has).bind yields_pure

theorem yields_reference_global {found : Value} (none : page.find? name environment.frames = none)
    (means : setting.global? name = some found) :
    Yields (evaluate setting call environment (Code.reference name)) page found page := by
  refine (yields_lookup_global none).bind ?_
  rw [means]
  exact yields_pure

theorem yields_string {text : String} :
    Yields (evaluate setting call environment (Code.string text)) page (.text text) page := rfl

theorem yields_number {numeral : String} :
    Yields (evaluate setting call environment (Code.number numeral)) page (.number numeral) page :=
  rfl

theorem yields_nullLiteral :
    Yields (evaluate setting call environment Code.nullLiteral) page .null page := rfl

theorem yields_member {object : Tree} {receiver found : Value}
    (gives : Yields (evaluate setting call environment object) before receiver middle)
    (has : Yields (property setting name receiver) middle found after) :
    Yields (evaluate setting call environment (Code.member object name)) before found after :=
  gives.bind has

/-- The runtime, or nothing. -/
theorem yields_runtime (none : page.find? "window" environment.frames = none) :
    Yields (evaluate setting call environment
        (Code.member (Code.reference "window") setting.runtimeGlobal)) page
      (if page.hasRuntime then .provided .runtime else .undefined) page := by
  refine yields_member (yields_reference_global none rfl) ?_
  rw [property, if_pos rfl]
  exact yields_get.bind yields_pure

/-- The values of a list of arguments. -/
inductive YieldsAll (setting : Setting) (call : Caller) (environment : Environment) :
    List Tree → Page → List Value → Page → Prop where
  | nil {page : Page} : YieldsAll setting call environment [] page [] page
  | cons {expression : Tree} {rest : List Tree} {before middle after : Page} {value : Value}
      {values : List Value}
      (first : Yields (evaluate setting call environment expression) before value middle)
      (others : YieldsAll setting call environment rest middle values after) :
      YieldsAll setting call environment (expression :: rest) before (value :: values) after

theorem YieldsAll.arguments {expressions : List Tree} {values : List Value}
    (gives : YieldsAll setting call environment expressions before values after) :
    Yields (evaluateAll setting call environment
      (expressions.map fun expression => .node .argument [(.expression, expression)]))
      before values after := by
  induction gives with
  | nil => exact yields_pure
  | cons first _ ih => exact first.bind (ih.bind yields_pure)

theorem YieldsAll.one {expression : Tree} {found : Value}
    (gives : Yields (evaluate setting call environment expression) before found after) :
    YieldsAll setting call environment [expression] before [found] after :=
  .cons gives .nil

theorem YieldsAll.two {expression other : Tree} {found further : Value}
    (gives : Yields (evaluate setting call environment expression) before found middle)
    (too : Yields (evaluate setting call environment other) middle further after) :
    YieldsAll setting call environment [expression, other] before [found, further] after :=
  .cons gives (.one too)

/-- A call of a hook. -/
theorem yields_hook {hook : Provided} {expressions : List Tree} {values : List Value}
    {found : Value} (none : before.find? name environment.frames = none)
    (means : setting.global? name = some (.provided hook))
    (given : YieldsAll setting call environment expressions before values middle)
    (used : Yields (useHook hook values) middle found after) :
    Yields (evaluate setting call environment (Code.call (Code.reference name) expressions))
      before found after :=
  (yields_reference_global none means).bind (given.arguments.bind used)

/-- A call of a method of an object. -/
theorem yields_methodCall {object : Tree} {method : String} {address : Nat}
    {expressions : List Tree} {values : List Value} {found : Value}
    (gives : Yields (evaluate setting call environment object) before (.object address) middle)
    (given : YieldsAll setting call environment expressions middle values last)
    (invoked : Yields (invoke call (.object address) method values) last found after) :
    Yields (evaluate setting call environment (Code.methodCall object method expressions))
      before found after :=
  gives.bind (given.arguments.bind invoked)

/-- A call of a method of an element. -/
theorem yields_elementCall {object : Tree} {method : String} {node : Nat}
    {expressions : List Tree} {values : List Value} {found : Value}
    (gives : Yields (evaluate setting call environment object) before (.element node) middle)
    (given : YieldsAll setting call environment expressions middle values last)
    (invoked : Yields (invoke call (.element node) method values) last found after) :
    Yields (evaluate setting call environment (Code.methodCall object method expressions))
      before found after :=
  gives.bind (given.arguments.bind invoked)

theorem yields_observe {observer node : Nat} {callback : Value}
    (has : page.cells[observer]? = some (.observer callback)) :
    Yields (invoke call (.object observer) "observe" [.element node]) page .undefined
      { page with trace := page.trace ++ [.observe observer node] } :=
  (yields_cellAt has).bind rfl

theorem yields_disconnect {observer : Nat} {callback : Value}
    (has : page.cells[observer]? = some (.observer callback)) :
    Yields (invoke call (.object observer) "disconnect" []) page .undefined
      { page with trace := page.trace ++ [.disconnect observer] } :=
  (yields_cellAt has).bind rfl

theorem yields_anyItem {list : Nat} {items : List Value} {test : Value} {holds : Bool}
    (has : before.cells[list]? = some (.array items))
    (some : Yields (anyItem call test items) before holds after) :
    Yields (invoke call (.object list) "some" [test]) before (.bool holds) after :=
  (yields_cellAt has).bind (some.bind yields_pure)

theorem yields_listen {node : Nat} {event : String} {callback : Value} :
    Yields (invoke call (.element node) "addEventListener" [.text event, callback]) page .undefined
      { page with trace := page.trace ++ [.listen node event callback] } := rfl

theorem yields_unlisten {node : Nat} {event : String} {callback : Value} :
    Yields (invoke call (.element node) "removeEventListener" [.text event, callback]) page
      .undefined { page with trace := page.trace ++ [.unlisten node event callback] } := rfl

/-- What the module's own expression is worth now. -/
theorem yields_worthOf {expression : Tree} :
    Yields (worthOf setting environment expression) page
      (.own (setting.worth environment.render page.moment expression)) page := rfl

/-- What some expressions of the module are worth in a render, at a moment. -/
def values (setting : Setting) (render moment : Nat) (expressions : List Tree) : List Value :=
  expressions.map fun expression => .own (setting.worth render moment expression)

theorem yields_worthOfAll {expressions : List Tree} :
    Yields (worthOfAll setting environment
        (expressions.map fun expression => .node .argument [(.expression, expression)])) page
      (values setting environment.render page.moment expressions) page := by
  induction expressions with
  | nil => exact yields_pure
  | cons expression rest ih => exact yields_worthOf.bind (ih.bind yields_pure)

/-- A list of expressions of the module. -/
theorem yields_array {expressions : List Tree} :
    Yields (evaluate setting call environment (Code.array expressions)) page
      (.object page.cells.length)
      { page with
        cells := page.cells ++
          [.array (values setting environment.render page.moment expressions)] } :=
  yields_worthOfAll.bind yields_allocate

theorem yields_object_one {key : String} {expression : Tree} {found : Value}
    (gives : Yields (evaluate setting call environment expression) before found after) :
    Yields (evaluate setting call environment (Code.object [(key, expression)])) before
      (.object after.cells.length)
      { after with cells := after.cells ++ [.record [(key, found)]] } :=
  have members : Yields (evaluateMembers setting call environment [.node .keyValueProperty
      [(.key, Code.propertyName key), (.value, expression)]]) before [(key, found)] after :=
    gives.bind (yields_pure.bind yields_pure)
  members.bind yields_allocate

theorem yields_object_two {key other : String} {expression further : Tree} {found value : Value}
    (gives : Yields (evaluate setting call environment expression) before found middle)
    (too : Yields (evaluate setting call environment further) middle value after) :
    Yields (evaluate setting call environment (Code.object [(key, expression), (other, further)]))
      before (.object after.cells.length)
      { after with cells := after.cells ++ [.record [(key, found), (other, value)]] } :=
  have members : Yields (evaluateMembers setting call environment
      [.node .keyValueProperty [(.key, Code.propertyName key), (.value, expression)],
        .node .keyValueProperty [(.key, Code.propertyName other), (.value, further)]])
      before [(key, found), (other, value)] after :=
    gives.bind (Yields.bind (too.bind (yields_pure.bind yields_pure)) yields_pure)
  members.bind yields_allocate

theorem yields_not {expression : Tree} {found : Value} {holds : Bool}
    (gives : Yields (evaluate setting call environment expression) before found after)
    (truth : found.isTruthy? = some holds) :
    Yields (evaluate setting call environment (Code.unary "!" expression)) before (.bool !holds)
      after :=
  gives.bind ((yields_decideOn truth).bind yields_pure)

/-- A conjunction whose first part decides it. -/
theorem yields_and_first {left right : Tree} {found : Value}
    (gives : Yields (evaluate setting call environment left) before found after)
    (truth : found.isTruthy? = some false) :
    Yields (evaluate setting call environment (Code.binary "&&" left right)) before found after :=
  gives.bind ((yields_decideOn truth).bind yields_pure)

theorem yields_and_second {left right : Tree} {found further : Value}
    (gives : Yields (evaluate setting call environment left) before found middle)
    (truth : found.isTruthy? = some true)
    (too : Yields (evaluate setting call environment right) middle further after) :
    Yields (evaluate setting call environment (Code.binary "&&" left right)) before further after :=
  gives.bind ((yields_decideOn truth).bind too)

/-- A disjunction whose first part decides it. -/
theorem yields_or_first {left right : Tree} {found : Value}
    (gives : Yields (evaluate setting call environment left) before found after)
    (truth : found.isTruthy? = some true) :
    Yields (evaluate setting call environment (Code.binary "||" left right)) before found after :=
  gives.bind ((yields_decideOn truth).bind yields_pure)

theorem yields_or_second {left right : Tree} {found further : Value}
    (gives : Yields (evaluate setting call environment left) before found middle)
    (truth : found.isTruthy? = some false)
    (too : Yields (evaluate setting call environment right) middle further after) :
    Yields (evaluate setting call environment (Code.binary "||" left right)) before further after :=
  gives.bind ((yields_decideOn truth).bind too)

theorem yields_equals {left right : Tree} {found further : Value} {same : Bool}
    (gives : Yields (evaluate setting call environment left) before found middle)
    (too : Yields (evaluate setting call environment right) middle further after)
    (compared : found.equals? further = some same) :
    Yields (evaluate setting call environment (Code.binary "===" left right)) before (.bool same)
      after := by
  refine gives.bind (too.bind ?_)
  rw [compared]
  exact yields_pure

theorem yields_assignMember {object right : Tree} {target given : Value}
    (gives : Yields (evaluate setting call environment object) before target middle)
    (too : Yields (evaluate setting call environment right) middle given last)
    (assigned : Yields (assign target name given) last ⟨⟩ after) :
    Yields (evaluate setting call environment (Code.assignMember object name right)) before given
      after :=
  gives.bind (too.bind (assigned.bind yields_pure))

theorem yields_arrowTo {parameters : List Tree} {body : Tree} :
    Yields (evaluate setting call environment (Code.arrowTo parameters body)) page
      (.object page.cells.length)
      { page with cells := page.cells ++ [.function parameters body environment] } := rfl

/-- A new observer. -/
theorem yields_construct {callback options : Tree} {found further : Value}
    (none : before.find? "IntersectionObserver" environment.frames = none)
    (observes : setting.observes = true)
    (gives : Yields (evaluate setting call environment callback) before found middle)
    (too : Yields (evaluate setting call environment options) middle further after) :
    Yields (evaluate setting call environment
        (Code.construct "IntersectionObserver" [callback, options])) before
      (.object after.cells.length)
      { after with
        cells := after.cells ++ [.observer found]
        trace := after.trace ++ [.create after.cells.length] } := by
  refine (yields_lookup_global none).bind ?_
  have means : setting.global? "IntersectionObserver" = some (.provided .observerClass) := by
    simp [Setting.global?, observes]
  rw [means]
  exact (YieldsAll.two gives too).arguments.bind rfl

/-- The test for a browser without intersection observers. -/
theorem yields_typeofObserver (none : page.find? "IntersectionObserver" environment.frames = none) :
    Yields (evaluate setting call environment
        (Code.typeofIs (Code.reference "IntersectionObserver") "undefined")) page
      (.bool !setting.observes) page := by
  have type : Yields (typeOfVariable setting environment (Code.reference "IntersectionObserver")) page
      (.text (if setting.observes then "function" else "undefined")) page := by
    refine (yields_lookup_global none).bind ?_
    cases observes : setting.observes <;> simp [Setting.global?, observes, Value.typeOf?] <;> rfl
  have unary : Yields (evaluate setting call environment
      (Code.unary "typeof" (Code.reference "IntersectionObserver"))) page
      (.text (if setting.observes then "function" else "undefined")) page := type
  refine yields_equals unary yields_string ?_
  cases setting.observes <;> rfl

/-! ## Statements -/

theorem yields_performed {expression : Tree} {found : Value}
    (gives : Yields (evaluate setting call environment expression) before found after) :
    Yields (execute setting call environment (Code.perform expression)) before .normal after :=
  gives.bind yields_pure

theorem yields_returnNothing :
    Yields (execute setting call environment Code.returnNothing) page (.returned .undefined) page :=
  rfl

theorem yields_returnValue {expression : Tree} {found : Value}
    (gives : Yields (evaluate setting call environment expression) before found after) :
    Yields (execute setting call environment (Code.returnValue expression)) before
      (.returned found) after :=
  gives.bind yields_pure

theorem yields_constant {expression : Tree} {found : Value}
    (gives : Yields (evaluate setting call environment expression) before found middle)
    (defines : Yields (define environment name found) middle ⟨⟩ after) :
    Yields (execute setting call environment (Code.constant name expression)) before .normal after :=
  gives.bind (defines.bind yields_pure)

theorem yields_ifThen {test : Tree} {statements : List Tree} {found : Value}
    {completion : Completion}
    (gives : Yields (evaluate setting call environment test) before found middle)
    (truth : found.isTruthy? = some true)
    (runs : Yields (executeAll setting call environment statements) middle completion after) :
    Yields (execute setting call environment (Code.ifThen test statements)) before completion after :=
  gives.bind ((yields_decideOn truth).bind runs)

theorem yields_ifThen_not {test : Tree} {statements : List Tree} {found : Value}
    (gives : Yields (evaluate setting call environment test) before found after)
    (truth : found.isTruthy? = some false) :
    Yields (execute setting call environment (Code.ifThen test statements)) before .normal after :=
  gives.bind ((yields_decideOn truth).bind yields_pure)

theorem yields_nil : Yields (executeAll setting call environment []) page .normal page := rfl

/-- A statement that is gone through. -/
theorem Yields.then {statement : Tree} {rest : List Tree} {completion : Completion}
    (first : Yields (execute setting call environment statement) before .normal middle)
    (further : Yields (executeAll setting call environment rest) middle completion after) :
    Yields (executeAll setting call environment (statement :: rest)) before completion after :=
  first.bind further

/-- A statement that returns. -/
theorem Yields.returns {statement : Tree} {rest : List Tree} {found : Value}
    (first : Yields (execute setting call environment statement) before (.returned found) after) :
    Yields (executeAll setting call environment (statement :: rest)) before (.returned found) after :=
  first.bind yields_pure

/-- A report to the runtime, if it is there. -/
theorem yields_guardedRuntimeCall {method : String} {expression : Tree}
    (none : page.find? "window" environment.frames = none)
    (known : method = "show" ∨ method = "click") :
    Yields (execute setting call environment
        (Code.guardedRuntimeCall setting.runtimeGlobal method expression)) page .normal
      { page with
        trace := page.trace ++ if page.hasRuntime = true then
          [.report method (.own (setting.worth environment.render page.moment expression))]
          else [] } := by
  have runtime : Yields (evaluate setting call environment
      (Code.member (Code.reference "window") setting.runtimeGlobal)) page
      (if page.hasRuntime then .provided .runtime else .undefined) page := yields_runtime none
  by_cases present : page.hasRuntime = true
  · rw [if_pos present] at runtime ⊢
    have reported : Yields (report method
        [.own (setting.worth environment.render page.moment expression)]) page .undefined
        { page with
          trace := page.trace ++
            [.report method (.own (setting.worth environment.render page.moment expression))] } := by
      simp only [report, known, ↓reduceIte]
      exact yields_perform.bind yields_pure
    have called : Yields (evaluate setting call environment
        (Code.methodCall (Code.member (Code.reference "window") setting.runtimeGlobal) method
          [expression])) page .undefined
        { page with
          trace := page.trace ++
            [.report method (.own (setting.worth environment.render page.moment expression))] } :=
      runtime.bind (Yields.bind (yields_worthOf.bind (yields_pure.bind yields_pure)) reported)
    exact yields_ifThen runtime rfl ((yields_performed called).then yields_nil)
  · rw [if_neg present] at runtime ⊢
    rw [List.append_nil]
    exact yields_ifThen_not runtime rfl

end

/-! ## Calls -/

section

variable {setting : Setting} {depth : Nat}

/-- What a completion gives to the caller. -/
def Completion.result : Completion → Value
  | normal => .undefined
  | returned value => value

/-- A call of a function with statements. -/
theorem yields_call {address : Nat} {parameters statements : List Tree} {outer : Environment}
    {given : List Value} {completion : Completion}
    (has : before.cells[address]? =
      some (.function parameters (Code.block statements) outer))
    (runs : Yields (executeAll setting (call setting depth)
        { outer with frames := before.frames.length :: outer.frames } statements)
      (before.inside (parametersBound parameters given ++ declared statements)) completion after) :
    Yields (call setting (depth + 1) (.object address) given) before completion.result after := by
  refine (yields_cellAt has).bind (yields_enter.bind (runs.bind ?_))
  cases completion <;> exact yields_pure

/-- A call of a function that is an expression. -/
theorem yields_call_expression {address : Nat} {parameters : List Tree} {body : Tree}
    {outer : Environment} {given : List Value} {found : Value}
    (has : before.cells[address]? = some (.function parameters body outer))
    (expression : ∀ statements, body ≠ Code.block statements)
    (gives : Yields (evaluate setting (call setting depth)
        { outer with frames := before.frames.length :: outer.frames } body)
      (before.inside (parametersBound parameters given)) found after) :
    Yields (call setting (depth + 1) (.object address) given) before found after := by
  refine (yields_cellAt has).bind ?_
  split
  · rename_i same
    exact absurd (Cell.function.inj same).2.1 (expression _)
  · rename_i same
    obtain ⟨rfl, rfl, rfl⟩ := Cell.function.inj same
    exact yields_enter.bind gives
  · rename_i other
    exact absurd rfl (other _ _ _)

end

end JsxTracking.Page
