import JsxTracking.Host.Store
import Mathlib.Logic.Function.Basic

/-! # Threads on one store

Several actions may run on one store at the same time. A schedule says which of them goes on at each
step, and a step answers one request. Any requests may come between two requests of a thread, but
while one thread holds the summary, another that wants to hold it waits.

What is true of the store is told by views, one for each thread. An action *keeps to* the view of its
thread if each of its requests, in any state that the views describe, leads to one that they describe
again, with no view changed but its own (`Action.Keeps`). Such actions may be put one after another
(`FallibleAction.Keeps.bind`), and if all threads keep to their views, the views describe the store
under any schedule (`Threads.run_kept`).

Threads that hold and release the summary in turns (`Action.Turns`) never block each other for good:
any schedule can be extended to one under which all of them are done
(`Threads.exists_completion`). -/

namespace JsxTracking

variable {α β ε V : Type}

/-- Threads that run on one store. -/
structure Threads (α : Type) where
  store : Store
  /-- The thread that holds the summary. -/
  holder? : Option Nat := none
  /-- What the threads have yet to do. -/
  running : List (Action α)
  deriving Inhabited

namespace Threads

/-- Answer a request of a thread; nothing if the thread has to wait. -/
def answer? (thread : Nat) (holder? : Option Nat) (store : Store) :
    (request : Request) → Option (request.Answer × Option Nat × Store)
  | .holdSummary => if holder? = none then some ((), some thread, store) else none
  | .releaseSummary => some ((), none, store)
  | request => some ((store.answer request).1, holder?, (store.answer request).2)

/-- Let a thread go on by one request, if it is not done and need not wait. -/
def advance (threads : Threads α) (thread : Nat) : Threads α :=
  match threads.running[thread]? with
  | some (.ask request next) =>
    match answer? thread threads.holder? threads.store request with
    | some (answer, holder?, store) =>
      { store, holder?, running := threads.running.set thread (next answer) }
    | none => threads
  | _ => threads

/-- Let the threads go on as a schedule says. -/
def run (threads : Threads α) (schedule : List Nat) : Threads α :=
  schedule.foldl advance threads

/-- What an advance does: nothing, or the next request of the thread is answered. -/
theorem advance_cases (threads : Threads α) (thread : Nat) :
    threads.advance thread = threads ∨
      ∃ request next answer holder? store,
        threads.running[thread]? = some (.ask request next) ∧
        answer? thread threads.holder? threads.store request = some (answer, holder?, store) ∧
        threads.advance thread =
          { store, holder?, running := threads.running.set thread (next answer) } := by
  unfold advance
  split
  case h_1 request next found =>
    split
    case h_1 answer holder? store answered =>
      exact .inr ⟨request, next, answer, holder?, store, found, answered, rfl⟩
    case h_2 => exact .inl rfl
  case h_2 => exact .inl rfl

end Threads

namespace Action

/-- Whatever is answered, the action ends with an error. -/
def Fails : Action (Except ε α) → Prop
  | done (.ok _) => False
  | done (.error _) => True
  | ask _ next => ∀ answer, (next answer).Fails

/-- A failure is passed on. -/
theorem Fails.bind {action : Action (Except ε α)} (fails : action.Fails)
    {next : Except ε α → Action (Except ε β)} (passes : ∀ error, (next (.error error)).Fails) :
    (action >>= next).Fails := by
  induction action with
  | done result =>
    cases result with
    | ok value => exact fails.elim
    | error error => exact passes error
  | ask request answered ih => exact fun answer => ih answer (fails answer)

/-- The action of a thread keeps to the view of its thread, and unless it fails, the view is in the end
as demanded. -/
def Keeps (describe : (Nat → V) → Option Nat → Store → Prop) (thread : Nat) :
    Action (Except ε α) → V → (α → V → Prop) → Prop
  | done (.ok value), view, after => after value view
  | done (.error _), _, _ => True
  | ask request next, view, after =>
    ∀ views holder? store, describe views holder? store → views thread = view →
      ∀ answer later? later,
        Threads.answer? thread holder? store request = some (answer, later?, later) →
        (next answer).Fails ∨ ∃ changed, describe (Function.update views thread changed) later? later ∧
          (next answer).Keeps describe thread changed after

variable {describe : (Nat → V) → Option Nat → Store → Prop} {thread : Nat} {view : V}

/-- If the action ends as demanded, what comes next keeps to the view too. -/
theorem Keeps.bindWith {action : Action (Except ε α)} {middle : α → V → Prop} {after : β → V → Prop}
    {next : Except ε α → Action (Except ε β)} (keeps : action.Keeps describe thread view middle)
    (passes : ∀ error, (next (.error error)).Fails)
    (failed : ∀ error view, (next (.error error)).Keeps describe thread view after)
    (further : ∀ value view, middle value view →
      (next (.ok value)).Keeps describe thread view after) :
    (action >>= next).Keeps describe thread view after := by
  induction action generalizing view with
  | done result =>
    cases result with
    | ok value => exact further value view keeps
    | error error => exact failed error view
  | ask request answered ih =>
    intro views holder? store described same answer later? later given
    rcases keeps views holder? store described same answer later? later given with
      fails | ⟨changed, described, keeps⟩
    · exact .inl (fails.bind passes)
    · exact .inr ⟨changed, described, ih answer keeps⟩

end Action

namespace FallibleAction

variable {describe : (Nat → V) → Option Nat → Store → Prop} {thread : Nat} {view : V}

/-- The action keeps to the view of its thread. -/
def Keeps (describe : (Nat → V) → Option Nat → Store → Prop) (thread : Nat)
    (action : FallibleAction ε α) (view : V) (after : α → V → Prop) : Prop :=
  Action.Keeps describe thread action.run view after

theorem keeps_pure {value : α} {after : α → V → Prop} (there : after value view) :
    Keeps describe thread (pure value : FallibleAction ε α) view after :=
  there

/-- Actions that keep to a view may be put one after another. -/
theorem Keeps.bind {action : FallibleAction ε α} {next : α → FallibleAction ε β}
    {middle : α → V → Prop} {after : β → V → Prop} (keeps : Keeps describe thread action view middle)
    (further : ∀ value view, middle value view → Keeps describe thread (next value) view after) :
    Keeps describe thread (action >>= next) view after :=
  Action.Keeps.bindWith keeps (fun _ => trivial) (fun _ _ => trivial) further

/-- What comes after an action may be weakened. -/
theorem Keeps.mono {action : FallibleAction ε α} {after later : α → V → Prop}
    (keeps : Keeps describe thread action view after)
    (weaker : ∀ value view, after value view → later value view) :
    Keeps describe thread action view later := by
  have weakened {action : Action (Except ε α)} {view : V}
      (keeps : Action.Keeps describe thread action view after) :
      Action.Keeps describe thread action view later := by
    induction action generalizing view with
    | done result =>
      cases result with
      | ok value => exact weaker value view keeps
      | error error => trivial
    | ask request next ih =>
      intro views holder? store described same answer later? after answered
      refine (keeps views holder? store described same answer later? after answered).imp_right ?_
      exact fun ⟨changed, there, further⟩ => ⟨changed, there, ih answer further⟩
  exact weakened keeps

end FallibleAction

namespace Threads

variable {describe : (Nat → V) → Option Nat → Store → Prop} {threads : Threads (Except ε α)}

/-- A thread that is bound to fail still is after an advance. -/
theorem fails_advance (thread : Nat) (fails : ∃ action ∈ threads.running, action.Fails) :
    ∃ action ∈ (threads.advance thread).running, action.Fails := by
  rcases threads.advance_cases thread with same | ⟨request, next, answer, _, _, found, -, same⟩
  · rwa [same]
  · obtain ⟨action, member, fails⟩ := fails
    obtain ⟨index, here⟩ := List.getElem?_of_mem member
    rw [same]
    by_cases own : index = thread
    · subst own
      obtain rfl := Option.some.inj (here.symm.trans found)
      exact ⟨next answer, List.mem_set (List.getElem?_eq_some_iff.mp found).1 _, fails answer⟩
    · have still : (threads.running.set thread (next answer))[index]? = some action := by
        rw [List.getElem?_set_ne (Ne.symm own), here]
      exact ⟨action, List.mem_of_getElem? still, fails⟩

/-- The views describe the store, and every thread keeps to its own until it ends as demanded. -/
def IsKept (describe : (Nat → V) → Option Nat → Store → Prop) (demand : Nat → α → V → Prop)
    (threads : Threads (Except ε α)) : Prop :=
  ∃ views, describe views threads.holder? threads.store ∧
    ∀ thread action, threads.running[thread]? = some action →
      Action.Keeps describe thread action (views thread) (demand thread)

variable {demand : Nat → α → V → Prop}

/-- One step of a thread. -/
theorem IsKept.advance (kept : threads.IsKept describe demand) (thread : Nat) :
    (∃ action ∈ (threads.advance thread).running, action.Fails) ∨
      (threads.advance thread).IsKept describe demand := by
  rcases threads.advance_cases thread with
    same | ⟨request, next, answer, holder?, store, found, answered, same⟩
  · rw [same]
    exact .inr kept
  · obtain ⟨views, described, keeps⟩ := kept
    have inside := (List.getElem?_eq_some_iff.mp found).1
    rw [same]
    rcases keeps thread _ found views _ _ described rfl answer holder? store answered with
      fails | ⟨changed, described, further⟩
    · exact .inl ⟨next answer, List.mem_set inside _, fails⟩
    · refine .inr ⟨_, described, fun other action there => ?_⟩
      by_cases own : other = thread
      · subst own
        rw [List.getElem?_set_self inside] at there
        obtain rfl := Option.some.inj there
        rwa [Function.update_self]
      · rw [List.getElem?_set_ne (Ne.symm own)] at there
        rw [Function.update_of_ne own]
        exact keeps other action there

/-- **Threads that keep to their views.** Under any schedule a thread is bound to fail, or the views go
on to describe the store. -/
theorem run_kept (kept : threads.IsKept describe demand) (schedule : List Nat) :
    (∃ action ∈ (threads.run schedule).running, action.Fails) ∨
      (threads.run schedule).IsKept describe demand := by
  suffices either : ∀ threads : Threads (Except ε α),
      (∃ action ∈ threads.running, action.Fails) ∨ threads.IsKept describe demand →
      (∃ action ∈ (threads.run schedule).running, action.Fails) ∨
        (threads.run schedule).IsKept describe demand from either threads (.inr kept)
  intro threads state
  induction schedule generalizing threads with
  | nil => exact state
  | cons thread rest ih =>
    apply ih
    rcases state with fails | kept
    · exact .inl (fails_advance thread fails)
    · exact kept.advance thread

/-- Threads of which none fails keep to their views. -/
theorem run_kept_of_done (kept : threads.IsKept describe demand) {schedule : List Nat}
    (done : ∀ action ∈ (threads.run schedule).running, ∃ value, action = .done (.ok value)) :
    (threads.run schedule).IsKept describe demand := by
  refine (run_kept kept schedule).resolve_left fun ⟨action, among, fails⟩ => ?_
  obtain ⟨value, rfl⟩ := done action among
  exact fails

end Threads

/-! ## Threads on their own -/

namespace Threads

/-- What a store is after a request does not depend on who holds the summary. -/
theorem answer?_store {thread : Nat} {holder? later? : Option Nat} {store later : Store}
    {request : Request} {answer : request.Answer}
    (answered : answer? thread holder? store request = some (answer, later?, later)) :
    answer = (store.answer request).1 ∧ later = (store.answer request).2 := by
  cases request with
  | holdSummary =>
    simp only [answer?] at answered
    split at answered
    case isTrue =>
      cases answered
      exact ⟨rfl, rfl⟩
    case isFalse => cases answered
  | _ =>
    cases answered
    exact ⟨rfl, rfl⟩

/-- A thread need not wait if the summary is free. -/
theorem exists_answer_of_free (thread : Nat) (store : Store) (request : Request) :
    ∃ later?, answer? thread none store request =
      some ((store.answer request).1, later?, (store.answer request).2) := by
  cases request <;> exact ⟨_, rfl⟩

end Threads

namespace Action

theorem Fails.run {action : Action (Except ε α)} (fails : action.Fails) (store : Store) (value : α) :
    (action.run store).1 ≠ .ok value := by
  induction action generalizing store with
  | done result =>
    cases result with
    | ok value => exact fails.elim
    | error error => exact fun same => nomatch same
  | ask request next ih => exact ih _ (fails _) _

/-- An action that keeps to the view of a thread does so when it runs on its own, if who holds the
summary does not show in the views. -/
theorem Keeps.run {describe : (Nat → V) → Option Nat → Store → Prop} {thread : Nat} {view : V}
    {action : Action (Except ε α)} {after : α → V → Prop}
    (keeps : action.Keeps describe thread view after)
    (silent : ∀ views holder? store, describe views holder? store → describe views none store)
    {views : Nat → V} {store final : Store} {value : α} (described : describe views none store)
    (same : views thread = view) (ran : action.run store = (.ok value, final)) :
    ∃ changed, describe (Function.update views thread changed) none final ∧ after value changed := by
  induction action generalizing views view store with
  | done result =>
    obtain ⟨rfl, rfl⟩ := Prod.mk.inj ran
    refine ⟨view, ?_, keeps⟩
    rw [← same, Function.update_eq_self]
    exact described
  | ask request next ih =>
    obtain ⟨later?, answered⟩ := Threads.exists_answer_of_free thread store request
    rcases keeps views none store described same _ _ _ answered with fails | ⟨changed, still, further⟩
    · exact absurd (congrArg Prod.fst ran) (fails.run _ value)
    · obtain ⟨last, ended, after⟩ :=
        ih _ further (silent _ _ _ still) (Function.update_self ..) ran
      rw [Function.update_idem] at ended
      exact ⟨last, ended, after⟩

end Action

/-! ## Taking turns -/

/-- Whether the summary is held after a request of a thread, if the request is in turn. -/
def Request.turn (held : Bool) : Request → Option Bool
  | holdSummary => if held then none else some true
  | releaseSummary => if held then some false else none
  | _ => some held

namespace Action

/-- Whatever is answered, the summary is held and released in turns, at first and in the end as
given. -/
def Turns (last : Bool) : Bool → Action α → Prop
  | held, done _ => held = last
  | held, ask request next =>
    ∃ after, request.turn held = some after ∧ ∀ answer, (next answer).Turns last after

variable {held middle last : Bool}

theorem Turns.bind {action : Action α} {next : α → Action β} (turns : action.Turns middle held)
    (further : ∀ value, (next value).Turns last middle) : (action >>= next).Turns last held := by
  induction action generalizing held with
  | done value =>
    obtain rfl : held = middle := turns
    exact further value
  | ask request answered ih =>
    obtain ⟨after, turn, turns⟩ := turns
    exact ⟨after, turn, fun answer => ih answer (turns answer)⟩

end Action

/-- Actions that leave the summary held or not, as it was, may be put one after another. -/
theorem FallibleAction.turns_bind {held : Bool} {action : FallibleAction ε α}
    {next : α → FallibleAction ε β} (turns : Action.Turns held held action.run)
    (further : ∀ value, Action.Turns held held (next value).run) :
    Action.Turns held held (action >>= next).run :=
  turns.bind fun result =>
    match result with
    | .ok value => further value
    | .error _ => rfl

namespace Threads

/-- Every thread holds and releases the summary in turns, and a thread that holds it is there. -/
def AreTurning (threads : Threads α) : Prop :=
  (∀ holder, threads.holder? = some holder → holder < threads.running.length) ∧
    ∀ thread action, threads.running[thread]? = some action →
      Action.Turns false (threads.holder? = some thread) action

variable {threads : Threads α}

/-- A request in turn is answered if no other thread holds the summary. -/
theorem exists_answer {thread : Nat} {holder? : Option Nat}
    (free : holder? = none ∨ holder? = some thread) (store : Store) {request : Request} {after : Bool}
    (turn : request.turn (holder? = some thread) = some after) :
    ∃ answer later, answer? thread holder? store request =
      some (answer, if after then some thread else none, later) := by
  rcases free with rfl | rfl <;> cases request <;> simp [Request.turn] at turn <;> subst turn <;>
    exact ⟨_, _, rfl⟩

/-- After an answer the summary is held as the request in turn says, and what it was for the other
threads it still is. -/
theorem answer?_turn {thread : Nat} {holder? later? : Option Nat} {store later : Store}
    {request : Request} {answer : request.Answer} {after : Bool}
    (answered : answer? thread holder? store request = some (answer, later?, later))
    (turn : request.turn (holder? = some thread) = some after) :
    (later? = some thread ↔ after = true) ∧
      (∀ other, other ≠ thread → (later? = some other ↔ holder? = some other)) := by
  cases request with
  | holdSummary =>
    simp only [answer?] at answered
    split at answered
    case isTrue free =>
      simp only [Option.some.injEq, Prod.mk.injEq] at answered
      obtain ⟨-, rfl, -⟩ := answered
      subst free
      obtain rfl : true = after := by simpa [Request.turn] using turn
      exact ⟨by simp, fun other differs => by simp [Ne.symm differs]⟩
    case isFalse => cases answered
  | releaseSummary =>
    simp only [answer?, Option.some.injEq, Prod.mk.injEq] at answered
    obtain ⟨-, rfl, -⟩ := answered
    by_cases held : holder? = some thread
    · obtain rfl : false = after := by simpa [Request.turn, held] using turn
      exact ⟨by simp, fun other differs => by simp [held, Ne.symm differs]⟩
    · simp [Request.turn, held] at turn
  | _ =>
    simp only [answer?, Option.some.injEq, Prod.mk.injEq] at answered
    obtain ⟨-, rfl, -⟩ := answered
    obtain rfl := Option.some.inj turn
    exact ⟨by simp, fun other _ => Iff.rfl⟩

/-- Threads that take turns go on to take turns. -/
theorem AreTurning.advance (turning : threads.AreTurning) (thread : Nat) :
    (threads.advance thread).AreTurning := by
  rcases threads.advance_cases thread with
    same | ⟨request, next, answer, later?, later, found, answered, same⟩
  · rwa [same]
  · obtain ⟨there, turns⟩ := turning
    obtain ⟨after, turn, further⟩ := turns thread _ found
    obtain ⟨own, others⟩ := answer?_turn answered turn
    have inside := (List.getElem?_eq_some_iff.mp found).1
    rw [same]
    refine ⟨fun holder holds => ?_, fun other action running => ?_⟩
    · rw [List.length_set]
      by_cases self : holder = thread
      · rwa [self]
      · exact there holder ((others holder self).mp holds)
    · by_cases self : other = thread
      · subst self
        rw [List.getElem?_set_self inside] at running
        obtain rfl := Option.some.inj running
        have held : decide (later? = some other) = after := by
          cases after <;> simpa using own
        change (next answer).Turns false (decide (later? = some other))
        rw [held]
        exact further answer
      · rw [List.getElem?_set_ne (Ne.symm self)] at running
        have held : decide (later? = some other) = decide (threads.holder? = some other) := by
          simp only [others other self]
        change action.Turns false (decide (later? = some other))
        rw [held]
        exact turns other action running

theorem run_append (threads : Threads α) (front back : List Nat) :
    threads.run (front ++ back) = (threads.run front).run back :=
  List.foldl_append

@[simp] theorem length_advance (threads : Threads α) (thread : Nat) :
    (threads.advance thread).running.length = threads.running.length := by
  rcases threads.advance_cases thread with same | ⟨_, _, _, _, _, -, -, same⟩
  · rw [same]
  · rw [same, List.length_set]

theorem length_run (threads : Threads α) (schedule : List Nat) :
    (threads.run schedule).running.length = threads.running.length := by
  induction schedule generalizing threads with
  | nil => rfl
  | cons thread rest ih => exact (ih (threads.advance thread)).trans (length_advance threads thread)

theorem AreTurning.run (turning : threads.AreTurning) (schedule : List Nat) :
    (threads.run schedule).AreTurning := by
  induction schedule generalizing threads with
  | nil => exact turning
  | cons thread rest ih => exact ih (turning.advance thread)

/-- A thread gets done if no other holds the summary. -/
theorem AreTurning.exists_done (turning : threads.AreTurning) {thread : Nat} {action : Action α}
    (running : threads.running[thread]? = some action)
    (free : threads.holder? = none ∨ threads.holder? = some thread) :
    ∃ schedule value, (threads.run schedule).holder? = none ∧
      (threads.run schedule).running = threads.running.set thread (.done value) := by
  induction action generalizing threads with
  | done value =>
    have released : threads.holder? ≠ some thread := by
      simpa [Action.Turns] using turning.2 thread _ running
    refine ⟨[], value, free.resolve_right released, ?_⟩
    have inside := (List.getElem?_eq_some_iff.mp running).1
    rw [← (List.getElem?_eq_some_iff.mp running).2]
    exact (List.set_getElem_self inside).symm
  | ask request next ih =>
    obtain ⟨after, turn, -⟩ := turning.2 thread _ running
    obtain ⟨answer, later, answered⟩ := exists_answer free threads.store turn
    have inside := (List.getElem?_eq_some_iff.mp running).1
    have advanced : threads.advance thread =
        { store := later, holder? := if after then some thread else none,
          running := threads.running.set thread (next answer) } := by
      rw [Threads.advance, running]
      simp only [answered]
    have freed : (threads.advance thread).holder? = none ∨
        (threads.advance thread).holder? = some thread := by
      rw [advanced]
      cases after <;> simp
    obtain ⟨schedule, value, released, rest⟩ :=
      ih answer (turning.advance thread) (by rw [advanced]; exact List.getElem?_set_self inside) freed
    refine ⟨thread :: schedule, value, released, rest.trans ?_⟩
    rw [advanced]
    exact List.set_set _

/-- **No thread blocks the others for good.** From wherever threads are that take turns, some schedule
leads to all of them being done. -/
theorem AreTurning.exists_completion (turning : threads.AreTurning) :
    ∃ schedule, ∀ action ∈ (threads.run schedule).running, ∃ value, action = .done value := by
  have freed : ∃ schedule, (threads.run schedule).holder? = none := by
    cases held : threads.holder? with
    | none => exact ⟨[], held⟩
    | some holder =>
      have running := List.getElem?_eq_getElem (turning.1 holder held)
      obtain ⟨schedule, -, released, -⟩ := turning.exists_done running (.inr held)
      exact ⟨schedule, released⟩
  have upTo (count : Nat) : ∃ schedule, (threads.run schedule).holder? = none ∧
      ∀ thread < count, ∀ action, (threads.run schedule).running[thread]? = some action →
        ∃ value, action = Action.done value := by
    induction count with
    | zero =>
      obtain ⟨schedule, released⟩ := freed
      exact ⟨schedule, released, fun thread below => absurd below (Nat.not_lt_zero thread)⟩
    | succ count ih =>
      obtain ⟨schedule, released, done⟩ := ih
      cases next : (threads.run schedule).running[count]? with
      | none =>
        refine ⟨schedule, released, fun thread below action running => ?_⟩
        rcases Nat.lt_succ_iff_lt_or_eq.mp below with below | rfl
        · exact done thread below action running
        · rw [next] at running
          cases running
      | some action =>
        obtain ⟨more, value, later, changed⟩ :=
          (turning.run schedule).exists_done next (.inl released)
        refine ⟨schedule ++ more, by rwa [run_append], fun thread below action running => ?_⟩
        rw [run_append, changed, List.getElem?_set] at running
        rcases Nat.lt_succ_iff_lt_or_eq.mp below with below | rfl
        · rw [if_neg (Nat.ne_of_gt below)] at running
          exact done thread below action running
        · rw [if_pos rfl] at running
          split at running
          · exact ⟨value, (Option.some.inj running).symm⟩
          · cases running
  obtain ⟨schedule, -, done⟩ := upTo threads.running.length
  refine ⟨schedule, fun action among => ?_⟩
  obtain ⟨thread, running⟩ := List.getElem?_of_mem among
  have inside := (List.getElem?_eq_some_iff.mp running).1
  exact done thread (by rwa [length_run] at inside) action running

end Threads

end JsxTracking
