import JsxTracking.Proofs.HookPlacement
import JsxTracking.Proofs.Settlement
import Mathlib.Data.List.Nodup
import Mathlib.Data.List.Perm.Basic

/-! # A registry shared by modules

The modules of a build may be transformed at the same time, against one registry. Registering a point
is a single step of it, and between two points of one module the others may register theirs. A
schedule says which module goes on at each step. Whatever the schedule, the calls of the registry are
those of one module that has the points of all of them in the order of the calls
(`SharedBuild.run_progress`). So the first point with a key is registered, and every later one is
answered with it (`SharedBuild.run_settled`); which keys are registered in the end and how many points
are reported as duplicates does not depend on the schedule. -/

namespace JsxTracking

/-- A key tells the kind and the name of a point. -/
theorem TrackingPoint.key_eq_iff {point other : TrackingPoint} :
    point.key = other.key ↔ point.kind = other.kind ∧ point.name = other.name := by
  obtain ⟨kind, name, elementName, file, dynamic⟩ := point
  obtain ⟨otherKind, otherName, otherElement, otherFile, otherDynamic⟩ := other
  simp only [key]
  constructor
  · intro same
    have chars := congrArg String.toList same
    cases kind <;> cases otherKind <;> simp [MarkerKind.label, String.ext_iff] at chars ⊢ <;>
      exact chars
  · rintro ⟨rfl, rfl⟩
    rfl

/-- Whether the point has a given kind and a given literal name. -/
def TrackingPoint.isLiteral (kind : MarkerKind) (name : String) (point : TrackingPoint) : Bool :=
  !point.dynamic && point.kind = kind && point.name = name

theorem TrackingPoint.isLiteral_iff {kind : MarkerKind} {name : String} {point : TrackingPoint} :
    point.isLiteral kind name = true ↔
      point.dynamic = false ∧ point.kind = kind ∧ point.name = name := by
  simp [isLiteral, and_assoc]

namespace Registry

/-- The keys that are taken. -/
def keys (registry : Registry) : List String :=
  registry.entries.map Prod.fst

/-- The first of some points with a key of their own that has the given one. -/
def firstWith (key : String) (points : List TrackingPoint) : Option TrackingPoint :=
  points.find? fun point => !point.dynamic && point.key = key

/-- What is answered to a point after some earlier ones. -/
def answerAfter (earlier : List TrackingPoint) (point : TrackingPoint) : Registration :=
  if point.dynamic then .unkeyed
  else
    match firstWith point.key earlier with
    | some first => .duplicate first
    | none => .registered

/-- A registry knows points if it holds the first of them for every key. -/
def Knows (registry : Registry) (points : List TrackingPoint) : Prop :=
  ∀ key, registry.get? key = firstWith key points

theorem knows_empty : Knows .empty [] := fun _ => rfl

/-- A dynamic point is never registered. -/
theorem register_dynamic (registry : Registry) {point : TrackingPoint}
    (dynamic : point.dynamic = true) : registry.register point = (.unkeyed, registry) := by
  simp [register, dynamic]

theorem register_taken {registry : Registry} {point first : TrackingPoint}
    (keyed : point.dynamic = false) (taken : registry.get? point.key = some first) :
    registry.register point = (.duplicate first, registry) := by
  simp [register, keyed, taken]

theorem register_free {registry : Registry} {point : TrackingPoint}
    (keyed : point.dynamic = false) (free : registry.get? point.key = none) :
    registry.register point =
      (.registered, { entries := registry.entries ++ [(point.key, point)] }) := by
  simp [register, keyed, free]

/-- The cases of registering a point. -/
theorem register_cases (registry : Registry) (point : TrackingPoint) :
    (point.dynamic = true ∧ registry.register point = (.unkeyed, registry)) ∨
      (point.dynamic = false ∧ ∃ first, registry.get? point.key = some first ∧
        registry.register point = (.duplicate first, registry)) ∨
      (point.dynamic = false ∧ registry.get? point.key = none ∧
        registry.register point =
          (.registered, { entries := registry.entries ++ [(point.key, point)] })) := by
  cases keyed : point.dynamic with
  | true => exact .inl ⟨rfl, registry.register_dynamic keyed⟩
  | false =>
    cases taken : registry.get? point.key with
    | some first => exact .inr (.inl ⟨rfl, first, rfl, register_taken keyed taken⟩)
    | none => exact .inr (.inr ⟨rfl, rfl, register_free keyed taken⟩)

theorem get?_append (entries : List (String × TrackingPoint)) (key : String)
    (point : TrackingPoint) (other : String) :
    get? { entries := entries ++ [(key, point)] } other =
      (get? { entries } other).or (if other = key then some point else none) := by
  by_cases same : other = key <;>
    simp [get?, List.lookup_append, List.lookup_cons, same, beq_eq_false_iff_ne.mpr]

theorem firstWith_append (key : String) (front back : List TrackingPoint) :
    firstWith key (front ++ back) = (firstWith key front).or (firstWith key back) :=
  List.find?_append

/-- The first point with a key is answered to a later one, and a registry goes on knowing all
points. -/
theorem Knows.register {registry : Registry} {points : List TrackingPoint}
    (knows : registry.Knows points) (point : TrackingPoint) :
    (registry.register point).1 = answerAfter points point ∧
      (registry.register point).2.Knows (points ++ [point]) := by
  rcases registry.register_cases point with
    ⟨dynamic, same⟩ | ⟨keyed, first, taken, same⟩ | ⟨keyed, free, same⟩
  · refine ⟨by simp [same, answerAfter, dynamic], fun key => ?_⟩
    rw [same, knows key, firstWith_append]
    simp [firstWith, dynamic]
  · have known := (knows point.key).symm.trans taken
    refine ⟨by simp [same, answerAfter, keyed, known], fun key => ?_⟩
    rw [same, knows key, firstWith_append]
    by_cases own : point.key = key
    · rw [← own, known, Option.some_or]
    · simp [firstWith, own]
  · have unknown := (knows point.key).symm.trans free
    refine ⟨by simp [same, answerAfter, keyed, unknown], fun key => ?_⟩
    rw [same, firstWith_append, get?_append, knows key]
    by_cases own : point.key = key <;> simp [firstWith, keyed, own, Ne.symm]

/-- Registering more points answers each of them as the first points before it demand. -/
theorem Knows.registerAll {registry : Registry} {points : List TrackingPoint}
    (knows : registry.Knows points) (more : List TrackingPoint) :
    (registry.registerAll more).2.Knows (points ++ more) := by
  induction more generalizing registry points with
  | nil => rwa [List.append_nil]
  | cons point rest ih =>
    have further := ih (knows.register point).2
    rwa [List.append_assoc] at further

/-- A call is answered as the points before it demand. -/
theorem answer_of_split {calls front back : List Call} {call : Call}
    (registered : (Registry.empty.registerAll (calls.map Call.point)).1 = calls)
    (split : calls = front ++ call :: back) :
    call.answer = answerAfter (front.map Call.point) call.point := by
  have points : calls.map Call.point =
      front.map Call.point ++ call.point :: back.map Call.point := by
    rw [split, List.map_append, List.map_cons]
  have knows : (Registry.empty.registerAll (front.map Call.point)).2.Knows (front.map Call.point) :=
    knows_empty.registerAll (front.map Call.point)
  have lengths : (Registry.empty.registerAll (front.map Call.point)).1.length = front.length := by
    rw [← List.length_map Call.point, map_point_registerAll, List.length_map]
  rw [points, registerAll_append, split] at registered
  have behind := (List.append_inj registered lengths).2
  have answered : ((Registry.empty.registerAll (front.map Call.point)).2.register call.point).1 =
      call.answer := congrArg Call.answer (List.cons.inj behind).1
  rw [← answered, (knows.register call.point).1]

/-- The first call for points of a kind and a name is answered that the point is registered, every
later one with the point of the first. -/
def FirstWins (kind : MarkerKind) (name : String) (calls : List Call) : Prop :=
  ∃ front first back, calls = front ++ first :: back ∧
    first.point.isLiteral kind name = true ∧ first.answer = .registered ∧
    (∀ call ∈ front, call.point.isLiteral kind name = false) ∧
    ∀ call ∈ back, call.point.isLiteral kind name = true → call.answer = .duplicate first.point

theorem firstWith_of_isLiteral {kind : MarkerKind} {name : String} {point : TrackingPoint}
    (literal : point.isLiteral kind name = true) (points : List TrackingPoint) :
    firstWith point.key points = points.find? (TrackingPoint.isLiteral kind name) := by
  obtain ⟨-, rfl, rfl⟩ := TrackingPoint.isLiteral_iff.mp literal
  apply congrArg (List.find? · points)
  funext other
  rw [Bool.eq_iff_iff, TrackingPoint.isLiteral_iff]
  simp [TrackingPoint.key_eq_iff]

/-- A call is answered with the first point of the same kind and name, if there is an earlier one. -/
theorem answerAfter_of_isLiteral {kind : MarkerKind} {name : String} {point : TrackingPoint}
    (literal : point.isLiteral kind name = true) (earlier : List TrackingPoint) :
    answerAfter earlier point =
      match earlier.find? (TrackingPoint.isLiteral kind name) with
      | some first => .duplicate first
      | none => .registered := by
  rw [answerAfter, (TrackingPoint.isLiteral_iff.mp literal).1, firstWith_of_isLiteral literal]
  rfl

theorem answerAfter_duplicate {earlier : List TrackingPoint} {point first : TrackingPoint}
    (duplicate : answerAfter earlier point = .duplicate first) :
    point.dynamic = false ∧ first.dynamic = false ∧ point.kind = first.kind ∧
      point.name = first.name := by
  unfold answerAfter at duplicate
  split at duplicate
  case isTrue => cases duplicate
  case isFalse keyed =>
    split at duplicate
    case h_2 => cases duplicate
    case h_1 found =>
      cases duplicate
      have same := List.find?_some found
      rw [Bool.and_eq_true, decide_eq_true_eq, TrackingPoint.key_eq_iff] at same
      exact ⟨Bool.eq_false_iff.mpr keyed, by simpa using same.1, same.2.1.symm, same.2.2.symm⟩

/-- Of the calls for points of one kind and one name, the first wins. -/
theorem firstWins {calls : List Call}
    (registered : (Registry.empty.registerAll (calls.map Call.point)).1 = calls)
    {kind : MarkerKind} {name : String}
    (occurs : ∃ call ∈ calls, call.point.isLiteral kind name = true) :
    FirstWins kind name calls := by
  obtain ⟨first, found⟩ := Option.isSome_iff_exists.mp
    (List.find?_isSome.mpr occurs : (calls.find? fun call => call.point.isLiteral kind name).isSome)
  obtain ⟨literal, front, back, split, before⟩ := List.find?_eq_some_iff_append.mp found
  have none : (front.map Call.point).find? (TrackingPoint.isLiteral kind name) = none := by
    rw [List.find?_map, List.find?_eq_none.mpr]
    · rfl
    · intro call among
      simpa using before call among
  refine ⟨front, first, back, split, literal, ?_, ?_, ?_⟩
  · rw [answer_of_split registered split, answerAfter_of_isLiteral literal, none]
  · intro call among
    simpa using before call among
  · intro call among same
    obtain ⟨middle, rest, splitBack⟩ := List.mem_iff_append.mp among
    have later : calls = (front ++ first :: middle) ++ call :: rest := by
      rw [split, splitBack, List.append_assoc, List.cons_append]
    rw [answer_of_split registered later, answerAfter_of_isLiteral same, List.map_append,
      List.find?_append, none, List.map_cons, List.find?_cons_of_pos literal, Option.none_or]

/-- A point with a key of its own is a duplicate or takes a key. -/
theorem register_counts (registry : Registry) (point : TrackingPoint) :
    (Call.duplicate? ⟨point, (registry.register point).1⟩).toList.length +
        (registry.register point).2.keys.length =
      registry.keys.length + if point.dynamic then 0 else 1 := by
  rcases registry.register_cases point with
    ⟨dynamic, same⟩ | ⟨keyed, first, -, same⟩ | ⟨keyed, -, same⟩
  · simp [same, Call.duplicate?, Registration.earlier?, dynamic]
  · simp [same, Call.duplicate?, Registration.earlier?, keyed, Nat.add_comm]
  · simp [same, Call.duplicate?, Registration.earlier?, keyed, keys]

/-- Every point with a key of its own is a duplicate or takes a key. -/
theorem registerAll_counts (registry : Registry) (points : List TrackingPoint) :
    let registered := registry.registerAll points
    (registered.1.filterMap Call.duplicate?).length + registered.2.keys.length =
      registry.keys.length + (points.filter fun point => !point.dynamic).length := by
  induction points generalizing registry with
  | nil => exact Nat.add_comm _ _
  | cons point rest ih =>
    have here := registry.register_counts point
    have later := ih (registry.register point).2
    simp only [registerAll_cons, List.filterMap_cons, List.filter_cons] at later ⊢
    cases duplicate : Call.duplicate? ⟨point, (registry.register point).1⟩ <;>
      cases keyed : point.dynamic <;>
        simp only [duplicate, keyed, Option.toList_none, Option.toList_some, List.length_nil,
          List.length_cons, Bool.not_true, Bool.not_false, Bool.false_eq_true, ↓reduceIte]
          at here ⊢ <;>
        omega

theorem mem_keys_iff {registry : Registry} {key : String} :
    key ∈ registry.keys ↔ (registry.get? key).isSome = true := by
  simp [keys, get?]

/-- A key is taken once. -/
theorem nodup_keys_registerAll {registry : Registry} (distinct : registry.keys.Nodup)
    (points : List TrackingPoint) : (registry.registerAll points).2.keys.Nodup := by
  induction points generalizing registry with
  | nil => exact distinct
  | cons point rest ih =>
    have next : (registry.register point).2.keys.Nodup := by
      rcases registry.register_cases point with ⟨-, same⟩ | ⟨-, first, -, same⟩ | ⟨-, free, same⟩
      · rwa [same]
      · rwa [same]
      · have absent : point.key ∉ registry.keys := by simp [mem_keys_iff, free]
        have extended : (registry.register point).2.keys = registry.keys ++ [point.key] := by
          simp [same, keys]
        rw [extended]
        exact List.nodup_append.mpr ⟨distinct, List.nodup_singleton _,
          fun key among other own same => absent (List.mem_singleton.mp own ▸ same ▸ among)⟩
    exact ih next

/-- The keys that are taken in the end are those of the points that have one. -/
theorem mem_keys_registerAll {points : List TrackingPoint} {key : String} :
    key ∈ (Registry.empty.registerAll points).2.keys ↔
      ∃ point ∈ points, point.dynamic = false ∧ point.key = key := by
  have known : (Registry.empty.registerAll points).2.get? key = firstWith key points :=
    knows_empty.registerAll points key
  rw [mem_keys_iff, known, firstWith, List.find?_isSome]
  simp

/-- Dynamic points leave a registry as it is. -/
theorem registerAll_keyed (registry : Registry) (points : List TrackingPoint) :
    (registry.registerAll points).2 =
      (registry.registerAll (points.filter fun point => !point.dynamic)).2 := by
  induction points generalizing registry with
  | nil => rfl
  | cons point rest ih =>
    cases keyed : point.dynamic with
    | true =>
      rw [List.filter_cons_of_neg (by simp [keyed]), ← ih]
      simp only [registerAll, registry.register_dynamic keyed]
    | false =>
      rw [List.filter_cons_of_pos (by simp [keyed])]
      exact ih _

end Registry

/-- A module that is to be transformed. -/
structure ModuleJob where
  options : Options := {}
  file : String
  source? : Option String := none
  items : List Tree
  deriving Repr, Inhabited

namespace ModuleJob

/-- The outcome of transforming the module against a registry. -/
def transform (job : ModuleJob) (registry : Registry) : ModuleOutput × Registry :=
  transformModule job.options registry job.file job.source? job.items

/-- What is found in the module. -/
def findings (job : ModuleJob) : List Finding :=
  moduleFindings job.options job.file job.source? job.items

theorem points_transform (job : ModuleJob) (registry : Registry) :
    (job.transform registry).1.points = job.findings.filterMap Finding.point? := by
  have settles := transformModule_settles job.options registry job.file job.source? job.items
  rw [← (registry.settle_spec job.file job.findings (fun _ => false) fun _ _ => rfl).1]
  exact congrArg (fun settled => settled.1.points) settles.symm

end ModuleJob

/-- A module whose findings are being settled. -/
structure Settling where
  file : String
  /-- The findings that are still to be settled. -/
  pending : List Finding
  report : Report := {}
  deriving DecidableEq, Repr, Inhabited

/-- Modules that are being transformed at the same time, and their registry. -/
structure SharedBuild where
  registry : Registry := .empty
  modules : List Settling
  deriving DecidableEq, Repr, Inhabited

namespace SharedBuild

/-- The modules before anything of them is settled, with an empty registry. -/
def start (jobs : List ModuleJob) : SharedBuild where
  modules := jobs.map fun job => { file := job.file, pending := job.findings }

/-- Let a module settle its next finding, if it has one. What is given to the registry is one call,
which no other module can interrupt. -/
def advance (build : SharedBuild) (index : Nat) : List (Nat × Registry.Call) × SharedBuild :=
  match build.modules[index]? with
  | some ⟨file, finding :: pending, report⟩ =>
    let calls : List Registry.Call :=
      finding.point?.toList.map fun point => ⟨point, (build.registry.register point).1⟩
    let (report, registry) := Registry.settleOne file (report, build.registry) finding
    (calls.map (index, ·),
      { registry, modules := build.modules.set index ⟨file, pending, report⟩ })
  | _ => ([], build)

/-- Let the modules go on as a schedule says; the calls of the registry, each with the module it is
of, and what comes out. -/
def run (build : SharedBuild) : List Nat → List (Nat × Registry.Call) × SharedBuild
  | [] => ([], build)
  | index :: schedule =>
    let (calls, build) := build.advance index
    let (further, final) := build.run schedule
    (calls ++ further, final)

/-- Whether all findings are settled. -/
def isFinished (build : SharedBuild) : Bool :=
  build.modules.all fun settling => settling.pending.isEmpty

/-- The points that are still to be registered. -/
def pendingPoints (build : SharedBuild) : List TrackingPoint :=
  build.modules.flatMap fun settling => settling.pending.filterMap Finding.point?

/-- The diagnostics about duplicates in all reports. -/
def duplicates (build : SharedBuild) : List Diagnostic :=
  build.modules.flatMap fun settling =>
    settling.report.diagnostics.filter fun diagnostic => diagnostic.code = .duplicateKey

/-- The calls of one module. -/
def callsOf (index : Nat) (calls : List (Nat × Registry.Call)) : List Registry.Call :=
  (calls.filter fun call => call.1 = index).map Prod.snd

theorem callsOf_append (index : Nat) (calls further : List (Nat × Registry.Call)) :
    callsOf index (calls ++ further) = callsOf index calls ++ callsOf index further := by
  rw [callsOf, List.filter_append, List.map_append, callsOf, callsOf]

theorem callsOf_own (index : Nat) (calls : List Registry.Call) :
    callsOf index (calls.map (index, ·)) = calls := by
  simp [callsOf, List.filter_map, Function.comp_def]

theorem callsOf_other {index other : Nat} (different : other ≠ index)
    (calls : List Registry.Call) : callsOf other (calls.map (index, ·)) = [] := by
  simp [callsOf, List.filter_map, Function.comp_def, different.symm]

/-- The points of calls. -/
def pointsOf (calls : List (Nat × Registry.Call)) : List TrackingPoint :=
  calls.map fun call => call.2.point

end SharedBuild

namespace Settling

/-- Only registering tells that a point is a duplicate. -/
def Unregistered (settling : Settling) : Prop :=
  ∀ problem line?, .problem problem line? ∈ settling.pending → problem.code ≠ .duplicateKey

/-- What settling findings does to a module, given its calls: its points are those of the calls, and
it reports the calls. -/
structure Leads (settling : Settling) (calls : List Registry.Call) (later : Settling) : Prop where
  file : later.file = settling.file
  pending : ∃ settled, settling.pending = settled ++ later.pending ∧
    settled.filterMap Finding.point? = calls.map Registry.Call.point
  points : later.report.points = settling.report.points ++ calls.map Registry.Call.point
  reports : ∃ said, later.report.diagnostics = settling.report.diagnostics ++ said ∧
    Registry.Reports settling.file calls said

namespace Leads

theorem refl (settling : Settling) : settling.Leads [] settling where
  file := rfl
  pending := ⟨[], rfl, rfl⟩
  points := (List.append_nil _).symm
  reports := ⟨[], (List.append_nil _).symm, .nil⟩

theorem trans {settling middle later : Settling} {calls further : List Registry.Call}
    (leads : settling.Leads calls middle) (onward : middle.Leads further later) :
    settling.Leads (calls ++ further) later where
  file := onward.file.trans leads.file
  pending := by
    obtain ⟨settled, split, points⟩ := leads.pending
    obtain ⟨more, laterSplit, laterPoints⟩ := onward.pending
    refine ⟨settled ++ more, ?_, ?_⟩
    · rw [split, laterSplit, List.append_assoc]
    · rw [List.filterMap_append, points, laterPoints, List.map_append]
  points := by rw [onward.points, leads.points, List.append_assoc, List.map_append]
  reports := by
    obtain ⟨said, told, reports⟩ := leads.reports
    obtain ⟨more, laterTold, laterReports⟩ := onward.reports
    refine ⟨said ++ more, ?_, ?_⟩
    · rw [laterTold, told, List.append_assoc]
    · exact reports.append (leads.file ▸ laterReports)

/-- The points of the calls are no longer pending. -/
theorem remaining {settling later : Settling} {calls : List Registry.Call}
    (leads : settling.Leads calls later) :
    settling.pending.filterMap Finding.point? =
      calls.map Registry.Call.point ++ later.pending.filterMap Finding.point? := by
  obtain ⟨settled, split, points⟩ := leads.pending
  rw [split, List.filterMap_append, points]

/-- A single finding. -/
theorem settleOne {file : String} {finding : Finding} {pending : List Finding} {report : Report}
    (plain : Unregistered ⟨file, finding :: pending, report⟩) (registry : Registry) :
    Leads ⟨file, finding :: pending, report⟩
      (finding.point?.toList.map fun point => ⟨point, (registry.register point).1⟩)
      ⟨file, pending, (Registry.settleOne file (report, registry) finding).1⟩ := by
  cases finding with
  | problem found line? =>
    have other := plain found line? List.mem_cons_self
    exact ⟨rfl, ⟨[.problem found line?], rfl, rfl⟩, (List.append_nil _).symm,
      [found.diagnostic file line?], rfl, Registry.reports_problem file other line?⟩
  | point found line? =>
    rw [Registry.settleOne_point]
    exact ⟨rfl, ⟨[.point found line?], rfl, rfl⟩, rfl,
      Registry.Call.diagnostics ⟨found, (registry.register found).1⟩ file line?, rfl,
      Registry.Call.reports_diagnostics ⟨found, (registry.register found).1⟩ file line?⟩

/-- A module gets as many diagnostics about duplicates as its calls are answered with earlier
points. -/
theorem duplicates {settling later : Settling} {calls : List Registry.Call}
    (leads : settling.Leads calls later) :
    (later.report.diagnostics.filter fun diagnostic => diagnostic.code = .duplicateKey).length =
      (settling.report.diagnostics.filter fun diagnostic =>
          diagnostic.code = .duplicateKey).length +
        (calls.filterMap Registry.Call.duplicate?).length := by
  obtain ⟨said, told, reports⟩ := leads.reports
  rw [told, List.filter_append, List.length_append, reports.length]

end Leads

end Settling

namespace SharedBuild

/-- A step changes nothing, or settles the next finding of one module. -/
theorem advance_cases (build : SharedBuild) (index : Nat) :
    build.advance index = ([], build) ∨
      ∃ front file finding pending report back,
        build.modules = front ++ ⟨file, finding :: pending, report⟩ :: back ∧
        front.length = index ∧
        build.advance index =
          ((finding.point?.toList.map fun point =>
              (⟨point, (build.registry.register point).1⟩ : Registry.Call)).map (index, ·),
            { registry := (Registry.settleOne file (report, build.registry) finding).2
              modules := front ++ ⟨file, pending,
                (Registry.settleOne file (report, build.registry) finding).1⟩ :: back }) := by
  cases held : build.modules[index]? with
  | none => exact .inl (by simp [advance, held])
  | some settling =>
    obtain ⟨file, _ | ⟨finding, pending⟩, report⟩ := settling
    · exact .inl (by simp [advance, held])
    · obtain ⟨inside, there⟩ := List.getElem?_eq_some_iff.mp held
      have split : build.modules = build.modules.take index ++
          ⟨file, finding :: pending, report⟩ :: build.modules.drop (index + 1) := by
        rw [← there, List.getElem_cons_drop, List.take_append_drop]
      refine .inr ⟨_, file, finding, pending, report, _, split, ?_, ?_⟩
      · exact List.length_take_of_le inside.le
      · simp only [advance, held, List.set_eq_take_append_cons_drop, inside, ↓reduceIte]

theorem getElem?_middle_of_ne {front back : List Settling} {first second : Settling} {index : Nat}
    (different : index ≠ front.length) :
    (front ++ first :: back)[index]? = (front ++ second :: back)[index]? := by
  have same : front ++ first :: back = (front ++ second :: back).set front.length first := by simp
  rw [same, List.getElem?_set_ne different.symm]

theorem advance_unregistered {build : SharedBuild}
    (plain : ∀ settling ∈ build.modules, settling.Unregistered) (index : Nat) :
    ∀ settling ∈ (build.advance index).2.modules, settling.Unregistered := by
  rcases build.advance_cases index with
    same | ⟨front, file, finding, pending, report, back, split, -, same⟩
  · rwa [same]
  · rw [same]
    rw [split] at plain
    simp only [List.mem_append, List.mem_cons] at plain ⊢
    rintro settling (before | rfl | behind)
    · exact plain settling (.inl before)
    · intro problem line? among
      exact plain _ (.inr (.inl rfl)) problem line? (List.mem_cons_of_mem _ among)
    · exact plain settling (.inr (.inr behind))

/-- What a run does, given its calls: the registry sees them as one sequence, every module goes on by
its own, and nothing else is registered or reported. -/
structure Progress (build : SharedBuild) (calls : List (Nat × Registry.Call))
    (later : SharedBuild) : Prop where
  registered : build.registry.registerAll (pointsOf calls) = (calls.map Prod.snd, later.registry)
  modules : ∀ {index : Nat} {settling : Settling}, build.modules[index]? = some settling →
    ∃ onward, later.modules[index]? = some onward ∧ settling.Leads (callsOf index calls) onward
  pending : (pointsOf calls ++ later.pendingPoints).Perm build.pendingPoints
  duplicates : later.duplicates.length =
    build.duplicates.length + (calls.filterMap fun call => call.2.duplicate?).length

namespace Progress

theorem refl (build : SharedBuild) : build.Progress [] build where
  registered := rfl
  modules := fun {_ settling} held => ⟨settling, held, .refl settling⟩
  pending := .refl _
  duplicates := rfl

theorem trans {build middle later : SharedBuild} {calls further : List (Nat × Registry.Call)}
    (progress : build.Progress calls middle) (onward : middle.Progress further later) :
    build.Progress (calls ++ further) later where
  registered := by
    rw [pointsOf, List.map_append, Registry.registerAll_append, ← pointsOf, ← pointsOf,
      progress.registered, List.map_append]
    simp only [onward.registered]
  modules := by
    intro index settling held
    obtain ⟨halfway, there, leads⟩ := progress.modules held
    obtain ⟨final, reached, leadsOn⟩ := onward.modules there
    exact ⟨final, reached, callsOf_append index calls further ▸ leads.trans leadsOn⟩
  pending := by
    rw [pointsOf, List.map_append, List.append_assoc]
    exact (onward.pending.append_left _).trans progress.pending
  duplicates := by
    rw [onward.duplicates, progress.duplicates, List.filterMap_append, List.length_append,
      Nat.add_assoc]

/-- What a step does. -/
theorem advance {build : SharedBuild} (plain : ∀ settling ∈ build.modules, settling.Unregistered)
    (index : Nat) : build.Progress (build.advance index).1 (build.advance index).2 := by
  rcases build.advance_cases index with
    same | ⟨front, file, finding, pending, report, back, split, place, same⟩
  · rw [same]
    exact .refl build
  have leads : Settling.Leads ⟨file, finding :: pending, report⟩ _ _ :=
    .settleOne (plain _ (split ▸ by simp)) build.registry
  rw [same]
  refine ⟨?_, ?_, ?_, ?_⟩
  · cases finding with
    | problem found line? => rfl
    | point found line? =>
      rw [Registry.settleOne_point]
      rfl
  · intro other settling held
    rw [split] at held
    by_cases own : other = index
    · subst own place
      rw [List.getElem?_append_right le_rfl, Nat.sub_self] at held
      cases held
      refine ⟨⟨file, pending, (Registry.settleOne file (report, build.registry) finding).1⟩, ?_, ?_⟩
      · rw [List.getElem?_append_right le_rfl, Nat.sub_self]
        rfl
      · rw [callsOf_own]
        exact leads
    · refine ⟨settling, ?_, ?_⟩
      · rw [← held, ← place] at *
        exact getElem?_middle_of_ne own
      · rw [callsOf_other own]
        exact .refl settling
  · have settled := leads.remaining
    simp only at settled
    simp only [pointsOf, pendingPoints, split, List.flatMap_append, List.flatMap_cons, settled,
      List.map_map, Function.comp_def]
    simp only [← List.append_assoc]
    exact (List.perm_append_comm.append_right _).append_right _
  · have more := leads.duplicates
    simp only at more
    simp only [SharedBuild.duplicates, split, List.flatMap_append, List.flatMap_cons,
      List.length_append, List.filterMap_map, Function.comp_def, more]
    omega

end Progress

/-- Whatever the schedule, a run makes progress. -/
theorem run_progress {build : SharedBuild}
    (plain : ∀ settling ∈ build.modules, settling.Unregistered) (schedule : List Nat) :
    build.Progress (build.run schedule).1 (build.run schedule).2 := by
  induction schedule generalizing build with
  | nil => exact .refl build
  | cons index rest ih =>
    exact (Progress.advance plain index).trans (ih (advance_unregistered plain index))

theorem start_unregistered (jobs : List ModuleJob) :
    ∀ settling ∈ (start jobs).modules, settling.Unregistered := by
  intro settling among problem line? found
  obtain ⟨job, -, rfl⟩ := List.mem_map.mp among
  exact moduleFindings_not_duplicate found

theorem pendingPoints_start (jobs : List ModuleJob) :
    (start jobs).pendingPoints = jobs.flatMap fun job => (job.transform .empty).1.points := by
  simp only [pendingPoints, start, List.flatMap_map, ModuleJob.points_transform]

theorem duplicates_start (jobs : List ModuleJob) : (start jobs).duplicates = [] := by
  simp [duplicates, start]

theorem pendingPoints_of_isFinished {build : SharedBuild} (finished : build.isFinished = true) :
    build.pendingPoints = [] := by
  apply List.flatMap_eq_nil_iff.mpr
  intro settling among
  have none := List.all_eq_true.mp finished settling among
  rw [List.isEmpty_iff.mp none]
  rfl

/-- What a finished run of modules that share a registry shows, with its calls. -/
structure Settled (jobs : List ModuleJob) (calls : List (Nat × Registry.Call))
    (final : SharedBuild) : Prop where
  /-- Every module gets the points it has when it is transformed alone, in one call each, and reports
  its calls. -/
  transformed : ∀ {index : Nat} {job : ModuleJob}, jobs[index]? = some job →
    ∃ settling, final.modules[index]? = some settling ∧
      (∀ registry, settling.report.points = (job.transform registry).1.points) ∧
      (callsOf index calls).map Registry.Call.point = settling.report.points ∧
      Registry.Reports job.file (callsOf index calls) settling.report.diagnostics
  /-- There are no calls but those of the modules. -/
  points : (pointsOf calls).Perm (jobs.flatMap fun job => (job.transform .empty).1.points)
  /-- The registry takes the calls one after another, and dynamic points do not change it. -/
  registered : Registry.empty.registerAll (pointsOf calls) =
      (calls.map Prod.snd, final.registry) ∧
    final.registry = (Registry.empty.registerAll
      ((pointsOf calls).filter fun point => !point.dynamic)).2
  first : ∀ kind name, (∃ call ∈ calls, call.2.point.isLiteral kind name = true) →
    Registry.FirstWins kind name (calls.map Prod.snd)
  /-- Only literal points of one kind and one name collide. -/
  collides : ∀ call ∈ calls, ∀ first, call.2.answer = .duplicate first →
    call.2.point.dynamic = false ∧ first.dynamic = false ∧
      call.2.point.kind = first.kind ∧ call.2.point.name = first.name
  dynamic : ∀ call ∈ calls, call.2.point.dynamic = true → call.2.answer = .unkeyed
  reported : final.duplicates.length = (calls.filterMap fun call => call.2.duplicate?).length

/-- What a finished run shows. -/
theorem run_settled (jobs : List ModuleJob) {schedule : List Nat}
    (finished : ((start jobs).run schedule).2.isFinished = true) :
    Settled jobs ((start jobs).run schedule).1 ((start jobs).run schedule).2 := by
  have progress := run_progress (start_unregistered jobs) schedule
  generalize (start jobs).run schedule = outcome at progress finished ⊢
  obtain ⟨calls, final⟩ := outcome
  simp only at progress finished ⊢
  have points : (calls.map Prod.snd).map Registry.Call.point = pointsOf calls := by
    rw [List.map_map]
    rfl
  have registered : (Registry.empty.registerAll
      ((calls.map Prod.snd).map Registry.Call.point)).1 = calls.map Prod.snd := by
    rw [points]
    exact congrArg Prod.fst progress.registered
  have answers {call : Nat × Registry.Call} (among : call ∈ calls) :
      ∃ earlier, call.2.answer = Registry.answerAfter earlier call.2.point := by
    obtain ⟨front, back, split⟩ := List.mem_iff_append.mp (List.mem_map_of_mem (f := Prod.snd) among)
    exact ⟨_, Registry.answer_of_split registered split⟩
  have known : final.registry = (Registry.empty.registerAll (pointsOf calls)).2 :=
    (congrArg Prod.snd progress.registered).symm
  refine
    { transformed := ?_
      points := ?_
      registered := ⟨progress.registered, known.trans (Registry.registerAll_keyed _ _)⟩
      first := ?_
      collides := ?_
      dynamic := ?_
      reported := ?_ }
  · intro index job held
    have started : (start jobs).modules[index]? =
        some { file := job.file, pending := job.findings } := by
      simp [start, held]
    obtain ⟨settling, there, leads⟩ := progress.modules started
    have finishedHere := List.all_eq_true.mp finished settling (List.mem_of_getElem? there)
    have all := leads.remaining
    rw [List.isEmpty_iff.mp finishedHere, List.filterMap_nil, List.append_nil] at all
    have pointed := leads.points
    obtain ⟨said, told, reports⟩ := leads.reports
    simp only [List.nil_append] at pointed told
    refine ⟨settling, there, fun registry => ?_, pointed.symm, told ▸ reports⟩
    rw [pointed, ← all, ModuleJob.points_transform]
  · have all := progress.pending
    rwa [pendingPoints_of_isFinished finished, List.append_nil, pendingPoints_start] at all
  · rintro kind name ⟨call, among, literal⟩
    exact Registry.firstWins registered ⟨call.2, List.mem_map_of_mem among, literal⟩
  · intro call among first duplicate
    obtain ⟨earlier, answered⟩ := answers among
    exact Registry.answerAfter_duplicate (answered ▸ duplicate)
  · intro call among dynamic
    obtain ⟨earlier, answered⟩ := answers among
    rw [answered, Registry.answerAfter, dynamic]
    rfl
  · rw [progress.duplicates, duplicates_start, List.length_nil, Nat.zero_add]

theorem Settled.registry {jobs : List ModuleJob} {calls : List (Nat × Registry.Call)}
    {final : SharedBuild} (settled : Settled jobs calls final) :
    final.registry = (Registry.empty.registerAll (pointsOf calls)).2 :=
  (congrArg Prod.snd settled.registered.1).symm

/-- The keys that are taken in the end and the number of duplicates only depend on the points. -/
theorem Settled.independent {jobs : List ModuleJob} {calls otherCalls : List (Nat × Registry.Call)}
    {final otherFinal : SharedBuild} (settled : Settled jobs calls final)
    (other : Settled jobs otherCalls otherFinal) :
    final.registry.keys.Perm otherFinal.registry.keys ∧
      final.duplicates.length = otherFinal.duplicates.length := by
  have points : (pointsOf calls).Perm (pointsOf otherCalls) :=
    settled.points.trans other.points.symm
  have keys : final.registry.keys.Perm otherFinal.registry.keys := by
    have start : Registry.empty.keys.Nodup := List.nodup_nil
    rw [settled.registry, other.registry]
    apply (List.perm_ext_iff_of_nodup (Registry.nodup_keys_registerAll start _)
      (Registry.nodup_keys_registerAll start _)).mpr
    intro key
    simp only [Registry.mem_keys_registerAll, points.mem_iff]
  have counts := Registry.empty.registerAll_counts (pointsOf calls)
  have otherCounts := Registry.empty.registerAll_counts (pointsOf otherCalls)
  have keyed := (points.filter fun point => !point.dynamic).length_eq
  simp only [settled.registered.1, other.registered.1, List.filterMap_map] at counts otherCounts
  have reported := settled.reported
  have otherReported := other.reported
  have equal := keys.length_eq
  refine ⟨keys, ?_⟩
  simp only [Function.comp_def] at counts otherCounts
  omega

end SharedBuild

/-- Transforming a module registers its points in order and reports a duplicate for each call that is
answered with an earlier point. When modules share a registry, then under every schedule the first
call for each kind and literal name registers its point, and every other one is answered with that
point and reported; which keys are taken in the end and how many duplicates are reported does not
depend on the schedule. -/
theorem registrations_settled (jobs : List ModuleJob) {schedule other : List Nat}
    (finished : ((SharedBuild.start jobs).run schedule).2.isFinished = true)
    (otherFinished : ((SharedBuild.start jobs).run other).2.isFinished = true) :
    (∀ (job : ModuleJob) (registry : Registry),
      let transformed := job.transform registry
      let registered := registry.registerAll transformed.1.points
      transformed.2 = registered.2 ∧
        Registry.Reports job.file registered.1 transformed.1.diagnostics) ∧
    let outcome := (SharedBuild.start jobs).run schedule
    let otherOutcome := (SharedBuild.start jobs).run other
    SharedBuild.Settled jobs outcome.1 outcome.2 ∧
      outcome.2.registry.keys.Perm otherOutcome.2.registry.keys ∧
      outcome.2.duplicates.length = otherOutcome.2.duplicates.length := by
  have settled := SharedBuild.run_settled jobs finished
  have otherSettled := SharedBuild.run_settled jobs otherFinished
  refine ⟨fun job registry => ?_, settled, settled.independent otherSettled⟩
  exact transformModule_registers job.options registry job.file job.source? job.items

/-- Two pages whose markers have one name. -/
def sharedPages : List ModuleJob :=
  [{ file := "a.jsx", items := [pageOf trackedStatements] },
    { file := "b.jsx", items := [pageOf trackedStatements] }]

/-- Either page may come first. -/
theorem registrations_settled_pages :
    let outcome := (SharedBuild.start sharedPages).run [0, 1]
    let otherOutcome := (SharedBuild.start sharedPages).run [1, 0]
    outcome.2.isFinished = true ∧ otherOutcome.2.isFinished = true ∧
      SharedBuild.Settled sharedPages outcome.1 outcome.2 ∧
      outcome.2.registry.keys.Perm otherOutcome.2.registry.keys ∧
      outcome.2.duplicates.length = otherOutcome.2.duplicates.length := by
  have finished : ((SharedBuild.start sharedPages).run [0, 1]).2.isFinished = true := by
    decide +kernel
  have otherFinished : ((SharedBuild.start sharedPages).run [1, 0]).2.isFinished = true := by
    decide +kernel
  exact ⟨finished, otherFinished,
    (registrations_settled sharedPages finished otherFinished).2⟩

end JsxTracking
