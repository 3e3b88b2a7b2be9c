import RequestFilter.Engine
import RequestFilter.Proofs.JoinTrie.Runs

/-!
The joins of a pass only grow, so the column that a path leads to is the same whenever it is asked
for. Every answer of a pass is therefore a function of one table of columns, read off the joins at
the end of the pass, and the joins are those of the paths asked for.
-/

namespace RequestFilter

abbrev Places := String → Except PathFault Column

theorem Alias.text_ne_empty (a : Alias) : a.text.isEmpty = false := by
  simp [Alias.text]

theorem Scalar.sql_columnOf (scalar : Scalar) (a : Alias) :
    String.ofList (scalar.columnOf a).sql = a.text ++ "." ++ scalar.column := by
  simp [Scalar.columnOf, Column.sql, Column.qualified, Alias.text_ne_empty, String.append_assoc]

namespace Script

variable (places : Places)

def outcome : Script → Outcome
  | .done filter => ⟨[], filter⟩
  | .report problem next => (outcome next).behind problem
  | .resolve path next =>
    match places path with
    | .ok column => outcome (next (some column))
    | .error fault => (outcome (next none)).behind (.unresolvable fault)

def asked : Script → List String
  | .done _ => []
  | .report _ next => asked next
  | .resolve path next =>
    path :: match places path with
      | .ok column => asked (next (some column))
      | .error _ => asked (next none)

def restricting : Script → Script
  | .done filter => .done (filter.filter (!·.isNone))
  | .report problem next => .report problem (restricting next)
  | .resolve path next => .resolve path fun column? => restricting (next column?)

end Script

/-- The script that has this outcome, whatever the columns are. -/
def Outcome.script (outcome : Outcome) : Script :=
  outcome.problems.foldr .report (.done outcome.filter)

namespace Script

/-- What is left to do when a path has been resolved. -/
def after (next : Option Column → Script) : Except PathFault Column → Script
  | .ok column => next (some column)
  | .error fault => .report (.unresolvable fault) (next none)

theorem outcome_resolve (places : Places) (path : String) (next : Option Column → Script) :
    (Script.resolve path next).outcome places = (after next (places path)).outcome places := by
  rw [outcome]
  cases places path <;> rfl

theorem asked_resolve (places : Places) (path : String) (next : Option Column → Script) :
    (Script.resolve path next).asked places = [path] ++ (after next (places path)).asked places := by
  rw [asked]
  cases places path <;> rfl

@[simp] theorem outcome_script (places : Places) (outcome : Outcome) :
    outcome.script.outcome places = outcome := by
  obtain ⟨problems, filter⟩ := outcome
  induction problems with
  | nil => rfl
  | cons problem rest ih => exact congrArg (Outcome.behind problem) ih

@[simp] theorem asked_script (places : Places) (outcome : Outcome) :
    outcome.script.asked places = [] := by
  obtain ⟨problems, filter⟩ := outcome
  induction problems with
  | nil => rfl
  | cons problem rest ih => exact ih

end Script

namespace Engine

def customScript (engine : Engine) (custom : CustomFilter) (criterion : Criterion) : Script :=
  match engine.describe custom.type with
  | .error problem => (Outcome.ofProblem problem).script
  | .ok fieldType =>
    match fieldType.castAll criterion.values with
    | .error problems => (Outcome.mk problems none).script
    | .ok values => (custom.script ⟨criterion.label, criterion.operator, values⟩).restricting

def fieldScript (engine : Engine) (criterion : Criterion) : Script :=
  .resolve criterion.path fun
    | some column => (engine.answerColumn criterion column).script
    | none => .done none

def script (engine : Engine) (policy : Policy) (criterion : Criterion) : Script :=
  match policy.custom? criterion.path with
  | some custom => engine.customScript custom criterion
  | none =>
    if policy.allows criterion.path criterion.operator then engine.fieldScript criterion
    else .done none

def sortEntry (field : SortField) : Except PathFault Column → Except Problem SortField
  | .ok column => .ok ⟨String.ofList column.sql, field.direction⟩
  | .error fault => .error (.unresolvableSort field.key fault)

def sortResult (policy : Policy) (places : Places) (field : SortField) : Except Problem SortField :=
  if policy.isDeclared field.key then sortEntry field (places field.key)
  else .error (.undeclaredSort field.key)

def sortAsked (policy : Policy) (field : SortField) : List String :=
  if policy.isDeclared field.key then [field.key] else []

def asked (engine : Engine) (policy : Policy) (places : Places) (criteria : List Criterion)
    (sort : SortOrder) : List String :=
  criteria.flatMap (fun criterion => (engine.script policy criterion).asked places) ++
    sort.flatMap (sortAsked policy)

def route (engine : Engine) (policy : Policy) (path : String) : Route :=
  engine.schema.route engine.settings.delimiter policy.root path

def walks (engine : Engine) (policy : Policy) (paths : List String) : Walks :=
  engine.schema.walks engine.settings.delimiter policy.root paths

/-- The columns that the paths of a policy lead to when the joins are those of the legs walked. -/
def places (engine : Engine) (policy : Policy) (walks : Walks) : Places :=
  engine.schema.place engine.settings.delimiter policy.root walks.number

/-- What `step` does to joins is to walk the paths it asks for. Its result, and what it asks, can
be told from the columns at any later time. -/
def Traces (engine : Engine) (policy : Policy) {α : Type} (step : Joins → α × Joins)
    (result : Places → α) (asked : Places → List String) : Prop :=
  ∀ (kind : JoinKind) (walks : Walks), walks.Valid engine.schema policy.root →
    ∃ grown : Walks, walks <+: grown ∧ grown.Valid engine.schema policy.root ∧
      ∀ final, grown <+: final →
        step (.ofWalks kind walks) = (result (engine.places policy final), .ofWalks kind grown) ∧
          grown = walks ++ engine.walks policy (asked (engine.places policy final))

variable {engine : Engine} {policy : Policy} {α β : Type}

theorem mem_walks {paths : List String} {leg : Leg} :
    leg ∈ engine.walks policy paths ↔ ∃ path ∈ paths, leg ∈ (engine.route policy path).legs :=
  List.mem_flatMap

theorem traces_pure (x : α) :
    engine.Traces policy (fun joins => (x, joins)) (fun _ => x) fun _ => [] := by
  intro kind walks valid
  refine ⟨walks, List.prefix_refl _, valid, fun final _ => ⟨rfl, ?_⟩⟩
  simp [Engine.walks, Schema.walks]

theorem traces_resolve (path : String) :
    engine.Traces policy (engine.resolve policy path) (fun places => places path)
      fun _ => [path] := by
  intro kind walks valid
  let route := engine.schema.route engine.settings.delimiter policy.root path
  refine ⟨walks ++ route.legs, List.prefix_append _ _,
    valid.append_legs (engine.schema.admits_route _ _ _), fun final later => ⟨?_, ?_⟩⟩
  · have stable := Schema.place_stable later (List.subset_append_right walks route.legs)
    unfold resolve places
    rw [Schema.resolve_ofWalks valid]
    dsimp only
    rw [stable]
  · simp [Engine.walks, Schema.walks, route]

theorem Traces.bind {step : Joins → α × Joins} {result : Places → α} {asked : Places → List String}
    {next : α → Joins → β × Joins} {result' : α → Places → β} {asked' : α → Places → List String}
    (first : engine.Traces policy step result asked)
    (second : ∀ x, engine.Traces policy (next x) (result' x) (asked' x)) :
    engine.Traces policy (fun joins => next (step joins).1 (step joins).2)
      (fun places => result' (result places) places)
      (fun places => asked places ++ asked' (result places) places) := by
  intro kind walks valid
  obtain ⟨middle, begins, middleValid, stepped⟩ := first kind walks valid
  -- The first result is already known at the end of the first step.
  let x := result (engine.places policy middle)
  have known : ∀ final, middle <+: final → result (engine.places policy final) = x := by
    intro final later
    have here := (stepped middle (List.prefix_refl _)).1
    rw [(stepped final later).1] at here
    exact congrArg Prod.fst here
  obtain ⟨grown, continues, grownValid, nexted⟩ := second x kind middle middleValid
  refine ⟨grown, begins.trans continues, grownValid, fun final later => ?_⟩
  have middleLater := continues.trans later
  obtain ⟨stepEq, middleEq⟩ := stepped final middleLater
  obtain ⟨nextEq, grownEq⟩ := nexted final later
  constructor
  · simp only [stepEq, known final middleLater]
    exact nextEq
  · rw [grownEq, middleEq]
    simp [known final middleLater, Engine.walks, Schema.walks]

theorem Traces.map {step : Joins → α × Joins} {result : Places → α} {asked : Places → List String}
    (traced : engine.Traces policy step result asked) (f : α → β) :
    engine.Traces policy (fun joins => (f (step joins).1, (step joins).2))
      (fun places => f (result places)) asked := by
  simpa using traced.bind fun x => traces_pure (f x)

theorem run_resolve (path : String) (next : Option Column → Script) :
    engine.run policy (.resolve path next) = fun joins =>
      engine.run policy (Script.after next (engine.resolve policy path joins).1)
        (engine.resolve policy path joins).2 := by
  funext joins
  simp only [run]
  cases engine.resolve policy path joins with
  | mk found joins => cases found <;> rfl

theorem traces_run (script : Script) :
    engine.Traces policy (engine.run policy script) (fun places => script.outcome places)
      fun places => script.asked places := by
  induction script with
  | done filter => exact traces_pure _
  | report problem next ih => exact ih.map (Outcome.behind problem)
  | resolve path next ih =>
    have continued : ∀ found, engine.Traces policy (engine.run policy (Script.after next found))
        (fun places => (Script.after next found).outcome places)
        fun places => (Script.after next found).asked places := by
      intro found
      cases found with
      | ok column => exact ih (some column)
      | error fault => exact (ih none).map (Outcome.behind (.unresolvable fault))
    have traced := (traces_resolve path).bind continued
    have answered := funext fun places => Script.outcome_resolve places path next
    have questions := funext fun places => Script.asked_resolve places path next
    rw [run_resolve, answered, questions]
    exact traced

theorem run_outcome_script (outcome : Outcome) (joins : Joins) :
    engine.run policy outcome.script joins = (outcome, joins) := by
  obtain ⟨problems, filter⟩ := outcome
  induction problems with
  | nil => rfl
  | cons problem rest ih =>
    have next : engine.run policy (rest.foldr .report (.done filter)) joins = (⟨rest, filter⟩, joins) :=
      ih
    simp [Outcome.script, run, next, Outcome.behind]

theorem run_restricting (script : Script) (joins : Joins) :
    engine.run policy script.restricting joins =
      ((engine.run policy script joins).1.restricting, (engine.run policy script joins).2) := by
  induction script generalizing joins with
  | done filter => rfl
  | report problem next ih => simp [Script.restricting, run, ih, Outcome.behind, Outcome.restricting]
  | resolve path next ih =>
    simp only [Script.restricting, run]
    split <;> simp [ih, Outcome.behind, Outcome.restricting]

theorem answer_eq_run (criterion : Criterion) (joins : Joins) :
    engine.answer policy criterion joins =
      engine.run policy (engine.script policy criterion) joins := by
  unfold answer script
  cases policy.custom? criterion.path with
  | some custom =>
    simp only [answerCustom, customScript]
    cases engine.describe custom.type with
    | error problem => exact (run_outcome_script _ _).symm
    | ok fieldType =>
      dsimp only
      cases fieldType.castAll criterion.values with
      | error problems => exact (run_outcome_script _ _).symm
      | ok values => exact (run_restricting _ _).symm
  | none =>
    by_cases allowed : policy.allows criterion.path criterion.operator
    · simp only [allowed, if_true, answerField, fieldScript, run]
      cases engine.resolve policy criterion.path joins with
      | mk found joins =>
        cases found with
        | ok column => exact (run_outcome_script _ _).symm
        | error fault => rfl
    · simp only [allowed]
      rfl

theorem traces_answers (criteria : List Criterion) :
    engine.Traces policy (engine.answers policy criteria)
      (fun places => criteria.map fun criterion =>
        (criterion, (engine.script policy criterion).outcome places))
      fun places => criteria.flatMap fun criterion =>
        (engine.script policy criterion).asked places := by
  induction criteria with
  | nil => exact traces_pure _
  | cons criterion rest ih =>
    have first : engine.Traces policy (engine.answer policy criterion)
        (fun places => (engine.script policy criterion).outcome places)
        (fun places => (engine.script policy criterion).asked places) := by
      have same : engine.answer policy criterion =
          engine.run policy (engine.script policy criterion) :=
        funext (answer_eq_run criterion)
      rw [same]
      exact traces_run _
    exact first.bind fun outcome => ih.map ((criterion, outcome) :: ·)

theorem traces_sortColumn (field : SortField) :
    engine.Traces policy (engine.sortColumn policy field)
      (fun places => sortResult policy places field) fun _ => sortAsked policy field := by
  by_cases declared : policy.isDeclared field.key
  · have traced : engine.Traces policy (engine.resolve policy field.key)
      (fun places => places field.key) fun _ => [field.key] := traces_resolve field.key
    have resolved : engine.sortColumn policy field = fun joins =>
        (sortEntry field (engine.resolve policy field.key joins).1,
          (engine.resolve policy field.key joins).2) := by
      funext joins
      simp only [sortColumn, declared, if_true]
      cases engine.resolve policy field.key joins with
      | mk found joins => cases found <;> rfl
    simp only [sortResult, sortAsked, declared, if_true]
    rw [resolved]
    exact traced.map (sortEntry field)
  · have refused : engine.sortColumn policy field =
        fun joins => (.error (.undeclaredSort field.key), joins) := by
      funext joins
      simp [sortColumn, declared]
    simp only [sortResult, sortAsked, declared]
    rw [refused]
    exact traces_pure _

theorem traces_sortColumns (sort : SortOrder) :
    engine.Traces policy (engine.sortColumns policy sort)
      (fun places => sort.map (sortResult policy places)) fun _ => sort.flatMap (sortAsked policy) := by
  induction sort with
  | nil => exact traces_pure _
  | cons field rest ih =>
    exact (traces_sortColumn field).bind fun column => ih.map (column :: ·)

/-- Every pass is told by the legs it walks: its answers by the columns found behind them, its joins
as their trie. -/
theorem pass_eq (engine : Engine) (policy : Policy) (criteria : List Criterion) (sort : SortOrder) :
    ∃ walks : Walks, walks.Valid engine.schema policy.root ∧
      walks = engine.walks policy (engine.asked policy (engine.places policy walks) criteria sort) ∧
      engine.pass policy criteria sort =
        { outcomes := criteria.map fun criterion =>
            (criterion, (engine.script policy criterion).outcome (engine.places policy walks))
          columns := sort.map (sortResult policy (engine.places policy walks))
          joins := .ofWalks .left walks } := by
  have answered : engine.Traces policy (engine.answers policy criteria) _ _ := traces_answers criteria
  have traced := answered.bind fun outcomes =>
    (traces_sortColumns sort).map fun columns => (outcomes, columns)
  obtain ⟨walks, _, valid, told⟩ := traced .left [] .nil
  obtain ⟨passed, walked⟩ := told walks (List.prefix_refl _)
  refine ⟨walks, valid, ?_, ?_⟩
  · rw [List.nil_append] at walked
    exact walked
  · have empty : Joins.empty = .ofWalks .left [] := rfl
    simp only [Prod.mk.injEq] at passed
    obtain ⟨⟨outcomes, columns⟩, joins⟩ := passed
    simp only [pass, empty, outcomes, columns, joins]

def predicate? (engine : Engine) (policy : Policy) (places : Places) (criterion : Criterion) :
    Option Filter :=
  ((engine.script policy criterion).outcome places).filter.filter (!·.isNone)

theorem filters_restricting (engine : Engine) (policy : Policy) (places : Places)
    (criteria : List Criterion) (columns : List (Except Problem SortField)) (joins : Joins) :
    (Pass.mk (criteria.map fun criterion =>
        (criterion, (engine.script policy criterion).outcome places)) columns joins).filters.filter
      (!·.isNone) = criteria.filterMap (engine.predicate? policy places) := by
  unfold Pass.filters
  rw [List.filterMap_map, List.filter_filterMap]
  rfl

end Engine

end RequestFilter
