import RequestFilter.Proofs.Evaluation
import RequestFilter.Recipe

namespace RequestFilter

def Column.relocate (move : String → String) (column : Column) : Column :=
  { column with source := move column.source }

namespace Filter

mutual

def relocate (move : String → String) : Filter → Filter
  | none => none
  | compare comparison column value => compare comparison (column.relocate move) value
  | member negated column values => member negated (column.relocate move) values
  | between column low high => between (column.relocate move) low high
  | like place column text => like place (column.relocate move) text
  | nullCheck negated column => nullCheck negated (column.relocate move)
  | junction connective filters => junction connective (relocateAll move filters)
  | not filter => not (relocate move filter)

def relocateAll (move : String → String) : List Filter → List Filter
  | [] => []
  | filter :: filters => relocate move filter :: relocateAll move filters

end

variable (move : String → String)

theorem relocateAll_eq_map (filters : List Filter) :
    relocateAll move filters = filters.map (relocate move) := by
  induction filters with
  | nil => rfl
  | cons filter filters ih => rw [relocateAll, ih, List.map_cons]

@[simp] theorem isNone_relocate (filter : Filter) : (filter.relocate move).isNone = filter.isNone := by
  cases filter <;> rfl

theorem relocate_negate (filter : Filter) :
    (filter.negate).relocate move = (filter.relocate move).negate := by
  unfold negate
  rw [isNone_relocate]
  split <;> rfl

theorem relocate_append (connective : Connective) (filter more : Filter) :
    (append connective filter more).relocate move =
      append connective (filter.relocate move) (more.relocate move) := by
  unfold append
  simp only [isNone_relocate]
  split
  · rfl
  · split
    · rfl
    · cases filter with
      | junction c filters =>
        simp only [relocate, relocateAll_eq_map]
        split <;> simp [relocate, relocateAll_eq_map]
      | _ => simp [relocate, relocateAll_eq_map]

end Filter

namespace Outcome

def relocate (move : String → String) (outcome : Outcome) : Outcome :=
  { outcome with filter := outcome.filter.map (Filter.relocate move) }

end Outcome

def Places.relocate (move : String → String) (places : Places) : Places :=
  fun path => (places path).map (Column.relocate move)

namespace Rule

variable (move : String → String)

theorem ordered_relocate (column : Column) (value : Value) :
    ordered (column.relocate move) value =
      ((ordered column value).1.relocate move, (ordered column value).2) := by
  unfold ordered Column.comparable
  simp only [Column.relocate]
  split <;> simp_all

theorem compare_relocate (op : Operator) (column : Column) (values : List Value) :
    compare op (column.relocate move) values =
      (compare op column values).map (Filter.relocate move) := by
  unfold compare
  cases values with
  | nil => rfl
  | cons value rest =>
    dsimp only
    split
    · rfl
    · cases op.comparison? with
      | none => rfl
      | some kind =>
        by_cases ordering : op.isOrdering <;>
          simp [ordering, ordered_relocate, Except.map, Filter.relocate]

theorem bound_relocate (negated : Bool) (column : Column) (values : List Value) :
    bound negated (column.relocate move) values =
      (bound negated column values).map (Filter.relocate move) := by
  unfold bound
  match values with
  | [] => rfl
  | [value] => rfl
  | [low, high] =>
    dsimp only
    split
    · rfl
    · cases negated <;>
        simp [ordered_relocate, Except.map, Filter.relocate, Filter.relocate_negate]
  | _ :: _ :: _ :: _ => rfl

theorem search_relocate (place : Place) (ignoreCase : Bool) (column : Column)
    (values : List Value) :
    search place ignoreCase (column.relocate move) values =
      (search place ignoreCase column values).map (Filter.relocate move) := by
  unfold search
  cases values with
  | nil => rfl
  | cons value rest =>
    dsimp only
    split
    · rfl
    · cases value.asText with
      | none => rfl
      | some text => cases ignoreCase <;> rfl

theorem apply_relocate (rule : Rule) (column : Column) (values : List Value) :
    rule.apply (column.relocate move) values =
      (rule.apply column values).map (Filter.relocate move) := by
  cases rule with
  | comparison op => exact compare_relocate move op column values
  | nullCheck negated => rfl
  | membership negated =>
    simp only [apply, test, Except.map]
    split <;> rfl
  | range negated => exact bound_relocate move negated column values
  | pattern place ignoreCase => exact search_relocate move place ignoreCase column values
  | never => rfl

end Rule

namespace Script

/-- The second script does what the first does, with all columns moved. -/
inductive Follows (move : String → String) : Script → Script → Prop
  | done (filter : Option Filter) :
      Follows move (.done filter) (.done (filter.map (Filter.relocate move)))
  | report (problem : Problem) {script moved : Script} (next : Follows move script moved) :
      Follows move (.report problem script) (.report problem moved)
  | resolve (path : String) {script moved : Option Column → Script}
      (found : ∀ column, Follows move (script (some column)) (moved (some (column.relocate move))))
      (lost : Follows move (script none) (moved none)) :
      Follows move (.resolve path script) (.resolve path moved)

namespace Follows

variable {move : String → String} {script moved : Script}

theorem outcome (follows : Follows move script moved) (places : Places) :
    moved.outcome (places.relocate move) = (script.outcome places).relocate move := by
  induction follows with
  | done filter => rfl
  | report problem next ih => simp [Script.outcome, ih, Outcome.behind, Outcome.relocate]
  | resolve path found lost foundIH lostIH =>
    have here : places.relocate move path = (places path).map (Column.relocate move) := rfl
    rw [Script.outcome_resolve, Script.outcome_resolve, here]
    cases places path with
    | ok column => exact foundIH column
    | error fault => exact congrArg (Outcome.behind (.unresolvable fault)) lostIH

theorem asked (follows : Follows move script moved) (places : Places) :
    moved.asked (places.relocate move) = script.asked places := by
  induction follows with
  | done filter => rfl
  | report problem next ih => exact ih
  | resolve path found lost foundIH lostIH =>
    have here : places.relocate move path = (places path).map (Column.relocate move) := rfl
    rw [Script.asked_resolve, Script.asked_resolve, here]
    cases places path with
    | ok column => exact congrArg _ (foundIH column)
    | error fault => exact congrArg _ lostIH

theorem restricting (follows : Follows move script moved) :
    Follows move script.restricting moved.restricting := by
  induction follows with
  | done filter =>
    cases filter with
    | none => exact .done none
    | some filter =>
      simp only [Script.restricting, Option.map_some, Option.filter_some, Filter.isNone_relocate]
      split
      · exact .done (some filter)
      · exact .done none
  | report problem next ih => exact .report problem ih
  | resolve path found lost foundIH lostIH => exact .resolve path foundIH lostIH

end Follows

theorem follows_outcome (move : String → String) (outcome : Outcome) :
    Follows move outcome.script (outcome.relocate move).script := by
  obtain ⟨problems, filter⟩ := outcome
  induction problems with
  | nil => exact .done filter
  | cons problem rest ih => exact .report problem ih

end Script

namespace Recipe

variable (move : String → String)

theorem follows_onColumn (path : String) {predicate : Column → Filter}
    (moves : ∀ column, predicate (column.relocate move) = (predicate column).relocate move) :
    Script.Follows move (onColumn path predicate) (onColumn path predicate) := by
  refine .resolve path (fun column => ?_) (.done none)
  rw [Option.map_some, Option.map_some, moves]
  exact .done (some (predicate column))

theorem follows_equations (value : Value) (paths : List String) (filter : Filter) :
    Script.Follows move (equations value paths filter)
      (equations value paths (filter.relocate move)) := by
  induction paths generalizing filter with
  | nil => exact .done (some filter)
  | cons path paths ih =>
    refine .resolve path (fun column => ?_) (ih filter)
    have next := ih (filter.orElse (.compare .eq column value))
    rw [Filter.orElse, Filter.relocate_append] at next
    exact next

theorem follows_script (recipe : Recipe) (question : Question) :
    Script.Follows move (recipe.script question) (recipe.script question) := by
  cases recipe with
  | ignore => exact .done none
  | unrestricted => exact .done (some .none)
  | between path =>
    simp only [script]
    split
    · exact follows_onColumn move path fun column => rfl
    · exact .done none
  | equals path => exact follows_onColumn move path fun column => rfl
  | notIn path =>
    refine follows_onColumn move path fun column => ?_
    rw [Filter.relocate_negate]
    rfl
  | any paths => exact follows_equations move _ paths .none
  | reject message => exact .report _ (.done none)
  | rejectWithFilter message path =>
    exact .report _ (follows_onColumn move path fun column => rfl)
  | report code message => exact .report _ (.done none)

end Recipe

/-- All custom filters of the policy are ready-made ones. -/
def Policy.UsesRecipes (policy : Policy) : Prop :=
  ∀ path custom, policy.custom? path = some custom →
    ∃ type recipe, custom = CustomFilter.ofRecipe type recipe

theorem Policy.custom?_of_plain {policy : Policy} (plain : policy.custom = []) (path : String) :
    policy.custom? path = none := by
  rw [custom?, plain]
  rfl

namespace Engine

variable (engine : Engine) {policy : Policy} (move : String → String)

theorem answerColumn_relocate (criterion : Criterion) (column : Column) :
    engine.answerColumn criterion (column.relocate move) =
      (engine.answerColumn criterion column).relocate move := by
  have type : (column.relocate move).type = column.type := rfl
  unfold answerColumn
  rw [type]
  cases engine.describe column.type with
  | error problem => rfl
  | ok fieldType =>
    dsimp only
    cases fieldType.checkOperator criterion.operator with
    | error problem => rfl
    | ok allowed =>
      dsimp only
      cases values fieldType criterion with
      | error problems => rfl
      | ok values =>
        dsimp only
        unfold applyRule
        cases engine.rules.rule? criterion.operator with
        | none => rfl
        | some rule =>
          dsimp only
          rw [Rule.apply_relocate]
          cases rule.apply column values <;> rfl

theorem follows_customScript (type : DataType) (recipe : Recipe) (criterion : Criterion) :
    Script.Follows move (engine.customScript (.ofRecipe type recipe) criterion)
      (engine.customScript (.ofRecipe type recipe) criterion) := by
  unfold customScript
  cases engine.describe (CustomFilter.ofRecipe type recipe).type with
  | error problem => exact Script.follows_outcome move (.ofProblem problem)
  | ok fieldType =>
    dsimp only
    cases fieldType.castAll criterion.values with
    | error problems => exact Script.follows_outcome move ⟨problems, none⟩
    | ok values => exact (Recipe.follows_script move recipe _).restricting

theorem follows_fieldScript (criterion : Criterion) :
    Script.Follows move (engine.fieldScript criterion) (engine.fieldScript criterion) := by
  refine .resolve criterion.path (fun column => ?_) (.done none)
  dsimp only
  rw [answerColumn_relocate]
  exact Script.follows_outcome move (engine.answerColumn criterion column)

theorem follows_script (recipes : policy.UsesRecipes) (criterion : Criterion) :
    Script.Follows move (engine.script policy criterion) (engine.script policy criterion) := by
  unfold script
  cases custom : policy.custom? criterion.path with
  | some filter =>
    obtain ⟨type, recipe, rfl⟩ := recipes _ _ custom
    exact engine.follows_customScript move type recipe criterion
  | none =>
    dsimp only
    split
    · exact engine.follows_fieldScript move criterion
    · exact .done none

end Engine

end RequestFilter
