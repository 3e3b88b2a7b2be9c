import Mathlib.Data.List.Forall2
import RequestFilter.Engine
import RequestFilter.Proofs.Rules

namespace RequestFilter

namespace FieldType

variable {fieldType : FieldType} {raws : List String}

theorem mem_castAll {values : List Value} (read : fieldType.castAll raws = .ok values) {value : Value}
    (member : value ∈ values) : ∃ raw ∈ raws, fieldType.cast raw = .ok value := by
  unfold castAll at read
  dsimp only at read
  split at read <;> cases read
  obtain ⟨raw, asked, found⟩ := List.mem_filterMap.mp member
  refine ⟨raw, asked, ?_⟩
  cases cast : fieldType.cast raw with
  | error fault =>
    rw [cast] at found
    cases found
  | ok result =>
    rw [cast] at found
    cases found
    rfl

theorem castAll_error {problems : List Problem} (failed : fieldType.castAll raws = .error problems) :
    problems ≠ [] ∧ ∀ problem ∈ problems, problem.blame = .client := by
  unfold castAll at failed
  dsimp only at failed
  split at failed <;> cases failed
  rename_i some
  constructor
  · simpa using some
  · intro problem member
    obtain ⟨raw, _, found⟩ := List.mem_filterMap.mp member
    split at found <;> cases found
    rfl

theorem castAll_of_forall {values : List Value}
    (read : List.Forall₂ (fun raw value => fieldType.cast raw = .ok value) raws values) :
    fieldType.castAll raws = .ok values := by
  have each : fieldType.castProblems raws = [] ∧ fieldType.castable raws = values := by
    induction read with
    | nil => exact ⟨rfl, rfl⟩
    | cons cast _ ih =>
      unfold castProblems castable at ih ⊢
      rw [List.filterMap_cons, List.filterMap_cons, cast]
      exact ⟨ih.1, congrArg _ ih.2⟩
  unfold castAll
  dsimp only
  rw [each.1, each.2]
  rfl

theorem checkOperator_error {op : Operator} {problem : Problem}
    (failed : fieldType.checkOperator op = .error problem) : problem.blame = .client := by
  unfold checkOperator at failed
  split at failed <;> cases failed
  rfl

theorem contains_of_checkOperator {op : Operator} {passedOn : Unit}
    (passed : fieldType.checkOperator op = .ok passedOn) : fieldType.operators.contains op = true := by
  unfold checkOperator at passed
  split at passed
  · assumption
  · cases passed

end FieldType

namespace Engine

/-- The checks behind a predicate, and the rule that gives it. -/
structure Grounds (engine : Engine) (criterion : Criterion) (column : Column) (fieldType : FieldType)
    (values : List Value) (rule : Rule) (filter : Filter) : Prop where
  described : engine.types.describe? column.type = some fieldType
  supported : fieldType.operators.contains criterion.operator = true
  read : Engine.values fieldType criterion = .ok values
  ruled : engine.rules.rule? criterion.operator = some rule
  applied : rule.apply column values = .ok filter

variable {engine : Engine} {criterion : Criterion} {column : Column}

theorem values_error {fieldType : FieldType} {problems : List Problem}
    (failed : values fieldType criterion = .error problems) :
    problems ≠ [] ∧ ∀ problem ∈ problems, problem.blame = .client := by
  unfold values at failed
  split at failed
  · cases failed
  · exact FieldType.castAll_error failed

theorem answerColumn_cases (engine : Engine) (criterion : Criterion) (column : Column) :
    (∃ fieldType values rule filter, engine.Grounds criterion column fieldType values rule filter ∧
      engine.answerColumn criterion column = .ofFilter filter) ∨
    ∃ problems, problems ≠ [] ∧ engine.answerColumn criterion column = ⟨problems, none⟩ := by
  unfold answerColumn describe
  cases described : engine.types.describe? column.type with
  | none => exact .inr ⟨_, List.cons_ne_nil _ _, rfl⟩
  | some fieldType =>
    dsimp only
    cases checked : fieldType.checkOperator criterion.operator with
    | error problem => exact .inr ⟨_, List.cons_ne_nil _ _, rfl⟩
    | ok passed =>
      dsimp only
      cases read : values fieldType criterion with
      | error problems => exact .inr ⟨problems, (values_error read).1, rfl⟩
      | ok values =>
        dsimp only
        unfold applyRule
        cases ruled : engine.rules.rule? criterion.operator with
        | none => exact .inr ⟨_, List.cons_ne_nil _ _, rfl⟩
        | some rule =>
          dsimp only
          cases applied : rule.apply column values with
          | error problem => exact .inr ⟨_, List.cons_ne_nil _ _, rfl⟩
          | ok filter =>
            have supported := FieldType.contains_of_checkOperator checked
            exact .inl ⟨_, _, _, _, ⟨described, supported, read, ruled, applied⟩, rfl⟩

theorem grounds_of_filter {filter : Filter}
    (answered : (engine.answerColumn criterion column).filter = some filter) :
    ∃ fieldType values rule, engine.Grounds criterion column fieldType values rule filter := by
  rcases engine.answerColumn_cases criterion column with
    ⟨fieldType, values, rule, found, grounds, same⟩ | ⟨problems, _, same⟩
  · rw [same] at answered
    cases answered
    exact ⟨fieldType, values, rule, grounds⟩
  · rw [same] at answered
    cases answered

theorem grounds_of_clean (clean : (engine.answerColumn criterion column).problems = []) :
    ∃ fieldType values rule filter, engine.Grounds criterion column fieldType values rule filter ∧
      engine.answerColumn criterion column = .ofFilter filter := by
  rcases engine.answerColumn_cases criterion column with answered | ⟨problems, found, same⟩
  · exact answered
  · rw [same] at clean
    exact absurd clean found

theorem blame_answerColumn (rules : engine.rules = .builtin) {fieldType : FieldType}
    (described : engine.types.describe? column.type = some fieldType) :
    ∀ problem ∈ (engine.answerColumn criterion column).problems, problem.blame = .client := by
  unfold answerColumn describe
  rw [described]
  dsimp only
  cases checked : fieldType.checkOperator criterion.operator with
  | error problem => simpa [Outcome.ofProblem] using FieldType.checkOperator_error checked
  | ok passed =>
    dsimp only
    cases read : values fieldType criterion with
    | error problems => exact (values_error read).2
    | ok values =>
      dsimp only
      obtain ⟨rule, ruled, family⟩ := Rules.rule?_builtin criterion.operator
      unfold applyRule
      rw [rules, ruled]
      dsimp only
      cases applied : rule.apply column values with
      | error problem => simpa [Outcome.ofProblem] using family.blame applied
      | ok filter => simp [Outcome.ofFilter]

section SameAnswers

/-- The answers do not tell the criteria apart, whatever joins were made before. -/
def SameAnswers (engine : Engine) (policy : Policy) (criterion criterion' : Criterion) : Prop :=
  ∀ joins, engine.answer policy criterion joins = engine.answer policy criterion' joins

/-- Passes that differ in the criteria they name at most. -/
structure Pass.Same (pass pass' : Pass) : Prop where
  outcomes : pass.outcomes.map Prod.snd = pass'.outcomes.map Prod.snd
  columns : pass.columns = pass'.columns
  joins : pass.joins = pass'.joins

variable {policy : Policy} {criteria criteria' : List Criterion}

theorem answers_same (same : List.Forall₂ (engine.SameAnswers policy) criteria criteria')
    (joins : Joins) :
    (engine.answers policy criteria joins).1.map Prod.snd =
        (engine.answers policy criteria' joins).1.map Prod.snd ∧
      (engine.answers policy criteria joins).2 = (engine.answers policy criteria' joins).2 := by
  induction same generalizing joins with
  | nil => exact ⟨rfl, rfl⟩
  | cons first _ ih =>
    simp only [answers, first joins, List.map_cons]
    obtain ⟨outcomes, grown⟩ := ih (engine.answer policy _ joins).2
    exact ⟨congrArg _ outcomes, grown⟩

theorem pass_same (same : List.Forall₂ (engine.SameAnswers policy) criteria criteria')
    (sort : SortOrder) :
    (engine.pass policy criteria sort).Same (engine.pass policy criteria' sort) := by
  obtain ⟨outcomes, grown⟩ := answers_same same .empty
  constructor
  · exact outcomes
  · simp only [pass, grown]
  · simp only [pass, grown]

theorem Pass.plan_outcomes (pass : Pass) : pass.plan =
    { filter := .combine .and ((pass.outcomes.map Prod.snd).filterMap Outcome.filter)
      joins := pass.joins.toList
      order := pass.columns.filterMap Except.toOption } := by
  rw [List.filterMap_map]
  rfl

theorem Pass.Same.plan {pass pass' : Pass} (same : pass.Same pass') : pass.plan = pass'.plan := by
  rw [Pass.plan_outcomes, Pass.plan_outcomes, same.outcomes, same.columns, same.joins]

end SameAnswers

end Engine

end RequestFilter
