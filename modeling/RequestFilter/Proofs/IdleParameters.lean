import Mathlib.Logic.Relation
import RequestFilter.Plan
import RequestFilter.Proofs.FirstValues
import RequestFilter.Proofs.Independence

namespace RequestFilter

namespace Policy

/-- The policy has an answer to criteria of the path with the operator. -/
def heeds (policy : Policy) (path : String) (op : Operator) : Bool :=
  (policy.custom? path).isSome || policy.allows path op

def heedsCriterion (policy : Policy) (criterion : Criterion) : Bool :=
  policy.heeds criterion.path criterion.operator

end Policy

theorem Settings.criteriaOfQuery_again (settings : Settings) {before : List (String × String)}
    {key : String} (known : key ∈ before.map Prod.fst) (value : String)
    (after : List (String × String)) :
    settings.criteriaOfQuery (before ++ (key, value) :: after) =
      settings.criteriaOfQuery (before ++ after) := by
  unfold criteriaOfQuery
  rw [List.filter_append, List.filter_append]
  by_cases sorts : key = settings.sortParam
  · simp [sorts]
  · have kept : key ∈ (before.filter fun pair => pair.1 != settings.sortParam).map Prod.fst := by
      obtain ⟨first, member, rfl⟩ := List.mem_map.mp known
      exact List.mem_map_of_mem (List.mem_filter.mpr ⟨member, by simpa using sorts⟩)
    rw [List.filter_cons_of_pos (by simpa using sorts), KeyedList.firsts_insert kept]

namespace Engine

variable (engine : Engine) (policy : Policy)

def planQuery (pairs : List (String × String)) : Except Failure Plan :=
  engine.plan policy (engine.settings.criteriaOfQuery pairs) (engine.settings.sortOfQuery pairs)

/-- The policy has no answer to the parameter, or the parameter comes again. -/
inductive Idle (before : List (String × String)) (key : String) : Prop
  | unanswered (filters : key ≠ engine.settings.sortParam)
      (generic : policy.custom? (engine.settings.splitKey key).1 = none)
      (refused : policy.allows (engine.settings.splitKey key).1
        (engine.settings.splitKey key).2 = false)
  | again (known : key ∈ before.map Prod.fst)

/-- One idle parameter more, at any position. -/
inductive Pads : List (String × String) → List (String × String) → Prop
  | insert (before after : List (String × String)) (key value : String)
      (idle : engine.Idle policy before key) :
      Pads (before ++ after) (before ++ (key, value) :: after)

def heedsKey (key : String) : Bool :=
  policy.heeds (engine.settings.splitKey key).1 (engine.settings.splitKey key).2

variable {policy}

theorem answer_unheeded {criterion : Criterion} (unheeded : policy.heedsCriterion criterion = false)
    (joins : Joins) : engine.answer policy criterion joins = (.silent, joins) := by
  simp only [Policy.heedsCriterion, Policy.heeds, Bool.or_eq_false_iff, Option.isSome_eq_false_iff,
    Option.isNone_iff_eq_none] at unheeded
  obtain ⟨generic, refused⟩ := unheeded
  rw [answer, generic]
  simp [refused]

variable (policy)

/-- Criteria without an answer leave no problem, no predicate and no join. -/
theorem answers_heeded (criteria : List Criterion) (joins : Joins) :
    let all := engine.answers policy criteria joins
    let heeded := engine.answers policy (criteria.filter policy.heedsCriterion) joins
    (heeded.1.flatMap fun (criterion, outcome) =>
        Report.ofField criterion.label outcome.problems) =
      (all.1.flatMap fun (criterion, outcome) =>
        Report.ofField criterion.label outcome.problems) ∧
    (heeded.1.filterMap fun (_, outcome) => outcome.filter) =
      (all.1.filterMap fun (_, outcome) => outcome.filter) ∧ heeded.2 = all.2 := by
  dsimp only
  -- A criterion that is left out hands on the joins it was given.
  induction criteria generalizing joins with
  | nil => exact ⟨rfl, rfl, rfl⟩
  | cons criterion rest ih =>
    cases heeds : policy.heedsCriterion criterion with
    | true =>
      obtain ⟨problems, filters, grown⟩ := ih (engine.answer policy criterion joins).2
      rw [List.filter_cons_of_pos heeds]
      simp only [answers, List.flatMap_cons, List.filterMap_cons, problems, filters, grown]
      exact ⟨trivial, trivial, trivial⟩
    | false =>
      rw [List.filter_cons_of_neg (by simp [heeds])]
      simp only [answers, engine.answer_unheeded heeds]
      exact ih joins

theorem plan_heeded (criteria : List Criterion) (sort : SortOrder) :
    engine.plan policy (criteria.filter policy.heedsCriterion) sort =
      engine.plan policy criteria sort := by
  obtain ⟨problems, filters, joins⟩ := engine.answers_heeded policy criteria .empty
  simp only [plan, pass, Pass.report, Pass.plan, Pass.filters, problems, filters, joins]

/-- Among the criteria of a query, those with an answer are those of its keys with an answer. -/
theorem criteriaOfQuery_heeded (pairs : List (String × String)) :
    (engine.settings.criteriaOfQuery pairs).filter policy.heedsCriterion =
      (KeyedList.firsts ((pairs.filter fun pair => pair.1 != engine.settings.sortParam).filter
        fun pair => engine.heedsKey policy pair.1)).map engine.settings.criterionOfPair := by
  have told : policy.heedsCriterion ∘ engine.settings.criterionOfPair =
      fun pair => engine.heedsKey policy pair.1 := rfl
  rw [Settings.criteriaOfQuery, List.filter_map, told, KeyedList.filter_firsts]

variable {policy}

theorem sortOfQuery_insert {before : List (String × String)} {key : String}
    (idle : engine.Idle policy before key) (value : String) (after : List (String × String)) :
    engine.settings.sortOfQuery (before ++ (key, value) :: after) =
      engine.settings.sortOfQuery (before ++ after) := by
  unfold Settings.sortOfQuery
  by_cases sorts : key = engine.settings.sortParam
  · cases idle with
    | unanswered filters => exact absurd sorts filters
    | again known =>
      obtain ⟨first, member, named⟩ := List.mem_map.mp known
      have found : (before.find? fun pair => pair.1 == engine.settings.sortParam).isSome :=
        List.find?_isSome.mpr ⟨first, member, by simp [named, sorts]⟩
      obtain ⟨pair, found⟩ := Option.isSome_iff_exists.mp found
      simp only [List.find?_append, found, Option.some_or]
  · simp [List.find?_append, sorts]

theorem planQuery_pads {pairs pairs' : List (String × String)}
    (pads : engine.Pads policy pairs pairs') :
    engine.planQuery policy pairs' = engine.planQuery policy pairs := by
  obtain ⟨before, after, key, value, idle⟩ := pads
  rw [planQuery, engine.sortOfQuery_insert idle]
  unfold planQuery
  cases idle with
  | again known => rw [Settings.criteriaOfQuery_again engine.settings known]
  | unanswered filters generic refused =>
    have unheeded : engine.heedsKey policy key = false := by
      simp [heedsKey, Policy.heeds, generic, refused]
    -- Both requests are what is left of them without the criteria that have no answer.
    rw [← engine.plan_heeded policy,
      ← engine.plan_heeded policy (engine.settings.criteriaOfQuery (before ++ after)),
      criteriaOfQuery_heeded, criteriaOfQuery_heeded]
    simp [unheeded, filters]

/-- Any number of idle parameters changes neither the plan nor the failure of a query. This is said of
engines whose operators have rules of the six kinds of `Rule`, whatever these make of their values. -/
theorem planQuery_idle (pairs pairs' : List (String × String))
    (padded : Relation.ReflTransGen (engine.Pads policy) pairs pairs') :
    engine.planQuery policy pairs' = engine.planQuery policy pairs := by
  induction padded with
  | refl => rfl
  | tail _ pads ih => rw [engine.planQuery_pads pads, ih]

end Engine

namespace Shelf

def asked : List (String × String) := [("title__contains", "Emma"), ("sort", "-title")]

/-- Page numbers mean nothing to the policy, and the title and the order are asked for again. -/
def padded : List (String × String) :=
  [("page", "2"), ("title__contains", "Emma"), ("title__contains", "Ivanhoe"), ("sort", "-title"),
    ("sort", "id")]

theorem pads : Relation.ReflTransGen (engine.Pads policy) asked padded := by
  have page : engine.Pads policy asked _ :=
    .insert [] _ "page" "2" (.unanswered (by decide) rfl rfl)
  have title : engine.Pads policy _ _ :=
    .insert [("page", "2"), ("title__contains", "Emma")] [("sort", "-title")]
      "title__contains" "Ivanhoe" (.again (by decide))
  have order : engine.Pads policy _ _ :=
    .insert [("page", "2"), ("title__contains", "Emma"), ("title__contains", "Ivanhoe"),
      ("sort", "-title")] [] "sort" "id" (.again (by decide))
  exact ((Relation.ReflTransGen.single page).tail title).tail order

end Shelf

namespace Engine

theorem planQuery_idle_shelf :
    Relation.ReflTransGen (Shelf.engine.Pads Shelf.policy) Shelf.asked Shelf.padded ∧
    (Shelf.engine.planQuery Shelf.policy Shelf.asked).toOption.map (fun plan =>
      (plan.toSql 0).2) = some [.text "%Emma%"] ∧
    Shelf.engine.planQuery Shelf.policy Shelf.padded =
      Shelf.engine.planQuery Shelf.policy Shelf.asked :=
  ⟨Shelf.pads, rfl, planQuery_idle _ _ _ Shelf.pads⟩

end Engine

end RequestFilter
