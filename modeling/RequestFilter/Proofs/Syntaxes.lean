import Mathlib.Data.List.Forall2
import RequestFilter.Plan
import RequestFilter.Proofs.FirstValues
import RequestFilter.Proofs.Keys
import RequestFilter.Proofs.Whitelist

namespace RequestFilter

structure Criterion.Agrees (criterion criterion' : Criterion) : Prop where
  path : criterion.path = criterion'.path
  operator : criterion.operator = criterion'.operator
  values : criterion.values = criterion'.values

namespace Clause

variable {settings : Settings} {clauses : List Clause}

theorem Asks.agrees {clause : Clause} {criterion criterion' : Criterion}
    (asks : clause.Asks settings criterion) (asks' : clause.Asks settings criterion') :
    criterion.Agrees criterion' where
  path := asks.path.trans asks'.path.symm
  operator := Option.some.inj (asks.operator.symm.trans asks'.operator)
  values := asks.values.trans asks'.values.symm

theorem asks_query (formed : ∀ clause ∈ clauses, clause.WellFormed settings)
    (distinct : (clauses.map (·.key settings)).Nodup)
    (filters : settings.sortParam ∉ clauses.map (·.key settings)) :
    List.Forall₂ (·.Asks settings) clauses
      (settings.criteriaOfQuery (clauses.map (·.pair settings))) := by
  have kept : (clauses.map (·.pair settings)).filter (fun pair => pair.1 != settings.sortParam) =
      clauses.map (·.pair settings) := by
    rw [List.filter_eq_self]
    intro pair member
    obtain ⟨clause, among, rfl⟩ := List.mem_map.mp member
    have other : (clause.pair settings).1 ≠ settings.sortParam := fun same =>
      filters (same ▸ List.mem_map_of_mem among)
    simpa using other
  have keys : (clauses.map (·.pair settings)).map Prod.fst = clauses.map (·.key settings) := by
    rw [List.map_map]
    rfl
  rw [Settings.criteriaOfQuery, kept, KeyedList.firsts_of_nodup (keys ▸ distinct), List.map_map,
    List.forall₂_map_right_iff, List.forall₂_same]
  exact fun clause member => asks_pair (formed clause member)

theorem asks_entries (formed : ∀ clause ∈ clauses, clause.WellFormed settings) :
    List.Forall₂ (·.Asks settings) clauses (settings.criteriaOfEntries (clauses.map entry)) := by
  induction clauses with
  | nil => exact .nil
  | cons clause clauses ih =>
    obtain ⟨criterion, read, asks⟩ := asks_entry (formed clause List.mem_cons_self)
    have later := ih fun clause member => formed clause (List.mem_cons_of_mem _ member)
    rw [Settings.criteriaOfEntries, List.map_cons, List.filterMap_cons, read]
    exact .cons asks later

theorem agrees_of_asks {criteria criteria' : List Criterion}
    (asks : List.Forall₂ (·.Asks settings) clauses criteria)
    (asks' : List.Forall₂ (·.Asks settings) clauses criteria') :
    List.Forall₂ Criterion.Agrees criteria criteria' := by
  induction asks generalizing criteria' with
  | nil =>
    cases asks'
    exact .nil
  | cons first _ ih =>
    cases asks' with
    | cons first' rest' => exact .cons (first.agrees first') (ih rest')

end Clause

namespace Engine

variable (engine : Engine) {policy : Policy}

theorem answer_agrees (plain : policy.custom = []) {criterion criterion' : Criterion}
    (agrees : criterion.Agrees criterion') : engine.SameAnswers policy criterion criterion' := by
  intro joins
  obtain ⟨path, label, op, values, origin⟩ := criterion
  obtain ⟨path', label', op', values', origin'⟩ := criterion'
  obtain ⟨rfl, rfl, rfl⟩ := agrees
  rw [answer, answer, Policy.custom?_of_plain plain]
  rfl

/-- The criteria lead to one plan, or to failures with the same messages under other labels. -/
def SameUpToLabels (policy : Policy) (criteria criteria' : List Criterion) (sort : SortOrder) :
    Prop :=
  (∃ plan, engine.plan policy criteria sort = .ok plan ∧
    engine.plan policy criteria' sort = .ok plan) ∨
  ∃ failure failure', engine.plan policy criteria sort = .error failure ∧
    engine.plan policy criteria' sort = .error failure' ∧ failure.code = failure'.code ∧
    (failure.errors.flatMap Prod.snd).Perm (failure'.errors.flatMap Prod.snd)

theorem Pass.problems_report (pass : Pass) (sortLabel : String) :
    (pass.report sortLabel).map FieldProblem.problem =
      (pass.outcomes.map Prod.snd).flatMap Outcome.problems ++ pass.columns.filterMap problem? := by
  simp only [Pass.report, Report.ofField, List.map_append, List.map_flatMap, List.flatMap_map,
    List.map_map]
  congr 1
  · simp [Function.comp_def]
  · simp [Function.comp_def]

theorem pass_agrees (plain : policy.custom = []) {criteria criteria' : List Criterion}
    (agrees : List.Forall₂ Criterion.Agrees criteria criteria') (sort : SortOrder) :
    (engine.pass policy criteria sort).plan = (engine.pass policy criteria' sort).plan ∧
    ((engine.pass policy criteria sort).report engine.settings.sortParam).map FieldProblem.problem =
      ((engine.pass policy criteria' sort).report engine.settings.sortParam).map
        FieldProblem.problem := by
  have same := pass_same (agrees.imp fun _ _ => engine.answer_agrees plain) sort
  refine ⟨same.plan, ?_⟩
  rw [Pass.problems_report, Pass.problems_report, same.outcomes, same.columns]

theorem plan_agrees (plain : policy.custom = []) {criteria criteria' : List Criterion}
    (agrees : List.Forall₂ Criterion.Agrees criteria criteria') (sort : SortOrder) :
    engine.SameUpToLabels policy criteria criteria' sort := by
  obtain ⟨planned, problems⟩ := engine.pass_agrees plain agrees sort
  have second : engine.plan policy criteria' sort =
      ((engine.pass policy criteria' sort).report engine.settings.sortParam).result policy.root
        (engine.pass policy criteria sort).plan := by
    rw [planned]
    rfl
  rcases Report.result_relabelled policy.root problems (engine.pass policy criteria sort).plan with
    ⟨ok, ok'⟩ | failed
  · exact .inl ⟨_, ok, second.trans ok'⟩
  · rw [← second] at failed
    exact .inr failed

/-- What the two syntaxes make of the clauses. -/
structure ReadsAlike (policy : Policy) (clauses : List Clause) (sort : SortOrder) : Prop where
  query : List.Forall₂ (·.Asks engine.settings) clauses
    (engine.settings.criteriaOfQuery (clauses.map (·.pair engine.settings)))
  entries : List.Forall₂ (·.Asks engine.settings) clauses
    (engine.settings.criteriaOfEntries (clauses.map Clause.entry))
  agree : List.Forall₂ Criterion.Agrees
    (engine.settings.criteriaOfQuery (clauses.map (·.pair engine.settings)))
    (engine.settings.criteriaOfEntries (clauses.map Clause.entry))
  plan : engine.SameUpToLabels policy
    (engine.settings.criteriaOfQuery (clauses.map (·.pair engine.settings)))
    (engine.settings.criteriaOfEntries (clauses.map Clause.entry)) sort

theorem syntaxes_alike (policy : Policy) (plain : policy.custom = []) (clauses : List Clause)
    (formed : ∀ clause ∈ clauses, clause.WellFormed engine.settings)
    (distinct : (clauses.map (·.key engine.settings)).Nodup)
    (filters : engine.settings.sortParam ∉ clauses.map (·.key engine.settings))
    (sort : SortOrder) : engine.ReadsAlike policy clauses sort := by
  have query := Clause.asks_query formed distinct filters
  have entries := Clause.asks_entries formed
  have agree := Clause.agrees_of_asks query entries
  exact ⟨query, entries, agree, engine.plan_agrees plain agree sort⟩

end Engine

namespace Shelf

/-- The second path ends with half a delimiter, and the policy knows no such field. -/
def clauses : List Clause :=
  [⟨"author__name", "IContains", "Ann"⟩, ⟨"title_", "EQ", "Emma"⟩, ⟨"id", "gte", "x"⟩,
    ⟨"id", "In", "1,y"⟩]

theorem clauses_wellFormed : ∀ clause ∈ clauses, clause.WellFormed engine.settings := by
  decide +kernel

end Shelf

namespace Engine

/-- The query tells the wrong values under one key each, the body under the path they share. -/
theorem syntaxes_alike_shelf :
    Shelf.plain.custom = [] ∧
    (∀ clause ∈ Shelf.clauses, clause.WellFormed Shelf.engine.settings) ∧
    Shelf.clauses.map (·.key Shelf.engine.settings) =
      ["author__name__IContains", "title___EQ", "id__gte", "id__In"] ∧
    (∃ failure failure',
      Shelf.engine.plan Shelf.plain (Shelf.engine.settings.criteriaOfQuery
        (Shelf.clauses.map (·.pair Shelf.engine.settings))) [] = .error failure ∧
      Shelf.engine.plan Shelf.plain (Shelf.engine.settings.criteriaOfEntries
        (Shelf.clauses.map Clause.entry)) [] = .error failure' ∧
      failure.errors = [("id__gte", ["`x` is not a valid i64"]),
        ("id__In", ["`y` is not a valid i64"])] ∧
      failure'.errors = [("id", ["`x` is not a valid i64", "`y` is not a valid i64"])]) ∧
    Shelf.engine.ReadsAlike Shelf.plain Shelf.clauses [] :=
  ⟨rfl, Shelf.clauses_wellFormed, rfl, ⟨_, _, rfl, rfl, rfl, rfl⟩,
    syntaxes_alike _ _ rfl _ Shelf.clauses_wellFormed (by decide +kernel) (by decide +kernel) []⟩

end Engine

end RequestFilter
