import RequestFilter.Plan
import RequestFilter.Proofs.Skeleton
import RequestFilter.Proofs.Whitelist

namespace RequestFilter

/-- What the text tells of the values of an operator. -/
structure Operator.SameShape (op : Operator) (values values' : List Value) : Prop where
  absent : Rule.isAbsent values = Rule.isAbsent values'
  distinct : op = .within ∨ op = .notWithin →
    (Rule.distinct values).length = (Rule.distinct values').length
  inverting : op = .isNotNull → (values = [.bool false] ↔ values' = [.bool false])

structure Plan.SameText (plan plan' : Plan) : Prop where
  joins : plan.joinSql = plan'.joinSql
  predicate : ∀ offset, (plan.toSql offset).1 = (plan'.toSql offset).1
  order : plan.order.sql = plan'.order.sql
  select : ∀ table columns, (plan.selectSql table columns).1 = (plan'.selectSql table columns).1
  /-- The values differ, but not in number. -/
  count : ∀ offset, (plan.toSql offset).2.length = (plan'.toSql offset).2.length

namespace Rule

theorem isNull_toUtc (value : Value) : value.toUtc.isNull = value.isNull := by
  cases value <;> rfl

theorem operands_present (op : Operator) (column : Column) {value : Value}
    (present : value.isNull = false) : (operands op column value).2.isNull = false := by
  unfold operands ordered
  split
  · split
    · exact (isNull_toUtc value).trans present
    · exact present
  · exact present

variable {op : Operator} {column : Column} {values values' : List Value} {filter filter' : Filter}

theorem compare_alike (absent : isAbsent values = isAbsent values')
    (applied : compare op column values = .ok filter)
    (applied' : compare op column values' = .ok filter') : filter.Alike filter' := by
  rcases compare_ok applied with ⟨none, rfl⟩ | ⟨some, value, rest, kind, rfl, compares, rfl⟩
  · rcases compare_ok applied' with ⟨_, rfl⟩ | ⟨some', _⟩
    · exact .refl .none
    · rw [none, some'] at absent
      cases absent
  · rcases compare_ok applied' with ⟨none', _⟩ | ⟨some', value', rest', kind', rfl, compares', rfl⟩
    · rw [some, none'] at absent
      cases absent
    · cases compares.symm.trans compares'
      have present := operands_present op column (isNull_of_present some (List.mem_cons_self ..))
      have present' := operands_present op column (isNull_of_present some' (List.mem_cons_self ..))
      rw [operands_column_eq op column value value']
      exact Filter.alike_compare kind _ present present'

theorem bound_alike {negated : Bool} (absent : isAbsent values = isAbsent values')
    (applied : bound negated column values = .ok filter)
    (applied' : bound negated column values' = .ok filter') : filter.Alike filter' := by
  rcases bound_ok applied with ⟨none, rfl⟩ | ⟨some, low, high, rfl, rfl⟩
  · rcases bound_ok applied' with ⟨_, rfl⟩ | ⟨some', _⟩
    · exact .refl .none
    · rw [none, some'] at absent
      cases absent
  · rcases bound_ok applied' with ⟨none', _⟩ | ⟨some', low', high', rfl, rfl⟩
    · rw [some, none'] at absent
      cases absent
    · rw [ordered_column_eq column low low']
      have within := Filter.alike_between (ordered column low').1 (ordered column low).2
        (ordered column high).2 (ordered column low').2 (ordered column high').2
      cases negated with
      | false => exact within
      | true => exact within.negate

theorem search_alike {place : Place} {ignoreCase : Bool} (absent : isAbsent values = isAbsent values')
    (applied : search place ignoreCase column values = .ok filter)
    (applied' : search place ignoreCase column values' = .ok filter') : filter.Alike filter' := by
  rcases search_ok applied with ⟨none, rfl⟩ | ⟨some, _, _, text, rfl, _, rfl⟩
  · rcases search_ok applied' with ⟨_, rfl⟩ | ⟨some', _⟩
    · exact .refl .none
    · rw [none, some'] at absent
      cases absent
  · rcases search_ok applied' with ⟨none', _⟩ | ⟨some', _, _, text', rfl, _, rfl⟩
    · rw [some, none'] at absent
      cases absent
    · exact Filter.alike_like place _ text text'

theorem test_alike {negated : Bool} (absent : isAbsent values = isAbsent values')
    (count : (distinct values).length = (distinct values').length) :
    (test negated column values).Alike (test negated column values') := by
  unfold test
  rw [absent]
  split
  · exact .refl .none
  · exact Filter.alike_member negated column count

theorem Builtin.alike {rule : Rule} (family : Rule.Builtin op rule) (shape : op.SameShape values values')
    (applied : rule.apply column values = .ok filter)
    (applied' : rule.apply column values' = .ok filter') : filter.Alike filter' := by
  cases family with
  | comparison compares => exact compare_alike shape.absent applied applied'
  | nullCheck negated checks =>
    cases applied
    cases applied'
    rw [checkNull_eq, checkNull_eq]
    cases negated with
    | false => exact .refl _
    | true =>
      have same := shape.inverting checks
      simp only [ne_eq, same]
      exact .refl _
  | membership negated lists =>
    cases applied
    cases applied'
    refine test_alike shape.absent (shape.distinct ?_)
    cases negated with
    | false => exact .inl lists
    | true => exact .inr lists
  | range negated ranges => exact bound_alike shape.absent applied applied'
  | pattern searches => exact search_alike shape.absent applied applied'

end Rule

namespace Engine

variable (engine : Engine) (policy : Policy)

/-- The values that a criterion is answered with, where its path leads to a column and all of them
can be read. -/
def castValues (criterion : Criterion) : Option (List Value) := do
  let column ← (engine.resolve policy criterion.path .empty).1.toOption
  let fieldType ← engine.types.describe? column.type
  (values fieldType criterion).toOption

/-- The criteria ask the same of the same path, with values of the same shape. What the policy does
not allow may have any values. -/
structure SameShape (criterion criterion' : Criterion) : Prop where
  path : criterion.path = criterion'.path
  operator : criterion.operator = criterion'.operator
  values : policy.allows criterion.path criterion.operator → ∀ values values',
    engine.castValues policy criterion = some values →
    engine.castValues policy criterion' = some values' →
    criterion.operator.SameShape values values'

variable {engine policy} {criterion criterion' : Criterion} {walks : Walks}

theorem castValues_of_grounds {column : Column} {fieldType : FieldType} {read : List Value}
    {rule : Rule} {filter : Filter}
    (leads : engine.places policy walks criterion.path = .ok column)
    (grounds : engine.Grounds criterion column fieldType read rule filter) :
    engine.castValues policy criterion = some read := by
  obtain ⟨found, resolved, _, type, _⟩ := engine.reads_of_places leads column.transform
  have type : column.type = found.type := type
  have described := grounds.described
  rw [type] at described
  simp [castValues, resolved, Except.toOption, described, grounds.read]

theorem answerColumn_alike (rules : engine.rules = .builtin)
    (shape : engine.SameShape policy criterion criterion')
    (allowed : policy.allows criterion.path criterion.operator) {column : Column}
    (leads : engine.places policy walks criterion.path = .ok column)
    (clean : (engine.answerColumn criterion column).problems = [])
    (clean' : (engine.answerColumn criterion' column).problems = []) :
    ∃ filter filter', (engine.answerColumn criterion column).filter = some filter ∧
      (engine.answerColumn criterion' column).filter = some filter' ∧ filter.Alike filter' := by
  obtain ⟨_, read, rule, filter, grounds, answered⟩ := grounds_of_clean clean
  obtain ⟨_, read', rule', filter', grounds', answered'⟩ := grounds_of_clean clean'
  refine ⟨filter, filter', by rw [answered]; rfl, by rw [answered']; rfl, ?_⟩
  have leads' : engine.places policy walks criterion'.path = .ok column := by
    rw [← shape.path]
    exact leads
  have values := shape.values allowed read read' (castValues_of_grounds leads grounds)
    (castValues_of_grounds leads' grounds')
  have ruled' := grounds'.ruled
  rw [← shape.operator, grounds.ruled] at ruled'
  obtain rfl := Option.some.inj ruled'
  have family : Rule.Builtin criterion.operator rule := by
    apply Rules.builtin_of_rule?
    rw [← rules]
    exact grounds.ruled
  exact family.alike values grounds.applied grounds'.applied

theorem outcome_alike (plain : policy.custom = []) (rules : engine.rules = .builtin)
    (shape : engine.SameShape policy criterion criterion')
    (clean : ((engine.script policy criterion).outcome (engine.places policy walks)).problems = [])
    (clean' : ((engine.script policy criterion').outcome (engine.places policy walks)).problems = []) :
    Option.Rel Filter.Alike
      ((engine.script policy criterion).outcome (engine.places policy walks)).filter
      ((engine.script policy criterion').outcome (engine.places policy walks)).filter := by
  rw [script_of_plain engine plain] at clean clean' ⊢
  rw [script_of_plain engine plain]
  rw [← shape.path, ← shape.operator] at clean' ⊢
  by_cases allowed : policy.allows criterion.path criterion.operator = true
  · simp only [allowed, if_true, fieldScript, Script.outcome] at clean clean' ⊢
    rw [← shape.path] at clean' ⊢
    cases leads : engine.places policy walks criterion.path with
    | error fault =>
      rw [leads] at clean
      cases clean
    | ok column =>
      rw [leads] at clean clean'
      simp only [Script.outcome_script] at clean clean' ⊢
      obtain ⟨filter, filter', answered, answered', alike⟩ :=
        answerColumn_alike rules shape allowed leads clean clean'
      rw [answered, answered']
      exact .some alike
  · simp only [allowed]
    exact .none

theorem filters_alike (plain : policy.custom = []) (rules : engine.rules = .builtin)
    {criteria criteria' : List Criterion}
    (shape : List.Forall₂ (engine.SameShape policy) criteria criteria')
    (clean : ∀ criterion ∈ criteria,
      ((engine.script policy criterion).outcome (engine.places policy walks)).problems = [])
    (clean' : ∀ criterion ∈ criteria',
      ((engine.script policy criterion).outcome (engine.places policy walks)).problems = []) :
    List.Forall₂ Filter.Alike
      (criteria.filterMap fun criterion =>
        ((engine.script policy criterion).outcome (engine.places policy walks)).filter)
      (criteria'.filterMap fun criterion =>
        ((engine.script policy criterion).outcome (engine.places policy walks)).filter) := by
  induction shape with
  | nil => exact .nil
  | cons first rest ih =>
    rename_i criterion criterion' criteria criteria'
    have later := ih (fun c member => clean c (List.mem_cons_of_mem _ member))
      (fun c member => clean' c (List.mem_cons_of_mem _ member))
    have here := outcome_alike plain rules first (clean criterion (by simp))
      (clean' criterion' (by simp))
    simp only [List.filterMap_cons]
    generalize ((engine.script policy criterion).outcome _).filter = answer at here ⊢
    generalize ((engine.script policy criterion').outcome _).filter = answer' at here ⊢
    cases here with
    | some alike => exact .cons alike later
    | none => exact later

theorem asked_same (plain : policy.custom = []) {criteria criteria' : List Criterion}
    (shape : List.Forall₂ (engine.SameShape policy) criteria criteria') (sort : SortOrder)
    (places places' : Places) :
    engine.asked policy places criteria sort = engine.asked policy places' criteria' sort := by
  unfold asked
  congr 1
  induction shape with
  | nil => rfl
  | cons first rest ih =>
    rw [List.flatMap_cons, List.flatMap_cons, ih, asked_script engine plain,
      asked_script engine plain, first.path, first.operator]

theorem clean_of_plan {criteria : List Criterion} {sort : SortOrder} {plan : Plan}
    (planned : engine.plan policy criteria sort = .ok plan) :
    ∀ entry ∈ (engine.pass policy criteria sort).outcomes, entry.2.problems = [] := by
  obtain ⟨clean, _⟩ := Report.eq_of_result_ok _ _ planned
  obtain ⟨outcomes, _⟩ := List.append_eq_nil_iff.mp clean
  intro entry member
  exact List.map_eq_nil_iff.mp (List.flatMap_eq_nil_iff.mp outcomes entry member)

theorem sameText_of_alike {plan plan' : Plan} (joins : plan.joins = plan'.joins)
    (order : plan.order = plan'.order) (alike : plan.filter.Alike plan'.filter) :
    plan.SameText plan' where
  joins := congrArg Joins.sql joins
  predicate := alike.text
  order := congrArg SortOrder.sql order
  select := by
    intro table columns
    have text : (plan.toSql 0).1 = (plan'.toSql 0).1 := alike.text 0
    unfold Plan.selectSql Plan.joinSql
    dsimp only
    rw [joins, order, alike.isNone, text]
  count := alike.count

end Engine

namespace Shelf

def readers : List Criterion :=
  [.ofPath "editors__name" .contains ["Ann"], .ofPath "shelf" .eq ["3"],
    .ofPath "id" .within ["1", "2", "1"]]

def strangers : List Criterion :=
  [.ofPath "editors__name" .contains ["' OR 1=1 --"], .ofPath "shelf" .eq [],
    .ofPath "id" .within ["7", "8"]]

theorem sameShape : List.Forall₂ (engine.SameShape plain) readers strangers := by
  refine .cons ⟨rfl, rfl, fun _ values values' read read' => ?_⟩
    (.cons ⟨rfl, rfl, fun allowed => ?_⟩ (.cons ⟨rfl, rfl, fun _ values values' read read' => ?_⟩ .nil))
  · obtain rfl : [.text "Ann"] = values := Option.some.inj read
    obtain rfl : [.text "' OR 1=1 --"] = values' := Option.some.inj read'
    exact ⟨rfl, fun _ => rfl, nofun⟩
  · cases allowed
  · obtain rfl : [.int 1, .int 2, .int 1] = values := Option.some.inj read
    obtain rfl : [.int 7, .int 8] = values' := Option.some.inj read'
    exact ⟨rfl, fun _ => rfl, nofun⟩

end Shelf

namespace Engine

/-- Values of the same shape lead to the same text. -/
theorem plan_sameText (engine : Engine) (policy : Policy) (rules : engine.rules = .builtin)
    (plain : policy.custom = []) (sort : SortOrder) {criteria criteria' : List Criterion}
    (shape : List.Forall₂ (engine.SameShape policy) criteria criteria') {plan plan' : Plan}
    (planned : engine.plan policy criteria sort = .ok plan)
    (planned' : engine.plan policy criteria' sort = .ok plan') : plan.SameText plan' := by
  have clean := clean_of_plan planned
  have clean' := clean_of_plan planned'
  obtain ⟨_, rfl⟩ := pass_of_plan engine planned
  obtain ⟨_, rfl⟩ := pass_of_plan engine planned'
  obtain ⟨walks, _, walked, passed⟩ := engine.pass_eq policy criteria sort
  obtain ⟨walks', _, walked', passed'⟩ := engine.pass_eq policy criteria' sort
  have same : walks = walks' := by
    rw [walked, walked', asked_same plain shape sort _ (engine.places policy walks')]
  subst same
  rw [passed] at clean ⊢
  rw [passed'] at clean' ⊢
  simp only [List.forall_mem_map] at clean clean'
  refine sameText_of_alike rfl rfl (Filter.Alike.combine .and ?_)
  unfold Pass.filters
  rw [List.filterMap_map, List.filterMap_map]
  exact filters_alike plain rules shape clean clean'

theorem plan_sameText_shelf :
    Shelf.engine.rules = .builtin ∧ Shelf.plain.custom = [] ∧
    List.Forall₂ (Shelf.engine.SameShape Shelf.plain) Shelf.readers Shelf.strangers ∧
    ∃ plan plan', Shelf.engine.plan Shelf.plain Shelf.readers [] = .ok plan ∧
      Shelf.engine.plan Shelf.plain Shelf.strangers [] = .ok plan' ∧
      (plan.toSql 0).2 = [.text "%Ann%", .int 1, .int 2] ∧
      (plan'.toSql 0).2 = [.text "%' OR 1=1 --%", .int 7, .int 8] ∧ plan.SameText plan' :=
  ⟨rfl, rfl, Shelf.sameShape, _, _, rfl, rfl, rfl, rfl,
    plan_sameText _ _ rfl rfl [] Shelf.sameShape rfl rfl⟩

end Engine

end RequestFilter
