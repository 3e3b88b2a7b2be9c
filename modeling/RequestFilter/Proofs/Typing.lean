import RequestFilter.Plan
import RequestFilter.Proofs.Leaves
import RequestFilter.Proofs.Readers
import RequestFilter.Proofs.Skeleton
import RequestFilter.Proofs.Whitelist

namespace RequestFilter

/-- A column may stand beside a value: as it is, beside the values of its type, or brought to UTC
beside instants, where an operator orders by a column that carries offsets. -/
def Column.Takes (column : Column) (op : Operator) (value : Value) : Prop :=
  if op.isOrdering ∧ column.type.needsNormalization then
    column.transform = some .utc ∧ ∃ i, value = .timestamp i
  else column.transform = none ∧ column.type.Holds value

theorem Column.Takes.isNull {column : Column} {op : Operator} {value : Value}
    (takes : column.Takes op value) : value.isNull = false := by
  unfold Takes at takes
  split at takes
  · obtain ⟨_, i, rfl⟩ := takes
    rfl
  · exact takes.2.isNull

namespace Filter

/-- The leaf is one that the operator asks for, over values that the column may stand beside. -/
inductive Suits (op : Operator) : Filter → Prop
  | compare {kind : Comparison} {column : Column} {value : Value}
      (compares : op.comparison? = some kind) (takes : column.Takes op value) :
      Suits op (.compare kind column value)
  | member {column : Column} {values : List Value} (negated : Bool)
      (lists : op = if negated then .notWithin else .within) (listed : values ≠ [])
      (plain : column.transform = Option.none) (held : ∀ value ∈ values, column.type.Holds value) :
      Suits op (.member negated column values)
  | between {column : Column} {low high : Value} (ranges : op = .between ∨ op = .notBetween)
      (takesLow : column.Takes op low) (takesHigh : column.Takes op high) :
      Suits op (.between column low high)
  | like {column : Column} {place : Place} {ignoreCase : Bool} {text : String}
      (searches : op.pattern? = some (place, ignoreCase)) (textual : column.type.isTextual = true)
      (cased : column.transform = if ignoreCase then some .upper else Option.none)
      (held : ∃ value, column.type.Holds value ∧ value.asText = some text) :
      Suits op (.like place column text)
  | nullCheck {column : Column} (negated : Bool) (checks : op.isNullCheck = true)
      (plain : column.transform = Option.none) : Suits op (.nullCheck negated column)

/-- The values that a leaf holds, before any of them becomes a pattern. -/
def values : Filter → List Value
  | compare _ _ value => [value]
  | member _ _ values => values
  | between _ low high => [low, high]
  | like _ _ text => [.text text]
  | _ => []

variable {op : Operator} {leaf : Filter}

theorem Suits.isNull (suits : leaf.Suits op) : ∀ value ∈ leaf.values, value.isNull = false := by
  cases suits with
  | compare _ takes => simpa [values] using takes.isNull
  | member _ _ _ _ held => exact fun value member => (held value member).isNull
  | between _ takesLow takesHigh => simpa [values] using ⟨takesLow.isNull, takesHigh.isNull⟩
  | like => simp [values, Value.isNull]
  | nullCheck => simp [values]

theorem Suits.params (suits : leaf.Suits op) :
    ∀ value ∈ Piece.params leaf.pieces, value.isNull = false := by
  cases suits with
  | compare _ takes => simpa [pieces, comparePieces_of_present _ _ takes.isNull] using takes.isNull
  | member _ _ _ _ held =>
    rw [pieces, params_memberPieces]
    exact fun value member => (held value member).isNull
  | between _ takesLow takesHigh =>
    simpa [pieces] using ⟨takesLow.isNull, takesHigh.isNull⟩
  | like => simp [pieces, params_like, Value.isNull]
  | nullCheck => simp [pieces, params_nullPieces]

end Filter

namespace Rule

theorem distinct_subset (values : List Value) : ∀ value ∈ distinct values, value ∈ values := by
  unfold distinct
  refine List.foldlRecOn (motive := fun kept => ∀ value ∈ kept, value ∈ values) values _ (by simp)
    fun kept before value member => ?_
  split
  · exact before
  · intro found among
    rcases List.mem_append.mp among with known | new
    · exact before found known
    · rw [List.mem_singleton.mp new]
      exact member

theorem distinct_ne_nil {values : List Value} (listed : values ≠ []) : distinct values ≠ [] := by
  cases values with
  | nil => exact absurd rfl listed
  | cons first rest =>
    have step : distinct (first :: rest) = rest.foldl (fun kept value =>
      if kept.any (·.same value) then kept else kept ++ [value]) [first] := rfl
    rw [step]
    refine List.foldlRecOn (motive := fun kept => kept ≠ []) rest _ (by simp)
      fun kept before value _ => ?_
    split
    · exact before
    · simp

variable {op : Operator} {column : Column} {values : List Value} {filter : Filter}

theorem ordered_takes (ordering : op.isOrdering = true) (plain : column.transform = none)
    (low : Value) {value : Value} (held : column.type.Holds value) :
    (ordered column low).1.Takes op (ordered column value).2 := by
  rw [ordered_column_eq column low value]
  unfold ordered Column.comparable Column.Takes
  by_cases offset : column.type.needsNormalization = true
  · simp only [offset, if_true, ordering, and_self, true_and]
    obtain ⟨x, rfl⟩ := held.of_offset offset
    exact ⟨_, rfl⟩
  · simp only [offset, Bool.false_eq_true, if_false, and_false]
    exact ⟨plain, held⟩

theorem operands_takes (plain : column.transform = none) {value : Value}
    (held : column.type.Holds value) :
    (operands op column value).1.Takes op (operands op column value).2 := by
  unfold operands
  split
  · rename_i ordering
    exact ordered_takes ordering plain value held
  · rename_i unordered
    unfold Column.Takes
    rw [if_neg fun both => unordered both.1]
    exact ⟨plain, held⟩

theorem compare_suits (plain : column.transform = none)
    (held : isAbsent values = false → ∀ value ∈ values, column.type.Holds value)
    (applied : compare op column values = .ok filter) : ∀ leaf ∈ filter.leaves, leaf.Suits op := by
  rcases compare_ok applied with ⟨_, rfl⟩ | ⟨present, value, rest, kind, rfl, compares, rfl⟩
  · simp [Filter.leaves]
  · have first := held present value (by simp)
    intro leaf member
    rw [List.mem_singleton.mp member]
    exact .compare compares (operands_takes plain first)

theorem test_suits {negated : Bool} (lists : op = if negated then .notWithin else .within)
    (plain : column.transform = none)
    (held : isAbsent values = false → ∀ value ∈ values, column.type.Holds value) :
    ∀ leaf ∈ (test negated column values).leaves, leaf.Suits op := by
  unfold test
  split
  · simp [Filter.leaves]
  · rename_i present
    have present : isAbsent values = false := by simpa using present
    have listed : values ≠ [] := by
      rintro rfl
      cases present
    intro leaf member
    rw [List.mem_singleton.mp member]
    exact .member negated lists (distinct_ne_nil listed) plain fun value kept =>
      held present value (distinct_subset values value kept)

theorem bound_suits {negated : Bool} (ranges : op = .between ∨ op = .notBetween)
    (plain : column.transform = none)
    (held : isAbsent values = false → ∀ value ∈ values, column.type.Holds value)
    (applied : bound negated column values = .ok filter) : ∀ leaf ∈ filter.leaves, leaf.Suits op := by
  rcases bound_ok applied with ⟨_, rfl⟩ | ⟨present, low, high, rfl, rfl⟩
  · simp [Filter.leaves]
  · have ordering : op.isOrdering = true := by
      rcases ranges with rfl | rfl <;> rfl
    have lowHeld := held present low (by simp)
    have highHeld := held present high (by simp)
    intro leaf member
    have same : leaf = .between (ordered column low).1 (ordered column low).2
        (ordered column high).2 := by
      cases negated <;> exact List.mem_singleton.mp member
    rw [same]
    exact .between ranges (ordered_takes ordering plain low lowHeld)
      (ordered_takes ordering plain low highHeld)

theorem search_suits {place : Place} {ignoreCase : Bool} (searches : op.pattern? = some (place, ignoreCase))
    (textual : column.type.isTextual = true) (plain : column.transform = none)
    (held : isAbsent values = false → ∀ value ∈ values, column.type.Holds value)
    (applied : search place ignoreCase column values = .ok filter) :
    ∀ leaf ∈ filter.leaves, leaf.Suits op := by
  rcases search_ok applied with ⟨_, rfl⟩ | ⟨present, value, rest, text, rfl, readable, rfl⟩
  · simp [Filter.leaves]
  · have first := held present value (by simp)
    intro leaf member
    rw [List.mem_singleton.mp member]
    cases ignoreCase with
    | false => exact .like searches textual plain ⟨value, first, readable⟩
    | true => exact .like searches textual rfl ⟨value, first, readable⟩

/-- A built-in rule gives leaves that suit its operator, over values of the type of the column. -/
theorem Builtin.suits {rule : Rule} (family : Rule.Builtin op rule) (plain : column.transform = none)
    (textual : op.pattern? ≠ none → column.type.isTextual = true)
    (read : op.isNullCheck = false → ∀ value ∈ values, value.isNull = true ∨ column.type.Holds value)
    (applied : rule.apply column values = .ok filter) : ∀ leaf ∈ filter.leaves, leaf.Suits op := by
  have held : op.isNullCheck = false → isAbsent values = false →
      ∀ value ∈ values, column.type.Holds value := fun checks present value member => by
    refine (read checks value member).resolve_left ?_
    simp [isNull_of_present present member]
  cases family with
  | comparison compares =>
    have checks : op.isNullCheck = false := by
      cases op <;> first | rfl | cases compares
    exact compare_suits plain (held checks) applied
  | nullCheck negated checks =>
    cases applied
    intro leaf member
    rw [checkNull_eq] at member
    rw [List.mem_singleton.mp member]
    refine .nullCheck _ ?_ plain
    rw [checks]
    cases negated <;> rfl
  | membership negated lists =>
    cases applied
    have checks : op.isNullCheck = false := by
      rw [lists]
      cases negated <;> rfl
    exact test_suits lists plain (held checks)
  | range negated ranges =>
    have between : op = .between ∨ op = .notBetween := by
      cases negated with
      | false => exact .inl ranges
      | true => exact .inr ranges
    have checks : op.isNullCheck = false := by
      rcases between with rfl | rfl <;> rfl
    exact bound_suits between plain (held checks) applied
  | pattern searches =>
    have checks : op.isNullCheck = false := by
      cases op <;> first | rfl | cases searches
    exact search_suits searches (textual (by simp [searches])) plain (held checks) applied

end Rule

/-- The types in a plan: `answered` are the criteria with a predicate in it. -/
structure Plan.WellTyped (plan : Plan) (criteria : List Criterion)
    (answered : List (Criterion × Filter)) : Prop where
  conjuncts : plan.filter.conjuncts = answered.map Prod.snd
  inOrder : (answered.map Prod.fst).Sublist criteria
  leaves : plan.filter.leaves = answered.flatMap fun entry => entry.2.leaves
  suits : ∀ entry ∈ answered, ∀ leaf ∈ entry.2.leaves, leaf.Suits entry.1.operator
  present : ∀ leaf ∈ plan.filter.leaves, ∀ value ∈ leaf.values, value.isNull = false
  bound : ∀ offset, ∀ value ∈ (plan.toSql offset).2, value.isNull = false

namespace Engine

variable {engine : Engine} {policy : Policy}

theorem Grounds.suits {criterion : Criterion} {column : Column} {fieldType : FieldType}
    {values : List Value} {rule : Rule} {filter : Filter} (zones : ZoneTable)
    (types : engine.types = .builtin zones) (rules : engine.rules = .builtin)
    (plain : column.transform = none)
    (grounds : engine.Grounds criterion column fieldType values rule filter) :
    ∀ leaf ∈ filter.leaves, leaf.Suits criterion.operator := by
  have sound : fieldType.Sound column.type := by
    have described := grounds.described
    rw [types] at described
    exact FieldTypes.sound_builtin described
  have family : Rule.Builtin criterion.operator rule := by
    have ruled := grounds.ruled
    rw [rules] at ruled
    exact Rules.builtin_of_rule? ruled
  refine family.suits plain (sound.textual grounds.supported) (fun checks value member => ?_)
    grounds.applied
  have read := grounds.read
  unfold Engine.values at read
  rw [checks, if_neg Bool.false_ne_true] at read
  obtain ⟨raw, _, cast⟩ := FieldType.mem_castAll read member
  exact sound.cast cast

theorem answered_suits {zones : ZoneTable} (types : engine.types = .builtin zones)
    (rules : engine.rules = .builtin) (plain : policy.custom = []) {walks : Walks}
    {criteria : List Criterion} {entry : Criterion × Filter}
    (member : entry ∈ engine.answered policy (engine.places policy walks) criteria) :
    ∀ leaf ∈ entry.2.leaves, leaf.Suits entry.1.operator := by
  obtain ⟨_, predicate⟩ := engine.mem_answered member
  obtain ⟨outcome, _⟩ := Option.filter_eq_some_iff.mp predicate
  obtain ⟨_, column, leads, found⟩ := engine.outcome_column plain outcome
  obtain ⟨scalar, _, rfl⟩ := engine.places_ok leads
  obtain ⟨_, _, _, grounds⟩ := grounds_of_filter found
  exact grounds.suits zones types rules rfl

theorem filter_of_plan (plain : policy.custom = []) {criteria : List Criterion} {sort : SortOrder}
    {plan : Plan} (planned : engine.plan policy criteria sort = .ok plan) :
    ∃ walks filters, plan.filter = .combine .and filters ∧
      (∀ filter ∈ filters, filter.isConjunction = false) ∧
      filters.filter (!·.isNone) =
        (engine.answered policy (engine.places policy walks) criteria).map Prod.snd := by
  obtain ⟨_, rfl⟩ := pass_of_plan engine planned
  obtain ⟨walks, _, _, passed⟩ := engine.pass_eq policy criteria sort
  rw [passed]
  refine ⟨walks, _, rfl, fun filter member => engine.filters_single plain member, ?_⟩
  rw [map_snd_answered]
  exact engine.filters_restricting policy (engine.places policy walks) criteria
    (sort.map (sortResult policy (engine.places policy walks))) (.ofWalks .left walks)

/-- Without custom filters, the built-in types and rules give well-typed plans. -/
theorem plan_wellTyped (engine : Engine) (zones : ZoneTable) (types : engine.types = .builtin zones)
    (rules : engine.rules = .builtin) (policy : Policy) (plain : policy.custom = [])
    (criteria : List Criterion) (sort : SortOrder) (plan : Plan)
    (planned : engine.plan policy criteria sort = .ok plan) :
    ∃ answered, plan.WellTyped criteria answered := by
  obtain ⟨walks, filters, combined, single, restricting⟩ := filter_of_plan plain planned
  let answered := engine.answered policy (engine.places policy walks) criteria
  have leaves : plan.filter.leaves = answered.flatMap fun entry => entry.2.leaves := by
    rw [combined, Filter.leaves_combine, restricting, List.flatMap_map]
  have suits : ∀ entry ∈ answered, ∀ leaf ∈ entry.2.leaves, leaf.Suits entry.1.operator :=
    fun entry member => answered_suits types rules plain member
  have suited : ∀ leaf ∈ plan.filter.leaves, ∃ op, leaf.Suits op := by
    intro leaf member
    rw [leaves] at member
    obtain ⟨entry, among, own⟩ := List.mem_flatMap.mp member
    exact ⟨entry.1.operator, suits entry among leaf own⟩
  refine ⟨answered, ?_⟩
  exact {
    conjuncts := by rw [combined, Filter.conjuncts_combine single, restricting]
    inOrder := engine.answered_sublist (engine.places policy walks) criteria
    leaves := leaves
    suits := suits
    present := fun leaf member => by
      obtain ⟨op, suits⟩ := suited leaf member
      exact suits.isNull
    bound := fun offset value member => by
      unfold Plan.toSql Filter.toSql at member
      rw [Filter.params_pieces] at member
      obtain ⟨leaf, own, binds⟩ := List.mem_flatMap.mp member
      obtain ⟨op, suits⟩ := suited leaf own
      exact suits.params value binds }

theorem plan_wellTyped_shelf :
    Shelf.engine.types = .builtin (fun _ => none) ∧ Shelf.engine.rules = .builtin ∧
    Shelf.plain.custom = [] ∧
    Shelf.engine.plan Shelf.plain Shelf.people [⟨"editors__name", .descending⟩] =
      .ok Shelf.peoplePlan ∧
    ∃ answered, Shelf.peoplePlan.WellTyped Shelf.people answered :=
  ⟨rfl, rfl, rfl, rfl, plan_wellTyped Shelf.engine (fun _ => none) rfl rfl Shelf.plain rfl
    Shelf.people [⟨"editors__name", .descending⟩] Shelf.peoplePlan rfl⟩

end Engine

end RequestFilter
