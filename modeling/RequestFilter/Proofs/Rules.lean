import Mathlib.Data.List.Basic
import RequestFilter.Rule

namespace RequestFilter

def Operator.pattern? : Operator → Option (Place × Bool)
  | contains => some (.anywhere, false)
  | iContains => some (.anywhere, true)
  | startsWith => some (.atStart, false)
  | iStartsWith => some (.atStart, true)
  | endsWith => some (.atEnd, false)
  | iEndsWith => some (.atEnd, true)
  | _ => none

/-- The built-in rule of an operator belongs to one of five families. -/
inductive Rule.Builtin (op : Operator) : Rule → Prop
  | comparison {kind : Comparison} (compares : op.comparison? = some kind) :
      Builtin op (.comparison op)
  | nullCheck (negated : Bool) (checks : op = if negated then .isNotNull else .isNull) :
      Builtin op (.nullCheck negated)
  | membership (negated : Bool) (lists : op = if negated then .notWithin else .within) :
      Builtin op (.membership negated)
  | range (negated : Bool) (ranges : op = if negated then .notBetween else .between) :
      Builtin op (.range negated)
  | pattern {place : Place} {ignoreCase : Bool} (searches : op.pattern? = some (place, ignoreCase)) :
      Builtin op (.pattern place ignoreCase)

theorem Rules.rule?_builtin (op : Operator) :
    ∃ rule, Rules.builtin.rule? op = some rule ∧ Rule.Builtin op rule := by
  cases op with
  | eq | neq | gt | lt | gte | lte => exact ⟨_, rfl, .comparison rfl⟩
  | isNull | isNotNull => exact ⟨_, rfl, .nullCheck _ rfl⟩
  | within | notWithin => exact ⟨_, rfl, .membership _ rfl⟩
  | between | notBetween => exact ⟨_, rfl, .range _ rfl⟩
  | contains | iContains | startsWith | iStartsWith | endsWith | iEndsWith =>
    exact ⟨_, rfl, .pattern rfl⟩

theorem Rules.builtin_of_rule? {op : Operator} {rule : Rule}
    (ruled : Rules.builtin.rule? op = some rule) : Rule.Builtin op rule := by
  obtain ⟨found, same, family⟩ := Rules.rule?_builtin op
  rw [ruled] at same
  cases same
  exact family

namespace Rule

/-- The column and a value in the form in which the operator compares them. -/
def operands (op : Operator) (column : Column) (value : Value) : Column × Value :=
  if op.isOrdering then ordered column value else (column, value)

variable {op : Operator} {negated : Bool} {place : Place} {ignoreCase : Bool} {column : Column}
variable {values : List Value} {filter : Filter}

theorem isNull_of_present (present : isAbsent values = false) {value : Value} (member : value ∈ values) :
    value.isNull = false := by
  simp only [isAbsent, Bool.or_eq_false_iff, List.any_eq_false] at present
  simpa using present.2 value member

theorem compare_ok (applied : compare op column values = .ok filter) :
    (isAbsent values = true ∧ filter = .none) ∨
    isAbsent values = false ∧ ∃ value rest kind, values = value :: rest ∧
      op.comparison? = some kind ∧
      filter = .compare kind (operands op column value).1 (operands op column value).2 := by
  unfold compare at applied
  split at applied
  · cases applied
    exact .inl ⟨rfl, rfl⟩
  · rename_i value rest
    split at applied
    · rename_i absent
      cases applied
      exact .inl ⟨absent, rfl⟩
    · rename_i present
      split at applied
      · cases applied
      · rename_i kind compares
        cases applied
        exact .inr ⟨by simpa using present, value, rest, kind, rfl, compares, rfl⟩

theorem bound_ok (applied : bound negated column values = .ok filter) :
    (isAbsent values = true ∧ filter = .none) ∨
    isAbsent values = false ∧ ∃ low high, values = [low, high] ∧
      filter = (if negated then Filter.negate else id)
        (.between (ordered column low).1 (ordered column low).2 (ordered column high).2) := by
  unfold bound at applied
  split at applied
  · cases applied
    exact .inl ⟨rfl, rfl⟩
  · rename_i low high
    split at applied
    · rename_i absent
      cases applied
      exact .inl ⟨by simpa [isAbsent] using absent, rfl⟩
    · rename_i present
      cases applied
      refine .inr ⟨by simpa [isAbsent] using present, low, high, rfl, ?_⟩
      cases negated <;> rfl
  · cases applied

theorem search_ok (applied : search place ignoreCase column values = .ok filter) :
    (isAbsent values = true ∧ filter = .none) ∨
    isAbsent values = false ∧ ∃ value rest text, values = value :: rest ∧ value.asText = some text ∧
      filter = .like place (if ignoreCase then column.upper else column) text := by
  unfold search at applied
  split at applied
  · cases applied
    exact .inl ⟨rfl, rfl⟩
  · rename_i value rest
    split at applied
    · rename_i absent
      cases applied
      exact .inl ⟨absent, rfl⟩
    · rename_i present
      split at applied
      · cases applied
      · rename_i text readable
        cases applied
        exact .inr ⟨by simpa using present, value, rest, text, rfl, readable, rfl⟩

theorem checkNull_eq (negated : Bool) (column : Column) (values : List Value) :
    checkNull negated column values =
      .nullCheck (negated && decide (values ≠ [.bool false])) column := by
  match values with
  | [] => simp [checkNull]
  | _ :: _ :: _ => simp [checkNull]
  | [value] =>
    cases value with
    | bool b => cases b <;> simp [checkNull, Value.asBool]
    | _ => simp [checkNull, Value.asBool]

/-- What rules make of values: a test, nothing where there are none, or no range of their number. -/
inductive Makes (op : Operator) (values : List Value) : Except Problem Filter → Prop
  | test {filter : Filter} (restricts : filter.isNone = false) : Makes op values (.ok filter)
  | nothing (checks : op.isNullCheck = false) (absent : isAbsent values = true) :
      Makes op values (.ok .none)
  | noRange (ranges : op = .between ∨ op = .notBetween) (some : values.length ≠ 0)
      (notTwo : values.length ≠ 2) :
      Makes op values (.error (.arity op "exactly 2" values.length))

theorem compare_makes {kind : Comparison} (compares : op.comparison? = some kind) :
    Makes op values (compare op column values) := by
  have checks : op.isNullCheck = false := by
    cases op <;> first | rfl | cases compares
  cases applied : compare op column values with
  | ok filter =>
    rcases compare_ok applied with ⟨absent, rfl⟩ | ⟨_, _, _, _, _, _, rfl⟩
    · exact .nothing checks absent
    · exact .test rfl
  | error problem =>
    unfold compare at applied
    simp only [compares] at applied
    split at applied
    · cases applied
    · split at applied <;> cases applied

theorem test_makes (lists : op = if negated then .notWithin else .within) :
    Makes op values (.ok (test negated column values)) := by
  have checks : op.isNullCheck = false := by
    rw [lists]
    cases negated <;> rfl
  unfold test
  split
  · rename_i absent
    exact .nothing checks absent
  · exact .test rfl

theorem bound_makes (ranges : op = if negated then .notBetween else .between) :
    Makes op values (bound negated column values) := by
  have between : op = .between ∨ op = .notBetween := by
    cases negated with
    | false => exact .inl ranges
    | true => exact .inr ranges
  have checks : op.isNullCheck = false := by
    rcases between with rfl | rfl <;> rfl
  cases applied : bound negated column values with
  | ok filter =>
    rcases bound_ok applied with ⟨absent, rfl⟩ | ⟨_, low, high, _, rfl⟩
    · exact .nothing checks absent
    · cases negated <;> exact .test rfl
  | error problem =>
    unfold bound at applied
    split at applied
    · cases applied
    · split at applied <;> cases applied
    · rename_i notNone notTwo
      cases applied
      have some : values.length ≠ 0 := fun none => notNone (List.eq_nil_of_length_eq_zero none)
      have other : values.length ≠ 2 := fun two => by
        obtain ⟨low, high, pair⟩ := List.length_eq_two.mp two
        exact notTwo low high pair
      rw [← ranges]
      exact .noRange between some other

theorem search_makes (searches : op.pattern? ≠ none)
    (texts : isAbsent values = false → ∀ value ∈ values, ∃ text, value.asText = some text) :
    Makes op values (search place ignoreCase column values) := by
  have checks : op.isNullCheck = false := by
    cases op <;> first | rfl | exact absurd rfl searches
  cases applied : search place ignoreCase column values with
  | ok filter =>
    rcases search_ok applied with ⟨absent, rfl⟩ | ⟨_, _, _, _, _, _, rfl⟩
    · exact .nothing checks absent
    · exact .test rfl
  | error problem =>
    unfold search at applied
    split at applied
    · cases applied
    · rename_i value rest
      split at applied
      · cases applied
      · rename_i present
        obtain ⟨text, readable⟩ := texts (by simpa using present) value (by simp)
        rw [readable] at applied
        cases applied

/-- Where patterns are searched for in texts, these are all ways of a built-in rule. -/
theorem Builtin.makes {rule : Rule} (family : Rule.Builtin op rule) (column : Column)
    (texts : op.pattern? ≠ none → isAbsent values = false →
      ∀ value ∈ values, ∃ text, value.asText = some text) :
    Makes op values (rule.apply column values) := by
  cases family with
  | comparison compares => exact compare_makes compares
  | nullCheck negated checks => exact .test rfl
  | membership negated lists => exact test_makes lists
  | range negated ranges => exact bound_makes ranges
  | pattern searches =>
    have searching : op.pattern? ≠ none := by simp [searches]
    exact search_makes searching (texts searching)

/-- Only a comparison by an operator that compares nothing is the fault of the application. -/
theorem Builtin.blame {rule : Rule} (family : Rule.Builtin op rule) {problem : Problem}
    (failed : rule.apply column values = .error problem) : problem.blame = .client := by
  cases family with
  | comparison compares =>
    simp only [apply, compare, compares] at failed
    split at failed
    · cases failed
    · split at failed <;> cases failed
  | nullCheck negated checks => cases failed
  | membership negated lists => cases failed
  | range negated ranges =>
    simp only [apply, bound] at failed
    split at failed
    · cases failed
    · split at failed <;> cases failed
    · cases failed
      rfl
  | pattern searches =>
    simp only [apply, search] at failed
    split at failed
    · cases failed
    · split at failed
      · cases failed
      · split at failed <;> cases failed
        rfl

end Rule

end RequestFilter
