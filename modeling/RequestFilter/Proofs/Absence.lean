import RequestFilter.Proofs.Rules

namespace RequestFilter

def Operator.isRange : Operator → Bool
  | between | notBetween => true
  | _ => false

namespace Rule

variable {op : Operator} {negated : Bool} {place : Place} {ignoreCase : Bool} {column : Column}
variable {values : List Value}

theorem compare_absent (absent : isAbsent values = true) : compare op column values = .ok .none := by
  unfold compare
  split
  · rfl
  · rw [if_pos absent]

theorem test_absent (absent : isAbsent values = true) : test negated column values = .none := by
  rw [test, if_pos absent]

theorem search_absent (absent : isAbsent values = true) :
    search place ignoreCase column values = .ok .none := by
  unfold search
  split
  · rfl
  · rw [if_pos absent]

theorem bound_absent (absent : isAbsent values = true) :
    bound negated column values =
      if values.length = 0 ∨ values.length = 2 then .ok .none
      else .error (.arity (if negated then .notBetween else .between) "exactly 2" values.length) := by
  match values with
  | [] => rfl
  | [low, high] =>
    have null : (low.isNull || high.isNull) = true := by simpa [isAbsent] using absent
    rw [bound, if_pos null]
    rfl
  | [value] => rfl
  | first :: second :: third :: rest =>
    have counted : ¬ ((first :: second :: third :: rest).length = 0 ∨
        (first :: second :: third :: rest).length = 2) := by simp
    rw [if_neg counted]
    rfl

theorem Builtin.apply_of_absent {rule : Rule} (family : Rule.Builtin op rule)
    (checks : op.isNullCheck = false) (absent : isAbsent values = true) :
    rule.apply column values =
      if op.isRange ∧ values.length ≠ 0 ∧ values.length ≠ 2 then
        .error (.arity op "exactly 2" values.length)
      else .ok .none := by
  cases family with
  | comparison compares =>
    have single : op.isRange = false := by
      cases op <;> first | rfl | cases compares
    rw [apply, compare_absent absent, single]
    rfl
  | nullCheck negated checked =>
    rw [checked] at checks
    cases negated <;> cases checks
  | membership negated lists =>
    have single : op.isRange = false := by
      rw [lists]
      cases negated <;> rfl
    rw [apply, test_absent absent, single]
    rfl
  | range negated ranges =>
    have range : op.isRange = true := by
      rw [ranges]
      cases negated <;> rfl
    rw [apply, bound_absent absent, ← ranges, range]
    by_cases fits : values.length = 0 ∨ values.length = 2
    · rw [if_pos fits, if_neg (by omega)]
    · rw [if_neg fits, if_pos ⟨rfl, by omega⟩]
  | pattern searches =>
    have single : op.isRange = false := by
      cases op <;> first | rfl | cases searches
    rw [apply, search_absent absent, single]
    rfl

end Rule

namespace Rules

/-- Absent values restrict nothing, under every operator but the tests for absence, unless they are
values of a range and neither none nor two. Then, and only then, their number is told. -/
theorem apply_absent (op : Operator) (checks : op.isNullCheck = false) (column : Column)
    (values : List Value) (absent : Rule.isAbsent values = true) :
    ∃ rule, builtin.rule? op = some rule ∧ rule.apply column values =
      if op.isRange ∧ values.length ≠ 0 ∧ values.length ≠ 2 then
        .error (.arity op "exactly 2" values.length)
      else .ok .none := by
  obtain ⟨rule, ruled, family⟩ := rule?_builtin op
  exact ⟨rule, ruled, family.apply_of_absent checks absent⟩

theorem apply_absent_ages :
    Operator.notWithin.isNullCheck = false ∧ Rule.isAbsent [.int 18, .null, .int 30] = true ∧
    ∃ rule, builtin.rule? .notWithin = some rule ∧
      rule.apply ⟨"t0", "age", .i32, none⟩ [.int 18, .null, .int 30] = .ok .none :=
  ⟨rfl, rfl, apply_absent .notWithin rfl ⟨"t0", "age", .i32, none⟩ [.int 18, .null, .int 30] rfl⟩

/-- A range of one value that is nothing is refused for its number of values. -/
theorem range_counts_first :
    ¬ ∀ (op : Operator) (column : Column) (values : List Value), op.isNullCheck = false →
      Rule.isAbsent values = true →
      ∃ rule, builtin.rule? op = some rule ∧ rule.apply column values = .ok .none := by
  intro always
  obtain ⟨rule, ruled, applied⟩ := always .between ⟨"t0", "age", .i32, none⟩ [.null] rfl rfl
  cases ruled
  cases applied

end Rules

end RequestFilter
