import RequestFilter.Proofs.Rules

namespace RequestFilter

namespace Filter

mutual

def columns : Filter → List Column
  | none => []
  | compare _ column _ => [column]
  | member _ column _ => [column]
  | between column _ _ => [column]
  | like _ column _ => [column]
  | nullCheck _ column => [column]
  | junction _ filters => columnsAll filters
  | not filter => columns filter

def columnsAll : List Filter → List Column
  | [] => []
  | filter :: filters => columns filter ++ columnsAll filters

end

def conjuncts : Filter → List Filter
  | none => []
  | junction .and filters => filters
  | filter => [filter]

def isConjunction : Filter → Bool
  | junction .and _ => true
  | _ => false

theorem columnsAll_eq_flatMap (filters : List Filter) :
    columnsAll filters = filters.flatMap columns := by
  induction filters with
  | nil => rfl
  | cons filter filters ih => rw [columnsAll, ih, List.flatMap_cons]

theorem conjuncts_single {filter : Filter} (restricts : filter.isNone = false)
    (single : filter.isConjunction = false) : filter.conjuncts = [filter] := by
  unfold conjuncts
  split
  · cases restricts
  · cases single
  · rfl

theorem conjuncts_combine {filters : List Filter}
    (single : ∀ filter ∈ filters, filter.isConjunction = false) :
    (combine .and filters).conjuncts = filters.filter (!·.isNone) := by
  have kept : ∀ filter ∈ filters.filter (!·.isNone),
      filter.isNone = false ∧ filter.isConjunction = false := by
    intro filter member
    obtain ⟨member, restricts⟩ := List.mem_filter.mp member
    exact ⟨by simpa using restricts, single filter member⟩
  unfold combine
  split
  · rename_i none
    exact none.symm
  · rename_i filter one
    rw [one] at kept ⊢
    obtain ⟨restricts, single⟩ := kept filter (by simp)
    exact conjuncts_single restricts single
  · rfl

theorem columns_none {filter : Filter} (restricts : filter.isNone = true) : filter.columns = [] := by
  cases filter with
  | none => rfl
  | _ => cases restricts

theorem columns_combine (connective : Connective) (filters : List Filter) :
    (combine connective filters).columns =
      (filters.filter (!·.isNone)).flatMap columns := by
  unfold combine
  split
  · rename_i none
    rw [none]
    rfl
  · rename_i filter one
    rw [one, List.flatMap_singleton]
  · rw [columns, columnsAll_eq_flatMap]

/-- The predicate looks at one column, as it stands or transformed, and is not made of others. -/
def Tests (column : Column) (filter : Filter) : Prop :=
  (∃ transform, filter.columns = [{ column with transform := transform }]) ∧
    filter.isConjunction = false

theorem Tests.negate {column : Column} {filter : Filter} (tests : filter.Tests column) :
    filter.negate.Tests column := by
  obtain ⟨⟨transform, one⟩, _⟩ := tests
  unfold Filter.negate
  split
  · rename_i none
    rw [columns_none none] at one
    cases one
  · exact ⟨⟨transform, one⟩, rfl⟩

end Filter

namespace Rule

theorem ordered_column (column : Column) (value : Value) :
    ∃ transform, (ordered column value).1 = { column with transform := transform } := by
  unfold ordered Column.comparable
  split
  · exact ⟨some .utc, rfl⟩
  · exact ⟨column.transform, rfl⟩

theorem operands_column (op : Operator) (column : Column) (value : Value) :
    ∃ transform, (operands op column value).1 = { column with transform := transform } := by
  unfold operands
  split
  · exact ordered_column column value
  · exact ⟨column.transform, rfl⟩

theorem ordered_column_eq (column : Column) (value value' : Value) :
    (ordered column value).1 = (ordered column value').1 := by
  unfold ordered
  split <;> rfl

theorem operands_column_eq (op : Operator) (column : Column) (value value' : Value) :
    (operands op column value).1 = (operands op column value').1 := by
  unfold operands
  split
  · exact ordered_column_eq column value value'
  · rfl

variable {op : Operator} {negated : Bool} {place : Place} {ignoreCase : Bool} {column : Column}
variable {values : List Value} {filter : Filter}

theorem compare_tests (applied : compare op column values = .ok filter) :
    filter.isNone = true ∨ filter.Tests column := by
  rcases compare_ok applied with ⟨_, rfl⟩ | ⟨_, value, _, kind, rfl, _, rfl⟩
  · exact .inl rfl
  · obtain ⟨transform, same⟩ := operands_column op column value
    exact .inr ⟨⟨transform, congrArg (fun c => [c]) same⟩, rfl⟩

theorem bound_tests (applied : bound negated column values = .ok filter) :
    filter.isNone = true ∨ filter.Tests column := by
  rcases bound_ok applied with ⟨_, rfl⟩ | ⟨_, low, high, rfl, rfl⟩
  · exact .inl rfl
  · obtain ⟨transform, same⟩ := ordered_column column low
    have within : (Filter.between (ordered column low).1 (ordered column low).2
        (ordered column high).2).Tests column :=
      ⟨⟨transform, congrArg (fun c => [c]) same⟩, rfl⟩
    right
    cases negated with
    | false => exact within
    | true => exact within.negate

theorem search_tests (applied : search place ignoreCase column values = .ok filter) :
    filter.isNone = true ∨ filter.Tests column := by
  rcases search_ok applied with ⟨_, rfl⟩ | ⟨_, value, _, text, rfl, _, rfl⟩
  · exact .inl rfl
  · right
    cases ignoreCase with
    | false => exact ⟨⟨column.transform, rfl⟩, rfl⟩
    | true => exact ⟨⟨some .upper, rfl⟩, rfl⟩

theorem apply_tests {rule : Rule} (applied : rule.apply column values = .ok filter) :
    filter.isNone = true ∨ filter.Tests column := by
  cases rule with
  | comparison op => exact compare_tests applied
  | nullCheck negated =>
    cases applied
    exact .inr ⟨⟨column.transform, rfl⟩, rfl⟩
  | membership negated =>
    cases applied
    unfold test
    split
    · exact .inl rfl
    · exact .inr ⟨⟨column.transform, rfl⟩, rfl⟩
  | range negated => exact bound_tests applied
  | pattern place ignoreCase => exact search_tests applied
  | never =>
    cases applied
    exact .inr ⟨⟨column.transform, rfl⟩, rfl⟩

end Rule

end RequestFilter
