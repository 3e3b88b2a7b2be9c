import RequestFilter.Proofs.Instants
import RequestFilter.Proofs.Verification

namespace RequestFilter

namespace FieldType

variable {fieldType : FieldType} {raws raws' : List String}

/-- Every text is that of a date-time with an offset. -/
def Tells (fieldType : FieldType) : List String → List OffsetDateTime → Prop :=
  List.Forall₂ fun raw x => fieldType.cast raw = .ok (.offsetDateTime x)

def SameMoment (fieldType : FieldType) (raw raw' : String) : Prop :=
  ∃ x y, fieldType.cast raw = .ok (.offsetDateTime x) ∧
    fieldType.cast raw' = .ok (.offsetDateTime y) ∧ x.moment = y.moment

theorem Tells.castAll {xs : List OffsetDateTime} (tells : fieldType.Tells raws xs) :
    fieldType.castAll raws = .ok (xs.map .offsetDateTime) := by
  apply castAll_of_forall
  rw [List.forall₂_map_right_iff]
  exact tells

theorem exists_tells (same : List.Forall₂ fieldType.SameMoment raws raws') :
    ∃ xs ys, fieldType.Tells raws xs ∧ fieldType.Tells raws' ys ∧
      xs.map (·.instant) = ys.map (·.instant) := by
  induction same with
  | nil => exact ⟨[], [], .nil, .nil, rfl⟩
  | cons first _ ih =>
    obtain ⟨x, y, cast, cast', moment⟩ := first
    obtain ⟨xs, ys, tells, tells', instants⟩ := ih
    have instant : x.instant = y.instant := OffsetDateTime.instant_eq_iff.mpr moment
    refine ⟨x :: xs, y :: ys, .cons cast tells, .cons cast' tells', ?_⟩
    rw [List.map_cons, List.map_cons, instant, instants]

end FieldType

/-- A test of a column against two instants. -/
def Filter.range (negated : Bool) (column : Column) (low high : Instant) : Filter :=
  let within := Filter.between column (.timestamp low) (.timestamp high)
  if negated then .not within else within

theorem Filter.params_range (negated : Bool) (column : Column) (low high : Instant) (offset : Nat) :
    ((range negated column low high).toSql offset).2 = [.timestamp low, .timestamp high] := by
  cases negated <;> rfl

theorem Filter.params_compare_timestamp (kind : Comparison) (column : Column) (instant : Instant)
    (offset : Nat) :
    ((compare kind column (.timestamp instant)).toSql offset).2 = [.timestamp instant] := by
  cases kind <;> rfl

def Outcome.ofResult : Except Problem Filter → Outcome
  | .ok filter => .ofFilter filter
  | .error problem => .ofProblem problem

namespace Operator

/-- What an operator that orders makes of instants: a test of the column, at UTC already, against as
many of them as it needs. -/
def orders (op : Operator) (column : Column) (instants : List Instant) : Except Problem Filter :=
  match op.comparison?, instants with
  | _, [] => .ok .none
  | some kind, instant :: _ => .ok (.compare kind column (.timestamp instant))
  | none, [low, high] => .ok (.range (op == .notBetween) column low high)
  | none, instants => .error (.arity op "exactly 2" instants.length)

/-- Of `count` values the operator needs the one at position `i`. -/
def Needs (op : Operator) (count i : Nat) : Prop :=
  if op.comparison?.isSome then i = 0 ∧ i < count else i < 2 ∧ count = 2

theorem orders_needed {op : Operator} (column : Column) {instants : List Instant} {i : Nat}
    (needs : op.Needs instants.length i) {instant : Instant} (found : instants[i]? = some instant) :
    ∃ filter, op.orders column instants = .ok filter ∧
      ∀ offset, (filter.toSql offset).2[i]? = some (.timestamp instant) := by
  unfold Needs at needs
  cases compares : op.comparison? with
  | some kind =>
    rw [compares, if_pos (by rfl)] at needs
    obtain ⟨rfl, some⟩ := needs
    obtain ⟨first, rest, rfl⟩ := List.exists_cons_of_length_pos some
    cases found
    refine ⟨.compare kind column (.timestamp instant), by simp only [orders, compares], ?_⟩
    intro offset
    rw [Filter.params_compare_timestamp]
    rfl
  | none =>
    rw [compares, if_neg (by decide)] at needs
    obtain ⟨within, two⟩ := needs
    obtain ⟨low, high, rfl⟩ := List.length_eq_two.mp two
    refine ⟨.range (op == .notBetween) column low high, by simp only [orders, compares], ?_⟩
    intro offset
    rw [Filter.params_range]
    have position : i = 0 ∨ i = 1 := by omega
    rcases position with rfl | rfl
    · cases found
      rfl
    · cases found
      rfl

theorem pattern?_ordering {op : Operator} (ordering : op.isOrdering = true) : op.pattern? = none := by
  cases op <;> first | rfl | cases ordering

theorem isNullCheck_ordering {op : Operator} (ordering : op.isOrdering = true) :
    op.isNullCheck = false := by
  cases op <;> first | rfl | cases ordering

theorem comparable_ordering {op : Operator} (ordering : op.isOrdering = true) :
    OperatorSet.comparable.contains op = true := by
  cases op <;> first | rfl | cases ordering

end Operator

namespace Rule

variable {op : Operator} {column : Column} (normalized : column.type.needsNormalization = true)
variable (xs : List OffsetDateTime)

include normalized

theorem ordered_offsetDateTime (x : OffsetDateTime) :
    ordered column (.offsetDateTime x) = (column.comparable, .timestamp x.instant) := by
  rw [ordered, if_pos normalized]
  rfl

theorem compare_orders (ordering : op.isOrdering = true) {kind : Comparison}
    (compares : op.comparison? = some kind) :
    compare op column (xs.map .offsetDateTime) =
      op.orders column.comparable (xs.map (·.instant)) := by
  cases xs with
  | nil => simp [compare, Operator.orders, compares]
  | cons x xs =>
    have present : isAbsent (.offsetDateTime x :: xs.map .offsetDateTime) = false := by
      simp [isAbsent, Value.isNull]
    simp [compare, present, Operator.orders, compares, ordering, ordered_offsetDateTime normalized]

theorem bound_orders {negated : Bool} (ranges : op = if negated then .notBetween else .between) :
    bound negated column (xs.map .offsetDateTime) =
      op.orders column.comparable (xs.map (·.instant)) := by
  have compares : op.comparison? = none := by
    rw [ranges]
    cases negated <;> rfl
  have inverts : (op == .notBetween) = negated := by
    rw [ranges]
    cases negated <;> rfl
  match xs with
  | [] => simp [bound, Operator.orders, compares]
  | [low, high] =>
    simp only [List.map_cons, List.map_nil, bound, Operator.orders, compares, inverts,
      ordered_offsetDateTime normalized]
    cases negated <;> rfl
  | [x] => simp [bound, Operator.orders, compares, ← ranges]
  | _ :: _ :: _ :: _ => simp [bound, Operator.orders, compares, ← ranges]

theorem Builtin.apply_orders {rule : Rule} (family : Rule.Builtin op rule)
    (ordering : op.isOrdering = true) :
    rule.apply column (xs.map .offsetDateTime) =
      op.orders column.comparable (xs.map (·.instant)) := by
  cases family with
  | comparison compares => exact compare_orders normalized xs ordering compares
  | range negated ranges => exact bound_orders normalized xs ranges
  | nullCheck negated checks =>
    rw [checks] at ordering
    cases negated <;> cases ordering
  | membership negated lists =>
    rw [lists] at ordering
    cases negated <;> cases ordering
  | pattern searches =>
    rw [Operator.pattern?_ordering ordering] at searches
    cases searches

end Rule

/-- Columns of date-times with an offset, or with a zone that tells it. -/
def DataType.HasOffset (type : DataType) : Prop := type = .offsetDateTime ∨ type = .zonedDateTime

theorem DataType.HasOffset.needsNormalization {type : DataType} (offset : type.HasOffset) :
    type.needsNormalization = true := by
  rcases offset with rfl | rfl <;> rfl

theorem FieldTypes.describe?_hasOffset (zones : ZoneTable) {type : DataType} (offset : type.HasOffset) :
    ∃ fieldType, (builtin zones).describe? type = some fieldType ∧
      fieldType.operators = .comparable := by
  rcases offset with rfl | rfl
  · exact ⟨_, rfl, rfl⟩
  · exact ⟨_, rfl, rfl⟩

namespace Engine

section Replacing

variable {engine : Engine} {policy : Policy} {criteria criteria' : List Criterion}

theorem map_fst_answers (criteria : List Criterion) (joins : Joins) :
    (engine.answers policy criteria joins).1.map Prod.fst = criteria := by
  induction criteria generalizing joins with
  | nil => rfl
  | cons criterion rest ih => simp [answers, ih]

theorem Pass.report_labels (pass : Pass) (sortLabel : String) : pass.report sortLabel =
    (((pass.outcomes.map Prod.fst).map (·.label)).zip (pass.outcomes.map Prod.snd)).flatMap
        (fun (label, outcome) => Report.ofField label outcome.problems) ++
      Report.ofField sortLabel (pass.columns.filterMap problem?) := by
  rw [List.map_map, List.zip_map', List.flatMap_map]
  rfl

/-- Criteria of the same labels and the same answers make one plan, or one failure. -/
theorem plan_same (labels : criteria.map (·.label) = criteria'.map (·.label))
    (same : List.Forall₂ (engine.SameAnswers policy) criteria criteria') (sort : SortOrder) :
    engine.plan policy criteria sort = engine.plan policy criteria' sort := by
  have passed := pass_same same sort
  have asked (criteria : List Criterion) :
      (engine.pass policy criteria sort).outcomes.map Prod.fst = criteria :=
    map_fst_answers criteria .empty
  have report : (engine.pass policy criteria sort).report engine.settings.sortParam =
      (engine.pass policy criteria' sort).report engine.settings.sortParam := by
    rw [Pass.report_labels, Pass.report_labels, asked, asked, labels, passed.outcomes, passed.columns]
  show ((engine.pass policy criteria sort).report engine.settings.sortParam).result _ _ = _
  rw [report, passed.plan]
  rfl

theorem plan_replace {criterion criterion' : Criterion} (label : criterion.label = criterion'.label)
    (same : engine.SameAnswers policy criterion criterion') (before after : List Criterion)
    (sort : SortOrder) :
    engine.plan policy (before ++ criterion :: after) sort =
      engine.plan policy (before ++ criterion' :: after) sort := by
  have refl (criteria : List Criterion) :
      List.Forall₂ (engine.SameAnswers policy) criteria criteria :=
    List.forall₂_same.mpr fun _ _ _ => rfl
  apply plan_same
  · simp [label]
  · exact List.rel_append (refl before) (.cons same (refl after))

end Replacing

section Ordering

variable {engine : Engine} {policy : Policy} {criterion : Criterion} {scalar : Scalar}
variable {fieldType : FieldType}

/-- The answer binds an instant as its parameter at position `i`. -/
def Binds (engine : Engine) (policy : Policy) (criterion : Criterion) (joins : Joins) (i : Nat)
    (instant : Instant) : Prop :=
  ∃ filter, (engine.answer policy criterion joins).1 = .ofFilter filter ∧
    ∀ offset, (filter.toSql offset).2[i]? = some (.timestamp instant)

/-- Whatever values a criterion has, only their instants count, and those count that it needs. -/
structure OrdersByInstant (engine : Engine) (policy : Policy) (criterion : Criterion)
    (scalar : Scalar) (fieldType : FieldType) : Prop where
  answer : policy.allows criterion.path criterion.operator = true → ∀ joins, ∃ a grown,
    engine.resolve policy criterion.path joins = (.ok (scalar.columnOf a), grown) ∧
    ∀ raws xs, fieldType.Tells raws xs →
      engine.answer policy { criterion with values := raws } joins =
        (.ofResult (criterion.operator.orders { scalar.columnOf a with transform := some .utc }
          (xs.map (·.instant))), grown)
  same : ∀ raws raws', List.Forall₂ fieldType.SameMoment raws raws' →
    engine.SameAnswers policy { criterion with values := raws } { criterion with values := raws' }
  plan : ∀ raws raws', List.Forall₂ fieldType.SameMoment raws raws' → ∀ before after sort,
    engine.plan policy (before ++ { criterion with values := raws } :: after) sort =
      engine.plan policy (before ++ { criterion with values := raws' } :: after) sort
  apart : policy.allows criterion.path criterion.operator = true →
    ∀ raws raws' xs ys, fieldType.Tells raws xs → fieldType.Tells raws' ys →
    ∀ i x y, criterion.operator.Needs raws.length i → criterion.operator.Needs raws'.length i →
      xs[i]? = some x → ys[i]? = some y → x.moment ≠ y.moment →
    ∀ joins, ∃ instant instant', instant ≠ instant' ∧
      engine.Binds policy { criterion with values := raws } joins i instant ∧
      engine.Binds policy { criterion with values := raws' } joins i instant'

theorem resolve_of_destination (leads : engine.destination policy criterion.path = .ok scalar)
    (joins : Joins) : ∃ a grown,
      engine.resolve policy criterion.path joins = (.ok (scalar.columnOf a), grown) := by
  obtain ⟨a, resolved⟩ := engine.resolve_destination policy criterion.path joins
  rw [leads] at resolved
  exact ⟨a, _, Prod.ext resolved rfl⟩

theorem answerColumn_orders (rules : engine.rules = .builtin)
    (described : engine.types.describe? scalar.type = some fieldType)
    (supported : fieldType.operators.contains criterion.operator = true)
    (offset : scalar.type.HasOffset) (ordering : criterion.operator.isOrdering = true)
    {xs : List OffsetDateTime} (tells : fieldType.Tells criterion.values xs) (a : Alias) :
    engine.answerColumn criterion (scalar.columnOf a) =
      .ofResult (criterion.operator.orders { scalar.columnOf a with transform := some .utc }
        (xs.map (·.instant))) := by
  have type : (scalar.columnOf a).type = scalar.type := rfl
  have normalized : (scalar.columnOf a).type.needsNormalization = true := offset.needsNormalization
  have comparable : (scalar.columnOf a).comparable =
      { scalar.columnOf a with transform := some .utc } := if_pos normalized
  obtain ⟨rule, ruled, family⟩ := Rules.rule?_builtin criterion.operator
  have applied := family.apply_orders normalized xs ordering
  simp only [answerColumn, describe, type, described, FieldType.checkOperator, supported, if_true,
    values, Operator.isNullCheck_ordering ordering, Bool.false_eq_true, if_false, tells.castAll,
    applyRule, rules, ruled, applied, comparable]
  cases criterion.operator.orders _ (xs.map (·.instant)) <;> rfl

theorem answer_orders (rules : engine.rules = .builtin)
    (generic : policy.custom? criterion.path = none)
    (leads : engine.destination policy criterion.path = .ok scalar)
    (described : engine.types.describe? scalar.type = some fieldType)
    (supported : fieldType.operators.contains criterion.operator = true)
    (offset : scalar.type.HasOffset) (ordering : criterion.operator.isOrdering = true)
    (allowed : policy.allows criterion.path criterion.operator = true) (joins : Joins) :
    ∃ a grown, engine.resolve policy criterion.path joins = (.ok (scalar.columnOf a), grown) ∧
      ∀ raws xs, fieldType.Tells raws xs →
        engine.answer policy { criterion with values := raws } joins =
          (.ofResult (criterion.operator.orders { scalar.columnOf a with transform := some .utc }
            (xs.map (·.instant))), grown) := by
  obtain ⟨a, grown, resolved⟩ := resolve_of_destination leads joins
  refine ⟨a, grown, resolved, fun raws xs tells => ?_⟩
  have answered : engine.answerColumn { criterion with values := raws } (scalar.columnOf a) =
      .ofResult (criterion.operator.orders { scalar.columnOf a with transform := some .utc }
        (xs.map (·.instant))) := by
    apply answerColumn_orders rules described
    · exact supported
    · exact offset
    · exact ordering
    · exact tells
  simp only [answer, generic, allowed, if_true, answerField, resolved]
  rw [answered]

theorem binds_of_answer {column : Column} {xs : List OffsetDateTime} {joins grown : Joins}
    (answered : engine.answer policy criterion joins =
      (.ofResult (criterion.operator.orders column (xs.map (·.instant))), grown))
    (tells : fieldType.Tells criterion.values xs) {i : Nat} {x : OffsetDateTime}
    (needs : criterion.operator.Needs criterion.values.length i) (found : xs[i]? = some x) :
    engine.Binds policy criterion joins i x.instant := by
  have length : criterion.values.length = (xs.map (·.instant)).length := by
    rw [List.length_map]
    exact tells.length_eq
  rw [length] at needs
  obtain ⟨filter, ordered, bound⟩ := Operator.orders_needed column needs
    (by rw [List.getElem?_map, found]; rfl : (xs.map (·.instant))[i]? = some x.instant)
  refine ⟨filter, ?_, bound⟩
  rw [answered, ordered]
  rfl

theorem ordersByInstant (engine : Engine) (policy : Policy) (criterion : Criterion)
    (zones : ZoneTable) (types : engine.types = .builtin zones) (rules : engine.rules = .builtin)
    (generic : policy.custom? criterion.path = none)
    {scalar : Scalar} (leads : engine.destination policy criterion.path = .ok scalar)
    (offset : scalar.type.HasOffset) (ordering : criterion.operator.isOrdering = true) :
    ∃ fieldType, engine.types.describe? scalar.type = some fieldType ∧
      engine.OrdersByInstant policy criterion scalar fieldType := by
  obtain ⟨fieldType, described, comparable⟩ := FieldTypes.describe?_hasOffset zones offset
  rw [← types] at described
  have supported : fieldType.operators.contains criterion.operator = true := by
    rw [comparable]
    exact Operator.comparable_ordering ordering
  have orders := answer_orders rules generic leads described supported offset ordering
  have same : ∀ raws raws', List.Forall₂ fieldType.SameMoment raws raws' →
      engine.SameAnswers policy { criterion with values := raws }
        { criterion with values := raws' } := by
    intro raws raws' moments joins
    obtain ⟨xs, ys, tells, tells', instants⟩ := FieldType.exists_tells moments
    cases allowed : policy.allows criterion.path criterion.operator with
    | true =>
      obtain ⟨a, grown, _, answered⟩ := orders allowed joins
      rw [answered raws xs tells, answered raws' ys tells', instants]
    | false => simp [Engine.answer, generic, allowed]
  refine ⟨fieldType, described, { answer := orders, same := same, plan := ?_, apart := ?_ }⟩
  · intro raws raws' moments before after sort
    exact plan_replace (by rfl) (same raws raws' moments) before after sort
  · intro allowed raws raws' xs ys tells tells' i x y needs needs' found found' moments joins
    obtain ⟨a, grown, _, answered⟩ := orders allowed joins
    have apart : x.instant ≠ y.instant := fun same => moments (OffsetDateTime.instant_eq_iff.mp same)
    exact ⟨x.instant, y.instant, apart, binds_of_answer (answered raws xs tells) tells needs found,
      binds_of_answer (answered raws' ys tells') tells' needs' found'⟩

end Ordering

end Engine

namespace Concerts

def concert : Entity where
  name := "concert"
  table := "concerts"
  id := "id"
  attributes := [("closes", .scalar ⟨"closes_at", .zonedDateTime⟩)]

def engine : Engine := { Shelf.engine with schema := .ofEntities [concert] }

def policy : Policy where
  root := "concert"
  fields := [("closes", .comparable)]
  custom := []

def closesAfter (raw : String) : Criterion := .ofPath "closes" .gt [raw]

/-- Late on a leap day. -/
def west : OffsetDateTime :=
  ⟨⟨(Date.ofYmd? 2024 2 29).get (by decide),
      { Time.midnight with second := 84600, second_lt := by decide }⟩,
    (Offset.ofSeconds? (-3600)).get (by decide)⟩

/-- Early on the next day. -/
def east (offset : Offset) : OffsetDateTime :=
  ⟨⟨west.clock.date.next, { Time.midnight with second := 5400, second_lt := by decide }⟩, offset⟩

end Concerts

namespace Engine

theorem ordersByInstant_concerts :
    Concerts.engine.types = .builtin (fun _ => none) ∧ Concerts.engine.rules = .builtin ∧
    Concerts.policy.custom? "closes" = none ∧
    Concerts.engine.destination Concerts.policy "closes" = .ok ⟨"closes_at", .zonedDateTime⟩ ∧
    DataType.zonedDateTime.HasOffset ∧ Operator.gt.isOrdering = true ∧
    Concerts.engine.plan Concerts.policy [Concerts.closesAfter "2024-02-29T23:30:00-01:00"] [] =
      Concerts.engine.plan Concerts.policy [Concerts.closesAfter "2024-03-01T01:30:00+01:00"] [] ∧
    ∃ instant instant', instant ≠ instant' ∧
      Concerts.engine.Binds Concerts.policy (Concerts.closesAfter "2024-02-29T23:30:00-01:00")
        .empty 0 instant ∧
      Concerts.engine.Binds Concerts.policy (Concerts.closesAfter "2024-03-01T01:30:00+02:00")
        .empty 0 instant' := by
  have offset : DataType.zonedDateTime.HasOffset := .inr rfl
  obtain ⟨fieldType, described, ordered⟩ := ordersByInstant Concerts.engine Concerts.policy
    (Concerts.closesAfter "") (fun _ => none) rfl rfl rfl rfl offset rfl
  cases Option.some.inj described
  let west := Concerts.west
  let east := Concerts.east ⟨3600, by decide, by decide⟩
  let later := Concerts.east ⟨7200, by decide, by decide⟩
  refine ⟨rfl, rfl, rfl, rfl, offset, rfl, ?_, ?_⟩
  · apply ordered.plan _ _ _ [] [] []
    exact .cons ⟨west, east, by decide +kernel, by decide +kernel, by decide⟩ .nil
  · apply ordered.apart rfl _ _ [west] [later]
    · exact .cons (by decide +kernel) .nil
    · exact .cons (by decide +kernel) .nil
    · exact ⟨rfl, by decide⟩
    · exact ⟨rfl, by decide⟩
    · rfl
    · rfl
    · decide

end Engine

end RequestFilter
