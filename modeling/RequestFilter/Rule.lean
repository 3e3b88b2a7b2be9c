import RequestFilter.Filter
import RequestFilter.Problem

/-!
A criterion without a value, or with one that is nothing, restricts nothing. Only tests for absence
need no value.
-/

namespace RequestFilter

def Operator.comparison? : Operator → Option Comparison
  | eq => some .eq
  | neq => some .neq
  | lt => some .lt
  | lte => some .lte
  | gt => some .gt
  | gte => some .gte
  | _ => none

inductive Rule where
  | comparison (op : Operator)
  | nullCheck (negated : Bool)
  | membership (negated : Bool)
  | range (negated : Bool)
  | pattern (place : Place) (ignoreCase : Bool)
  | never
  deriving DecidableEq, Repr

namespace Rule

def isAbsent (values : List Value) : Bool := values.isEmpty || values.any Value.isNull

def ordered (column : Column) (value : Value) : Column × Value :=
  if column.type.needsNormalization then (column.comparable, value.toUtc) else (column, value)

def distinct (values : List Value) : List Value :=
  values.foldl (fun kept value => if kept.any (·.same value) then kept else kept ++ [value]) []

def compare (op : Operator) (column : Column) (values : List Value) : Except Problem Filter :=
  match values with
  | [] => .ok .none
  | value :: _ =>
    if isAbsent values then .ok .none
    else
      match op.comparison? with
      | none => .error (.notComparison op)
      | some kind =>
        let (column, value) := if op.isOrdering then ordered column value else (column, value)
        .ok (.compare kind column value)

/-- Tests for absence, or for presence; the single value `false` turns the latter round. -/
def checkNull (negated : Bool) (column : Column) (values : List Value) : Filter :=
  let inverted := match values with
    | [flag] => flag.asBool == some false
    | _ => false
  .nullCheck (negated && !inverted) column

def test (negated : Bool) (column : Column) (values : List Value) : Filter :=
  if isAbsent values then .none else .member negated column (distinct values)

def bound (negated : Bool) (column : Column) (values : List Value) : Except Problem Filter :=
  match values with
  | [] => .ok .none
  | [low, high] =>
    if low.isNull || high.isNull then .ok .none
    else
      let within := Filter.between (ordered column low).1 (ordered column low).2 (ordered column high).2
      .ok (if negated then within.negate else within)
  | values => .error (.arity (if negated then .notBetween else .between) "exactly 2" values.length)

def search (place : Place) (ignoreCase : Bool) (column : Column) (values : List Value) :
    Except Problem Filter :=
  match values with
  | [] => .ok .none
  | value :: _ =>
    if isAbsent values then .ok .none
    else
      match value.asText with
      | none => .error .textRequired
      | some text => .ok (.like place (if ignoreCase then column.upper else column) text)

def apply : Rule → Column → List Value → Except Problem Filter
  | comparison op, column, values => compare op column values
  | nullCheck negated, column, values => .ok (checkNull negated column values)
  | membership negated, column, values => .ok (test negated column values)
  | range negated, column, values => bound negated column values
  | pattern place ignoreCase, column, values => search place ignoreCase column values
  | never, column, _ => .ok (.member false column [])

end Rule

abbrev Rules := KeyedList Operator Rule

namespace Rules

def rule? (rules : Rules) (op : Operator) : Option Rule := rules.get? op

def register (rules : Rules) (op : Operator) (rule : Rule) : Rules := rules.put op rule

def builtin : Rules :=
  [(.eq, .comparison .eq), (.neq, .comparison .neq), (.gt, .comparison .gt),
    (.lt, .comparison .lt), (.gte, .comparison .gte), (.lte, .comparison .lte),
    (.isNull, .nullCheck false), (.isNotNull, .nullCheck true),
    (.within, .membership false), (.notWithin, .membership true),
    (.between, .range false), (.notBetween, .range true),
    (.contains, .pattern .anywhere false), (.iContains, .pattern .anywhere true),
    (.startsWith, .pattern .atStart false), (.iStartsWith, .pattern .atStart true),
    (.endsWith, .pattern .atEnd false), (.iEndsWith, .pattern .atEnd true)]

end Rules

end RequestFilter
