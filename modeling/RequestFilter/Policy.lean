import RequestFilter.Column
import RequestFilter.Filter
import RequestFilter.Problem

/-!
A policy lists paths with the operators allowed on each. Beside them it may have custom filters,
which answer criteria of their path alone, whatever the operator.
-/

namespace RequestFilter

inductive Script where
  | done (filter : Option Filter)
  /-- Goes on with the column of a path, or without one if it leads nowhere. -/
  | resolve (path : String) (next : Option Column → Script)
  | report (problem : Problem) (next : Script)

structure Question where
  label : String
  operator : Operator
  values : List Value

structure CustomFilter where
  type : DataType
  script : Question → Script

structure Policy where
  root : String
  fields : KeyedList String OperatorSet
  custom : KeyedList String CustomFilter

namespace Policy

def ofRoot (root : String) : Policy := ⟨root, [], []⟩

def declare (policy : Policy) (path : String) (operators : OperatorSet) : Policy :=
  { policy with fields := policy.fields.put path operators }

def declareCustom (policy : Policy) (path : String) (filter : CustomFilter) : Policy :=
  { policy with custom := policy.custom.put path filter }

def isDeclared (policy : Policy) (path : String) : Bool := (policy.fields.get? path).isSome

def allows (policy : Policy) (path : String) (op : Operator) : Bool :=
  match policy.fields.get? path with
  | some operators => operators.contains op
  | none => false

def custom? (policy : Policy) (path : String) : Option CustomFilter := policy.custom.get? path

end Policy

end RequestFilter
