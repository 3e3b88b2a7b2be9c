import RequestFilter.Operator

namespace RequestFilter

inductive Origin where
  | query | body
  deriving DecidableEq, Repr

structure Criterion where
  path : String
  label : String
  operator : Operator
  values : List String
  origin : Origin
  deriving DecidableEq, Repr

def Criterion.ofPath (path : String) (operator : Operator) (values : List String) : Criterion :=
  ⟨path, path, operator, values, .body⟩

structure Entry where
  field : String
  operator : Option String
  value : String
  deriving DecidableEq, Repr

end RequestFilter
