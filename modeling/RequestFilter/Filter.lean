import RequestFilter.Column
import RequestFilter.Value

/-!
`none` restricts nothing. The functions that combine predicates leave it out, so it stays the unit
of both connectives, and a combination of one predicate is that predicate.
-/

namespace RequestFilter

inductive Comparison where
  | eq | neq | lt | lte | gt | gte
  deriving DecidableEq, Repr

inductive Place where
  | anywhere | atStart | atEnd
  deriving DecidableEq, Repr

inductive Connective where
  | and | or
  deriving DecidableEq, Repr

inductive Filter where
  | none
  | compare (comparison : Comparison) (column : Column) (value : Value)
  | member (negated : Bool) (column : Column) (values : List Value)
  | between (column : Column) (low high : Value)
  | like (place : Place) (column : Column) (text : String)
  | nullCheck (negated : Bool) (column : Column)
  | junction (connective : Connective) (filters : List Filter)
  | not (filter : Filter)

namespace Filter

def isNone : Filter → Bool
  | none => true
  | _ => false

def combine (connective : Connective) (filters : List Filter) : Filter :=
  match filters.filter (!·.isNone) with
  | [] => none
  | [filter] => filter
  | filters => junction connective filters

def negate (filter : Filter) : Filter := if filter.isNone then none else not filter

/-- Adds a predicate behind another, as a further member if that is a junction of the same kind. -/
def append (connective : Connective) (filter more : Filter) : Filter :=
  if filter.isNone then more
  else if more.isNone then filter
  else
    match filter with
    | junction c filters =>
      if c = connective then junction c (filters ++ [more])
      else junction connective [filter, more]
    | _ => junction connective [filter, more]

def andThen (filter more : Filter) : Filter := append .and filter more

def orElse (filter more : Filter) : Filter := append .or filter more

end Filter

end RequestFilter
