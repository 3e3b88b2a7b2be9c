import RequestFilter.Engine

namespace RequestFilter.Plan

def toSql (plan : Plan) (offset : Nat) : List Char × List Value := plan.filter.toSql offset

def joinSql (plan : Plan) : String := Joins.sql plan.joins

def clause (keyword body : String) (isEmpty : Bool) : String :=
  if isEmpty then "" else keyword ++ body

def selectSql (plan : Plan) (table columns : String) : String × List Value :=
  let (predicate, params) := plan.toSql 0
  ("SELECT " ++ columns ++ " FROM " ++ table ++ " AS " ++ Alias.root.text ++
    clause " " plan.joinSql plan.joins.isEmpty ++
    clause " WHERE " (String.ofList predicate) plan.filter.isNone ++
    clause " ORDER BY " plan.order.sql plan.order.isEmpty, params)

end RequestFilter.Plan
