import RequestFilter.Text.Blank

namespace RequestFilter

inductive Direction where
  | ascending | descending
  deriving DecidableEq, Repr

def Direction.keyword : Direction → String
  | ascending => "ASC"
  | descending => "DESC"

structure SortField where
  key : String
  direction : Direction
  deriving DecidableEq, Repr

def SortField.sql (field : SortField) : String := field.key ++ " " ++ field.direction.keyword

abbrev SortOrder := List SortField

def SortOrder.sql (order : SortOrder) : String := ", ".intercalate (order.map SortField.sql)

end RequestFilter
