import RequestFilter.DataType

namespace RequestFilter

inductive Transform where
  | upper | utc
  deriving DecidableEq, Repr

/-- A column of a table alias; an empty source stands for an unqualified name. -/
structure Column where
  source : String
  name : String
  type : DataType
  transform : Option Transform
  deriving DecidableEq, Repr

namespace Column

def upper (column : Column) : Column := { column with transform := some .upper }

def comparable (column : Column) : Column :=
  if column.type.needsNormalization then { column with transform := some .utc } else column

def qualified (column : Column) : List Char :=
  if column.source.isEmpty then column.name.toList
  else column.source.toList ++ '.' :: column.name.toList

def sql (column : Column) : List Char :=
  match column.transform with
  | none => column.qualified
  | some .upper => "UPPER(".toList ++ column.qualified ++ [')']
  | some .utc => '(' :: column.qualified ++ " AT TIME ZONE 'UTC')".toList

end Column

end RequestFilter
