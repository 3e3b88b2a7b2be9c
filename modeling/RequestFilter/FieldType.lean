import RequestFilter.DataType
import RequestFilter.KeyedList
import RequestFilter.Operator
import RequestFilter.Text.Blank
import RequestFilter.Value

namespace RequestFilter

inductive CastFault where
  | invalid (value expected : String)
  | outOfRange (value expected : String)
  | nonexistent (value zone : String)
  deriving DecidableEq, Repr

def CastFault.message : CastFault → String
  | invalid value expected => "`" ++ value ++ "` is not a valid " ++ expected
  | outOfRange value expected => "`" ++ value ++ "` is out of range for " ++ expected
  | nonexistent value zone => "`" ++ value ++ "` does not exist in time zone " ++ zone

abbrev ValueReader := List Char → Except CastFault Value

structure FieldType where
  type : DataType
  operators : OperatorSet
  read : ValueReader

namespace FieldType

/-- Reads the text of a request. White space around it does not count, and blank text is no value;
only texts themselves are taken as they are. -/
def cast (fieldType : FieldType) (raw : String) : Except CastFault Value :=
  if fieldType.type = .string then fieldType.read raw.toList
  else
    let text := Text.trim raw.toList
    if text.isEmpty then .ok .null else fieldType.read text

end FieldType

abbrev FieldTypes := KeyedList DataType FieldType

namespace FieldTypes

def describe? (types : FieldTypes) (type : DataType) : Option FieldType := types.get? type

def register (types : FieldTypes) (fieldType : FieldType) : FieldTypes :=
  types.put fieldType.type fieldType

def ofList (fieldTypes : List FieldType) : FieldTypes := fieldTypes.foldl register []

end FieldTypes

end RequestFilter
