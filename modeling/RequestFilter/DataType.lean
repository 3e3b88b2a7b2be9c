/-!
Types of points in time fall into groups of one precision. Only the values of the group `offset`
carry their own distance to UTC, so only they need a common form before they can be ordered.
-/

namespace RequestFilter

inductive DataType where
  | bool | i16 | i32 | i64 | f32 | f64 | decimal | string | char | uuid
  | date | time | localDateTime | instant | offsetDateTime | zonedDateTime
  | custom (name : String)
  deriving DecidableEq, Repr

inductive TemporalGroup where
  | date | time | localDateTime | instant | offset
  deriving DecidableEq, Repr

def TemporalGroup.needsNormalization : TemporalGroup → Bool
  | .offset => true
  | _ => false

namespace DataType

def temporalGroup? : DataType → Option TemporalGroup
  | date => some .date
  | time => some .time
  | localDateTime => some .localDateTime
  | instant => some .instant
  | offsetDateTime | zonedDateTime => some .offset
  | _ => none

def needsNormalization (t : DataType) : Bool :=
  match t.temporalGroup? with
  | some group => group.needsNormalization
  | none => false

def name : DataType → String
  | bool => "boolean"
  | i16 => "i16"
  | i32 => "i32"
  | i64 => "i64"
  | f32 => "f32"
  | f64 => "f64"
  | decimal => "decimal"
  | string => "string"
  | char => "char"
  | uuid => "uuid"
  | date => "date"
  | time => "time"
  | localDateTime => "local date-time"
  | instant => "instant"
  | offsetDateTime => "offset date-time"
  | zonedDateTime => "zoned date-time"
  | custom name => name

end DataType

end RequestFilter
