import RequestFilter.Number.BinaryFloat
import RequestFilter.Number.Decimal
import RequestFilter.Uuid
import RequestFilter.Calendar.DateTime

/-!
Two values are the `same` if a database would find them equal: decimals by value, whatever their
scale, and date-times with an offset by instant, whatever the offset.
-/

namespace RequestFilter

inductive Value where
  | null
  | bool (b : Bool)
  | int (i : Int)
  | float (x : Binary64)
  | decimal (x : Decimal)
  | text (s : String)
  | char (c : Char)
  | uuid (u : Uuid)
  | date (d : Date)
  | time (t : Time)
  | dateTime (x : LocalDateTime)
  | timestamp (i : Instant)
  | offsetDateTime (x : OffsetDateTime)
  deriving DecidableEq

namespace Value

def isNull : Value → Bool
  | null => true
  | _ => false

def asBool : Value → Option Bool
  | bool b => some b
  | _ => none

def asText : Value → Option String
  | text s => some s
  | char c => some (String.singleton c)
  | _ => none

def toUtc : Value → Value
  | offsetDateTime x => timestamp x.instant
  | v => v

def same : Value → Value → Bool
  | float x, float y => x.same y
  | decimal x, decimal y => x.same y
  | offsetDateTime x, offsetDateTime y => x.instant == y.instant
  | v, w => v == w

end Value

end RequestFilter
