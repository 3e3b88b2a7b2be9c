import RequestFilter.Calendar.Zone
import RequestFilter.FieldType
import RequestFilter.Text.AsciiCase
import RequestFilter.Text.Split

namespace RequestFilter

def CastFault.ofText (cs : List Char) (expected : String) : CastFault :=
  .invalid (String.ofList cs) expected

namespace ValueReader

def ofOption {α : Type} (expected : String) (value : α → Value) (read? : List Char → Option α) :
    ValueReader := fun cs =>
  match read? cs with
  | some x => .ok (value x)
  | none => .error (.ofText cs expected)

def ofNumber {α : Type} (expected : String) (value : α → Value)
    (read : List Char → Except NumberFault α) : ValueReader := fun cs =>
  match read cs with
  | .ok x => .ok (value x)
  | .error .malformed => .error (.ofText cs expected)
  | .error .outOfRange => .error (.outOfRange (String.ofList cs) expected)

def bool? (cs : List Char) : Option Bool :=
  if Text.equalIgnoringCase cs "true".toList ∨ cs = ['1'] then some true
  else if Text.equalIgnoringCase cs "false".toList ∨ cs = ['0'] then some false
  else none

def bool : ValueReader := ofOption "boolean" .bool bool?

def integer (expected : String) (bits : Nat) : ValueReader :=
  ofNumber expected .int (Integer.readBits bits)

def i64 : ValueReader := integer "i64" 64

def float (expected : String) (format : FloatFormat) : ValueReader :=
  ofNumber expected .float format.read

def decimal : ValueReader := ofOption "decimal" .decimal Decimal.read?

def text : ValueReader := fun cs => .ok (.text (String.ofList cs))

def lowerText : ValueReader := fun cs => .ok (.text (String.ofList (Text.lower cs)))

def single? : List Char → Option Char
  | [c] => some c
  | _ => none

def char : ValueReader := ofOption "char" .char single?

def uuid : ValueReader := ofOption "uuid" .uuid Uuid.read?

def date : ValueReader := ofOption "date (YYYY-MM-DD)" .date Calendar.readDate?

def time : ValueReader := ofOption "time (HH:MM:SS)" .time Calendar.readTime?

def dateTime : ValueReader :=
  ofOption "local date-time (YYYY-MM-DDTHH:MM:SS)" .dateTime Calendar.readLocal?

def instant : ValueReader :=
  ofOption "instant (RFC 3339)" (fun x => .timestamp x.instant) Calendar.readRfc3339?

def offsetDateTime : ValueReader :=
  ofOption "offset date-time (RFC 3339)" .offsetDateTime Calendar.readRfc3339?

/-- The date-time and the name of the zone in `date-time[name]`. -/
def zoneSuffix? (cs : List Char) : Option (List Char × List Char) :=
  if cs.getLast? = some ']' then Text.cutFirst? (· == '[') cs.dropLast else none

/-- Reads a date-time with an offset, or one at a named zone. With both, the offset tells the
instant and the zone the offset of the value. -/
def zoned (zones : ZoneTable) : ValueReader := fun cs =>
  let expected := "zoned date-time"
  match zoneSuffix? cs with
  | none => ofOption expected .offsetDateTime Calendar.readRfc3339? cs
  | some (clock, name) =>
    match zones name with
    | none => .error (.ofText cs expected)
    | some zone =>
      match Calendar.readRfc3339? clock with
      | some x => .ok (.offsetDateTime (zone.ofInstant x.instant))
      | none =>
        match Calendar.readLocal? clock with
        | none => .error (.ofText cs expected)
        | some x =>
          match zone.resolve? x with
          | some x => .ok (.offsetDateTime x)
          | none => .error (.nonexistent (String.ofList cs) (String.ofList name))

def absent : ValueReader := fun _ => .ok .null

def refuse (expected : String) : ValueReader := fun cs => .error (.ofText cs expected)

def exceed (expected : String) : ValueReader := fun cs =>
  .error (.outOfRange (String.ofList cs) expected)

end ValueReader

namespace FieldTypes

def builtin (zones : ZoneTable) : FieldTypes :=
  ofList [
    ⟨.bool, .equality, .bool⟩,
    ⟨.i16, .comparable, .integer "i16" 16⟩,
    ⟨.i32, .comparable, .integer "i32" 32⟩,
    ⟨.i64, .comparable, .i64⟩,
    ⟨.f32, .comparable, .float "f32" .binary32⟩,
    ⟨.f64, .comparable, .float "f64" .binary64⟩,
    ⟨.decimal, .comparable, .decimal⟩,
    ⟨.string, .text, .text⟩,
    ⟨.char, .text, .char⟩,
    ⟨.uuid, .equality, .uuid⟩,
    ⟨.date, .comparable, .date⟩,
    ⟨.time, .comparable, .time⟩,
    ⟨.localDateTime, .comparable, .dateTime⟩,
    ⟨.instant, .comparable, .instant⟩,
    ⟨.offsetDateTime, .comparable, .offsetDateTime⟩,
    ⟨.zonedDateTime, .comparable, .zoned zones⟩]

end FieldTypes

end RequestFilter
