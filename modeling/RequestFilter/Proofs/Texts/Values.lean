import RequestFilter.Proofs.Readers
import RequestFilter.Proofs.Texts.Calendar
import RequestFilter.Proofs.Texts.Numbers

namespace RequestFilter

namespace Value

def written : Value → List Char
  | null => []
  | bool b => (if b then "true" else "false").toList
  | int i => Digits.ofInt i
  | float x => x.hex
  | decimal x => x.text
  | text s => s.toList
  | char c => [c]
  | uuid u => u.text
  | date d => d.text
  | time t => t.text
  | dateTime x => x.text
  | timestamp i => i.text
  | offsetDateTime x => x.text

/-- The values that their texts tell apart from all others. The texts of floating-point numbers are
bit patterns, and points in time with an offset have years of four digits and offsets of whole
minutes. -/
def Readable : Value → Prop
  | null | float _ => False
  | bool _ | int _ | text _ | uuid _ => True
  | decimal x => x.negative = true → x.magnitude ≠ 0
  | char c => Text.isBlank c = false
  | date d => d.Supported
  | time t => t.WellTimed
  | dateTime x => x.date.Supported ∧ x.time.WellTimed
  | timestamp i => i.utc.date.FourDigitYear ∧ i.utc.time.WellTimed
  | offsetDateTime x =>
    x.clock.date.FourDigitYear ∧ x.clock.time.WellTimed ∧ x.offset.WholeMinutes

end Value

/-- What a text is read as for a column of a type, if the type is known. -/
def FieldTypes.cast? (types : FieldTypes) (type : DataType) (text : List Char) :
    Option (Except CastFault Value) :=
  (types.describe? type).map fun fieldType => fieldType.cast (String.ofList text)

/-- Columns are compared with the values that their texts stand for. A character of white space has
no text of its own, since white space around a text does not count. -/
structure FieldTypes.ReadsBack (types : FieldTypes) : Prop where
  exact : ∀ {type value}, type.Holds value → value.Readable →
    types.cast? type value.written = some (.ok value)
  blank : ∀ c, Text.isBlank c = true → types.cast? .char (Value.char c).written = some (.ok .null)
  zero : ∀ x : Decimal, x.magnitude = 0 →
    types.cast? .decimal x.text = some (.ok (.decimal { x with negative := false }))

namespace ValueReader

variable {α : Type} {expected : String} {make : α → Value} {cs : List Char}

theorem ofOption_some {read? : List Char → Option α} {x : α} (found : read? cs = some x) :
    ofOption expected make read? cs = .ok (make x) := by
  rw [ofOption, found]

theorem ofNumber_ok {read : List Char → Except NumberFault α} {x : α} (found : read cs = .ok x) :
    ofNumber expected make read cs = .ok (make x) := by
  rw [ofNumber, found]

theorem zoneSuffix?_of_printed (printed : cs.all Text.isPrinted = true) :
    zoneSuffix? cs = none := by
  refine if_neg fun last => ?_
  have bracket := List.all_eq_true.mp printed _ (List.mem_of_getLast? last)
  cases bracket

theorem zoned_text (zones : ZoneTable) {x : OffsetDateTime}
    (found : Calendar.readRfc3339? x.text = some x) :
    zoned zones x.text = .ok (.offsetDateTime x) := by
  unfold zoned
  rw [zoneSuffix?_of_printed x.all_text]
  exact ofOption_some found

end ValueReader

namespace FieldType

variable {type : DataType} {operators : OperatorSet} {expected : String} {cs : List Char}

/-- White space is not taken off a text without any. -/
theorem cast_of_trim {read : ValueReader} (plain : type ≠ .string) (trimmed : Text.trim cs = cs)
    (nonempty : cs ≠ []) : cast ⟨type, operators, read⟩ (String.ofList cs) = read cs := by
  have some : ¬ cs.isEmpty = true := by rwa [List.isEmpty_iff]
  unfold cast
  dsimp only
  rw [if_neg plain, String.toList_ofList, trimmed, if_neg some]

theorem cast_of_printed {read : ValueReader} (plain : type ≠ .string)
    (printed : cs.all Text.isPrinted = true) (nonempty : cs ≠ []) :
    cast ⟨type, operators, read⟩ (String.ofList cs) = read cs :=
  cast_of_trim plain (Text.trim_of_printed printed) nonempty

theorem cast_ofOption {α : Type} {make : α → Value} {read? : List Char → Option α} {x : α}
    (plain : type ≠ .string) (printed : cs.all Text.isPrinted = true) (empty : read? [] = none)
    (found : read? cs = some x) :
    cast ⟨type, operators, .ofOption expected make read?⟩ (String.ofList cs) = .ok (make x) := by
  have nonempty : cs ≠ [] := by
    rintro rfl
    cases empty.symm.trans found
  rw [cast_of_printed plain printed nonempty, ValueReader.ofOption_some found]

theorem cast_integer {bits : Nat} {i : Int} (plain : type ≠ .string)
    (low : -2 ^ (bits - 1) ≤ i) (high : i < 2 ^ (bits - 1)) :
    cast ⟨type, operators, .integer expected bits⟩ (String.ofList (Digits.ofInt i)) =
      .ok (.int i) := by
  rw [cast_of_printed plain (Digits.all_ofInt i) (Digits.ofInt_ne_nil i)]
  exact ValueReader.ofNumber_ok (Integer.readBits_ofInt low high)

theorem cast_instant {i : Instant} (readable : (Value.timestamp i).Readable) :
    cast ⟨.instant, operators, .instant⟩ (String.ofList i.text) = .ok (.timestamp i) := by
  have read : Calendar.readRfc3339? i.atUtc.text = some i.atUtc :=
    Calendar.readRfc3339?_text readable.1 readable.2 rfl
  rw [Instant.text_eq, ValueReader.instant,
    cast_ofOption (by decide) i.atUtc.all_text rfl read, Instant.instant_atUtc]

theorem cast_string (s : String) :
    cast ⟨.string, operators, .text⟩ (String.ofList s.toList) = .ok (.text s) := by
  unfold cast
  rw [if_pos rfl, String.ofList_toList]
  exact congrArg (fun text => Except.ok (Value.text text)) String.ofList_toList

theorem cast_char {c : Char} (solid : Text.isBlank c = false) :
    cast ⟨.char, operators, .char⟩ (String.ofList [c]) = .ok (.char c) :=
  cast_of_trim (by decide)
    (Text.trim_of_solid fun _ member => List.mem_singleton.mp member ▸ solid)
    (List.cons_ne_nil c [])

theorem cast_blank {read : ValueReader} {c : Char} (plain : type ≠ .string)
    (blank : Text.isBlank c = true) :
    cast ⟨type, operators, read⟩ (String.ofList [c]) = .ok .null := by
  have trimmed : Text.trim [c] = [] := by simp [Text.trim, Text.trimStart, Text.trimEnd, blank]
  unfold cast
  dsimp only
  rw [if_neg plain, String.toList_ofList, trimmed]
  rfl

end FieldType

theorem FieldTypes.cast?_decimal (zones : ZoneTable) (x : Decimal) :
    (builtin zones).cast? .decimal x.text = some (.ok (.decimal x.unsignedZero)) :=
  congrArg some (FieldType.cast_ofOption (by decide) x.all_text rfl x.read?_text)

theorem FieldTypes.readsBack_builtin (zones : ZoneTable) : (builtin zones).ReadsBack where
  exact := by
    intro type value held readable
    cases held with
    | bool b =>
      have read : ValueReader.bool? (Value.bool b).written = some b := by cases b <;> rfl
      have printed : (Value.bool b).written.all Text.isPrinted = true := by cases b <;> rfl
      exact congrArg some (FieldType.cast_ofOption (by decide) printed rfl read)
    | i16 low high =>
      exact congrArg some (FieldType.cast_integer (by decide) low high)
    | i32 low high =>
      exact congrArg some (FieldType.cast_integer (by decide) low high)
    | i64 low high =>
      exact congrArg some (FieldType.cast_integer (by decide) low high)
    | f32 => cases readable
    | f64 => cases readable
    | decimal x =>
      have read := cast?_decimal zones x
      rwa [Decimal.unsignedZero_of_ne readable] at read
    | string s => exact congrArg some (FieldType.cast_string s)
    | char c => exact congrArg some (FieldType.cast_char readable)
    | uuid u => exact congrArg some (FieldType.cast_ofOption (by decide) u.all_text rfl u.read?_text)
    | date d =>
      exact congrArg some (FieldType.cast_ofOption (by decide) d.all_text rfl
        (Calendar.readDate?_text readable))
    | time t =>
      exact congrArg some (FieldType.cast_ofOption (by decide) t.all_text rfl
        (Calendar.readTime?_text readable))
    | localDateTime x =>
      exact congrArg some (FieldType.cast_ofOption (by decide) x.all_text rfl
        (Calendar.readLocal?_text readable.1 readable.2))
    | instant i => exact congrArg some (FieldType.cast_instant readable)
    | offsetDateTime x =>
      exact congrArg some (FieldType.cast_ofOption (by decide) x.all_text rfl
        (Calendar.readRfc3339?_text readable.1 readable.2.1 readable.2.2))
    | zonedDateTime x =>
      have read := Calendar.readRfc3339?_text readable.1 readable.2.1 readable.2.2
      have nonempty : x.text ≠ [] := by
        intro empty
        rw [empty] at read
        cases read
      exact congrArg some ((FieldType.cast_of_printed (by decide) x.all_text nonempty).trans
        (ValueReader.zoned_text zones read))
  blank c blank := congrArg some (FieldType.cast_blank (by decide) blank)
  zero x zero := by
    rw [cast?_decimal, Decimal.unsignedZero_of_eq zero]

/-- The last nanosecond of a leap second, at the offset furthest from UTC. -/
def OffsetDateTime.latest : OffsetDateTime :=
  ⟨⟨⟨0, 2, 29, by decide, by decide, by decide, by decide⟩,
    ⟨86399, 1999999999, by decide, by decide⟩⟩, ⟨-86340, by decide, by decide⟩⟩

theorem FieldTypes.readsBack_builtin_leapSecond :
    (Value.offsetDateTime .latest).written = "0000-02-29T23:59:60.999999999-23:59".toList ∧
      (Value.offsetDateTime .latest).Readable ∧
      (builtin fun _ => none).cast? .offsetDateTime (Value.offsetDateTime .latest).written =
        some (.ok (.offsetDateTime .latest)) := by
  have readable : (Value.offsetDateTime .latest).Readable :=
    ⟨⟨by decide, by decide⟩, fun _ => by decide, rfl⟩
  exact ⟨by decide +kernel, readable,
    (readsBack_builtin fun _ => none).exact (.offsetDateTime .latest) readable⟩

/-- A number too small for the scale is read as a zero with its sign. -/
def Decimal.negativeZero : Decimal := ⟨true, 0, 28, by decide, by decide⟩

theorem FieldTypes.negativeZero_not_readBack :
    (builtin fun _ => none).cast? .decimal "-0.4e-28".toList =
        some (.ok (.decimal .negativeZero)) ∧
      (builtin fun _ => none).cast? .decimal Decimal.negativeZero.text ≠
        some (.ok (.decimal .negativeZero)) := by
  constructor
  · have read : Decimal.read? "-0.4e-28".toList = some .negativeZero := by decide
    exact congrArg some (FieldType.cast_ofOption (by decide) (by decide) rfl read)
  · rw [cast?_decimal]
    decide

end RequestFilter
