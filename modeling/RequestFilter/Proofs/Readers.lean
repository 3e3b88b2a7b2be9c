import Mathlib.Algebra.Group.Int.Defs
import RequestFilter.FieldType.Readers
import RequestFilter.Proofs.Finiteness
import RequestFilter.Proofs.Integers
import RequestFilter.Proofs.Rules

namespace RequestFilter

/-- The values of a type. Nothing is known of the types that an application adds. -/
inductive DataType.Holds : DataType → Value → Prop
  | bool (b : Bool) : Holds .bool (.bool b)
  | i16 {i : Int} (low : -2 ^ 15 ≤ i) (high : i < 2 ^ 15) : Holds .i16 (.int i)
  | i32 {i : Int} (low : -2 ^ 31 ≤ i) (high : i < 2 ^ 31) : Holds .i32 (.int i)
  | i64 {i : Int} (low : -2 ^ 63 ≤ i) (high : i < 2 ^ 63) : Holds .i64 (.int i)
  | f32 {x : Binary64} (finite : x.isFinite = true) : Holds .f32 (.float x)
  | f64 {x : Binary64} (finite : x.isFinite = true) : Holds .f64 (.float x)
  | decimal (x : Decimal) : Holds .decimal (.decimal x)
  | string (s : String) : Holds .string (.text s)
  | char (c : Char) : Holds .char (.char c)
  | uuid (u : Uuid) : Holds .uuid (.uuid u)
  | date (d : Date) : Holds .date (.date d)
  | time (t : Time) : Holds .time (.time t)
  | localDateTime (x : LocalDateTime) : Holds .localDateTime (.dateTime x)
  | instant (i : Instant) : Holds .instant (.timestamp i)
  | offsetDateTime (x : OffsetDateTime) : Holds .offsetDateTime (.offsetDateTime x)
  | zonedDateTime (x : OffsetDateTime) : Holds .zonedDateTime (.offsetDateTime x)

def DataType.isTextual : DataType → Bool
  | string | char => true
  | _ => false

theorem DataType.Holds.isNull {type : DataType} {value : Value} (held : type.Holds value) :
    value.isNull = false := by
  cases held <;> rfl

theorem DataType.Holds.of_offset {type : DataType} {value : Value} (held : type.Holds value)
    (offset : type.needsNormalization = true) : ∃ x, value = .offsetDateTime x := by
  cases held with
  | offsetDateTime x => exact ⟨x, rfl⟩
  | zonedDateTime x => exact ⟨x, rfl⟩
  | _ => cases offset

theorem DataType.Holds.asText {type : DataType} {value : Value} (held : type.Holds value)
    (textual : type.isTextual = true) : ∃ text, value.asText = some text := by
  cases held with
  | string s => exact ⟨s, rfl⟩
  | char c => exact ⟨_, rfl⟩
  | _ => cases textual

theorem Integer.readBits_ok {bits : Nat} {cs : List Char} {i : Int}
    (found : readBits bits cs = .ok i) : -2 ^ (bits - 1) ≤ i ∧ i < 2 ^ (bits - 1) :=
  (readBits_eq_ok_iff.mp found).2

namespace ValueReader

variable {α : Type} {expected : String} {make : α → Value} {cs : List Char} {value : Value}
variable {type : DataType}

theorem holds_ofOption {read? : List Char → Option α} (makes : ∀ x, type.Holds (make x))
    (found : ofOption expected make read? cs = .ok value) : type.Holds value := by
  unfold ofOption at found
  split at found
  · cases found
    exact makes _
  · cases found

theorem holds_ofNumber {read : List Char → Except NumberFault α}
    (makes : ∀ {cs x}, read cs = .ok x → type.Holds (make x))
    (found : ofNumber expected make read cs = .ok value) : type.Holds value := by
  unfold ofNumber at found
  split at found
  · rename_i number
    cases found
    exact makes number
  · cases found
  · cases found

theorem holds_zoned {zones : ZoneTable} (found : zoned zones cs = .ok value) :
    DataType.zonedDateTime.Holds value := by
  unfold zoned at found
  dsimp only at found
  split at found
  · exact holds_ofOption .zonedDateTime found
  · split at found
    · cases found
    · split at found
      · cases found
        exact .zonedDateTime _
      · split at found
        · cases found
        · split at found
          · cases found
            exact .zonedDateTime _
          · cases found

end ValueReader

/-- The field type reads the values of the type, and allows patterns only where there is text. -/
structure FieldType.Sound (fieldType : FieldType) (type : DataType) : Prop where
  holds : ∀ {cs value}, fieldType.read cs = .ok value → type.Holds value
  textual : ∀ {op}, fieldType.operators.contains op = true → op.pattern? ≠ none →
    type.isTextual = true

theorem OperatorSet.pattern?_equality {op : Operator} (member : equality.contains op = true) :
    op.pattern? = none := by
  cases op <;> first | rfl | cases member

theorem OperatorSet.pattern?_comparable {op : Operator} (member : comparable.contains op = true) :
    op.pattern? = none := by
  cases op <;> first | rfl | cases member

namespace FieldType

variable {fieldType : FieldType} {type : DataType}

theorem Sound.ofEquality {read : ValueReader}
    (holds : ∀ {cs value}, read cs = .ok value → type.Holds value) :
    Sound ⟨type, .equality, read⟩ type where
  holds := holds
  textual member searches := absurd (OperatorSet.pattern?_equality member) searches

theorem Sound.ofComparable {read : ValueReader}
    (holds : ∀ {cs value}, read cs = .ok value → type.Holds value) :
    Sound ⟨type, .comparable, read⟩ type where
  holds := holds
  textual member searches := absurd (OperatorSet.pattern?_comparable member) searches

theorem Sound.cast (sound : fieldType.Sound type) {raw : String} {value : Value}
    (found : fieldType.cast raw = .ok value) : value.isNull = true ∨ type.Holds value := by
  unfold FieldType.cast at found
  dsimp only at found
  split at found
  · exact .inr (sound.holds found)
  · split at found
    · cases found
      exact .inl rfl
    · exact .inr (sound.holds found)

end FieldType

theorem FieldTypes.sound_builtin {zones : ZoneTable} {type : DataType} {fieldType : FieldType}
    (described : (FieldTypes.builtin zones).describe? type = some fieldType) :
    fieldType.Sound type := by
  cases type
  case custom name => cases described
  all_goals cases Option.some.inj described
  case bool => exact .ofEquality (ValueReader.holds_ofOption .bool)
  case i16 => exact .ofComparable (ValueReader.holds_ofNumber fun found =>
    .i16 (Integer.readBits_ok found).1 (Integer.readBits_ok found).2)
  case i32 => exact .ofComparable (ValueReader.holds_ofNumber fun found =>
    .i32 (Integer.readBits_ok found).1 (Integer.readBits_ok found).2)
  case i64 => exact .ofComparable (ValueReader.holds_ofNumber fun found =>
    .i64 (Integer.readBits_ok found).1 (Integer.readBits_ok found).2)
  case f32 => exact .ofComparable (ValueReader.holds_ofNumber fun found =>
    .f32 (FloatFormat.isFinite_read (by decide) (by decide) found))
  case f64 => exact .ofComparable (ValueReader.holds_ofNumber fun found =>
    .f64 (FloatFormat.isFinite_read (by decide) (by decide) found))
  case decimal => exact .ofComparable (ValueReader.holds_ofOption .decimal)
  case string => exact ⟨fun found => Except.ok.inj found ▸ .string _, fun _ _ => rfl⟩
  case char => exact ⟨ValueReader.holds_ofOption .char, fun _ _ => rfl⟩
  case uuid => exact .ofEquality (ValueReader.holds_ofOption .uuid)
  case date => exact .ofComparable (ValueReader.holds_ofOption .date)
  case time => exact .ofComparable (ValueReader.holds_ofOption .time)
  case localDateTime => exact .ofComparable (ValueReader.holds_ofOption .localDateTime)
  case instant => exact .ofComparable (ValueReader.holds_ofOption fun x => .instant x.instant)
  case offsetDateTime => exact .ofComparable (ValueReader.holds_ofOption .offsetDateTime)
  case zonedDateTime => exact .ofComparable ValueReader.holds_zoned

end RequestFilter
