import RequestFilter.FieldType.Readers
import RequestFilter.Proofs.Integers

namespace RequestFilter

/-- The types of integers, by their number of bits. -/
inductive DataType.IsInteger : DataType → Nat → Prop
  | i16 : IsInteger .i16 16
  | i32 : IsInteger .i32 32
  | i64 : IsInteger .i64 64

namespace ValueReader

variable {α : Type} {expected : String} {make : α → Value} {read : List Char → Except NumberFault α}
variable {cs : List Char}

theorem ofNumber_eq_ok_iff {value : Value} : ofNumber expected make read cs = .ok value ↔
    ∃ x, value = make x ∧ read cs = .ok x := by
  unfold ofNumber
  split
  · rename_i x found
    simp [found, eq_comm]
  · rename_i failed
    simp [failed]
  · rename_i failed
    simp [failed]

theorem ofNumber_eq_outOfRange_iff {told named : String} :
    ofNumber expected make read cs = .error (.outOfRange told named) ↔
      (told = String.ofList cs ∧ named = expected) ∧ read cs = .error .outOfRange := by
  unfold ofNumber
  split
  · rename_i found
    simp [found]
  · rename_i failed
    simp [failed, CastFault.ofText]
  · rename_i failed
    simp [failed, eq_comm]

theorem ofNumber_eq_invalid_iff {told named : String} :
    ofNumber expected make read cs = .error (.invalid told named) ↔
      (told = String.ofList cs ∧ named = expected) ∧ read cs = .error .malformed := by
  unfold ofNumber
  split
  · rename_i found
    simp [found]
  · rename_i failed
    simp [failed, CastFault.ofText, eq_comm]
  · rename_i failed
    simp [failed]

theorem message_ofNumber {fault : CastFault} (failed : ofNumber expected make read cs = .error fault) :
    fault.message = "`" ++ String.ofList cs ++ "` is out of range for " ++ expected ∨
      fault.message = "`" ++ String.ofList cs ++ "` is not a valid " ++ expected := by
  unfold ofNumber at failed
  split at failed <;> cases failed
  · exact .inr rfl
  · exact .inl rfl

end ValueReader

namespace FieldType

/-- The text is cast by its literal, or by the longest one that it begins with. -/
structure CastsInteger (fieldType : FieldType) (bits : Nat) (raw : String) : Prop where
  ok : ∀ value, fieldType.cast raw = .ok value ↔
    ∃ i, value = .int i ∧ Integer.Literal (Text.trim raw.toList) i ∧ Integer.Fits bits i
  outOfRange : ∀ told expected, fieldType.cast raw = .error (.outOfRange told expected) ↔
    (told = Text.trimmed raw ∧ expected = fieldType.type.name) ∧
      ∃ front i, Integer.LongestLiteral (Text.trim raw.toList) front i ∧ ¬ Integer.Fits bits i
  invalid : ∀ told expected, fieldType.cast raw = .error (.invalid told expected) ↔
    (told = Text.trimmed raw ∧ expected = fieldType.type.name) ∧
      (¬ ∃ i, Integer.Literal (Text.trim raw.toList) i ∧ Integer.Fits bits i) ∧
      ¬ ∃ front i, Integer.LongestLiteral (Text.trim raw.toList) front i ∧ ¬ Integer.Fits bits i
  message : ∀ fault, fieldType.cast raw = .error fault →
    fault.message = "`" ++ Text.trimmed raw ++ "` is out of range for " ++ fieldType.type.name ∨
      fault.message = "`" ++ Text.trimmed raw ++ "` is not a valid " ++ fieldType.type.name

variable {type : DataType} {operators : OperatorSet} {raw : String}

theorem cast_eq_read {read : ValueReader} (plain : type ≠ .string)
    (some : Text.trim raw.toList ≠ []) :
    cast ⟨type, operators, read⟩ raw = read (Text.trim raw.toList) := by
  unfold cast
  dsimp only
  rw [if_neg plain, if_neg fun empty => some (List.isEmpty_iff.mp empty)]

theorem castsInteger (bits : Nat) (plain : type ≠ .string) (some : Text.trim raw.toList ≠ []) :
    CastsInteger ⟨type, operators, .integer type.name bits⟩ bits raw := by
  have cast : cast ⟨type, operators, .integer type.name bits⟩ raw =
      ValueReader.ofNumber type.name .int (Integer.readBits bits) (Text.trim raw.toList) :=
    cast_eq_read plain some
  constructor
  · intro value
    rw [cast, ValueReader.ofNumber_eq_ok_iff]
    simp only [Integer.readBits_eq_ok_iff]
  · intro told expected
    rw [cast, ValueReader.ofNumber_eq_outOfRange_iff, Integer.readBits_eq_outOfRange_iff]
    rfl
  · intro told expected
    rw [cast, ValueReader.ofNumber_eq_invalid_iff, Integer.readBits_eq_malformed_iff]
    rfl
  · intro fault failed
    rw [cast] at failed
    exact ValueReader.message_ofNumber failed

end FieldType

namespace FieldTypes

theorem integers_builtin (zones : ZoneTable) {type : DataType} {bits : Nat}
    (integer : type.IsInteger bits) (raw : String) (some : Text.trim raw.toList ≠ []) :
    ∃ fieldType, (builtin zones).describe? type = .some fieldType ∧ fieldType.type = type ∧
      fieldType.CastsInteger bits raw := by
  cases integer with
  | i16 => exact ⟨_, rfl, rfl, FieldType.castsInteger 16 (by decide) some⟩
  | i32 => exact ⟨_, rfl, rfl, FieldType.castsInteger 32 (by decide) some⟩
  | i64 => exact ⟨_, rfl, rfl, FieldType.castsInteger 64 (by decide) some⟩

/-- One below the least number of 16 bits, with zeros in front and a letter behind it. -/
theorem integers_builtin_belowLeast :
    ∃ fieldType, (builtin fun _ => none).describe? .i16 = .some fieldType ∧
      DataType.IsInteger .i16 16 ∧ Text.trim " -0032769x".toList ≠ [] ∧
      fieldType.cast " -0032769x" = .error (.outOfRange "-0032769x" "i16") ∧
      ∃ front i, Integer.LongestLiteral (Text.trim " -0032769x".toList) front i ∧
        ¬ Integer.Fits 16 i := by
  have some : Text.trim " -0032769x".toList ≠ [] := by decide
  obtain ⟨fieldType, described, _, casts⟩ := integers_builtin (fun _ => none) .i16 " -0032769x" some
  have cast : fieldType.cast " -0032769x" = .error (.outOfRange "-0032769x" "i16") := by
    cases Option.some.inj described
    decide
  exact ⟨fieldType, described, .i16, some, cast, ((casts.outOfRange _ _).mp cast).2⟩

end FieldTypes

end RequestFilter
