import Mathlib.Algebra.Field.Rat
import Mathlib.Algebra.Order.Field.Basic
import RequestFilter.Proofs.Instants
import RequestFilter.Value

namespace RequestFilter

namespace Binary64

variable {x y : Binary64}

def isNegative (x : Binary64) : Bool := Nat.pow 2 63 ≤ x.bits.toNat

/-- The magnitude in units of the least positive number. An infinite one is that of the power of two
behind the greatest finite number. -/
def magnitude (x : Binary64) : Nat :=
  if x.exponentField = 0 then x.fractionField
  else (2 ^ 52 + x.fractionField) * 2 ^ (x.exponentField - 1)

def multiple (x : Binary64) : Int := Integer.signed x.isNegative x.magnitude

theorem fractionField_lt (x : Binary64) : x.fractionField < 2 ^ 52 := Nat.mod_lt _ (by decide)

/-- Without its sign a number is its two fields. -/
theorem fields_eq (x : Binary64) :
    x.bits.toNat % 2 ^ 63 = x.exponentField * 2 ^ 52 + x.fractionField := by
  unfold exponentField fractionField
  simp only [Nat.pow_eq]
  omega

theorem magnitude_lt (x : Binary64) : x.magnitude < 2 ^ 52 * 2 ^ x.exponentField := by
  have fraction := x.fractionField_lt
  unfold magnitude
  split
  · rename_i subnormal
    rw [subnormal]
    omega
  · rename_i normal
    calc
      (2 ^ 52 + x.fractionField) * 2 ^ (x.exponentField - 1)
        < 2 ^ 53 * 2 ^ (x.exponentField - 1) :=
          Nat.mul_lt_mul_of_pos_right (by omega) (Nat.two_pow_pos _)
      _ = 2 ^ 52 * 2 ^ x.exponentField := by
        rw [← Nat.pow_add, ← Nat.pow_add]
        congr 1
        omega

theorem le_magnitude (normal : x.exponentField ≠ 0) :
    2 ^ 52 * 2 ^ (x.exponentField - 1) ≤ x.magnitude := by
  rw [magnitude, if_neg normal]
  exact Nat.mul_le_mul_right _ (Nat.le_add_right _ _)

theorem magnitude_lt_of_exponent (less : x.exponentField < y.exponentField) :
    x.magnitude < y.magnitude :=
  calc
    x.magnitude < 2 ^ 52 * 2 ^ x.exponentField := x.magnitude_lt
    _ ≤ 2 ^ 52 * 2 ^ (y.exponentField - 1) :=
      Nat.mul_le_mul_left _ (Nat.pow_le_pow_right (by decide) (by omega))
    _ ≤ y.magnitude := le_magnitude (by omega)

theorem fields_of_magnitude (same : x.magnitude = y.magnitude) :
    x.bits.toNat % 2 ^ 63 = y.bits.toNat % 2 ^ 63 := by
  -- Magnitudes of different exponents lie in ranges that do not meet.
  have exponent : x.exponentField = y.exponentField := by
    rcases Nat.lt_trichotomy x.exponentField y.exponentField with less | equal | more
    · exact absurd same (magnitude_lt_of_exponent less).ne
    · exact equal
    · exact absurd same (magnitude_lt_of_exponent more).ne'
  have fraction : x.fractionField = y.fractionField := by
    unfold magnitude at same
    rw [exponent] at same
    split at same
    · exact same
    · exact Nat.add_left_cancel (Nat.eq_of_mul_eq_mul_right (Nat.two_pow_pos _) same)
  rw [fields_eq, fields_eq, exponent, fraction]

theorem magnitude_eq_zero_iff : x.magnitude = 0 ↔ x.isZero = true := by
  have fields := x.fields_eq
  unfold isZero
  simp only [Nat.pow_eq, beq_iff_eq]
  constructor
  · intro zero
    have subnormal : x.exponentField = 0 := by
      by_contra normal
      have positive := le_magnitude normal
      have power := Nat.two_pow_pos (x.exponentField - 1)
      omega
    rw [magnitude, if_pos subnormal] at zero
    omega
  · intro zero
    have subnormal : x.exponentField = 0 := by omega
    rw [magnitude, if_pos subnormal]
    omega

theorem signed_eq_iff {negative negative' : Bool} {m n : Nat} :
    Integer.signed negative m = Integer.signed negative' n ↔
      m = n ∧ (m = 0 ∨ negative = negative') := by
  cases negative <;> cases negative' <;> simp [Integer.signed] <;> omega

theorem bits_eq_of_fields (sign : x.isNegative = y.isNegative)
    (fields : x.bits.toNat % 2 ^ 63 = y.bits.toNat % 2 ^ 63) : x.bits = y.bits := by
  have bound := x.bits.toNat_lt
  have bound' := y.bits.toNat_lt
  unfold isNegative at sign
  simp only [Nat.pow_eq, decide_eq_decide] at sign
  apply UInt64.toNat_inj.mp
  omega

theorem multiple_eq_iff : x.multiple = y.multiple ↔
    x.bits = y.bits ∨ (x.isZero = true ∧ y.isZero = true) := by
  rw [multiple, multiple, signed_eq_iff, ← magnitude_eq_zero_iff, ← magnitude_eq_zero_iff]
  constructor
  · rintro ⟨same, zero | sign⟩
    · exact .inr ⟨zero, same ▸ zero⟩
    · exact .inl (bits_eq_of_fields sign (fields_of_magnitude same))
  · rintro (same | ⟨zero, zero'⟩)
    · have same : x = y := by
        cases x
        cases y
        exact congrArg _ same
      exact same ▸ ⟨rfl, .inr rfl⟩
    · exact ⟨zero.trans zero'.symm, .inl zero⟩

/-- Numbers are the same if they are the same multiple of the least positive one. -/
theorem same_iff : x.same y = true ↔ x.isNaN = false ∧ y.isNaN = false ∧ x.multiple = y.multiple := by
  simp only [same, multiple_eq_iff, Bool.and_eq_true, Bool.or_eq_true, Bool.not_eq_true', beq_iff_eq,
    and_assoc]

end Binary64

namespace Decimal

def number (x : Decimal) : ℚ := x.coefficient / 10 ^ x.scale

theorem same_iff {x y : Decimal} : x.same y = true ↔ x.number = y.number := by
  have power (n : Nat) : (10 : ℚ) ^ n ≠ 0 := pow_ne_zero n (by norm_num)
  rw [same, beq_iff_eq, number, number, div_eq_div_iff (power _) (power _)]
  simp only [Nat.pow_eq]
  exact_mod_cast Iff.rfl

end Decimal

/-- What is left of a value when only what is compared counts. -/
inductive Comparand where
  | decimal (number : ℚ)
  | float (multiple : Int)
  | moment (moment : Int × Nat)
  | other (value : Value)
  deriving DecidableEq

namespace Value

def isNaN : Value → Bool
  | float x => x.isNaN
  | _ => false

def comparand : Value → Comparand
  | decimal x => .decimal x.number
  | float x => .float x.multiple
  | offsetDateTime x => .moment x.moment
  | v => .other v

theorem eq_of_other {v w : Value} (same : Comparand.other v = w.comparand) : v = w := by
  cases w <;> cases same <;> rfl

theorem same_of_other {v w : Value} (plain : v.comparand = .other v) :
    v.same w = true ↔ v = w := by
  cases v <;> first | exact beq_iff_eq | cases plain

theorem same_iff {v w : Value} :
    v.same w = true ↔ v.isNaN = false ∧ w.isNaN = false ∧ v.comparand = w.comparand := by
  cases v with
  | float x =>
    cases w with
    | float y => simp [same, isNaN, comparand, Binary64.same_iff]
    | _ => simp [same, isNaN, comparand]
  | decimal x =>
    cases w with
    | decimal y => simp [same, isNaN, comparand, Decimal.same_iff]
    | _ => simp [same, isNaN, comparand]
  | offsetDateTime x =>
    cases w with
    | offsetDateTime y => simp [same, isNaN, comparand, OffsetDateTime.instant_eq_iff]
    | _ => simp [same, isNaN, comparand]
  | _ =>
    rw [same_of_other rfl]
    constructor
    · rintro rfl
      exact ⟨rfl, rfl, rfl⟩
    · rintro ⟨_, _, same⟩
      exact eq_of_other same

end Value

end RequestFilter
