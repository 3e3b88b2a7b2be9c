import Mathlib.Data.Nat.Log
import Mathlib.Algebra.Group.Nat.Defs
import RequestFilter.Number.BinaryFloat

/-!
A significand below two to the precision and an exponent up to the greatest one always fit beside
each other into the bits of a finite number. Rounding in units of the size that the binary logarithms
suggest keeps the significand that small.
-/

namespace RequestFilter

namespace Binary64

theorem isFinite_ofNat (negative : Bool) {magnitude : Nat} (below : magnitude < 2047 * 2 ^ 52) :
    isFinite ⟨UInt64.ofNat ((if negative then Nat.pow 2 63 else 0) + magnitude)⟩ = true := by
  have field : exponentField ⟨UInt64.ofNat ((if negative then Nat.pow 2 63 else 0) + magnitude)⟩ =
      magnitude / 2 ^ 52 := by
    unfold exponentField
    simp only [Nat.pow_eq, UInt64.toNat_ofNat']
    split <;> omega
  unfold isFinite
  rw [field]
  simp only [bne_iff_ne]
  omega

theorem scaled_lt {m k : Nat} (fits : m < 2 ^ 53) (shifted : k ≤ 52 - Nat.log2 m) :
    m * 2 ^ k < 2 ^ 53 := by
  rcases Nat.eq_zero_or_pos m with rfl | positive
  · simp
  · have log : Nat.log2 m < 53 := (Nat.log2_lt positive.ne').mpr fits
    calc
      m * 2 ^ k < 2 ^ (Nat.log2 m + 1) * 2 ^ k :=
        Nat.mul_lt_mul_of_pos_right Nat.lt_log2_self (Nat.two_pow_pos k)
      _ = 2 ^ (Nat.log2 m + 1 + k) := (Nat.pow_add ..).symm
      _ ≤ 2 ^ 53 := Nat.pow_le_pow_right (by decide) (by omega)

theorem isFinite_ofScaled (negative : Bool) {m : Nat} {q : Int} (fits : m < 2 ^ 53) (bounded : q ≤ 971) :
    (ofScaled negative m q).isFinite = true := by
  unfold ofScaled
  dsimp only
  split
  · have zero := isFinite_ofNat negative (by decide : 0 < 2047 * 2 ^ 52)
    rwa [Nat.add_zero] at zero
  · split
    · have significand := scaled_lt fits (Nat.le_refl (52 - Nat.log2 m))
      rw [Nat.add_assoc]
      refine isFinite_ofNat negative ?_
      simp only [Nat.pow_eq] at significand ⊢
      omega
    · rename_i subnormal
      have significand := scaled_lt fits (k := (q + 1074).toNat) (by omega)
      refine isFinite_ofNat negative ?_
      simp only [Nat.pow_eq]
      omega

end Binary64

namespace FloatFormat

variable {n d : Nat}

theorem roundHalfEven_le {bound : Nat} (positive : 0 < d) (below : n ≤ bound * d) :
    roundHalfEven n d ≤ bound := by
  have quotient : n / d ≤ bound := Nat.div_le_of_le_mul (by rwa [Nat.mul_comm] at below)
  have whole : d * (n / d) + n % d = n := Nat.div_add_mod n d
  -- A quotient that is rounded up has a remainder, so it is not the bound itself.
  have up : d ≤ 2 * (n % d) → n / d + 1 ≤ bound := fun large => by
    refine Nat.lt_of_le_of_ne quotient fun same => ?_
    rw [same, Nat.mul_comm] at whole
    omega
  unfold roundHalfEven
  dsimp only
  split
  · exact quotient
  · split
    · exact up (by omega)
    · split
      · exact quotient
      · exact up (by omega)

theorem inUnits_le {p : Nat} {q : Int} (positive : 0 < d)
    (coarse : (Nat.log2 n : Int) - Nat.log2 d - p < q) : inUnits n d q ≤ 2 ^ p := by
  have numerator : n < 2 ^ (Nat.log2 n + 1) := Nat.lt_log2_self
  have denominator : 2 ^ Nat.log2 d ≤ d := Nat.log2_self_le positive.ne'
  unfold inUnits
  simp only [Nat.pow_eq]
  split
  · refine roundHalfEven_le positive ?_
    calc
      n * 2 ^ q.natAbs ≤ 2 ^ (Nat.log2 n + 1) * 2 ^ q.natAbs := Nat.mul_le_mul_right _ numerator.le
      _ = 2 ^ (Nat.log2 n + 1 + q.natAbs) := (Nat.pow_add ..).symm
      _ ≤ 2 ^ (p + Nat.log2 d) := Nat.pow_le_pow_right (by decide) (by omega)
      _ = 2 ^ p * 2 ^ Nat.log2 d := Nat.pow_add ..
      _ ≤ 2 ^ p * d := Nat.mul_le_mul_left _ denominator
  · refine roundHalfEven_le (Nat.mul_pos positive (Nat.two_pow_pos _)) ?_
    calc
      n ≤ 2 ^ (Nat.log2 n + 1) := numerator.le
      _ ≤ 2 ^ (p + (Nat.log2 d + q.natAbs)) := Nat.pow_le_pow_right (by decide) (by omega)
      _ = 2 ^ p * (2 ^ Nat.log2 d * 2 ^ q.natAbs) := by rw [Nat.pow_add, Nat.pow_add]
      _ ≤ 2 ^ p * (d * 2 ^ q.natAbs) :=
        Nat.mul_le_mul_left _ (Nat.mul_le_mul_right _ denominator)

theorem nearest?_fits {format : FloatFormat} (positive : 0 < d) {m : Nat} {q : Int}
    (found : format.nearest? n d = some (m, q)) :
    m < 2 ^ format.precision ∧ q ≤ format.maxExponent := by
  unfold nearest? at found
  dsimp only at found
  generalize start_eq : max ((Nat.log2 n : Int) - Nat.log2 d - format.precision) format.minExponent =
    start at found
  have coarse : (Nat.log2 n : Int) - Nat.log2 d - format.precision < start + 1 := by omega
  have next : inUnits n d (start + 1) ≤ 2 ^ format.precision := inUnits_le positive coarse
  have half : 2 ^ format.precision / 2 < 2 ^ format.precision :=
    Nat.div_lt_self (Nat.two_pow_pos _) (by decide)
  simp only [Nat.pow_eq] at found
  by_cases small : inUnits n d start < 2 ^ format.precision
  · rw [if_pos small, if_neg small.ne] at found
    obtain ⟨bounded, same⟩ := Option.ite_none_right_eq_some.mp found
    cases same
    exact ⟨small, bounded⟩
  · rw [if_neg small] at found
    by_cases top : inUnits n d (start + 1) = 2 ^ format.precision
    · rw [if_pos top, top] at found
      obtain ⟨bounded, same⟩ := Option.ite_none_right_eq_some.mp found
      cases same
      exact ⟨half, bounded⟩
    · rw [if_neg top] at found
      obtain ⟨bounded, same⟩ := Option.ite_none_right_eq_some.mp found
      cases same
      exact ⟨Nat.lt_of_le_of_ne next top, bounded⟩

theorem isFinite_read {format : FloatFormat} (narrow : format.precision ≤ 53)
    (bounded : format.maxExponent ≤ 971) {cs : List Char} {x : Binary64}
    (found : format.read cs = .ok x) : x.isFinite = true := by
  have zero (negative : Bool) : (Binary64.ofScaled negative 0 0).isFinite = true :=
    Binary64.isFinite_ofScaled negative (by decide) (by decide)
  unfold read at found
  dsimp only at found
  split at found
  · cases found
  · split at found
    · cases found
    · rename_i literal _
      split at found
      · cases found
        exact zero literal.negative
      · split at found
        · cases found
        · split at found
          · cases found
            exact zero literal.negative
          · split at found
            · rename_i m q nearest
              cases found
              have positive : 0 < if literal.exponent < 0 then Nat.pow 10 literal.exponent.natAbs else 1 := by
                split
                · exact Nat.pow_pos (by decide)
                · decide
              obtain ⟨significand, exponent⟩ := nearest?_fits positive nearest
              exact Binary64.isFinite_ofScaled literal.negative
                (significand.trans_le (Nat.pow_le_pow_right (by decide) narrow))
                (exponent.trans bounded)
            · cases found

end FloatFormat

end RequestFilter
