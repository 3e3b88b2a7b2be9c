import Mathlib.Algebra.Group.Nat.Defs
import RequestFilter.Number.Digits
import RequestFilter.Text.Blank

namespace RequestFilter

namespace Text

/-- The characters from `+` to `Z`, and the small letters. -/
def isPrinted (c : Char) : Bool := ('+' ≤ c && c ≤ 'Z') || ('a' ≤ c && c ≤ 'z')

theorem isPrinted_bounds {c : Char} (printed : isPrinted c = true) :
    0x2B ≤ c.toNat ∧ c.toNat ≤ 0x5A ∨ 0x61 ≤ c.toNat ∧ c.toNat ≤ 0x7A := by
  simpa [isPrinted, Char.le_def, UInt32.le_iff_toNat_le] using printed

theorem isBlank_of_isPrinted {c : Char} (printed : isPrinted c = true) : isBlank c = false := by
  have bounds := isPrinted_bounds printed
  simp only [isBlank, Bool.or_eq_false_iff, Bool.and_eq_false_iff, decide_eq_false_iff_not,
    beq_eq_false_iff_ne]
  omega

theorem isPrinted_of_isDigit {c : Char} (digit : c.isDigit = true) : isPrinted c = true := by
  have bounds : 0x30 ≤ c.toNat ∧ c.toNat ≤ 0x39 := by
    simpa [Char.isDigit, UInt32.le_iff_toNat_le] using digit
  simp only [isPrinted, Char.le_def, UInt32.le_iff_toNat_le, Bool.or_eq_true, Bool.and_eq_true,
    decide_eq_true_eq]
  left
  constructor
  · exact Nat.le_trans (by decide) bounds.1
  · exact Nat.le_trans bounds.2 (by decide)

theorem trimStart_of_head {cs : List Char} (solid : ∀ c ∈ cs.head?, isBlank c = false) :
    trimStart cs = cs := by
  cases cs with
  | nil => rfl
  | cons c rest =>
    have begun : isBlank c = false := solid c rfl
    rw [trimStart, List.dropWhile_cons, begun]
    rfl

theorem trim_of_solid {cs : List Char} (solid : ∀ c ∈ cs, isBlank c = false) : trim cs = cs := by
  have back : cs.reverse.dropWhile isBlank = cs.reverse :=
    trimStart_of_head fun c first => solid c (List.mem_reverse.mp (List.mem_of_mem_head? first))
  have front : trimStart cs = cs :=
    trimStart_of_head fun c first => solid c (List.mem_of_mem_head? first)
  rw [trim, front, trimEnd, back, List.reverse_reverse]

theorem trim_of_printed {cs : List Char} (printed : cs.all isPrinted = true) : trim cs = cs :=
  trim_of_solid fun _ member => isBlank_of_isPrinted (List.all_eq_true.mp printed _ member)

end Text

namespace Digits

variable {ds rest : List Char} {width n : Nat}

theorem value_eq (ds : List Char) : value ds = Nat.ofDigitChars 10 ds 0 := by
  rw [Nat.ofDigitChars_eq_foldl]
  rfl

theorem value_append (front back : List Char) :
    value (front ++ back) = 10 ^ back.length * value front + value back := by
  simp only [value_eq]
  rw [Nat.ofDigitChars_append, Nat.ofDigitChars_eq_ofDigitChars_zero]

@[simp] theorem value_padded (width n : Nat) : value (padded width n) = n := by
  have zeros (count : Nat) : value (List.replicate count '0') = 0 := by
    rw [value_eq, Nat.ofDigitChars_replicate_zero, Nat.mul_zero]
  rw [padded, value_append, zeros, value_ofNat, Nat.mul_zero, Nat.zero_add]

theorem isDigit_padded {c : Char} (member : c ∈ padded width n) : c.isDigit = true := by
  rcases List.mem_append.mp member with zero | digit
  · rw [List.eq_of_mem_replicate zero]
    decide
  · exact isDigit_ofNat digit

theorem le_length_padded (width n : Nat) : width ≤ (padded width n).length := by
  rw [padded, List.length_append, List.length_replicate]
  omega

theorem length_padded (positive : 0 < width) (within : n < 10 ^ width) :
    (padded width n).length = width := by
  have short : (ofNat n).length ≤ width :=
    (Nat.length_toDigits_le_iff (by decide) positive).mpr within
  rw [padded, List.length_append, List.length_replicate]
  omega

theorem padded_ne_nil (width n : Nat) : padded width n ≠ [] := by
  rw [padded]
  exact List.append_ne_nil_of_right_ne_nil _ (ofNat_ne_nil n)

@[simp] theorem all_padded (width n : Nat) : (padded width n).all Text.isPrinted = true :=
  List.all_eq_true.mpr fun _ member => Text.isPrinted_of_isDigit (isDigit_padded member)

theorem span_append (digits : ∀ c ∈ ds, c.isDigit = true)
    (ends : ∀ c ∈ rest.head?, c.isDigit = false) : span (ds ++ rest) = (ds, rest) := by
  have none : rest.takeWhile Char.isDigit = [] ∧ rest.dropWhile Char.isDigit = rest := by
    cases rest with
    | nil => exact ⟨rfl, rfl⟩
    | cons c rest => simp [ends c rfl]
  rw [span, List.takeWhile_append_of_pos digits, List.dropWhile_append_of_pos digits, none.1,
    none.2, List.append_nil]

theorem trimStart_append (digits : ∀ c ∈ ds, c.isDigit = true) (some : ds ≠ []) :
    Text.trimStart (ds ++ rest) = ds ++ rest := by
  obtain ⟨first, others, rfl⟩ := List.exists_cons_of_ne_nil some
  apply Text.trimStart_of_head
  rintro c ⟨⟩
  exact Text.isBlank_of_isPrinted (Text.isPrinted_of_isDigit (digits first List.mem_cons_self))

end Digits

end RequestFilter
