import Mathlib.Algebra.Order.Group.Unbundled.Int
import RequestFilter.Number.Integer
import RequestFilter.Proofs.Texts.Digits

/-!
The digits of a number are pushed one at a time, and each number on the way is that of a prefix of
the digits. These numbers only move away from zero, so if one of them leaves the range, so does that
of all the digits: nothing is refused on the way that the whole number would not be refused for.
-/

namespace RequestFilter

namespace Integer

inductive Mark : Bool → List Char → Prop
  | absent : Mark false []
  | plus : Mark false ['+']
  | minus : Mark true ['-']

/-- The text is a sign or none and at least one digit, and stands for the number. -/
inductive Literal : List Char → Int → Prop
  | mk {negative : Bool} {mark ds : List Char} (marked : Mark negative mark)
      (digits : ∀ c ∈ ds, c.isDigit = true) (some : ds ≠ []) :
      Literal (mark ++ ds) (signed negative (Nat.ofDigitChars 10 ds 0))

/-- The longest prefix of the text that is a literal, and the number it stands for. -/
structure LongestLiteral (cs front : List Char) (i : Int) : Prop where
  begins : front <+: cs
  literal : Literal front i
  longest : ∀ other j, other <+: cs → Literal other j → other.length ≤ front.length

def Outside (lo hi i : Int) : Prop := i < lo ∨ hi < i

instance (lo hi i : Int) : Decidable (Outside lo hi i) :=
  inferInstanceAs (Decidable (i < lo ∨ hi < i))

section Push

variable {lo hi i : Int} {negative : Bool} {m n : Nat} {c : Char} {ds rest : List Char}

theorem fit_inside (inside : ¬ Outside lo hi i) : fit lo hi i = .ok i := if_neg inside

theorem fit_outside (outside : Outside lo hi i) : fit lo hi i = .error .outOfRange := if_pos outside

theorem Outside.of_le (low : lo ≤ 0) (high : 0 ≤ hi) (outside : Outside lo hi (signed negative m))
    (le : m ≤ n) : Outside lo hi (signed negative n) := by
  cases negative with
  | false =>
    simp only [Outside, signed, Bool.false_eq_true, if_false] at outside ⊢
    omega
  | true =>
    simp only [Outside, signed, if_true] at outside ⊢
    omega

theorem signed_mul (negative : Bool) (m n : Nat) :
    (m : Int) * signed negative n = signed negative (m * n) := by
  cases negative with
  | false => simp [signed]
  | true =>
    simp only [signed, if_true]
    rw [Int.mul_neg, Int.natCast_mul]

theorem signed_add (negative : Bool) (m n : Nat) :
    signed negative m + signed negative n = signed negative (m + n) := by
  cases negative <;> simp [signed]
  omega

theorem push_digit (low : lo ≤ 0) (high : 0 ≤ hi) (digit : c.isDigit = true) :
    push lo hi negative (signed negative n) c =
      fit lo hi (signed negative (10 * n + Digits.valueOf c)) := by
  have tens : 10 * signed negative n = signed negative (10 * n) := signed_mul negative 10 n
  unfold push
  rw [if_pos digit, tens]
  by_cases outside : Outside lo hi (signed negative (10 * n))
  · rw [fit_outside outside, fit_outside (outside.of_le low high (Nat.le_add_right _ _))]
    rfl
  · rw [fit_inside outside, ← signed_add]
    rfl

theorem push_other (other : c.isDigit = false) : push lo hi negative i c = .error .malformed := by
  unfold push
  rw [other]
  rfl

theorem le_ofDigitChars (ds : List Char) (n : Nat) : n ≤ Nat.ofDigitChars 10 ds n := by
  rw [Nat.ofDigitChars_eq_ofDigitChars_zero]
  exact Nat.le_add_right_of_le (Nat.le_mul_of_pos_left _ (Nat.pow_pos (by decide)))

/-- Behind a number in range, the digits decide by their number alone, and only then what follows
them. -/
theorem foldlM_push (low : lo ≤ 0) (high : 0 ≤ hi) (digits : ∀ c ∈ ds, c.isDigit = true)
    (ends : ∀ c ∈ rest.head?, c.isDigit = false) (inside : ¬ Outside lo hi (signed negative n)) :
    (ds ++ rest).foldlM (push lo hi negative) (signed negative n) =
      if Outside lo hi (signed negative (Nat.ofDigitChars 10 ds n)) then .error .outOfRange
      else if rest = [] then .ok (signed negative (Nat.ofDigitChars 10 ds n))
      else .error .malformed := by
  induction ds generalizing n with
  | nil =>
    rw [Nat.ofDigitChars_nil, if_neg inside]
    cases rest with
    | nil => rfl
    | cons c rest =>
      rw [List.nil_append, List.foldlM_cons, push_other (ends c rfl), if_neg (List.cons_ne_nil _ _)]
      rfl
  | cons d ds ih =>
    have digit := digits d List.mem_cons_self
    have later := fun c member => digits c (List.mem_cons_of_mem d member)
    have taken : Nat.ofDigitChars 10 (d :: ds) n =
        Nat.ofDigitChars 10 ds (10 * n + Digits.valueOf d) := Nat.ofDigitChars_cons
    rw [List.cons_append, List.foldlM_cons, push_digit low high digit, taken]
    by_cases outside : Outside lo hi (signed negative (10 * n + Digits.valueOf d))
    · rw [fit_outside outside, if_pos (outside.of_le low high (le_ofDigitChars ds _))]
      rfl
    · rw [fit_inside outside]
      exact ih later outside

end Push

/-- A text as a sign, the run of digits behind it, and the rest. -/
structure Parts (cs : List Char) (negative : Bool) (mark ds rest : List Char) : Prop where
  whole : cs = mark ++ (ds ++ rest)
  marked : Mark negative mark
  unmarked : mark = [] → ∀ c ∈ cs.head?, c ≠ '+' ∧ c ≠ '-'
  digits : ∀ c ∈ ds, c.isDigit = true
  ends : ∀ c ∈ rest.head?, c.isDigit = false

theorem exists_parts (cs : List Char) : ∃ negative mark ds rest, Parts cs negative mark ds rest := by
  have run (body : List Char) : ∃ ds rest, body = ds ++ rest ∧ (∀ c ∈ ds, c.isDigit = true) ∧
      ∀ c ∈ rest.head?, c.isDigit = false := by
    refine ⟨body.takeWhile Char.isDigit, body.dropWhile Char.isDigit,
      List.takeWhile_append_dropWhile.symm, ?_, ?_⟩
    · exact fun c member => List.all_eq_true.mp (List.all_takeWhile) c member
    · intro c first
      have ends := List.head?_dropWhile_not Char.isDigit body
      rw [first] at ends
      exact ends
  by_cases marked : ∃ negative mark body, Mark negative mark ∧ mark ≠ [] ∧ cs = mark ++ body
  · obtain ⟨negative, mark, body, marked, some, rfl⟩ := marked
    obtain ⟨ds, rest, rfl, digits, ends⟩ := run body
    exact ⟨negative, mark, ds, rest, rfl, marked, fun none => absurd none some, digits, ends⟩
  · obtain ⟨ds, rest, rfl, digits, ends⟩ := run cs
    refine ⟨false, [], ds, rest, rfl, .absent, fun _ c first => ⟨?_, ?_⟩, digits, ends⟩
    · rintro rfl
      obtain ⟨body, whole⟩ := List.head?_eq_some_iff.mp first
      exact marked ⟨false, ['+'], body, .plus, List.cons_ne_nil _ _, whole⟩
    · rintro rfl
      obtain ⟨body, whole⟩ := List.head?_eq_some_iff.mp first
      exact marked ⟨true, ['-'], body, .minus, List.cons_ne_nil _ _, whole⟩

namespace Parts

variable {cs mark ds rest : List Char} {negative : Bool} (parts : Parts cs negative mark ds rest)

include parts

theorem sign : sign cs = (negative, ds ++ rest) := by
  have whole := parts.whole
  cases parts.marked with
  | plus => rw [whole]; rfl
  | minus => rw [whole]; rfl
  | absent =>
    have unmarked := parts.unmarked rfl
    rw [List.nil_append] at whole
    rw [← whole]
    unfold Integer.sign
    split
    · exact absurd rfl (unmarked '-' rfl).2
    · exact absurd rfl (unmarked '+' rfl).1
    · rfl

theorem mark_eq {negative' : Bool} {mark' ds' : List Char} (marked : Mark negative' mark')
    (digits : ∀ c ∈ ds', c.isDigit = true) (some : ds' ≠ []) (begins : mark' ++ ds' <+: cs) :
    negative' = negative ∧ mark' = mark := by
  obtain ⟨d, others, rfl⟩ := List.exists_cons_of_ne_nil some
  have digit := digits d List.mem_cons_self
  obtain ⟨after, rfl⟩ := begins
  have whole := parts.whole
  have unmarked := parts.unmarked
  -- Both readings begin with the same character, which is a digit, a plus or a minus.
  cases marked with
  | absent =>
    cases parts.marked with
    | absent => exact ⟨rfl, rfl⟩
    | plus | minus =>
      obtain ⟨rfl, _⟩ := List.cons.inj whole
      exact absurd digit (by decide)
  | plus =>
    cases parts.marked with
    | absent => exact absurd rfl (unmarked rfl '+' rfl).1
    | plus => exact ⟨rfl, rfl⟩
    | minus => cases whole
  | minus =>
    cases parts.marked with
    | absent => exact absurd rfl (unmarked rfl '-' rfl).2
    | plus => cases whole
    | minus => exact ⟨rfl, rfl⟩

theorem digits_isPrefix {ds' : List Char} (digits : ∀ c ∈ ds', c.isDigit = true)
    (begins : ds' <+: ds ++ rest) : ds' <+: ds := by
  rcases List.prefix_or_prefix_of_prefix begins (List.prefix_append ds rest) with shorter | longer
  · exact shorter
  · obtain ⟨more, rfl⟩ := longer
    have further : more <+: rest := (List.prefix_append_right_inj ds).mp begins
    cases more with
    | nil => simp
    | cons c more =>
      obtain ⟨after, rfl⟩ := further
      have digit := digits c (by simp)
      rw [parts.ends c rfl] at digit
      cases digit

/-- A prefix that is a literal has the sign of the text, and some of its digits. -/
theorem of_literal {front : List Char} {i : Int} (begins : front <+: cs) (literal : Literal front i) :
    ∃ ds', ds' <+: ds ∧ ds' ≠ [] ∧ front = mark ++ ds' ∧
      i = signed negative (Nat.ofDigitChars 10 ds' 0) := by
  cases literal with
  | mk marked digits some =>
    obtain ⟨rfl, rfl⟩ := parts.mark_eq marked digits some begins
    rw [parts.whole] at begins
    have inner := (List.prefix_append_right_inj _).mp begins
    exact ⟨_, parts.digits_isPrefix digits inner, some, rfl, rfl⟩

theorem literal_front (some : ds ≠ []) :
    Literal (mark ++ ds) (signed negative (Nat.ofDigitChars 10 ds 0)) :=
  .mk parts.marked parts.digits some

theorem front_isPrefix : mark ++ ds <+: cs := by
  rw [parts.whole, ← List.append_assoc]
  exact List.prefix_append _ rest

theorem literal_iff {i : Int} : Literal cs i ↔
    ds ≠ [] ∧ rest = [] ∧ i = signed negative (Nat.ofDigitChars 10 ds 0) := by
  constructor
  · intro literal
    obtain ⟨ds', begins, some, whole, rfl⟩ := parts.of_literal (List.prefix_refl cs) literal
    rw [parts.whole, List.append_cancel_left_eq] at whole
    subst whole
    have none : rest = [] := by
      have short := begins.length_le
      rw [List.length_append] at short
      exact List.eq_nil_of_length_eq_zero (by omega)
    subst none
    rw [List.append_nil] at some ⊢
    exact ⟨some, rfl, rfl⟩
  · rintro ⟨some, rfl, rfl⟩
    have literal := parts.literal_front some
    have whole := parts.whole
    rw [List.append_nil] at whole
    rwa [← whole] at literal

theorem longestLiteral_iff {front : List Char} {i : Int} : LongestLiteral cs front i ↔
    ds ≠ [] ∧ front = mark ++ ds ∧ i = signed negative (Nat.ofDigitChars 10 ds 0) := by
  constructor
  · intro longest
    obtain ⟨ds', begins, some', rfl, rfl⟩ := parts.of_literal longest.begins longest.literal
    have some : ds ≠ [] := by
      rintro rfl
      exact some' (List.prefix_nil.mp begins)
    have long := longest.longest _ _ parts.front_isPrefix (parts.literal_front some)
    rw [List.length_append, List.length_append] at long
    have same : ds' = ds := begins.eq_of_length_le (by omega)
    rw [same]
    exact ⟨some, rfl, rfl⟩
  · rintro ⟨some, rfl, rfl⟩
    refine ⟨parts.front_isPrefix, parts.literal_front some, fun other j begins literal => ?_⟩
    obtain ⟨ds', within, _, rfl, _⟩ := parts.of_literal begins literal
    rw [List.length_append, List.length_append]
    exact Nat.add_le_add_left within.length_le _

variable {lo hi : Int}

theorem read (low : lo ≤ 0) (high : 0 ≤ hi) : read lo hi cs =
    if ds = [] then .error .malformed
    else if Outside lo hi (signed negative (Nat.ofDigitChars 10 ds 0)) then .error .outOfRange
    else if rest = [] then .ok (signed negative (Nat.ofDigitChars 10 ds 0))
    else .error .malformed := by
  have zero : signed negative 0 = 0 := by cases negative <;> rfl
  have inside : ¬ Outside lo hi (signed negative 0) := by
    rw [zero, Outside]
    omega
  have pushed := foldlM_push low high parts.digits parts.ends inside
  rw [zero] at pushed
  unfold Integer.read
  rw [parts.sign]
  dsimp only
  rw [pushed]
  by_cases none : ds = []
  · subst none
    rw [if_pos rfl, Nat.ofDigitChars_nil, if_neg inside]
    cases rest with
    | nil => rfl
    | cons c rest => rfl
  · have some : ¬ (ds ++ rest).isEmpty = true := by
      rw [List.isEmpty_iff, List.append_eq_nil_iff]
      exact fun both => none both.1
    rw [if_neg some, if_neg none]

end Parts

section Read

variable {lo hi i : Int} {cs : List Char} (low : lo ≤ 0) (high : 0 ≤ hi)

include low high

theorem read_eq_ok_iff : read lo hi cs = .ok i ↔ Literal cs i ∧ ¬ Outside lo hi i := by
  obtain ⟨negative, mark, ds, rest, parts⟩ := exists_parts cs
  rw [parts.read low high, parts.literal_iff]
  split
  · rename_i none
    exact ⟨nofun, fun ⟨⟨digits, _⟩, _⟩ => absurd none digits⟩
  · rename_i some
    split
    · rename_i outside
      exact ⟨nofun, fun ⟨⟨_, _, same⟩, inside⟩ => absurd outside (same ▸ inside)⟩
    · rename_i inside
      split
      · rename_i all
        constructor
        · rintro ⟨⟩
          exact ⟨⟨some, all, rfl⟩, inside⟩
        · rintro ⟨⟨_, _, rfl⟩, _⟩
          rfl
      · rename_i more
        exact ⟨nofun, fun ⟨⟨_, all, _⟩, _⟩ => absurd all more⟩

theorem read_eq_outOfRange_iff :
    read lo hi cs = .error .outOfRange ↔ ∃ front i, LongestLiteral cs front i ∧ Outside lo hi i := by
  obtain ⟨negative, mark, ds, rest, parts⟩ := exists_parts cs
  simp only [parts.read low high, parts.longestLiteral_iff]
  split
  · rename_i none
    exact ⟨nofun, fun ⟨_, _, ⟨digits, _⟩, _⟩ => absurd none digits⟩
  · rename_i some
    split
    · rename_i outside
      exact ⟨fun _ => ⟨_, _, ⟨some, rfl, rfl⟩, outside⟩, fun _ => rfl⟩
    · rename_i inside
      constructor
      · intro failed
        split at failed <;> cases failed
      · rintro ⟨_, _, ⟨_, _, rfl⟩, outside⟩
        exact absurd outside inside

theorem read_eq_malformed_iff :
    read lo hi cs = .error .malformed ↔ (¬ ∃ i, Literal cs i ∧ ¬ Outside lo hi i) ∧
      ¬ ∃ front i, LongestLiteral cs front i ∧ Outside lo hi i := by
  simp only [← read_eq_ok_iff low high, ← read_eq_outOfRange_iff low high]
  cases read lo hi cs with
  | ok i => simp
  | error fault => cases fault <;> simp

end Read

/-- The two's-complement integers of a number of bits. -/
def Fits (bits : Nat) (i : Int) : Prop := -2 ^ (bits - 1) ≤ i ∧ i < 2 ^ (bits - 1)

section ReadBits

variable {bits : Nat} {i : Int} {cs : List Char}

theorem outside_iff :
    Outside (-Nat.pow 2 (bits - 1)) (Nat.pow 2 (bits - 1) - 1) i ↔ ¬ Fits bits i := by
  unfold Outside Fits
  push_cast [Nat.pow_eq]
  omega

theorem range_around_zero (bits : Nat) :
    (-Nat.pow 2 (bits - 1) : Int) ≤ 0 ∧ (0 : Int) ≤ Nat.pow 2 (bits - 1) - 1 := by
  have positive : 0 < Nat.pow 2 (bits - 1) := Nat.pow_pos (by decide)
  omega

theorem readBits_eq_ok_iff : readBits bits cs = .ok i ↔ Literal cs i ∧ Fits bits i := by
  obtain ⟨low, high⟩ := range_around_zero bits
  rw [readBits, read_eq_ok_iff low high, outside_iff, not_not]

theorem readBits_eq_outOfRange_iff : readBits bits cs = .error .outOfRange ↔
    ∃ front i, LongestLiteral cs front i ∧ ¬ Fits bits i := by
  obtain ⟨low, high⟩ := range_around_zero bits
  simp only [readBits, read_eq_outOfRange_iff low high, outside_iff]

theorem readBits_eq_malformed_iff : readBits bits cs = .error .malformed ↔
    (¬ ∃ i, Literal cs i ∧ Fits bits i) ∧ ¬ ∃ front i, LongestLiteral cs front i ∧ ¬ Fits bits i := by
  obtain ⟨low, high⟩ := range_around_zero bits
  simp only [readBits, read_eq_malformed_iff low high, outside_iff, not_not]

end ReadBits

end Integer

end RequestFilter
