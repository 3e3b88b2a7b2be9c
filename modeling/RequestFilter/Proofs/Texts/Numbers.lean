import Mathlib.Algebra.Group.Int.Defs
import Mathlib.Algebra.Ring.Nat
import RequestFilter.Number.Decimal
import RequestFilter.Proofs.Integers
import RequestFilter.Uuid

/-!
The digits behind the point of a decimal number are taken one at a time. As long as digits are left,
the scale is not used up and the magnitude stays below that of the whole number, so every digit is
taken and none rounds the number.
-/

namespace RequestFilter

namespace Integer

theorem sign_digits {cs : List Char} (digit : ∀ c ∈ cs.head?, c.isDigit = true) :
    sign cs = (false, cs) := by
  unfold sign
  split
  · cases digit '-' rfl
  · cases digit '+' rfl
  · rfl

theorem signed_natAbs (i : Int) : signed (i < 0) i.natAbs = i := by
  unfold signed
  split
  · next negative =>
    have below : i < 0 := of_decide_eq_true negative
    omega
  · next positive =>
    have above : ¬ i < 0 := fun below => positive (decide_eq_true below)
    omega

theorem literal_ofInt (i : Int) : Literal (Digits.ofInt i) i := by
  have digits : ∀ c ∈ Digits.ofNat i.natAbs, c.isDigit = true := fun _ => Digits.isDigit_ofNat
  have stands : signed (i < 0) (Nat.ofDigitChars 10 (Digits.ofNat i.natAbs) 0) = i := by
    rw [← Digits.value_eq, Digits.value_ofNat, signed_natAbs]
  unfold Digits.ofInt
  split
  · next negative =>
    have literal := Literal.mk .minus digits (Digits.ofNat_ne_nil _)
    rw [decide_eq_true negative] at stands
    rw [stands] at literal
    exact literal
  · next positive =>
    have literal := Literal.mk .absent digits (Digits.ofNat_ne_nil _)
    rw [decide_eq_false positive] at stands
    rw [stands] at literal
    exact literal

theorem readBits_ofInt {bits : Nat} {i : Int} (low : -2 ^ (bits - 1) ≤ i)
    (high : i < 2 ^ (bits - 1)) : readBits bits (Digits.ofInt i) = .ok i :=
  readBits_eq_ok_iff.mpr ⟨literal_ofInt i, low, high⟩

end Integer

theorem Digits.ofInt_ne_nil (i : Int) : ofInt i ≠ [] := by
  unfold ofInt
  split
  · exact List.cons_ne_nil _ _
  · exact ofNat_ne_nil _

theorem Digits.all_ofInt (i : Int) : (ofInt i).all Text.isPrinted = true := by
  have digits : (ofNat i.natAbs).all Text.isPrinted = true :=
    List.all_eq_true.mpr fun _ digit => Text.isPrinted_of_isDigit (isDigit_ofNat digit)
  unfold ofInt
  split
  · rw [List.all_cons, digits]
    rfl
  · exact digits

namespace Decimal

theorem ofParts?_some (x : Decimal) : ofParts? x.negative x.magnitude x.scale = some x :=
  dif_pos ⟨x.magnitude_lt, x.scale_le⟩

/-- The number without the sign of a zero. -/
def unsignedZero (x : Decimal) : Decimal := { x with negative := x.negative && x.magnitude != 0 }

theorem unsignedZero_of_ne {x : Decimal} (nonzero : x.negative = true → x.magnitude ≠ 0) :
    x.unsignedZero = x := by
  obtain ⟨negative, magnitude, scale, magnitude_lt, scale_le⟩ := x
  cases negative with
  | false => rfl
  | true =>
    have keeps : (true && magnitude != 0) = true := bne_iff_ne.mpr (nonzero rfl)
    simp only [unsignedZero, keeps]

theorem unsignedZero_of_eq {x : Decimal} (zero : x.magnitude = 0) :
    x.unsignedZero = { x with negative := false } := by
  have loses : (x.negative && x.magnitude != 0) = false := by
    rw [zero, bne_self_eq_false, Bool.and_false]
  simp only [unsignedZero, loses]

theorem ofLiteral?_some (x : Decimal) :
    ofLiteral? x.negative x.magnitude x.scale = some x.unsignedZero := by
  have fits : x.scale % (maxScale + 1) = x.scale := Nat.mod_eq_of_lt (Nat.lt_succ_of_le x.scale_le)
  rw [ofLiteral?, fits]
  exact x.unsignedZero.ofParts?_some

theorem takeFraction_digits (negative : Bool) (ds : List Char)
    (digits : ∀ c ∈ ds, c.isDigit = true) : ∀ (m scale : Nat), scale + ds.length ≤ maxScale →
      Nat.ofDigitChars 10 ds m < limit →
      takeFraction negative m scale false ds =
        ofLiteral? negative (Nat.ofDigitChars 10 ds m) (scale + ds.length) := by
  induction ds with
  | nil =>
    intro m scale _ _
    rfl
  | cons d ds ih =>
    intro m scale room within
    have taken : Nat.ofDigitChars 10 (d :: ds) m =
        Nat.ofDigitChars 10 ds (10 * m + Digits.valueOf d) := Nat.ofDigitChars_cons
    rw [taken] at within ⊢
    have grows : 10 * m + Digits.valueOf d ≤ Nat.ofDigitChars 10 ds (10 * m + Digits.valueOf d) := by
      rw [Nat.ofDigitChars_eq_ofDigitChars_zero]
      exact Nat.le_add_right_of_le (Nat.le_mul_of_pos_left _ (Nat.pow_pos (by decide)))
    have plain : d ≠ '_' := by
      rintro rfl
      cases digits '_' List.mem_cons_self
    have more : (scale < maxScale ∨ false = true) ∧ 10 * m + Digits.valueOf d < limit :=
      ⟨.inl (by rw [List.length_cons] at room; omega), Nat.lt_of_le_of_lt grows within⟩
    rw [takeFraction, if_neg plain, if_pos more,
      ih (fun c member => digits c (List.mem_cons_of_mem d member)) _ _
        (by rw [List.length_cons] at room; omega) within,
      List.length_cons, Nat.add_assoc, Nat.add_comm 1]

theorem isPlain_digits {ds : List Char} (digits : ∀ c ∈ ds, c.isDigit = true) (pointSeen : Bool)
    (rest : List Char) : isPlain true pointSeen (ds ++ rest) = isPlain true pointSeen rest := by
  induction ds with
  | nil => rfl
  | cons d ds ih =>
    rw [List.cons_append, isPlain, if_pos (digits d List.mem_cons_self),
      ih fun c member => digits c (List.mem_cons_of_mem d member)]

theorem isPlain_begun {ds rest : List Char} (digits : ∀ c ∈ ds, c.isDigit = true) (some : ds ≠ [])
    (digitSeen pointSeen : Bool) :
    isPlain digitSeen pointSeen (ds ++ rest) = isPlain true pointSeen rest := by
  obtain ⟨first, others, rfl⟩ := List.exists_cons_of_ne_nil some
  rw [List.cons_append, isPlain, if_pos (digits first List.mem_cons_self)]
  exact isPlain_digits (fun c member => digits c (List.mem_cons_of_mem first member)) pointSeen rest

/-- The digits before the point and behind it. -/
def wholeText (x : Decimal) : List Char :=
  let digits := Digits.padded (x.scale + 1) x.magnitude
  digits.take (digits.length - x.scale)

def fractionText (x : Decimal) : List Char :=
  let digits := Digits.padded (x.scale + 1) x.magnitude
  digits.drop (digits.length - x.scale)

theorem wholeText_append (x : Decimal) :
    x.wholeText ++ x.fractionText = Digits.padded (x.scale + 1) x.magnitude :=
  List.take_append_drop _ _

theorem isDigit_wholeText {x : Decimal} {c : Char} (member : c ∈ x.wholeText) :
    c.isDigit = true :=
  Digits.isDigit_padded (List.mem_of_mem_take member)

theorem isDigit_fractionText {x : Decimal} {c : Char} (member : c ∈ x.fractionText) :
    c.isDigit = true :=
  Digits.isDigit_padded (List.mem_of_mem_drop member)

theorem length_fractionText (x : Decimal) : x.fractionText.length = x.scale := by
  have room := Digits.le_length_padded (x.scale + 1) x.magnitude
  rw [fractionText, List.length_drop]
  omega

theorem wholeText_ne_nil (x : Decimal) : x.wholeText ≠ [] := by
  have room := Digits.le_length_padded (x.scale + 1) x.magnitude
  intro none
  have length := congrArg List.length x.wholeText_append
  rw [none, List.nil_append, length_fractionText] at length
  omega

theorem value_digits (x : Decimal) :
    Nat.ofDigitChars 10 x.fractionText (Digits.value x.wholeText) = x.magnitude := by
  rw [Digits.value_eq, ← Nat.ofDigitChars_append, wholeText_append, ← Digits.value_eq,
    Digits.value_padded]

def pointText (x : Decimal) : List Char := if x.scale = 0 then [] else '.' :: x.fractionText

theorem text_eq (x : Decimal) :
    x.text = (if x.negative then ['-'] else []) ++ (x.wholeText ++ x.pointText) := by
  rw [← List.append_assoc]
  rfl

theorem sign_text (x : Decimal) : Integer.sign x.text = (x.negative, x.wholeText ++ x.pointText) := by
  rw [text_eq]
  cases x.negative with
  | false =>
    obtain ⟨first, others, whole⟩ := List.exists_cons_of_ne_nil x.wholeText_ne_nil
    have digit : first.isDigit = true := isDigit_wholeText (whole ▸ List.mem_cons_self)
    change Integer.sign (x.wholeText ++ x.pointText) = _
    rw [whole]
    exact Integer.sign_digits fun c same => Option.some.inj same ▸ digit
  | true => rfl

theorem isPlain_text (x : Decimal) : isPlain false false (x.wholeText ++ x.pointText) = true := by
  rw [isPlain_begun (fun _ digit => isDigit_wholeText digit) x.wholeText_ne_nil, pointText]
  split
  · rfl
  · have ended : isPlain true true (x.fractionText ++ []) = true :=
      isPlain_digits (fun _ digit => isDigit_fractionText digit) true []
    rw [List.append_nil] at ended
    rw [isPlain, if_neg (by decide), if_pos rfl, ended]
    rfl

theorem cutFirst?_text (x : Decimal) :
    (Text.cutFirst? (· == '.') (x.wholeText ++ x.pointText)).getD (x.wholeText ++ x.pointText, []) =
      (x.wholeText, x.fractionText) := by
  have noPoint : ∀ c ∈ x.wholeText, (c == '.') = false := by
    intro c member
    have digit := isDigit_wholeText member
    rw [beq_eq_false_iff_ne]
    rintro rfl
    cases digit
  rw [pointText]
  split
  · next whole =>
    have none : x.fractionText = [] := List.length_eq_zero_iff.mp (x.length_fractionText.trans whole)
    rw [List.append_nil, none, Text.cutFirst?_none noPoint]
    rfl
  · rw [Text.cutFirst?_append noPoint (by decide)]
    rfl

theorem literal?_text (x : Decimal) :
    literal? x.text = some ⟨x.negative, x.wholeText, x.fractionText⟩ := by
  have whole : x.wholeText.filter Char.isDigit = x.wholeText :=
    List.filter_eq_self.mpr fun _ digit => isDigit_wholeText digit
  simp only [literal?, sign_text]
  rw [if_pos x.isPlain_text, cutFirst?_text]
  simp only [whole]

/-- A number is read back with its scale, and with its sign unless it is zero. -/
theorem read?_text (x : Decimal) : read? x.text = some x.unsignedZero := by
  have grows : Digits.value x.wholeText ≤ x.magnitude := by
    have split := x.value_digits
    rw [Nat.ofDigitChars_eq_ofDigitChars_zero] at split
    rw [← split]
    exact Nat.le_add_right_of_le (Nat.le_mul_of_pos_left _ (Nat.pow_pos (by decide)))
  have within : Digits.value x.wholeText < limit := Nat.lt_of_le_of_lt grows x.magnitude_lt
  have room : 0 + x.fractionText.length ≤ maxScale := by
    rw [Nat.zero_add, length_fractionText]
    exact x.scale_le
  have taken := takeFraction_digits x.negative x.fractionText
    (fun _ digit => isDigit_fractionText digit) (Digits.value x.wholeText) 0 room
    (by rw [value_digits]; exact x.magnitude_lt)
  rw [value_digits, Nat.zero_add, length_fractionText, ofLiteral?_some] at taken
  rw [read?, readPlain?, literal?_text, Option.bind_some]
  simp only [if_pos within, taken]
  rfl

theorem all_text (x : Decimal) : x.text.all Text.isPrinted = true := by
  have whole : x.wholeText.all Text.isPrinted = true :=
    List.all_eq_true.mpr fun _ digit => Text.isPrinted_of_isDigit (isDigit_wholeText digit)
  have fraction : x.fractionText.all Text.isPrinted = true :=
    List.all_eq_true.mpr fun _ digit => Text.isPrinted_of_isDigit (isDigit_fractionText digit)
  have sign : (if x.negative then ['-'] else []).all Text.isPrinted = true := by
    cases x.negative <;> decide
  have point : x.pointText.all Text.isPrinted = true := by
    rw [pointText]
    split
    · rfl
    · rw [List.all_cons, fraction]
      rfl
  rw [text_eq, List.all_append, List.all_append, sign, whole, point]
  rfl

end Decimal

namespace Hex

theorem digit?_char : ∀ d : Fin 16, digit? (char d) = some d := by decide

theorem isPrinted_char : ∀ d : Fin 16, Text.isPrinted (char d) = true := by decide

theorem toLower_char : ∀ d : Fin 16, (char d).toLower ≠ 'u' := by decide

theorem mapM_digit?_map (ds : List (Fin 16)) : (ds.map char).mapM digit? = some ds := by
  induction ds with
  | nil => rfl
  | cons d ds ih =>
    rw [List.map_cons, List.mapM_cons, digit?_char, ih]
    rfl

end Hex

namespace Uuid

theorem length_hyphenate (size : Nat) (sizes : List Nat) (cs : List Char)
    (total : (size :: sizes).sum = cs.length) :
    (hyphenate (size :: sizes) cs).length = cs.length + sizes.length := by
  induction sizes generalizing size cs with
  | nil => rfl
  | cons next sizes ih =>
    rw [List.sum_cons] at total
    have rest := ih next (cs.drop size) (by rw [List.length_drop]; omega)
    rw [hyphenate, List.length_append, List.length_cons, rest, List.length_take, List.length_drop,
      List.length_cons]
    · omega
    · rintro ⟨⟩

theorem joinGroups?_hyphenate (size : Nat) (sizes : List Nat) (cs : List Char)
    (total : (size :: sizes).sum = cs.length) :
    joinGroups? (size :: sizes) (hyphenate (size :: sizes) cs) = some cs := by
  induction sizes generalizing size cs with
  | nil =>
    rw [List.sum_cons, List.sum_nil, Nat.add_zero] at total
    exact if_pos total.symm
  | cons next sizes ih =>
    rw [List.sum_cons] at total
    have rest := ih next (cs.drop size) (by rw [List.length_drop]; omega)
    have taken : (cs.take size).length = size := by rw [List.length_take]; omega
    have cut : (hyphenate (size :: next :: sizes) cs).drop size =
        '-' :: hyphenate (next :: sizes) (cs.drop size) := List.drop_left' taken
    have first : (hyphenate (size :: next :: sizes) cs).take size = cs.take size :=
      List.take_left' taken
    rw [joinGroups?, cut]
    · simp only [rest, first, Option.map_some, List.take_append_drop]
    · rintro ⟨⟩

theorem all_hyphenate (sizes : List Nat) (cs : List Char) (printed : cs.all Text.isPrinted = true) :
    (hyphenate sizes cs).all Text.isPrinted = true := by
  fun_induction hyphenate sizes cs with
  | case1 => exact printed
  | case2 => exact printed
  | case3 size sizes cs _ ih =>
    rw [← List.take_append_drop size cs, List.all_append, Bool.and_eq_true] at printed
    rw [List.all_append, List.all_cons, printed.1, ih printed.2]
    rfl

theorem read?_text (u : Uuid) : read? u.text = some u := by
  have total : groups.sum = (u.digits.map Hex.char).length := by
    rw [List.length_map, u.length_eq]
    rfl
  have length : u.text.length = 36 := by
    rw [text, groups, length_hyphenate _ _ _ total, List.length_map, u.length_eq]
    rfl
  have digits : ofDigits? (u.digits.map Hex.char) = some u := by
    rw [ofDigits?, Hex.mapM_digit?_map, Option.bind_some, dif_pos u.length_eq]
  have noScheme : (u.text.take scheme.length).map Char.toLower ≠ scheme := by
    obtain ⟨d, ds, same⟩ := List.exists_cons_of_length_pos (by rw [u.length_eq]; decide)
    intro found
    have first := congrArg List.head? found
    rw [text, same] at first
    exact Hex.toLower_char d (Option.some.inj first)
  rw [read?, if_neg (by omega), if_neg (by omega), if_neg noScheme, ofHyphenated?, text, groups,
    joinGroups?_hyphenate _ _ _ total, Option.bind_some, digits]

theorem all_text (u : Uuid) : u.text.all Text.isPrinted = true := by
  apply all_hyphenate
  rw [List.all_map]
  exact List.all_eq_true.mpr fun d _ => Hex.isPrinted_char d

end Uuid

end RequestFilter
