import RequestFilter.Calendar.Rfc3339
import RequestFilter.Proofs.Texts.Digits

/-!
Every lemma is about a text with any rest behind it, and says what the reader takes and what it
leaves. Where a text ends in digits of no fixed number, the rest must not go on with one.
-/

namespace RequestFilter

namespace Date

/-- The calendar of the readers ends with whole years on both sides. -/
def Supported (d : Date) : Prop := Calendar.firstYear ≤ d.year ∧ d.year ≤ Calendar.lastYear

def FourDigitYear (d : Date) : Prop := 0 ≤ d.year ∧ d.year ≤ 9999

end Date

/-- A leap second is the last of its minute. -/
def Time.WellTimed (t : Time) : Prop := t.isLeapSecond = true → t.second % 60 = 59

def Offset.WholeMinutes (offset : Offset) : Prop := offset.seconds % 60 = 0

namespace Calendar

variable {ds rest : List Char} {width n : Nat}

/-- A reader that finds what it looks for hands it on to the readers behind it. -/
theorem read_next {α β : Type} {read : Option α} {x : α} (found : read = some x)
    (next : α → Option β) : (read >>= next) = next x := by
  rw [found]
  rfl

theorem number?_append (digits : ∀ c ∈ ds, c.isDigit = true) (nonempty : ds ≠ [])
    (short : ds.length ≤ width)
    (ends : ∀ c ∈ (rest.take (width - ds.length)).head?, c.isDigit = false) :
    number? width (ds ++ rest) = some (Digits.value ds, rest) := by
  have taken : ((ds ++ rest).take width).takeWhile Char.isDigit = ds := by
    rw [List.take_append, List.take_of_length_le short]
    exact congrArg Prod.fst (Digits.span_append digits ends)
  rw [number?]
  simp only [taken]
  rw [if_neg (by rwa [List.isEmpty_iff]), List.drop_left]

theorem fixed?_padded (positive : 0 < width) (within : n < 10 ^ width) (rest : List Char) :
    fixed? width (Digits.padded width n ++ rest) = some (n, rest) := by
  have length := Digits.length_padded positive within
  have digits : (Digits.padded width n).all Char.isDigit = true :=
    List.all_eq_true.mpr fun _ member => Digits.isDigit_padded member
  rw [fixed?]
  simp only [List.take_left' length, List.drop_left' length]
  rw [if_pos ⟨length, digits⟩, Digits.value_padded]

/-- A number of all digits that are read is taken whatever stands behind it. -/
theorem number?_padded (positive : 0 < width) (within : n < 10 ^ width) :
    number? width (Digits.padded width n ++ rest) = some (n, rest) := by
  have length := Digits.length_padded positive within
  have full : ∀ c ∈ (rest.take (width - (Digits.padded width n).length)).head?,
      c.isDigit = false := by
    rw [length, Nat.sub_self]
    rintro c ⟨⟩
  rw [number?_append (fun _ member => Digits.isDigit_padded member)
    (Digits.padded_ne_nil width n) (Nat.le_of_eq length) full, Digits.value_padded]

theorem field?_padded (within : n < 100) :
    field? (Digits.padded 2 n ++ rest) = some (n, rest) := by
  rw [field?, Digits.trimStart_append (fun _ member => Digits.isDigit_padded member)
    (Digits.padded_ne_nil 2 n), number?_padded (by decide) within]

theorem takeMark?_self (cs : List Char) : takeMark? ('T' :: cs) = some cs := rfl

@[simp] theorem expect?_self (c : Char) (cs : List Char) : expect? c (c :: cs) = some cs :=
  if_pos rfl

/-- The gap in front of a mark is empty, whether white space may stand there or not. -/
theorem gap_of_printed (loose : Bool) {c : Char} (printed : Text.isPrinted c = true)
    (cs : List Char) : (if loose then Text.trimStart (c :: cs) else c :: cs) = c :: cs := by
  have solid : Text.trimStart (c :: cs) = c :: cs :=
    Text.trimStart_of_head fun _ first => Option.some.inj first ▸ Text.isBlank_of_isPrinted printed
  rw [solid, ite_self]

theorem year?_plus (cs : List Char) :
    year? ('+' :: cs) = (number? cs.length cs).map fun (n, rest) => ((n : Int), rest) := rfl

theorem year?_minus (cs : List Char) :
    year? ('-' :: cs) = (number? cs.length cs).map fun (n, rest) => (-(n : Int), rest) := rfl

theorem year?_digits (digits : ∀ c ∈ ds, c.isDigit = true) (nonempty : ds ≠ []) :
    year? (ds ++ rest) = (number? 4 (ds ++ rest)).map fun (n, rest) => ((n : Int), rest) := by
  unfold year?
  rw [Digits.trimStart_append digits nonempty]
  obtain ⟨first, others, rfl⟩ := List.exists_cons_of_ne_nil nonempty
  have digit := digits first List.mem_cons_self
  split
  · next same =>
    cases same
    cases digit
  · next same =>
    cases same
    cases digit
  · rfl

theorem year?_yearText (year : Int) (rest : List Char) :
    year? (Date.yearText year ++ '-' :: rest) = some (year, '-' :: rest) := by
  have digits : ∀ c ∈ Digits.padded 4 year.natAbs, c.isDigit = true :=
    fun _ member => Digits.isDigit_padded member
  have nonempty := Digits.padded_ne_nil 4 year.natAbs
  unfold Date.yearText
  split
  · next small =>
    have within : year.natAbs < 10 ^ 4 := by omega
    have same : (year.natAbs : Int) = year := Int.natAbs_of_nonneg small.1
    rw [year?_digits digits nonempty, number?_padded (by decide) within]
    simp only [Option.map_some, same]
  · -- Behind a sign the number may be as long as the text, and only the hyphen ends it.
    have signed : number? (Digits.padded 4 year.natAbs ++ '-' :: rest).length
        (Digits.padded 4 year.natAbs ++ '-' :: rest) = some (year.natAbs, '-' :: rest) := by
      have ends : ∀ c ∈ (('-' :: rest).take ((Digits.padded 4 year.natAbs ++ '-' :: rest).length -
          (Digits.padded 4 year.natAbs).length)).head?, c.isDigit = false := by
        rw [List.length_append, Nat.add_sub_cancel_left]
        rintro c ⟨⟩
        rfl
      rw [number?_append digits nonempty (by simp) ends, Digits.value_padded]
    split
    · next negative =>
      have same : -(year.natAbs : Int) = year := by omega
      rw [List.cons_append, year?_minus, signed]
      simp only [Option.map_some, same]
    · next positive =>
      have same : (year.natAbs : Int) = year := by omega
      rw [List.cons_append, year?_plus, signed]
      simp only [Option.map_some, same]

theorem daysInMonth_le (year : Int) (month : Nat) : daysInMonth year month ≤ 31 := by
  unfold daysInMonth
  split
  · split <;> decide
  · split <;> decide

theorem ofYmd?_some (d : Date) : Date.ofYmd? d.year d.month d.day = some d :=
  dif_pos ⟨d.month_pos, d.month_le, d.day_pos, d.day_le⟩

theorem date_fields_lt (d : Date) : d.month < 100 ∧ d.day < 100 :=
  ⟨Nat.lt_of_le_of_lt d.month_le (by decide),
    Nat.lt_of_le_of_lt (Nat.le_trans d.day_le (daysInMonth_le d.year d.month)) (by decide)⟩

theorem takeDate?_text (loose : Bool) {d : Date} (supported : d.Supported) (rest : List Char) :
    takeDate? loose (d.text ++ rest) = some (d, rest) := by
  obtain ⟨month, day⟩ := date_fields_lt d
  have date : dateOf? d.year d.month d.day = some d := by
    exact (if_pos supported).trans (ofYmd?_some d)
  have hyphen : Text.isPrinted '-' = true := by decide
  simp only [takeDate?, Date.text, List.append_assoc, List.cons_append, Option.bind_eq_bind,
    year?_yearText, gap_of_printed loose hyphen, expect?_self, field?_padded month,
    field?_padded day, date, Option.bind_some]

theorem ofClock?_some {t : Time} (wellTimed : t.WellTimed) :
    Time.ofClock? (t.second / 3600) (t.second / 60 % 60)
      (t.second % 60 + t.nanosecond / Time.nanosPerSecond) (t.nanosecond % Time.nanosPerSecond) =
        some t := by
  obtain ⟨second, nanosecond, second_lt, nanosecond_lt⟩ := t
  have last : 1000000000 ≤ nanosecond → second % 60 = 59 :=
    fun leap => wellTimed (decide_eq_true leap)
  simp only [Time.nanosPerSecond]
  have clock : second / 3600 < 24 ∧ second / 60 % 60 < 60 ∧
      second % 60 + nanosecond / 1000000000 ≤ 60 ∧ nanosecond % 1000000000 < 1000000000 := by
    omega
  rw [Time.ofClock?, dif_pos clock]
  by_cases leap : 1000000000 ≤ nanosecond
  · have sixty : second % 60 + nanosecond / 1000000000 = 60 := by omega
    rw [dif_pos sixty]
    congr 2 <;> omega
  · have fewer : ¬ second % 60 + nanosecond / 1000000000 = 60 := by omega
    rw [dif_neg fewer]
    congr 2 <;> omega

theorem fraction?_padded (positive : 0 < width) (short : width ≤ 9) (within : n < 10 ^ width)
    (ends : ∀ c ∈ rest.head?, c.isDigit = false) :
    fraction? (Digits.padded width n ++ rest) = some (n * 10 ^ (9 - width), rest) := by
  have length := Digits.length_padded positive within
  have nonempty : ¬ (Digits.padded width n).isEmpty = true := by
    rw [List.isEmpty_iff]
    exact Digits.padded_ne_nil width n
  rw [fraction?, Digits.span_append (fun _ member => Digits.isDigit_padded member) ends]
  simp only
  rw [if_neg nonempty, List.take_of_length_le (by rwa [length]), length, Digits.value_padded]
  rfl

theorem optionalFraction?_fractionText {nano : Nat} (within : nano < 10 ^ 9)
    (ends : ∀ c ∈ rest.head?, c.isDigit = false ∧ c ≠ '.') :
    optionalFraction? (Time.fractionText nano ++ rest) = some (nano, rest) := by
  have noDigit : ∀ c ∈ rest.head?, c.isDigit = false := fun c first => (ends c first).1
  unfold Time.fractionText
  split
  · next none =>
    rw [List.nil_append, none]
    cases rest with
    | nil => rfl
    | cons c rest =>
      unfold optionalFraction?
      split
      · next same =>
        cases same
        exact absurd rfl (ends '.' rfl).2
      · rfl
  · split
    · next millis =>
      have same : nano / 1000000 * 10 ^ (9 - 3) = nano := by omega
      rw [List.cons_append, optionalFraction?,
        fraction?_padded (by decide) (by decide) (by omega) noDigit, same]
    · split
      · next micros =>
        have same : nano / 1000 * 10 ^ (9 - 6) = nano := by omega
        rw [List.cons_append, optionalFraction?,
          fraction?_padded (by decide) (by decide) (by omega) noDigit, same]
      · have same : nano * 10 ^ (9 - 9) = nano := by omega
        rw [List.cons_append, optionalFraction?,
          fraction?_padded (by decide) (by decide) within noDigit, same]

/-- The fields of a time of day fit the two digits they are written with. -/
theorem time_fields_lt (t : Time) : t.second / 3600 < 100 ∧ t.second / 60 % 60 < 100 ∧
    t.second % 60 + t.nanosecond / Time.nanosPerSecond < 100 ∧
      t.nanosecond % Time.nanosPerSecond < 10 ^ 9 := by
  have second := t.second_lt
  have nanosecond := t.nanosecond_lt
  simp only [Time.nanosPerSecond]
  omega

theorem takeTime?_text (loose : Bool) {t : Time} (wellTimed : t.WellTimed) (rest : List Char)
    (ends : ∀ c ∈ rest.head?, c.isDigit = false ∧ c ≠ '.') :
    takeTime? loose (t.text ++ rest) = some (t, rest) := by
  obtain ⟨hour, minute, second, nano⟩ := time_fields_lt t
  have colon : Text.isPrinted ':' = true := by decide
  simp only [takeTime?, Time.text, List.append_assoc, List.cons_append, Option.bind_eq_bind,
    field?_padded hour, gap_of_printed loose colon, expect?_self, field?_padded minute,
    field?_padded second, optionalFraction?_fractionText nano ends, ofClock?_some wellTimed,
    Option.bind_some]

theorem readDate?_text {d : Date} (supported : d.Supported) : readDate? d.text = some d := by
  have taken := takeDate?_text true supported []
  rw [List.append_nil] at taken
  rw [readDate?, taken]
  rfl

theorem takeTime?_whole {t : Time} (wellTimed : t.WellTimed) :
    (takeTime? true t.text).bind complete? = some t := by
  have taken := takeTime?_text true wellTimed [] fun _ none => by cases none
  rw [List.append_nil] at taken
  rw [taken]
  rfl

theorem readTime?_text {t : Time} (wellTimed : t.WellTimed) : readTime? t.text = some t := by
  rw [readTime?, takeTime?_whole wellTimed]
  rfl

theorem readLocal?_text {x : LocalDateTime} (supported : x.date.Supported)
    (wellTimed : x.time.WellTimed) : readLocal? x.text = some x := by
  have mark : Text.trimStart ('T' :: x.time.text) = 'T' :: x.time.text := by
    have gap := gap_of_printed true (by decide : Text.isPrinted 'T' = true) x.time.text
    rwa [if_pos rfl] at gap
  have marked : readMarked? x.text = some x := by
    simp only [readMarked?, LocalDateTime.text, takeDate?_text true supported, mark, expect?_self,
      takeTime?_whole wellTimed, Option.bind_eq_bind, Option.bind_some]
  rw [readLocal?, marked]
  rfl

theorem ofSeconds?_some (offset : Offset) : Offset.ofSeconds? offset.seconds = some offset :=
  dif_pos ⟨offset.gt, offset.lt⟩

theorem offsetFields?_text {offset : Offset} (wholeMinutes : offset.WholeMinutes) (negative : Bool)
    (sign : offset.seconds =
      if negative then -(offset.seconds.natAbs : Int) else offset.seconds.natAbs) :
    offsetFields? negative (Digits.padded 2 (offset.seconds.natAbs / 3600) ++
      ':' :: Digits.padded 2 (offset.seconds.natAbs / 60 % 60)) = some offset := by
  have whole : offset.seconds % 60 = 0 := wholeMinutes
  have below := offset.lt
  have above := offset.gt
  have hour : offset.seconds.natAbs / 3600 < 10 ^ 2 := by omega
  have minute : offset.seconds.natAbs / 60 % 60 < 10 ^ 2 := by omega
  have sixty : offset.seconds.natAbs / 60 % 60 < 60 := Nat.mod_lt _ (by decide)
  have minutes : fixed? 2 (Digits.padded 2 (offset.seconds.natAbs / 60 % 60)) =
      some (offset.seconds.natAbs / 60 % 60, []) := by
    rw [← fixed?_padded (by decide) minute [], List.append_nil]
  have total : ((offset.seconds.natAbs / 3600 : Nat) : Int) * 3600 +
      ((offset.seconds.natAbs / 60 % 60 : Nat) : Int) * 60 = offset.seconds.natAbs := by omega
  rw [offsetFields?]
  simp only [fixed?_padded (by decide : 0 < 2) hour, expect?_self, minutes, Option.bind_eq_bind,
    Option.bind_some, total, ← sign, ofSeconds?_some]
  exact if_pos ⟨rfl, sixty⟩

theorem offset?_text {offset : Offset} (wholeMinutes : offset.WholeMinutes) :
    offset? offset.text = some offset := by
  have whole : offset.seconds % 60 = 0 := wholeMinutes
  have noSeconds : offset.seconds.natAbs % 60 = 0 := by omega
  unfold Offset.text
  split
  · next zero =>
    have same : Offset.zero = offset := (Offset.mk.injEq ..).mpr zero.symm
    rw [← same]
    rfl
  · simp only [if_pos noSeconds, List.append_nil, List.cons_append]
    split
    · next negative =>
      exact offsetFields?_text wholeMinutes true (by rw [if_pos rfl]; omega)
    · next positive =>
      exact offsetFields?_text wholeMinutes false (by rw [if_neg (by decide)]; omega)

/-- An offset goes on neither the digits nor the fraction of the seconds before it. -/
theorem head?_offset_text (offset : Offset) :
    ∀ c ∈ offset.text.head?, c.isDigit = false ∧ c ≠ '.' := by
  unfold Offset.text
  split
  · rintro c ⟨⟩
    decide
  · split <;> (rintro c ⟨⟩; decide)

theorem readRfc3339?_text {x : OffsetDateTime} (fourDigit : x.clock.date.FourDigitYear)
    (wellTimed : x.clock.time.WellTimed) (wholeMinutes : x.offset.WholeMinutes) :
    readRfc3339? x.text = some x := by
  obtain ⟨⟨date, time⟩, offset⟩ := x
  have yearText : Date.yearText date.year = Digits.padded 4 date.year.natAbs := if_pos fourDigit
  have bounds : 0 ≤ date.year ∧ date.year ≤ 9999 := fourDigit
  have year : date.year.natAbs < 10 ^ 4 := by omega
  have sameYear : (date.year.natAbs : Int) = date.year := Int.natAbs_of_nonneg bounds.1
  obtain ⟨month, day⟩ := date_fields_lt date
  obtain ⟨hour, minute, second, nano⟩ := time_fields_lt time
  rw [readRfc3339?]
  simp only [OffsetDateTime.text, LocalDateTime.text, Date.text, Time.text, yearText,
    List.append_assoc, List.cons_append]
  -- One step for each part of the text, in the order of the parts.
  refine (read_next (fixed?_padded (by decide) year _) _).trans ?_
  refine (read_next (expect?_self '-' _) _).trans ?_
  refine (read_next (fixed?_padded (by decide) month _) _).trans ?_
  refine (read_next (expect?_self '-' _) _).trans ?_
  refine (read_next (fixed?_padded (by decide) day _) _).trans ?_
  refine (read_next (takeMark?_self _) _).trans ?_
  refine (read_next (fixed?_padded (by decide) hour _) _).trans ?_
  refine (read_next (expect?_self ':' _) _).trans ?_
  refine (read_next (fixed?_padded (by decide) minute _) _).trans ?_
  refine (read_next (expect?_self ':' _) _).trans ?_
  refine (read_next (fixed?_padded (by decide) second _) _).trans ?_
  refine (read_next (optionalFraction?_fractionText nano (head?_offset_text offset)) _).trans ?_
  refine (read_next (offset?_text wholeMinutes) _).trans ?_
  dsimp only
  rw [sameYear]
  refine (read_next (ofYmd?_some date) _).trans ?_
  exact read_next (ofClock?_some wellTimed) _

end Calendar

theorem Date.all_text (d : Date) : d.text.all Text.isPrinted = true := by
  have year : (yearText d.year).all Text.isPrinted = true := by
    unfold yearText
    split
    · exact Digits.all_padded 4 _
    · rw [List.all_cons, Digits.all_padded]
      split <;> decide
  have hyphen : Text.isPrinted '-' = true := by decide
  simp only [text, List.all_append, List.all_cons, year, hyphen, Digits.all_padded, Bool.and_self]

theorem Time.all_text (t : Time) : t.text.all Text.isPrinted = true := by
  have colon : Text.isPrinted ':' = true := by decide
  have point : Text.isPrinted '.' = true := by decide
  have fraction (nano : Nat) : (fractionText nano).all Text.isPrinted = true := by
    unfold fractionText
    split
    · rfl
    · split
      · rw [List.all_cons, point, Digits.all_padded]
        rfl
      · split <;> rw [List.all_cons, point, Digits.all_padded] <;> rfl
  simp only [text, List.all_append, List.all_cons, colon, fraction, Digits.all_padded,
    Bool.and_self]

theorem LocalDateTime.all_text (x : LocalDateTime) : x.text.all Text.isPrinted = true := by
  rw [text, List.all_append, List.all_cons, x.date.all_text, x.time.all_text]
  decide

theorem Offset.all_text (offset : Offset) : offset.text.all Text.isPrinted = true := by
  have colon : Text.isPrinted ':' = true := by decide
  unfold text
  split
  · decide
  · have sign : Text.isPrinted (if offset.seconds < 0 then '-' else '+') = true := by
      split <;> decide
    simp only [List.all_append, List.all_cons, sign, colon, Digits.all_padded, Bool.and_self]
    split
    · rfl
    · rw [List.all_cons, colon, Digits.all_padded]
      rfl

theorem OffsetDateTime.all_text (x : OffsetDateTime) : x.text.all Text.isPrinted = true := by
  rw [text, List.all_append, x.clock.all_text, x.offset.all_text]
  rfl

theorem LocalDateTime.shift_zero (x : LocalDateTime) : x.shift 0 = x := by
  obtain ⟨date, ⟨second, nanosecond, second_lt, nanosecond_lt⟩⟩ := x
  have early : ¬ (second : Int) + 0 < 0 := by omega
  have late : ¬ 86400 ≤ (second : Int) + 0 := by omega
  have same : (((second : Int) + 0) % 86400).toNat = second := by omega
  simp only [shift, if_neg early, if_neg late, same]

namespace Instant

/-- The instant on the clocks at UTC. -/
def atUtc (i : Instant) : OffsetDateTime := ⟨i.utc, .zero⟩

theorem text_eq (i : Instant) : i.text = i.atUtc.text := rfl

theorem instant_atUtc (i : Instant) : i.atUtc.instant = i := by
  have same : i.utc.shift (-Offset.zero.seconds) = i.utc := i.utc.shift_zero
  rw [OffsetDateTime.instant, atUtc, same]

end Instant

end RequestFilter
