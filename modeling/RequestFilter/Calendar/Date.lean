import RequestFilter.Number.Digits

/-!
Year 0 is the year before year 1, and the rule for leap years holds in all years.
-/

namespace RequestFilter

namespace Calendar

def isLeap (year : Int) : Bool := year % 4 == 0 && (year % 100 != 0 || year % 400 == 0)

def daysInMonth (year : Int) (month : Nat) : Nat :=
  if month = 2 then if isLeap year then 29 else 28
  else if month = 4 ∨ month = 6 ∨ month = 9 ∨ month = 11 then 30
  else 31

def daysBefore (year : Int) (month : Nat) : Nat :=
  (List.range (month - 1)).foldl (fun days m => days + daysInMonth year (m + 1)) 0

end Calendar

structure Date where
  year : Int
  month : Nat
  day : Nat
  month_pos : 1 ≤ month
  month_le : month ≤ 12
  day_pos : 1 ≤ day
  day_le : day ≤ Calendar.daysInMonth year month
  deriving DecidableEq

namespace Date

open Calendar

def ofYmd? (year : Int) (month day : Nat) : Option Date :=
  if h : 1 ≤ month ∧ month ≤ 12 ∧ 1 ≤ day ∧ day ≤ daysInMonth year month then
    some ⟨year, month, day, h.1, h.2.1, h.2.2.1, h.2.2.2⟩
  else none

theorem daysInMonth_pos (year : Int) (month : Nat) : 1 ≤ daysInMonth year month := by
  unfold daysInMonth; split
  · split <;> decide
  · split <;> decide

def firstOf (year : Int) (month : Nat) (h : 1 ≤ month) (h' : month ≤ 12) : Date :=
  ⟨year, month, 1, h, h', Nat.le_refl 1, daysInMonth_pos year month⟩

def lastOf (year : Int) (month : Nat) (h : 1 ≤ month) (h' : month ≤ 12) : Date :=
  ⟨year, month, daysInMonth year month, h, h', daysInMonth_pos year month, Nat.le_refl _⟩

def next (d : Date) : Date :=
  if h : d.day < daysInMonth d.year d.month then
    ⟨d.year, d.month, d.day + 1, d.month_pos, d.month_le, Nat.le_add_left 1 d.day, h⟩
  else if h : d.month < 12 then
    firstOf d.year (d.month + 1) (Nat.le_add_left 1 d.month) h
  else firstOf (d.year + 1) 1 (by decide) (by decide)

def previous (d : Date) : Date :=
  if h : 1 < d.day then
    ⟨d.year, d.month, d.day - 1, d.month_pos, d.month_le, Nat.le_sub_one_of_lt h,
      Nat.le_trans (Nat.sub_le d.day 1) d.day_le⟩
  else if h : 1 < d.month then
    lastOf d.year (d.month - 1) (Nat.le_sub_one_of_lt h) (Nat.le_trans (Nat.sub_le d.month 1) d.month_le)
  else lastOf (d.year - 1) 12 (by decide) (by decide)

/-- The number of days from the last day of year 0 to the first day of a year, not counting it. -/
def daysBeforeYear (year : Int) : Int :=
  365 * (year - 1) + (year - 1) / 4 - (year - 1) / 100 + (year - 1) / 400

def dayNumber (d : Date) : Int := daysBeforeYear d.year + daysBefore d.year d.month + d.day

def weekday (d : Date) : Nat := (d.dayNumber % 7).toNat

/-- A year: four digits, or a sign and at least four digits for years outside 0 to 9999. -/
def yearText (year : Int) : List Char :=
  if 0 ≤ year ∧ year ≤ 9999 then Digits.padded 4 year.natAbs
  else (if year < 0 then '-' else '+') :: Digits.padded 4 year.natAbs

def text (d : Date) : List Char :=
  yearText d.year ++ '-' :: Digits.padded 2 d.month ++ '-' :: Digits.padded 2 d.day

end Date

end RequestFilter
