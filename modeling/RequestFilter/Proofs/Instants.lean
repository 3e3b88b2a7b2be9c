import Mathlib.Algebra.Order.Group.Int
import RequestFilter.Calendar.DateTime

namespace RequestFilter

namespace Calendar

def daysInYear (year : Int) : Nat := if isLeap year then 366 else 365

theorem daysBefore_succ (year : Int) {month : Nat} (positive : 1 ≤ month) :
    daysBefore year (month + 1) = daysBefore year month + daysInMonth year month := by
  obtain ⟨earlier, rfl⟩ := Nat.exists_eq_add_of_le' positive
  simp [daysBefore, List.range_succ]

theorem daysBefore_thirteen (year : Int) : daysBefore year 13 = daysInYear year := by
  simp only [daysBefore, daysInYear, daysInMonth, List.range, List.range.loop]
  cases isLeap year <;> rfl

/-- The days of a month come before all later months. -/
theorem daysBefore_later (year : Int) {month later : Nat} (positive : 1 ≤ month)
    (before : month < later) :
    daysBefore year month + daysInMonth year month ≤ daysBefore year later := by
  induction later, before using Nat.le_induction with
  | base => exact (daysBefore_succ year positive).ge
  | succ later before ih =>
    rw [daysBefore_succ year (by omega)]
    omega

end Calendar

namespace Date

open Calendar

theorem daysBeforeYear_succ (year : Int) :
    daysBeforeYear (year + 1) = daysBeforeYear year + daysInYear year := by
  unfold daysBeforeYear daysInYear
  cases leap : isLeap year with
  | true =>
    simp only [isLeap, Bool.and_eq_true, Bool.or_eq_true, beq_iff_eq, bne_iff_ne] at leap
    simp only [if_true]
    omega
  | false =>
    simp only [isLeap, Bool.and_eq_false_iff, Bool.or_eq_false_iff, beq_eq_false_iff_ne,
      bne_eq_false_iff_eq] at leap
    simp only [Bool.false_eq_true, if_false]
    omega

theorem daysBeforeYear_mono {year later : Int} (before : year ≤ later) :
    daysBeforeYear year ≤ daysBeforeYear later := by
  induction later, before using Int.leInduction with
  | base => exact le_rfl
  | succ later before ih =>
    rw [daysBeforeYear_succ]
    omega

theorem daysBeforeYear_lt_dayNumber (d : Date) : daysBeforeYear d.year < d.dayNumber := by
  have positive := d.day_pos
  unfold dayNumber
  omega

theorem dayNumber_le_daysBeforeYear (d : Date) : d.dayNumber ≤ daysBeforeYear (d.year + 1) := by
  have within := d.day_le
  have last := daysBefore_later d.year d.month_pos (Nat.lt_succ_of_le d.month_le)
  rw [daysBefore_thirteen] at last
  rw [daysBeforeYear_succ]
  unfold dayNumber
  omega

theorem dayNumber_lt_of_year {x y : Date} (earlier : x.year < y.year) : x.dayNumber < y.dayNumber :=
  calc
    x.dayNumber ≤ daysBeforeYear (x.year + 1) := x.dayNumber_le_daysBeforeYear
    _ ≤ daysBeforeYear y.year := daysBeforeYear_mono earlier
    _ < y.dayNumber := y.daysBeforeYear_lt_dayNumber

theorem dayNumber_lt_of_month {x y : Date} (year : x.year = y.year) (earlier : x.month < y.month) :
    x.dayNumber < y.dayNumber := by
  have before := daysBefore_later x.year x.month_pos earlier
  have within := x.day_le
  have positive := y.day_pos
  unfold dayNumber
  rw [← year]
  omega

theorem dayNumber_injective {x y : Date} (same : x.dayNumber = y.dayNumber) : x = y := by
  have year : x.year = y.year := by
    rcases lt_trichotomy x.year y.year with earlier | year | later
    · exact absurd same (dayNumber_lt_of_year earlier).ne
    · exact year
    · exact absurd same (dayNumber_lt_of_year later).ne'
  have month : x.month = y.month := by
    rcases lt_trichotomy x.month y.month with earlier | month | later
    · exact absurd same (dayNumber_lt_of_month year earlier).ne
    · exact month
    · exact absurd same (dayNumber_lt_of_month year.symm later).ne'
  obtain ⟨_, _, _⟩ := x
  obtain ⟨_, _, _⟩ := y
  cases year
  cases month
  simp only [dayNumber] at same
  congr
  omega

theorem dayNumber_firstOf (year : Int) {month : Nat} (positive : 1 ≤ month) (within : month ≤ 12) :
    (firstOf year month positive within).dayNumber =
      daysBeforeYear year + daysBefore year month + 1 := rfl

theorem dayNumber_lastOf (year : Int) {month : Nat} (positive : 1 ≤ month) (within : month ≤ 12) :
    (lastOf year month positive within).dayNumber =
      daysBeforeYear year + daysBefore year (month + 1) := by
  rw [daysBefore_succ year positive]
  simp only [dayNumber, lastOf]
  omega

theorem dayNumber_next (d : Date) : d.next.dayNumber = d.dayNumber + 1 := by
  have within := d.day_le
  unfold next
  split
  · simp only [dayNumber]
    omega
  · rename_i last
    have month := daysBefore_succ d.year d.month_pos
    split
    · rw [dayNumber_firstOf]
      unfold dayNumber
      omega
    · rename_i december
      have twelve : d.month = 12 := by have := d.month_le; omega
      rw [twelve, daysBefore_thirteen] at month
      rw [dayNumber_firstOf, daysBeforeYear_succ]
      unfold dayNumber
      rw [twelve] at last within ⊢
      have first : daysBefore (d.year + 1) 1 = 0 := rfl
      omega

theorem dayNumber_previous (d : Date) : d.previous.dayNumber = d.dayNumber - 1 := by
  have positive := d.day_pos
  unfold previous
  split
  · simp only [dayNumber]
    omega
  · rename_i first
    split
    · rename_i later
      rw [dayNumber_lastOf, Nat.sub_add_cancel (Nat.le_of_lt later)]
      unfold dayNumber
      omega
    · rename_i january
      have one : d.month = 1 := by have := d.month_pos; omega
      have year := daysBeforeYear_succ (d.year - 1)
      rw [sub_add_cancel] at year
      rw [dayNumber_lastOf, daysBefore_thirteen]
      unfold dayNumber
      rw [one]
      have none : daysBefore d.year 1 = 0 := rfl
      omega

end Date

namespace LocalDateTime

theorem epochSecond_shift (x : LocalDateTime) {seconds : Int} (back : -86400 < seconds)
    (forward : seconds < 86400) : (x.shift seconds).epochSecond = x.epochSecond + seconds := by
  have within := x.time.second_lt
  unfold shift epochSecond
  dsimp only
  split
  · rw [Date.dayNumber_previous]
    omega
  · split
    · rw [Date.dayNumber_next]
      omega
    · omega

theorem eq_of_epochSecond {x y : LocalDateTime} (second : x.epochSecond = y.epochSecond)
    (nanosecond : x.time.nanosecond = y.time.nanosecond) : x = y := by
  have within := x.time.second_lt
  have within' := y.time.second_lt
  have parts : x.date.dayNumber = y.date.dayNumber ∧ x.time.second = y.time.second := by
    unfold epochSecond at second
    omega
  obtain ⟨date, time⟩ := x
  obtain ⟨date', time'⟩ := y
  have date : date = date' := Date.dayNumber_injective parts.1
  have time : time = time' := by
    obtain ⟨_, _⟩ := time
    obtain ⟨_, _⟩ := time'
    cases parts.2
    cases nanosecond
    rfl
  rw [date, time]

end LocalDateTime

namespace OffsetDateTime

variable {x y : OffsetDateTime}

/-- The seconds of the local clock less the offset, and the fraction; in a leap second the fraction
is one second or more. -/
def moment (x : OffsetDateTime) : Int × Nat :=
  (x.clock.epochSecond - x.offset.seconds, x.clock.time.nanosecond)

theorem moment_instant (x : OffsetDateTime) :
    (x.instant.utc.epochSecond, x.instant.utc.time.nanosecond) = x.moment := by
  have gt := x.offset.gt
  have lt := x.offset.lt
  have second : x.instant.utc.epochSecond = x.clock.epochSecond + -x.offset.seconds :=
    x.clock.epochSecond_shift (by omega) (by omega)
  rw [second]
  rfl

theorem instant_eq_iff : x.instant = y.instant ↔ x.moment = y.moment := by
  constructor
  · intro same
    rw [← moment_instant, ← moment_instant, same]
  · intro same
    rw [← moment_instant, ← moment_instant] at same
    obtain ⟨second, nanosecond⟩ := Prod.mk.inj same
    exact congrArg Instant.mk (LocalDateTime.eq_of_epochSecond second nanosecond)

end OffsetDateTime

end RequestFilter
