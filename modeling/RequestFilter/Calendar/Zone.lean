import RequestFilter.Calendar.Rfc3339

/-!
The clocks of a place go from one offset to another at transitions. A local date-time that they
skipped has no offset; of two instants that show the same local date-time, the earlier one counts.
-/

namespace RequestFilter

structure Zone where
  offsetAt : Instant → Offset

abbrev ZoneTable := List Char → Option Zone

namespace LocalDateTime

def dayBefore (x : LocalDateTime) : LocalDateTime := ⟨x.date.previous, x.time⟩
def dayAfter (x : LocalDateTime) : LocalDateTime := ⟨x.date.next, x.time⟩

def notAfter (x y : LocalDateTime) : Bool := x.epochSecond ≤ y.epochSecond

end LocalDateTime

namespace Zone

def ofInstant (zone : Zone) (i : Instant) : OffsetDateTime :=
  OffsetDateTime.ofInstant i (zone.offsetAt i)

def shows (zone : Zone) (x : OffsetDateTime) : Bool := zone.offsetAt x.instant == x.offset

/-- The first instant at which the clocks show `clock`. No offset reaches a day, so the offset is
the one in force a day earlier or, behind a transition, the one in force a day later. -/
def ofLocal? (zone : Zone) (clock : LocalDateTime) : Option OffsetDateTime :=
  let before : OffsetDateTime := ⟨clock, zone.offsetAt ⟨clock.dayBefore⟩⟩
  let after : OffsetDateTime := ⟨clock, zone.offsetAt ⟨clock.dayAfter⟩⟩
  if zone.shows before then some before
  else if zone.shows after then some after
  else none

def isSupported (x : OffsetDateTime) : Bool :=
  Calendar.firstYear ≤ x.instant.utc.date.year && x.instant.utc.date.year ≤ Calendar.lastYear

def resolve? (zone : Zone) (clock : LocalDateTime) : Option OffsetDateTime :=
  (zone.ofLocal? clock).filter isSupported

def fixed (offset : Offset) : Zone := ⟨fun _ => offset⟩

/-- Follows `zone` up to an instant, and `next` from there on. -/
def replacedAt (zone : Zone) (change : Instant) (next : Zone) : Zone :=
  ⟨fun i => if change.utc.notAfter i.utc then next.offsetAt i else zone.offsetAt i⟩

end Zone

inductive SundayRule where
  | nth (n : Nat)
  | last

namespace SundayRule

def day (rule : SundayRule) (first : Date) : Nat :=
  let sunday := 1 + (7 - first.weekday) % 7
  match rule with
  | .nth n => sunday + 7 * (n - 1)
  | .last => sunday + 7 * ((Calendar.daysInMonth first.year first.month - sunday) / 7)

end SundayRule

structure ClockChange where
  month : Nat
  sunday : SundayRule
  hour : Nat
  month_pos : 1 ≤ month := by decide
  month_le : month ≤ 12 := by decide

namespace ClockChange

def epochSecond (change : ClockChange) (year : Int) : Int :=
  let first := Date.firstOf year change.month change.month_pos change.month_le
  (first.dayNumber + change.sunday.day first - 1) * 86400 + change.hour * 3600

def isReached (change : ClockChange) (year : Int) (clock : LocalDateTime) : Bool :=
  change.epochSecond year ≤ clock.epochSecond

end ClockChange

structure SummerTime where
  winter : Offset
  summer : Offset
  starts : ClockChange
  ends : ClockChange

namespace SummerTime

/-- Whether summer time is in force, by the two changes of the year that clocks without it show. It
lasts over the turn of the year where it ends in an earlier month than it starts. -/
def inForce (rule : SummerTime) (i : Instant) : Bool :=
  let clock := i.localAt rule.winter
  let started := rule.starts.isReached clock.date.year clock
  let ended := rule.ends.isReached clock.date.year (i.localAt rule.summer)
  if rule.starts.month < rule.ends.month then started && !ended else started || !ended

def zone (rule : SummerTime) : Zone :=
  ⟨fun i => if rule.inForce i then rule.summer else rule.winter⟩

end SummerTime

end RequestFilter
