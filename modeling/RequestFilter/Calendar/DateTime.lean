import RequestFilter.Calendar.Date
import RequestFilter.Calendar.Time

/-!
Two date-times with an offset show the same instant exactly when their UTC forms are equal.
-/

namespace RequestFilter

structure LocalDateTime where
  date : Date
  time : Time
  deriving DecidableEq

namespace LocalDateTime

/-- Sets the clock forward by less than a day, or back. A leap second stays one. -/
def shift (x : LocalDateTime) (seconds : Int) : LocalDateTime :=
  let total := (x.time.second : Int) + seconds
  let date := if total < 0 then x.date.previous else if 86400 ≤ total then x.date.next else x.date
  ⟨date, (total % 86400).toNat, x.time.nanosecond, by omega, x.time.nanosecond_lt⟩

/-- The whole seconds since the end of the year before year 1; a leap second counts as the second
before it. -/
def epochSecond (x : LocalDateTime) : Int := x.date.dayNumber * 86400 + x.time.second

def text (x : LocalDateTime) : List Char := x.date.text ++ 'T' :: x.time.text

end LocalDateTime

structure Offset where
  seconds : Int
  gt : -86400 < seconds
  lt : seconds < 86400
  deriving DecidableEq

namespace Offset

def ofSeconds? (seconds : Int) : Option Offset :=
  if h : -86400 < seconds ∧ seconds < 86400 then some ⟨seconds, h.1, h.2⟩ else none

def zero : Offset := ⟨0, by decide, by decide⟩

/-- `Z`, or a sign, hours and minutes; seconds only where there are some. -/
def text (offset : Offset) : List Char :=
  if offset.seconds = 0 then ['Z']
  else
    let n := offset.seconds.natAbs
    (if offset.seconds < 0 then '-' else '+') :: Digits.padded 2 (n / 3600) ++
      ':' :: Digits.padded 2 (n / 60 % 60) ++
        (if n % 60 = 0 then [] else ':' :: Digits.padded 2 (n % 60))

end Offset

structure Instant where
  utc : LocalDateTime
  deriving DecidableEq

namespace Instant

def localAt (i : Instant) (offset : Offset) : LocalDateTime := i.utc.shift offset.seconds

def text (i : Instant) : List Char := i.utc.text ++ ['Z']

end Instant

structure OffsetDateTime where
  clock : LocalDateTime
  offset : Offset
  deriving DecidableEq

namespace OffsetDateTime

def instant (x : OffsetDateTime) : Instant := ⟨x.clock.shift (-x.offset.seconds)⟩

def ofInstant (i : Instant) (offset : Offset) : OffsetDateTime := ⟨i.localAt offset, offset⟩

def text (x : OffsetDateTime) : List Char := x.clock.text ++ x.offset.text

end OffsetDateTime

end RequestFilter
