import RequestFilter.Number.Digits

/-!
A leap second is the second before it with a fraction of one second or more, so it is told apart
from both of its neighbours and counts as second 60 in texts.
-/

namespace RequestFilter

structure Time where
  second : Nat
  nanosecond : Nat
  second_lt : second < 86400
  nanosecond_lt : nanosecond < 2000000000
  deriving DecidableEq

namespace Time

def nanosPerSecond : Nat := 1000000000

/-- Reads the parts of a clock; second 60 is a leap second behind any minute. -/
def ofClock? (hour minute second nano : Nat) : Option Time :=
  if h : hour < 24 ∧ minute < 60 ∧ second ≤ 60 ∧ nano < 1000000000 then
    if leap : second = 60 then
      some ⟨hour * 3600 + minute * 60 + 59, nano + 1000000000, by omega, by omega⟩
    else
      some ⟨hour * 3600 + minute * 60 + second, nano, by omega, by omega⟩
  else none

def midnight : Time := ⟨0, 0, by decide, by decide⟩

def isLeapSecond (t : Time) : Bool := 1000000000 ≤ t.nanosecond

/-- The fraction of a second: nothing, or the shortest of 3, 6 or 9 digits that is exact. -/
def fractionText (nano : Nat) : List Char :=
  if nano = 0 then []
  else if nano % 1000000 = 0 then '.' :: Digits.padded 3 (nano / 1000000)
  else if nano % 1000 = 0 then '.' :: Digits.padded 6 (nano / 1000)
  else '.' :: Digits.padded 9 nano

def text (t : Time) : List Char :=
  let second := t.second % 60 + t.nanosecond / nanosPerSecond
  Digits.padded 2 (t.second / 3600) ++ ':' :: Digits.padded 2 (t.second / 60 % 60) ++
    ':' :: Digits.padded 2 second ++ fractionText (t.nanosecond % nanosPerSecond)

end Time

end RequestFilter
