import RequestFilter.Calendar.Reader

/-!
The profile of RFC 3339 has fixed widths, no white space, and always an offset.
-/

namespace RequestFilter.Calendar

def fixed? (width : Nat) (cs : List Char) : Option (Nat × List Char) :=
  let digits := cs.take width
  if digits.length = width ∧ digits.all Char.isDigit then
    some (Digits.value digits, cs.drop width)
  else none

def isTimeMark (c : Char) : Bool := c == 'T' || c == 't' || c == ' '

def isMinus (c : Char) : Bool := c == '-' || c == '−'

def offsetFields? (negative : Bool) (cs : List Char) : Option Offset := do
  let (hour, cs) ← fixed? 2 cs
  let cs ← expect? ':' cs
  let (minute, cs) ← fixed? 2 cs
  let seconds : Int := hour * 3600 + minute * 60
  if cs.isEmpty ∧ minute < 60 then
    Offset.ofSeconds? (if negative then -seconds else seconds)
  else none

def offset? : List Char → Option Offset
  | [] => none
  | c :: cs =>
    if c = 'Z' ∨ c = 'z' then if cs.isEmpty then some Offset.zero else none
    else if c = '+' then offsetFields? false cs
    else if isMinus c then offsetFields? true cs
    else none

def takeMark? : List Char → Option (List Char)
  | [] => none
  | c :: cs => if isTimeMark c then some cs else none

def readRfc3339? (cs : List Char) : Option OffsetDateTime := do
  let (year, cs) ← fixed? 4 cs
  let cs ← expect? '-' cs
  let (month, cs) ← fixed? 2 cs
  let cs ← expect? '-' cs
  let (day, cs) ← fixed? 2 cs
  let cs ← takeMark? cs
  let (hour, cs) ← fixed? 2 cs
  let cs ← expect? ':' cs
  let (minute, cs) ← fixed? 2 cs
  let cs ← expect? ':' cs
  let (second, cs) ← fixed? 2 cs
  let (nano, cs) ← optionalFraction? cs
  let offset ← offset? cs
  let date ← Date.ofYmd? year month day
  let time ← Time.ofClock? hour minute second nano
  some ⟨⟨date, time⟩, offset⟩

end RequestFilter.Calendar
