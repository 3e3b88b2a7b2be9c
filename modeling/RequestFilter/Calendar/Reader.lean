import RequestFilter.Calendar.DateTime
import RequestFilter.Text.Blank

/-!
Every step takes what it reads from the front of the text and returns the rest; white space may
stand before every number. A value is read when nothing is left.
-/

namespace RequestFilter.Calendar

open Text

def number? (width : Nat) (cs : List Char) : Option (Nat × List Char) :=
  let digits := (cs.take width).takeWhile Char.isDigit
  if digits.isEmpty then none else some (Digits.value digits, cs.drop digits.length)

def field? (cs : List Char) : Option (Nat × List Char) := number? 2 (trimStart cs)

def expect? (c : Char) : List Char → Option (List Char)
  | [] => none
  | c' :: cs => if c' = c then some cs else none

/-- A year of at most four digits, or of any number of digits behind a sign. -/
def year? (cs : List Char) : Option (Int × List Char) :=
  match trimStart cs with
  | '+' :: cs => (number? cs.length cs).map fun (n, rest) => ((n : Int), rest)
  | '-' :: cs => (number? cs.length cs).map fun (n, rest) => (-(n : Int), rest)
  | cs => (number? 4 cs).map fun (n, rest) => ((n : Int), rest)

def firstYear : Int := -262143
def lastYear : Int := 262142

def dateOf? (year : Int) (month day : Nat) : Option Date :=
  if firstYear ≤ year ∧ year ≤ lastYear then Date.ofYmd? year month day else none

/-- The digits behind a decimal point: nanoseconds by the first nine, and the rest without them. -/
def fraction? (cs : List Char) : Option (Nat × List Char) :=
  let (digits, rest) := Digits.span cs
  if digits.isEmpty then none
  else
    let kept := digits.take 9
    some (Digits.value kept * Nat.pow 10 (9 - kept.length), rest)

def optionalFraction? : List Char → Option (Nat × List Char)
  | '.' :: cs => fraction? cs
  | cs => some (0, cs)

def takeDate? (loose : Bool) (cs : List Char) : Option (Date × List Char) := do
  let gap := fun cs => if loose then trimStart cs else cs
  let (year, cs) ← year? cs
  let cs ← expect? '-' (gap cs)
  let (month, cs) ← field? cs
  let cs ← expect? '-' (gap cs)
  let (day, cs) ← field? cs
  let date ← dateOf? year month day
  some (date, cs)

def takeTime? (loose : Bool) (cs : List Char) : Option (Time × List Char) := do
  let gap := fun cs => if loose then trimStart cs else cs
  let (hour, cs) ← field? cs
  let cs ← expect? ':' (gap cs)
  let (minute, cs) ← field? cs
  let cs ← expect? ':' (gap cs)
  let (second, cs) ← field? cs
  let (nano, cs) ← optionalFraction? cs
  let time ← Time.ofClock? hour minute second nano
  some (time, cs)

def takeMinutes? (cs : List Char) : Option (Time × List Char) := do
  let (hour, cs) ← field? cs
  let cs ← expect? ':' (trimStart cs)
  let (minute, cs) ← field? cs
  let time ← Time.ofClock? hour minute 0 0
  some (time, cs)

def complete? {α : Type} : α × List Char → Option α
  | (x, rest) => if (trimStart rest).isEmpty then some x else none

def readDate? (cs : List Char) : Option Date := (takeDate? true cs).bind complete?

def readTime? (cs : List Char) : Option Time :=
  ((takeTime? true cs).bind complete?).orElse fun _ => (takeMinutes? cs).bind complete?

def readMarked? (cs : List Char) : Option LocalDateTime := do
  let (date, cs) ← takeDate? true cs
  let cs ← expect? 'T' (trimStart cs)
  let time ← (takeTime? true cs).bind complete?
  some ⟨date, time⟩

def readSpaced? (cs : List Char) : Option LocalDateTime := do
  let (date, cs) ← takeDate? false cs
  let (time, cs) ← takeTime? false cs
  if cs.isEmpty then some ⟨date, time⟩ else none

def readLocal? (cs : List Char) : Option LocalDateTime :=
  (readMarked? cs).orElse fun _ => readSpaced? cs

end RequestFilter.Calendar
