import RequestFilter.Number.Integer
import RequestFilter.Text.Split

/-!
Trailing zeros are part of a number's form, so `1.50` and `1.5` are two forms of one value; `same`
compares values. A literal with more fractional digits than fit is rounded once, by the first digit
that is left out. A literal for zero has no sign, but a number that an exponent scales down to zero
keeps the sign it had.

Underscores between digits are passed over. Only one behind the last digit that fits the scale is
not: in a number of one machine word it stands for the digit left out, a zero, and in a longer
number it makes room for one more digit.
-/

namespace RequestFilter

structure Decimal where
  negative : Bool
  magnitude : Nat
  scale : Nat
  magnitude_lt : magnitude < Nat.pow 2 96
  scale_le : scale ≤ 28
  deriving DecidableEq, Repr

namespace Decimal

def limit : Nat := Nat.pow 2 96

def maxScale : Nat := 28

def ofParts? (negative : Bool) (m scale : Nat) : Option Decimal :=
  if h : m < Nat.pow 2 96 ∧ scale ≤ 28 then some ⟨negative, m, scale, h.1, h.2⟩ else none

/-- The number that a literal stands for, if it fits; zero has no sign, and a scale beyond the
greatest starts over from none. -/
def ofLiteral? (negative : Bool) (m scale : Nat) : Option Decimal :=
  ofParts? (negative && m != 0) m (scale % (maxScale + 1))

def coefficient (x : Decimal) : Int := Integer.signed x.negative x.magnitude

def same (x y : Decimal) : Bool :=
  x.coefficient * Nat.pow 10 y.scale == y.coefficient * Nat.pow 10 x.scale

def text (x : Decimal) : List Char :=
  let digits := Digits.padded (x.scale + 1) x.magnitude
  let whole := digits.take (digits.length - x.scale)
  let fraction := digits.drop (digits.length - x.scale)
  (if x.negative then ['-'] else []) ++ whole ++
    (if x.scale = 0 then [] else '.' :: fraction)

structure Literal where
  negative : Bool
  whole : List Char
  fraction : List Char

def isPlain : (digitSeen pointSeen : Bool) → List Char → Bool
  | digitSeen, _, [] => digitSeen
  | digitSeen, pointSeen, c :: cs =>
    if c.isDigit then isPlain true pointSeen cs
    else if c = '.' then !pointSeen && isPlain digitSeen true cs
    else c == '_' && digitSeen && isPlain digitSeen pointSeen cs

def literal? (cs : List Char) : Option Literal :=
  let (negative, body) := Integer.sign cs
  if isPlain false false body then
    let (whole, fraction) := (Text.cutFirst? (· == '.') body).getD (body, [])
    some ⟨negative, whole.filter Char.isDigit, fraction⟩
  else none

/-- Rounds the magnitude `m / 10 ^ scale` by the next digit, half up. Where that overflows the
magnitude, one digit less is kept. -/
def roundBy (negative : Bool) (m scale digit : Nat) : Option Decimal :=
  if digit < 5 then ofLiteral? negative m scale
  else if m + 1 < limit then ofLiteral? negative (m + 1) scale
  else if scale = 0 then none
  else ofLiteral? negative ((m + 1 + 4) / 10) (scale - 1)

/-- A number that had this magnitude before its last digit is longer than a machine word. -/
def wordLimit : Nat := (Nat.pow 2 64 - 1) / 10 - 255

/-- Takes fractional digits as long as the number fits, and rounds by the first that does not. The
flag tells that an underscore stands in front. -/
def takeFraction (negative : Bool) : (m scale : Nat) → (marked : Bool) → List Char → Option Decimal
  | m, scale, _, [] => ofLiteral? negative m scale
  | m, scale, marked, c :: cs =>
    if c = '_' then
      if maxScale ≤ scale ∧ m / 10 < wordLimit then roundBy negative m scale 0
      else takeFraction negative m scale true cs
    else
      let m' := 10 * m + Digits.valueOf c
      if (scale < maxScale ∨ marked) ∧ m' < limit then takeFraction negative m' (scale + 1) false cs
      else roundBy negative m scale (Digits.valueOf c)

def readPlain? (cs : List Char) : Option Decimal :=
  (literal? cs).bind fun literal =>
    let m := Digits.value literal.whole
    if m < limit then takeFraction literal.negative m 0 false literal.fraction else none

def roundOff (m digits : Nat) : Nat := (m + Nat.pow 10 digits / 2) / Nat.pow 10 digits

def scaleDown? (x : Decimal) (n : Nat) : Option Decimal :=
  if maxScale < n then none
  else if x.scale + n ≤ maxScale then ofParts? x.negative x.magnitude (x.scale + n)
  else ofParts? x.negative (roundOff x.magnitude (x.scale + n - maxScale)) maxScale

/-- `x * 10 ^ n`; behind the point only zeros can be left, and they are dropped. -/
def scaleUp? (x : Decimal) (n : Nat) : Option Decimal :=
  if n ≤ x.scale then ofParts? x.negative x.magnitude (x.scale - n)
  else if n ≤ maxScale then ofParts? x.negative (x.magnitude * Nat.pow 10 (n - x.scale)) 0
  else none

def exponent? (cs : List Char) : Option Nat :=
  let digits := match cs with
    | '+' :: cs => cs
    | cs => cs
  if digits.isEmpty ∨ ¬ digits.all Char.isDigit then none else some (Digits.value digits)

def readScientific? (cs : List Char) : Option Decimal := do
  let (base, exponent) ← Text.cutFirst? (fun c => c == 'e' || c == 'E') cs
  let x ← readPlain? base
  match exponent with
  | '-' :: digits => x.scaleDown? (← exponent? digits)
  | digits => x.scaleUp? (← exponent? digits)

def read? (cs : List Char) : Option Decimal :=
  (readPlain? cs).orElse fun _ => readScientific? cs

end Decimal

end RequestFilter
