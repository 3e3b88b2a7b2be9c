import RequestFilter.Number.Integer

/-!
Literals are rounded once, from their exact value, ties to the even significand. Numbers are kept as
the bits of the 64-bit format; a number of the 32-bit format has exact bits there too.
-/

namespace RequestFilter

structure Binary64 where
  bits : UInt64
  deriving DecidableEq, Repr

namespace Binary64

def exponentField (x : Binary64) : Nat := x.bits.toNat / Nat.pow 2 52 % Nat.pow 2 11

def fractionField (x : Binary64) : Nat := x.bits.toNat % Nat.pow 2 52

def isFinite (x : Binary64) : Bool := x.exponentField != 2047

def isNaN (x : Binary64) : Bool := x.exponentField == 2047 && x.fractionField != 0

def isZero (x : Binary64) : Bool := x.bits.toNat % Nat.pow 2 63 == 0

/-- Equality of numbers: the two zeros are equal, and what has no value equals nothing. -/
def same (x y : Binary64) : Bool :=
  !x.isNaN && !y.isNaN && (x.bits == y.bits || (x.isZero && y.isZero))

def hex (x : Binary64) : List Char :=
  let ds := Nat.toDigits 16 x.bits.toNat
  List.replicate (16 - ds.length) '0' ++ ds

/-- The number with the given sign and the magnitude `m * 2 ^ q`, where `m < 2 ^ 53` and the
magnitude is a multiple of the least one and below infinity. -/
def ofScaled (negative : Bool) (m : Nat) (q : Int) : Binary64 :=
  let signBit := if negative then Nat.pow 2 63 else 0
  if m = 0 then ⟨UInt64.ofNat signBit⟩
  else
    let shift := 52 - Nat.log2 m
    let exponent := q - shift
    if -1074 ≤ exponent then
      let field := (exponent + 1075).toNat
      ⟨UInt64.ofNat (signBit + field * Nat.pow 2 52 + (m * Nat.pow 2 shift - Nat.pow 2 52))⟩
    else ⟨UInt64.ofNat (signBit + m * Nat.pow 2 (q + 1074).toNat)⟩

end Binary64

structure FloatFormat where
  precision : Nat
  minExponent : Int
  maxExponent : Int

namespace FloatFormat

def binary32 : FloatFormat := ⟨24, -149, 104⟩

def binary64 : FloatFormat := ⟨53, -1074, 971⟩

def roundHalfEven (n d : Nat) : Nat :=
  let q := n / d
  let r := n % d
  if 2 * r < d then q
  else if d < 2 * r then q + 1
  else if q % 2 = 0 then q else q + 1

def inUnits (n d : Nat) (q : Int) : Nat :=
  if q < 0 then roundHalfEven (n * Nat.pow 2 q.natAbs) d else roundHalfEven n (d * Nat.pow 2 q.natAbs)

def nearest? (format : FloatFormat) (n d : Nat) : Option (Nat × Int) :=
  let estimate : Int := (Nat.log2 n : Int) - Nat.log2 d - format.precision
  let start := max estimate format.minExponent
  let m := inUnits n d start
  let (m, q) :=
    if m < Nat.pow 2 format.precision then (m, start) else (inUnits n d (start + 1), start + 1)
  let (m, q) := if m = Nat.pow 2 format.precision then (m / 2, q + 1) else (m, q)
  if q ≤ format.maxExponent then some (m, q) else none

structure Literal where
  negative : Bool
  digits : List Char
  exponent : Int

def exponentPart? : List Char → Option Int
  | [] => some 0
  | c :: cs =>
    if c = 'e' ∨ c = 'E' then
      let (negative, body) := Integer.sign cs
      let (digits, rest) := Digits.span body
      if digits.isEmpty ∨ ¬ rest.isEmpty then none
      else some (Integer.signed negative (Digits.value digits))
    else none

/-- A sign, digits with at most one point among them, and an exponent. At least one digit stands
before the exponent. -/
def literal? (cs : List Char) : Option Literal :=
  let (negative, body) := Integer.sign cs
  let (whole, rest) := Digits.span body
  let (fraction, rest) :=
    match rest with
    | '.' :: rest => Digits.span rest
    | rest => ([], rest)
  if whole.isEmpty ∧ fraction.isEmpty then none
  else
    (exponentPart? rest).map fun exponent =>
      ⟨negative, whole ++ fraction, exponent - fraction.length⟩

def isNonFinite (cs : List Char) : Bool :=
  let word := (Integer.sign cs).2.map Char.toLower
  word == "inf".toList || word == "infinity".toList || word == "nan".toList

/-- Beyond this power of ten every format has only zero or infinity. -/
def decimalBound : Int := 400

def read (format : FloatFormat) (cs : List Char) : Except NumberFault Binary64 :=
  if isNonFinite cs then .error .outOfRange
  else
    match literal? cs with
    | none => .error .malformed
    | some literal =>
      let m := Digits.value literal.digits
      if m = 0 then .ok (Binary64.ofScaled literal.negative 0 0)
      else
        let magnitude := literal.exponent + (Digits.ofNat m).length
        if decimalBound < magnitude then .error .outOfRange
        else if magnitude < -decimalBound then .ok (Binary64.ofScaled literal.negative 0 0)
        else
          let e := literal.exponent
          let n := if e < 0 then m else m * Nat.pow 10 e.natAbs
          let d := if e < 0 then Nat.pow 10 e.natAbs else 1
          match format.nearest? n d with
          | some (m, q) => .ok (Binary64.ofScaled literal.negative m q)
          | none => .error .outOfRange

end FloatFormat

end RequestFilter
