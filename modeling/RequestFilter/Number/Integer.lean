import RequestFilter.Number.Digits

/-!
The text is read from the left, one digit at a time. A digit that takes the number out of its range
ends the reading before anything is said about what follows it, so `99999x` is too large for 16 bits
and `9x` is no integer.
-/

namespace RequestFilter

inductive NumberFault where
  | malformed
  | outOfRange
  deriving DecidableEq, Repr

namespace Integer

def sign : List Char → Bool × List Char
  | '-' :: cs => (true, cs)
  | '+' :: cs => (false, cs)
  | cs => (false, cs)

def signed (negative : Bool) (n : Nat) : Int := if negative then -(n : Int) else n

def fit (lo hi i : Int) : Except NumberFault Int :=
  if i < lo ∨ hi < i then .error .outOfRange else .ok i

/-- Appends a digit to a number. Digits behind a minus sign are taken off, so that the number of
least value is never left with the wrong sign. -/
def push (lo hi : Int) (negative : Bool) (i : Int) (c : Char) : Except NumberFault Int :=
  if c.isDigit then do
    let tens ← fit lo hi (10 * i)
    fit lo hi (tens + signed negative (Digits.valueOf c))
  else .error .malformed

def read (lo hi : Int) (cs : List Char) : Except NumberFault Int :=
  let (negative, digits) := sign cs
  if digits.isEmpty then .error .malformed else digits.foldlM (push lo hi negative) 0

def readBits (bits : Nat) (cs : List Char) : Except NumberFault Int :=
  read (-Nat.pow 2 (bits - 1)) (Nat.pow 2 (bits - 1) - 1) cs

end Integer

end RequestFilter
