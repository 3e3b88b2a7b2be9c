import RequestFilter.Number.BinaryFloat
import RequestFilter.Number.Hex

/-!
A text is cut into tokens up to the first place where there is none. What is wrong with a token in
some contexts only is kept with it: whether a string has a half of a surrogate pair alone, and
whether a number is too large.
-/

namespace RequestFilter.Json

inductive Token where
  | openArray | closeArray | openObject | closeObject | comma | colon
  | null | true | false
  | number (inRange : Bool)
  /-- A text; none if it has half a surrogate pair. -/
  | string (text : Option String)
  | malformed
  deriving DecidableEq, Repr

def isSpace (c : Char) : Bool := c == ' ' || c == '\n' || c == '\t' || c == '\r'

def escaped? (c : Char) : Option Char :=
  [('"', '"'), ('\\', '\\'), ('/', '/'), ('b', '\x08'), ('f', '\x0c'), ('n', '\n'), ('r', '\r'),
    ('t', '\t')].lookup c

def push (n : Nat) (rest : List Nat × List Char) : List Nat × List Char := (n :: rest.1, rest.2)

/-- The units of a string up to its closing quote, and what follows. A unit is the code of a
character, or of half a surrogate pair. -/
def units? : List Char → Option (List Nat × List Char)
  | [] => none
  | '"' :: cs => some ([], cs)
  | '\\' :: 'u' :: a :: b :: c :: d :: cs =>
    match Hex.read? [a, b, c, d] with
    | some n => (units? cs).map (push n)
    | none => none
  | '\\' :: c :: cs =>
    match escaped? c with
    | some c => (units? cs).map (push c.toNat)
    | none => none
  | c :: cs => if c.toNat < 0x20 || c == '\\' then none else (units? cs).map (push c.toNat)

def isHigh (n : Nat) : Bool := 0xD800 ≤ n && n < 0xDC00
def isLow (n : Nat) : Bool := 0xDC00 ≤ n && n < 0xE000

def joinPairs? : List Nat → Option (List Char)
  | [] => some []
  | n :: ns =>
    if isHigh n then
      match ns with
      | [] => none
      | m :: ns =>
        if isLow m then
          (joinPairs? ns).map (Char.ofNat (0x10000 + (n - 0xD800) * 0x400 + (m - 0xDC00)) :: ·)
        else none
    else if isLow n then none
    else (joinPairs? ns).map (Char.ofNat n :: ·)

def digits? (cs : List Char) : Option (List Char × List Char) :=
  let (digits, rest) := Digits.span cs
  if digits.isEmpty then none else some (digits, rest)

def whole? (cs : List Char) : Option (List Char × List Char) :=
  match digits? cs with
  | some ('0' :: _ :: _, _) => none
  | whole => whole

def fraction? : List Char → Option (List Char × List Char)
  | '.' :: cs => (digits? cs).map fun (digits, rest) => ('.' :: digits, rest)
  | cs => some ([], cs)

def exponent? : List Char → Option (List Char × List Char)
  | [] => some ([], [])
  | c :: cs =>
    if c = 'e' ∨ c = 'E' then
      let sign := cs.takeWhile fun c => c == '+' || c == '-'
      if sign.length ≤ 1 then
        (digits? (cs.drop sign.length)).map fun (digits, rest) => (c :: sign ++ digits, rest)
      else none
    else some ([], c :: cs)

def number? (cs : List Char) : Option (List Char × List Char) := do
  let sign := if cs.head? = some '-' then ['-'] else []
  let (whole, cs) ← whole? (cs.drop sign.length)
  let (fraction, cs) ← fraction? cs
  let (exponent, cs) ← exponent? cs
  some (sign ++ whole ++ fraction ++ exponent, cs)

def isInRange (literal : List Char) : Bool :=
  match FloatFormat.binary64.read literal with
  | .ok _ => Bool.true
  | .error _ => Bool.false

def fixedTokens : List (String × Token) :=
  [("[", .openArray), ("]", .closeArray), ("\x7b", .openObject), ("\x7d", .closeObject),
    (",", .comma), (":", .colon), ("null", .null), ("true", .true), ("false", .false)]

def next? (cs : List Char) : Option (Token × List Char) :=
  match fixedTokens.find? fun (text, _) => text.toList.isPrefixOf cs with
  | some (text, token) => some (token, cs.drop text.length)
  | none =>
    match cs with
    | '"' :: cs => (units? cs).map fun (units, rest) =>
      (.string ((joinPairs? units).map String.ofList), rest)
    | cs => (number? cs).map fun (literal, rest) => (.number (isInRange literal), rest)

/-- The tokens of a text. No more steps are needed than there are characters. -/
def tokensFrom : (fuel : Nat) → List Char → List Token
  | 0, _ => [.malformed]
  | fuel + 1, cs =>
    let cs := cs.dropWhile isSpace
    if cs.isEmpty then []
    else
      match next? cs with
      | some (token, rest) => token :: tokensFrom fuel rest
      | none => [.malformed]

def tokens (cs : List Char) : List Token := tokensFrom (cs.length + 1) cs

end RequestFilter.Json
