import RequestFilter.Http.Utf8
import RequestFilter.Number.Hex
import RequestFilter.Text.Split

/-!
Pairs stand between `&`, and a key ends at the first `=`. A plus sign is a space, and a percent sign
with two hexadecimal digits is an octet; any other percent sign stands for itself.
-/

namespace RequestFilter.Form

def octet? (a b : Char) : Option UInt8 := (Hex.read? [a, b]).map UInt8.ofNat

def plain (c : Char) : List UInt8 := if c = '+' then [0x20] else Utf8.encode [c]

def octets : List Char → List UInt8
  | [] => []
  | '%' :: a :: b :: cs =>
    match octet? a b with
    | some octet => octet :: octets cs
    | none => plain '%' ++ octets (a :: b :: cs)
  | c :: cs => plain c ++ octets cs

def decode (cs : List Char) : String := String.ofList (Utf8.decode (octets cs))

def pair (piece : List Char) : String × String :=
  let (key, value) := (Text.cutFirst? (· == '=') piece).getD (piece, [])
  (decode key, decode value)

def pairs (query : List Char) : List (String × String) :=
  ((Text.splitAt '&' query).filter (!·.isEmpty)).map pair

end RequestFilter.Form
