/-!
An octet that cannot continue the character begun stands for a replacement character in place of
what was begun, and is then looked at again as the start of a character.
-/

namespace RequestFilter.Utf8

/-- A character begun: the number of octets missing, the bits so far, and the range of the next
octet. -/
structure Begun where
  missing : Nat
  bits : Nat
  least : Nat
  greatest : Nat
  deriving DecidableEq, Repr

def replacement : Char := '\uFFFD'

def start (b : Nat) : List Char × Option Begun :=
  if b < 0x80 then ([Char.ofNat b], none)
  else if b < 0xC2 then ([replacement], none)
  else if b < 0xE0 then ([], some ⟨1, b - 0xC0, 0x80, 0xBF⟩)
  else if b < 0xF0 then
    ([], some ⟨2, b - 0xE0, if b = 0xE0 then 0xA0 else 0x80, if b = 0xED then 0x9F else 0xBF⟩)
  else if b < 0xF5 then
    ([], some ⟨3, b - 0xF0, if b = 0xF0 then 0x90 else 0x80, if b = 0xF4 then 0x8F else 0xBF⟩)
  else ([replacement], none)

def step (begun : Option Begun) (b : Nat) : List Char × Option Begun :=
  match begun with
  | none => start b
  | some c =>
    if c.least ≤ b ∧ b ≤ c.greatest then
      let bits := c.bits * 64 + (b - 0x80)
      if c.missing ≤ 1 then ([Char.ofNat bits], none)
      else ([], some ⟨c.missing - 1, bits, 0x80, 0xBF⟩)
    else
      let (chars, begun) := start b
      (replacement :: chars, begun)

def decodeFrom : Option Begun → List UInt8 → List Char
  | begun, [] => if begun.isSome then [replacement] else []
  | begun, b :: bs =>
    let (chars, begun) := step begun b.toNat
    chars ++ decodeFrom begun bs

def decode (bs : List UInt8) : List Char := decodeFrom none bs

def encode (cs : List Char) : List UInt8 := cs.flatMap String.utf8EncodeChar

end RequestFilter.Utf8
