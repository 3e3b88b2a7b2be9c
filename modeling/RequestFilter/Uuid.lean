import RequestFilter.Number.Hex

/-!
Identifiers are written in lower case in groups of 8, 4, 4, 4 and 12 digits, and read in that form,
without hyphens, in braces, or behind `urn:uuid:`, in either case.
-/

namespace RequestFilter

structure Uuid where
  digits : List (Fin 16)
  length_eq : digits.length = 32
  deriving DecidableEq

namespace Uuid

def groups : List Nat := [8, 4, 4, 4, 12]

def hyphenate : List Nat → List Char → List Char
  | [], cs => cs
  | [_], cs => cs
  | size :: sizes, cs => cs.take size ++ '-' :: hyphenate sizes (cs.drop size)

def joinGroups? : List Nat → List Char → Option (List Char)
  | [], cs => if cs.isEmpty then some [] else none
  | [size], cs => if cs.length = size then some cs else none
  | size :: sizes, cs =>
    match cs.drop size with
    | '-' :: rest => (joinGroups? sizes rest).map (cs.take size ++ ·)
    | _ => none

def text (u : Uuid) : List Char := hyphenate groups (u.digits.map Hex.char)

def ofDigits? (cs : List Char) : Option Uuid :=
  (cs.mapM Hex.digit?).bind fun digits =>
    if h : digits.length = 32 then some ⟨digits, h⟩ else none

def ofHyphenated? (cs : List Char) : Option Uuid := (joinGroups? groups cs).bind ofDigits?

def scheme : List Char := "urn:uuid:".toList

def read? (cs : List Char) : Option Uuid :=
  if cs.length = 32 then ofDigits? cs
  else if cs.length = 38 ∧ cs.head? = some '\x7b' ∧ cs.getLast? = some '\x7d' then
    ofHyphenated? (cs.drop 1).dropLast
  else if (cs.take scheme.length).map Char.toLower = scheme then
    ofHyphenated? (cs.drop scheme.length)
  else ofHyphenated? cs

end Uuid

end RequestFilter
