/-!
The letters `a` to `f` are read in either case and written in lower case.
-/

namespace RequestFilter.Hex

def digit? (c : Char) : Option (Fin 16) :=
  let n := c.toNat
  if 0x30 ≤ n ∧ n ≤ 0x39 then some (Fin.ofNat 16 (n - 0x30))
  else if 0x61 ≤ n ∧ n ≤ 0x66 then some (Fin.ofNat 16 (n - 0x61 + 10))
  else if 0x41 ≤ n ∧ n ≤ 0x46 then some (Fin.ofNat 16 (n - 0x41 + 10))
  else none

def char (d : Fin 16) : Char := Nat.digitChar d.val

def value (ds : List (Fin 16)) : Nat := ds.foldl (fun n d => 16 * n + d.val) 0

def read? (cs : List Char) : Option Nat := (cs.mapM digit?).map value

end RequestFilter.Hex
