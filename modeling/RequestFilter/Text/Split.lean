namespace RequestFilter.Text

def consFirst (c : Char) : List (List Char) → List (List Char)
  | [] => [[c]]
  | part :: parts => (c :: part) :: parts

/-- The parts of a text between the occurrences of `sep`; always at least one. -/
def splitAt (sep : Char) : List Char → List (List Char)
  | [] => [[]]
  | c :: cs => if c = sep then [] :: splitAt sep cs else consFirst c (splitAt sep cs)

/-- Cuts at `d` from left to right. The number counts the characters that still belong to the
occurrence of `d` found last. -/
def segmentsFrom (d : List Char) : Nat → List Char → List (List Char)
  | _, [] => [[]]
  | skip + 1, _ :: cs => segmentsFrom d skip cs
  | 0, c :: cs =>
    if d.isPrefixOf (c :: cs) then [] :: segmentsFrom d (d.length - 1) cs
    else consFirst c (segmentsFrom d 0 cs)

/-- The parts of a text between the leftmost occurrences of `d`. The empty separator occurs before,
between and after all characters. -/
def segments (d cs : List Char) : List (List Char) :=
  if d.isEmpty then [] :: cs.map (fun c => [c]) ++ [[]] else segmentsFrom d 0 cs

def cutLast? (d : List Char) : List Char → Option (List Char × List Char)
  | [] => if d.isEmpty then some ([], []) else none
  | c :: cs =>
    match cutLast? d cs with
    | some (before, after) => some (c :: before, after)
    | none => if d.isPrefixOf (c :: cs) then some ([], (c :: cs).drop d.length) else none

def cutFirst? (p : Char → Bool) : List Char → Option (List Char × List Char)
  | [] => none
  | c :: cs => if p c then some ([], cs) else (cutFirst? p cs).map fun (b, a) => (c :: b, a)

theorem cutFirst?_none {p : Char → Bool} {cs : List Char} (none : ∀ c ∈ cs, p c = false) :
    cutFirst? p cs = .none := by
  induction cs with
  | nil => rfl
  | cons c cs ih =>
    have first : p c = false := none c List.mem_cons_self
    have rest := ih fun d member => none d (List.mem_cons_of_mem c member)
    simp [cutFirst?, first, rest]

theorem cutFirst?_append {p : Char → Bool} {before : List Char}
    (none : ∀ c ∈ before, p c = false) {c : Char} (stop : p c = true) (after : List Char) :
    cutFirst? p (before ++ c :: after) = some (before, after) := by
  induction before with
  | nil => simp [cutFirst?, stop]
  | cons b before ih =>
    have first := none b (by simp)
    have rest := ih fun d member => none d (List.mem_cons_of_mem _ member)
    simp [cutFirst?, first, rest]

def dropTrailingEmpty : List (List Char) → List (List Char)
  | [] => []
  | part :: parts =>
    match dropTrailingEmpty parts with
    | [] => if part.isEmpty then [] else [part]
    | rest => part :: rest

end RequestFilter.Text
