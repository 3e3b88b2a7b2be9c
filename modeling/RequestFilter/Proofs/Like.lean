import RequestFilter.Proofs.Leaves

namespace RequestFilter

namespace Like

/-- The texts that a pattern matches. A backslash at the very end matches nothing. -/
inductive Matches : List Char → List Char → Prop
  | done : Matches [] []
  | run {pattern text : List Char} (skipped : List Char) (rest : Matches pattern text) :
      Matches ('%' :: pattern) (skipped ++ text)
  | one {pattern text : List Char} (c : Char) (rest : Matches pattern text) :
      Matches ('_' :: pattern) (c :: text)
  | escaped {pattern text : List Char} (c : Char) (rest : Matches pattern text) :
      Matches ('\\' :: c :: pattern) (c :: text)
  | plain {pattern text : List Char} {c : Char} (ordinary : isSpecial c = false)
      (rest : Matches pattern text) : Matches (c :: pattern) (c :: text)

end Like

/-- The text stands at the place in the other one. -/
def Place.Finds : Place → (needle text : List Char) → Prop
  | anywhere, needle, text => needle <:+: text
  | atStart, needle, text => needle <+: text
  | atEnd, needle, text => needle <:+ text

instance (place : Place) (needle text : List Char) : Decidable (place.Finds needle text) :=
  match place with
  | .anywhere => inferInstanceAs (Decidable (needle <:+: text))
  | .atStart => inferInstanceAs (Decidable (needle <+: text))
  | .atEnd => inferInstanceAs (Decidable (needle <:+ text))

namespace Like

variable {pattern text needle : List Char} {c : Char}

theorem matches_nil : Matches [] text ↔ text = [] := by
  constructor
  · intro found
    cases found
    rfl
  · rintro rfl
    exact .done

theorem matches_run : Matches ('%' :: pattern) text ↔
    ∃ skipped rest, text = skipped ++ rest ∧ Matches pattern rest := by
  constructor
  · intro found
    cases found with
    | run skipped rest => exact ⟨skipped, _, rfl, rest⟩
    | plain ordinary => cases ordinary
  · rintro ⟨skipped, rest, rfl, found⟩
    exact .run skipped found

theorem matches_escaped : Matches ('\\' :: c :: pattern) text ↔
    ∃ rest, text = c :: rest ∧ Matches pattern rest := by
  constructor
  · intro found
    cases found with
    | escaped _ rest => exact ⟨_, rfl, rest⟩
    | plain ordinary => cases ordinary
  · rintro ⟨rest, rfl, found⟩
    exact .escaped c found

theorem matches_plain (ordinary : isSpecial c = false) : Matches (c :: pattern) text ↔
    ∃ rest, text = c :: rest ∧ Matches pattern rest := by
  constructor
  · intro found
    cases found with
    | plain _ rest => exact ⟨_, rfl, rest⟩
    | run | one | escaped => cases ordinary
  · rintro ⟨rest, rfl, found⟩
    exact .plain ordinary found

theorem escape_cons (c : Char) (cs : List Char) :
    escape (c :: cs) = (if isSpecial c then ['\\', c] else [c]) ++ escape cs := rfl

theorem escape_append (cs more : List Char) : escape (cs ++ more) = escape cs ++ escape more :=
  List.flatMap_append

theorem escape_ordinary {cs : List Char} (ordinary : ∀ c ∈ cs, isSpecial c = false) :
    escape cs = cs := by
  induction cs with
  | nil => rfl
  | cons c cs ih =>
    obtain ⟨first, others⟩ := List.forall_mem_cons.mp ordinary
    rw [escape_cons, first, ih others]
    rfl

/-- An escaped text matches itself, character by character, and leaves the rest to the pattern
behind it. -/
theorem matches_escape_append : Matches (escape needle ++ pattern) text ↔
    ∃ rest, text = needle ++ rest ∧ Matches pattern rest := by
  induction needle generalizing text with
  | nil => simp [escape]
  | cons c needle ih =>
    have first : Matches (escape (c :: needle) ++ pattern) text ↔
        ∃ rest, text = c :: rest ∧ Matches (escape needle ++ pattern) rest := by
      rw [escape_cons]
      by_cases special : isSpecial c = true
      · rw [if_pos special]
        exact matches_escaped
      · rw [if_neg special]
        exact matches_plain (by simpa using special)
    rw [first]
    constructor
    · rintro ⟨_, rfl, found⟩
      obtain ⟨rest, rfl, behind⟩ := ih.mp found
      exact ⟨rest, rfl, behind⟩
    · rintro ⟨rest, rfl, behind⟩
      exact ⟨_, rfl, ih.mpr ⟨rest, rfl, behind⟩⟩

theorem matches_escape : Matches (escape needle) text ↔ text = needle := by
  have exactly : Matches (escape needle ++ []) text ↔ _ := matches_escape_append
  rw [List.append_nil] at exactly
  simp [exactly, matches_nil]

theorem matches_anything : Matches ['%'] text := by
  have all : Matches ('%' :: []) (text ++ []) := .run text .done
  rwa [List.append_nil] at all

theorem matches_atStart : Matches (escape needle ++ ['%']) text ↔ needle <+: text := by
  rw [matches_escape_append]
  constructor
  · rintro ⟨rest, rfl, _⟩
    exact List.prefix_append needle rest
  · rintro ⟨rest, rfl⟩
    exact ⟨rest, rfl, matches_anything⟩

theorem matches_pattern (place : Place) :
    Matches (Like.pattern place needle) text ↔ place.Finds needle text := by
  cases place with
  | anywhere =>
    simp only [Like.pattern, List.cons_append, matches_run, matches_atStart, Place.Finds]
    constructor
    · rintro ⟨skipped, _, rfl, rest, rfl⟩
      exact ⟨skipped, rest, by simp⟩
    · rintro ⟨skipped, rest, rfl⟩
      exact ⟨skipped, needle ++ rest, by simp, rest, rfl⟩
  | atStart => exact matches_atStart
  | atEnd =>
    simp only [Like.pattern, matches_run, matches_escape, Place.Finds]
    constructor
    · rintro ⟨skipped, _, rfl, rfl⟩
      exact List.suffix_append skipped _
    · rintro ⟨skipped, rfl⟩
      exact ⟨skipped, needle, rfl, rfl⟩

/-- A change of case, character by character. It keeps the special characters apart from all
others. -/
structure CaseMap where
  map : Char → List Char
  map_special : ∀ c, isSpecial c = true → map c = [c]
  map_ordinary : ∀ c, isSpecial c = false → ∀ d ∈ map c, isSpecial d = false

namespace CaseMap

variable (upper : CaseMap)

def apply (cs : List Char) : List Char := cs.flatMap upper.map

theorem apply_append (cs more : List Char) :
    upper.apply (cs ++ more) = upper.apply cs ++ upper.apply more := List.flatMap_append

theorem apply_special (special : isSpecial c = true) : upper.apply [c] = [c] := by
  rw [apply, List.flatMap_singleton, upper.map_special c special]

/-- The case may be changed before or behind the escaping. -/
theorem apply_escape (cs : List Char) : upper.apply (escape cs) = escape (upper.apply cs) := by
  induction cs with
  | nil => rfl
  | cons c cs ih =>
    have split : upper.apply (c :: cs) = upper.map c ++ upper.apply cs := rfl
    have first : upper.apply (if isSpecial c then ['\\', c] else [c]) = escape (upper.map c) := by
      by_cases special : isSpecial c = true
      · have both : ['\\', c] = ['\\'] ++ [c] := rfl
        rw [if_pos special, both, apply_append, apply_special upper rfl,
          apply_special upper special, upper.map_special c special, escape_cons, if_pos special]
        rfl
      · have ordinary : isSpecial c = false := by simpa using special
        rw [if_neg special, escape_ordinary (upper.map_ordinary c ordinary), apply,
          List.flatMap_singleton]
    rw [split, escape_append, escape_cons, apply_append, ih, first]

theorem apply_pattern (place : Place) (cs : List Char) :
    upper.apply (Like.pattern place cs) = Like.pattern place (upper.apply cs) := by
  have percent : upper.apply ['%'] = ['%'] := upper.apply_special rfl
  have behind : upper.apply ('%' :: escape cs) = '%' :: escape (upper.apply cs) := by
    rw [← List.singleton_append, apply_append, percent, apply_escape, List.singleton_append]
  cases place with
  | anywhere => simp only [Like.pattern, apply_append, behind, percent]
  | atStart => simp only [Like.pattern, apply_append, apply_escape, percent]
  | atEnd => exact behind

theorem isSpecial_toUpper (ordinary : isSpecial c = false) : isSpecial c.toUpper = false := by
  unfold Char.toUpper
  split
  · rename_i lower
    let raised := c.val + ('A'.val - 'a'.val)
    have letter : 65 ≤ raised.toNat ∧ raised.toNat ≤ 90 := by
      simp only [UInt32.le_iff_toNat_le, UInt32.toNat_add, UInt32.toNat_sub, raised] at lower ⊢
      simp only [Char.reduceVal, UInt32.reduceToNat] at lower ⊢
      omega
    have apart (d : Char) (other : d.toNat < 65 ∨ 90 < d.toNat) (valid : raised.isValidChar) :
        (Char.mk raised valid == d) = false := by
      rw [beq_eq_false_iff_ne]
      rintro rfl
      simp only [Char.toNat] at other
      omega
    simp only [isSpecial, apart '\\' (.inr (by decide)), apart '%' (.inl (by decide)),
      apart '_' (.inr (by decide)), raised, Bool.or_self]
  · exact ordinary

/-- The upper case of ASCII letters, and of `ß`, which becomes two letters. -/
def german : CaseMap where
  map c := if c = 'ß' then ['S', 'S'] else [c.toUpper]
  map_special c special := by
    simp only [isSpecial, Bool.or_eq_true, beq_iff_eq] at special
    rcases special with (rfl | rfl) | rfl <;> rfl
  map_ordinary c ordinary d member := by
    split at member
    · simp only [List.mem_cons, List.not_mem_nil, or_false, or_self] at member
      rw [member]
      rfl
    · rw [List.mem_singleton.mp member]
      exact isSpecial_toUpper ordinary

end CaseMap

end Like

namespace Filter

/-- What a search asks a database: `pattern` is the one value bound, and it matches the subjects that
hold the needle at the place. In upper case it matches those that hold the needle in upper case. -/
structure Searches (place : Place) (column : Column) (needle pattern : String) : Prop where
  bound : ∀ offset, ((like place column needle).toSql offset).2 = [.text pattern]
  text : ∀ offset, ((like place column needle).toSql offset).1 =
    if column.transform = some .upper then
      column.sql ++ " LIKE UPPER($".toList ++ Digits.ofNat (offset + 1) ++ ") ESCAPE '\\'".toList
    else column.sql ++ " LIKE $".toList ++ Digits.ofNat (offset + 1) ++ " ESCAPE '\\'".toList
  literal : ∀ subject : String,
    Like.Matches pattern.toList subject.toList ↔ place.Finds needle.toList subject.toList
  cased : ∀ (upper : Like.CaseMap) (subject : String),
    Like.Matches (upper.apply pattern.toList) (upper.apply subject.toList) ↔
      place.Finds (upper.apply needle.toList) (upper.apply subject.toList)

theorem text_like (place : Place) (column : Column) (needle : String) (offset : Nat) :
    ((like place column needle).toSql offset).1 =
      if column.transform = some .upper then
        column.sql ++ " LIKE UPPER($".toList ++ Digits.ofNat (offset + 1) ++ ") ESCAPE '\\'".toList
      else column.sql ++ " LIKE $".toList ++ Digits.ofNat (offset + 1) ++ " ESCAPE '\\'".toList := by
  unfold toSql pieces Like.pieces
  split <;> simp [Piece.render, Piece.lit]

theorem like_searches (place : Place) (column : Column) (needle : String) :
    ∃ pattern, Searches place column needle pattern := by
  refine ⟨String.ofList (Like.pattern place needle.toList), ?_⟩
  exact {
    bound := fun offset => params_like place column needle
    text := text_like place column needle
    literal := fun subject => by
      rw [String.toList_ofList]
      exact Like.matches_pattern place
    cased := fun upper subject => by
      rw [String.toList_ofList, upper.apply_pattern]
      exact Like.matches_pattern place }

theorem like_searches_street :
    ∃ pattern, Searches .atEnd ⟨"t0", "street", .string, some .upper⟩ "_straße" pattern ∧
      Like.Matches (Like.CaseMap.german.apply pattern.toList)
        (Like.CaseMap.german.apply "Haupt_Strasse".toList) := by
  obtain ⟨pattern, searches⟩ :=
    like_searches .atEnd ⟨"t0", "street", .string, some .upper⟩ "_straße"
  exact ⟨pattern, searches, (searches.cased _ _).mpr (by decide)⟩

end Filter

end RequestFilter
