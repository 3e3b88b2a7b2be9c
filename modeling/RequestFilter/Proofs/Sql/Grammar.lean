import RequestFilter.Proofs.Sql.Token

/-!
`NOT` binds tighter than `AND`, and `AND` tighter than `OR`; chains of one connective have any number
of members, and parentheses group.
-/

namespace RequestFilter

namespace Sql

structure Operand where
  source : Option String
  name : String
  transform : Option Transform
  deriving DecidableEq, Repr

inductive Test (α : Type) where
  | compare (comparison : Comparison) (value : α)
  | between (low high : α)
  | member (negated : Bool) (first : α) (more : List α)
  | like (upper : Bool) (pattern : α)
  | nullCheck (negated : Bool)

/-- What a predicate says, with its values in place of the parameters or with their numbers. -/
inductive Reading (α : Type) where
  | constant (value : Bool)
  | test (operand : Operand) (test : Test α)
  | not (reading : Reading α)
  | junction (connective : Connective) (first second : Reading α) (more : List (Reading α))

/-- A junction of any number of readings. One is itself, and none is what the connective leaves
alone. -/
def Reading.join {α : Type} (connective : Connective) : List (Reading α) → Reading α
  | [] => constant (connective = .and)
  | [reading] => reading
  | first :: second :: more => junction connective first second more

def Test.map {α β : Type} (f : α → β) : Test α → Test β
  | compare comparison value => compare comparison (f value)
  | between low high => between (f low) (f high)
  | member negated first more => member negated (f first) (more.map f)
  | like upper pattern => like upper (f pattern)
  | nullCheck negated => nullCheck negated

namespace Reading

variable {α β : Type} (f : α → β)

mutual

def map : Reading α → Reading β
  | constant value => constant value
  | test operand asked => .test operand (asked.map f)
  | not reading => not (map reading)
  | junction connective first second more =>
    junction connective (map first) (map second) (mapAll more)

def mapAll : List (Reading α) → List (Reading β)
  | [] => []
  | reading :: rest => map reading :: mapAll rest

end

theorem mapAll_eq_map (readings : List (Reading α)) : mapAll f readings = readings.map (map f) := by
  induction readings with
  | nil => rfl
  | cons reading rest ih => rw [mapAll, ih, List.map_cons]

theorem map_join (connective : Connective) (readings : List (Reading α)) :
    (join connective readings).map f = join connective (readings.map (map f)) := by
  match readings with
  | [] => rfl
  | [_] => rfl
  | first :: second :: more =>
    rw [join, map, mapAll_eq_map]
    rfl

end Reading

def SameWord (written word : String) : Prop :=
  Text.equalIgnoringCase written.toList word.toList = true

def reference (source : Option String) (name : String) : List Token :=
  match source with
  | none => [.name name]
  | some source => [.name source, .dot, .name name]

inductive Operand.Spelled : Operand → List Token → Prop
  | plain (source : Option String) (name : String) :
      Spelled ⟨source, name, none⟩ (reference source name)
  | upper (source : Option String) (name : String) {function : String}
      (called : SameWord function "UPPER") :
      Spelled ⟨source, name, some .upper⟩
        (.name function :: .opening :: reference source name ++ [.closing])
  | utc (source : Option String) (name : String) {preposition time zone : String}
      (first : SameWord preposition "AT") (second : SameWord time "TIME") (third : SameWord zone "ZONE") :
      Spelled ⟨source, name, some .utc⟩
        (.opening :: reference source name ++
          [.name preposition, .name time, .name zone, .literal "UTC", .closing])

def negation (negated : Bool) : List Token := if negated then [.keyword .not] else []

def placeholders (first : Nat) (more : List Nat) : List Token :=
  .placeholder first :: more.flatMap fun i => [.comma, .placeholder i]

inductive Test.Spelled : Test Nat → List Token → Prop
  | compare (comparison : Comparison) (i : Nat) :
      Spelled (.compare comparison i) [.sign comparison, .placeholder i]
  | between (low high : Nat) :
      Spelled (.between low high)
        [.keyword .between, .placeholder low, .keyword .and, .placeholder high]
  | member (negated : Bool) (first : Nat) (more : List Nat) :
      Spelled (.member negated first more)
        (negation negated ++ .keyword .within :: .opening :: placeholders first more ++ [.closing])
  | like (i : Nat) :
      Spelled (.like false i) [.keyword .like, .placeholder i, .keyword .escape, .literal "\\"]
  | likeUpper {function : String} (called : SameWord function "UPPER") (i : Nat) :
      Spelled (.like true i)
        [.keyword .like, .name function, .opening, .placeholder i, .closing, .keyword .escape,
          .literal "\\"]
  | nullCheck (negated : Bool) :
      Spelled (.nullCheck negated) (.keyword .is :: negation negated ++ [.keyword .null])

inductive Level where
  | primary | negation
  | chain (connective : Connective)

end Sql

def Connective.word : Connective → Sql.Keyword
  | .and => .and
  | .or => .or

/-- What the connective joins without parentheses. -/
def Connective.member : Connective → Sql.Level
  | .and => .negation
  | .or => .chain .and

namespace Sql

inductive Derives : Level → List Token → Reading Nat → Prop
  | constant (value : Bool) :
      Derives .primary [.keyword (if value then .truth else .falsity)] (.constant value)
  | test {operand : Operand} {test : Test Nat} {ts us : List Token} (tested : operand.Spelled ts)
      (spelled : test.Spelled us) : Derives .primary (ts ++ us) (.test operand test)
  | group {ts : List Token} {reading : Reading Nat} (inner : Derives (.chain .or) ts reading) :
      Derives .primary (.opening :: ts ++ [.closing]) reading
  | primary {ts : List Token} {reading : Reading Nat} (inner : Derives .primary ts reading) :
      Derives .negation ts reading
  | not {ts : List Token} {reading : Reading Nat} (inner : Derives .negation ts reading) :
      Derives .negation (.keyword .not :: ts) (.not reading)
  | chain {connective : Connective} {ts : List Token} {reading : Reading Nat}
      {more : List (List Token × Reading Nat)} (first : Derives connective.member ts reading)
      (each : ∀ part ∈ more, Derives connective.member part.1 part.2) :
      Derives (.chain connective)
        (ts ++ more.flatMap fun part => .keyword connective.word :: part.1)
        (.join connective (reading :: more.map Prod.snd))

theorem Derives.single (connective : Connective) {ts : List Token} {reading : Reading Nat}
    (derives : Derives connective.member ts reading) : Derives (.chain connective) ts reading := by
  let more : List (List Token × Reading Nat) := []
  have chain : Derives (.chain connective)
      (ts ++ more.flatMap fun part => .keyword connective.word :: part.1)
      (.join connective (reading :: more.map Prod.snd)) := .chain derives (by simp [more])
  rwa [List.flatMap_nil, List.append_nil] at chain

theorem Derives.lift {ts : List Token} {reading : Reading Nat} (derives : Derives .negation ts reading)
    (connective : Connective) : Derives connective.member ts reading := by
  cases connective with
  | and => exact derives
  | or => exact .single .and derives

theorem Derives.top {connective : Connective} {ts : List Token} {reading : Reading Nat}
    (derives : Derives (.chain connective) ts reading) : Derives (.chain .or) ts reading := by
  cases connective with
  | or => exact derives
  | and => exact .single .or derives

/-- The text has the reading. -/
def Reads (text : List Char) (reading : Reading Nat) : Prop :=
  Derives (.chain .or) (tokens text) reading

end Sql

end RequestFilter
