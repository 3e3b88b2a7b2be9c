import Mathlib.Data.List.Infix
import RequestFilter.Request.Syntax

namespace RequestFilter

namespace Text

variable {d : List Char}

/-- No other `d` starts behind the first character. -/
def FirstOnly (d cs : List Char) : Prop := ∀ n, 0 < n → ¬ d <+: cs.drop n

theorem firstOnly_iff {cs : List Char} :
    FirstOnly d cs ↔ ∀ n < cs.length + 1, ¬ d <+: cs.drop (n + 1) := by
  refine ⟨fun only n _ => only (n + 1) n.succ_pos, fun only n later => ?_⟩
  by_cases inside : n < cs.length + 1
  · have shifted := only (n - 1) (by omega)
    rwa [Nat.sub_add_cancel later] at shifted
  · have last := only cs.length (by omega)
    rw [List.drop_eq_nil_of_le (by omega)] at last ⊢
    exact last

instance (cs : List Char) : Decidable (FirstOnly d cs) := decidable_of_iff _ firstOnly_iff.symm

theorem cutLast?_eq_none {cs : List Char} (absent : ∀ n, ¬ d <+: cs.drop n) :
    cutLast? d cs = none := by
  induction cs with
  | nil =>
    have first := absent 0
    cases d with
    | nil => exact absurd List.nil_prefix first
    | cons => rfl
  | cons c cs ih =>
    have here : ¬ d.isPrefixOf (c :: cs) = true := fun found =>
      absent 0 (List.isPrefixOf_iff_prefix.mp found)
    have later : cutLast? d cs = none := ih fun n => absent (n + 1)
    rw [cutLast?, later]
    exact if_neg here

theorem cutLast?_append {after : List Char} (only : FirstOnly d (d ++ after)) (before : List Char) :
    cutLast? d (before ++ (d ++ after)) = some (before, after) := by
  induction before with
  | nil =>
    cases d with
    | nil => exact absurd List.nil_prefix (only 1 Nat.one_pos)
    | cons c d =>
      -- The cut is looked for from the end, and nothing is found before its place is reached.
      have later : cutLast? (c :: d) (d ++ after) = none :=
        cutLast?_eq_none fun n => only (n + 1) n.succ_pos
      have here : (c :: d).isPrefixOf (c :: (d ++ after)) = true := by simp
      rw [List.nil_append, List.cons_append, cutLast?, later, here]
      simp
  | cons c before ih =>
    rw [List.cons_append, cutLast?, ih]

end Text

/-- A path, an operator and a value as texts. -/
structure Clause where
  field : String
  token : String
  value : String
  deriving DecidableEq, Repr

namespace Clause

def key (clause : Clause) (settings : Settings) : String :=
  clause.field ++ settings.delimiter ++ clause.token

def pair (clause : Clause) (settings : Settings) : String × String :=
  (clause.key settings, clause.value)

def entry (clause : Clause) : Entry := ⟨clause.field, some clause.token, clause.value⟩

/-- The clause can be written in both syntaxes: it has a path, its operator is known, and no
delimiter starts within the one before the token or behind it. -/
structure WellFormed (clause : Clause) (settings : Settings) : Prop where
  field : Text.isBlankText clause.field = false
  operator : (Operator.ofToken? clause.token.toList).isSome
  token : Text.FirstOnly settings.delimiter.toList
    (settings.delimiter.toList ++ clause.token.toList)

instance (clause : Clause) (settings : Settings) : Decidable (clause.WellFormed settings) :=
  decidable_of_iff
    (Text.isBlankText clause.field = false ∧ (Operator.ofToken? clause.token.toList).isSome ∧
      Text.FirstOnly settings.delimiter.toList
        (settings.delimiter.toList ++ clause.token.toList))
    ⟨fun ⟨field, operator, token⟩ => ⟨field, operator, token⟩,
      fun formed => ⟨formed.field, formed.operator, formed.token⟩⟩

/-- The criterion asks for what the clause says. -/
structure Asks (clause : Clause) (settings : Settings) (criterion : Criterion) : Prop where
  path : criterion.path = clause.field
  operator : Operator.ofToken? clause.token.toList = some criterion.operator
  values : criterion.values = settings.splitValues clause.value

variable {settings : Settings} {clause : Clause}

theorem splitKey_key (formed : clause.WellFormed settings) :
    (settings.splitKey (clause.key settings)).1 = clause.field ∧
      Operator.ofToken? clause.token.toList =
        some (settings.splitKey (clause.key settings)).2 := by
  obtain ⟨op, known⟩ := Option.isSome_iff_exists.mp formed.operator
  have cut : Text.cutLast? settings.delimiter.toList (clause.key settings).toList =
      some (clause.field.toList, clause.token.toList) := by
    rw [key, String.toList_append, String.toList_append, List.append_assoc]
    exact Text.cutLast?_append formed.token _
  have present : clause.field.toList.isEmpty = false := by
    cases empty : clause.field.toList with
    | nil =>
      have blank : Text.isBlankText clause.field = true := by
        rw [Text.isBlankText, empty]
        rfl
      exact absurd (formed.field.symm.trans blank) (by decide)
    | cons => rfl
  simp [Settings.splitKey, cut, present, known]

theorem asks_pair (formed : clause.WellFormed settings) :
    clause.Asks settings (settings.criterionOfPair (clause.pair settings)) where
  path := (splitKey_key formed).1
  operator := (splitKey_key formed).2
  values := rfl

theorem asks_entry (formed : clause.WellFormed settings) :
    ∃ criterion, settings.criterionOfEntry? clause.entry = some criterion ∧
      clause.Asks settings criterion := by
  obtain ⟨op, known⟩ := Option.isSome_iff_exists.mp formed.operator
  refine ⟨⟨clause.field, clause.field, op, settings.splitValues clause.value, .body⟩, ?_,
    rfl, known, rfl⟩
  simp [Settings.criterionOfEntry?, Settings.entryOperator, entry, formed.field, known]

end Clause

end RequestFilter
