import Mathlib.Data.List.Nodup
import RequestFilter.Proofs.Keys
import RequestFilter.Proofs.Segments

namespace RequestFilter

namespace Text

variable {d : List Char}

theorem not_isInfix_of_cutLast? (present : d ≠ []) {cs : List Char} (uncut : cutLast? d cs = none) :
    ¬ d <:+: cs := by
  induction cs with
  | nil => simpa using present
  | cons c cs ih =>
    rw [List.infix_cons_iff, not_or]
    cases later : cutLast? d cs with
    | some parts => simp [cutLast?, later] at uncut
    | none =>
      refine ⟨fun here => ?_, ih later⟩
      simp [cutLast?, later, List.isPrefixOf_iff_prefix.mpr here] at uncut

theorem eq_append_of_cutLast? (present : d ≠ []) {cs before after : List Char}
    (cut : cutLast? d cs = some (before, after)) :
    cs = before ++ (d ++ after) ∧ FirstOnly d (d ++ after) := by
  induction cs generalizing before with
  | nil => simp [cutLast?, present] at cut
  | cons c cs ih =>
    cases later : cutLast? d cs with
    | some parts =>
      obtain ⟨front, rest⟩ := parts
      simp only [cutLast?, later, Option.some.injEq, Prod.mk.injEq] at cut
      obtain ⟨rfl, rfl⟩ := cut
      obtain ⟨rfl, only⟩ := ih later
      exact ⟨rfl, only⟩
    | none =>
      simp only [cutLast?, later] at cut
      split at cut
      · rename_i here
        simp only [Option.some.injEq, Prod.mk.injEq] at cut
        obtain ⟨rfl, rfl⟩ := cut
        have whole : c :: cs = d ++ (c :: cs).drop d.length :=
          List.prefix_append_drop (List.isPrefixOf_iff_prefix.mp here)
        refine ⟨whole, ?_⟩
        -- Behind its first character the text is `cs`, in which no `d` was found.
        rw [← whole]
        intro n behind found
        obtain ⟨n, rfl⟩ := Nat.exists_eq_succ_of_ne_zero (Nat.ne_of_gt behind)
        exact not_isInfix_of_cutLast? present later (isInfix_iff_drop.mpr ⟨n, found⟩)
      · cases cut

theorem firstOnly_iff_drop {before rest : List Char} :
    FirstOnly d rest ↔ ∀ n, before.length < n → ¬ d <+: (before ++ rest).drop n := by
  constructor
  · intro only n later
    rw [List.drop_append, List.drop_eq_nil_of_le (by omega), List.nil_append]
    exact only _ (by omega)
  · intro only n behind
    have shifted := only (before.length + n) (by omega)
    rwa [List.drop_append, List.drop_eq_nil_of_le (by omega), List.nil_append,
      Nat.add_sub_cancel_left] at shifted

/-- A delimiter without case is found wherever it is found in lower case. -/
theorem FirstOnly.of_lower (uncased : lower d = d) {cs : List Char} (only : FirstOnly d (lower cs)) :
    FirstOnly d cs := by
  intro n behind found
  apply only n behind
  have lowered : lower d <+: lower (cs.drop n) := found.map Char.toLower
  rwa [uncased, lower, List.map_drop] at lowered

end Text

namespace Operator

theorem mem_all (op : Operator) : op ∈ all := by
  cases op <;> decide

/-- Tokens differ in more than their case. -/
theorem token_injective {op other : Operator}
    (same : Text.lower op.token.toList = Text.lower other.token.toList) : op = other := by
  have distinct : (all.map fun op => Text.lower op.token.toList).Nodup := by decide
  exact List.inj_on_of_nodup_map distinct (mem_all op) (mem_all other) same

theorem token_of_ofToken? {op : Operator} {text : List Char} (found : ofToken? text = some op) :
    Text.equalIgnoringCase op.token.toList text = true := by
  unfold ofToken? at found
  have holds := List.find?_some found
  exact holds

theorem ofToken?_eq_some {op : Operator} {text : List Char} :
    ofToken? text = some op ↔ Text.equalIgnoringCase op.token.toList text = true := by
  constructor
  · exact token_of_ofToken?
  · intro named
    have known : (ofToken? text).isSome := List.find?_isSome.mpr ⟨op, mem_all op, named⟩
    obtain ⟨found, first⟩ := Option.isSome_iff_exists.mp known
    have other : Text.equalIgnoringCase found.token.toList text = true := token_of_ofToken? first
    simp only [Text.equalIgnoringCase, beq_iff_eq] at named other
    rw [first, token_injective (other.trans named.symm)]

theorem firstOnly_token (op : Operator) {suffix : List Char}
    (named : Text.equalIgnoringCase op.token.toList suffix = true) :
    Text.FirstOnly ['_', '_'] (['_', '_'] ++ suffix) := by
  have each : ∀ op ∈ all, Text.FirstOnly ['_', '_'] (['_', '_'] ++ Text.lower op.token.toList) := by
    decide
  have lowered := each op (mem_all op)
  simp only [Text.equalIgnoringCase, beq_iff_eq] at named
  rw [named] at lowered
  have uncased : Text.lower ['_', '_'] = ['_', '_'] := by decide
  have both : Text.lower (['_', '_'] ++ suffix) = ['_', '_'] ++ Text.lower suffix := by
    rw [Text.lower, List.map_append]
    exact congrArg (· ++ _) uncased
  exact .of_lower uncased (both ▸ lowered)

end Operator

namespace Settings

/-- The key is a path, the delimiter and a token of the operator in any case, and no delimiter
starts behind that one. -/
structure Cut (settings : Settings) (key path : String) (op : Operator) (suffix : String) : Prop where
  nonempty : path ≠ ""
  whole : key = path ++ settings.delimiter ++ suffix
  token : Text.equalIgnoringCase op.token.toList suffix.toList = true
  last : ∀ n, path.toList.length < n → ¬ settings.delimiter.toList <+: key.toList.drop n

structure DecodesSuffixes (settings : Settings) : Prop where
  sound : ∀ key, settings.splitKey key = (key, settings.defaultOperator) ∨
    ∃ path op suffix, settings.splitKey key = (path, op) ∧ settings.Cut key path op suffix
  complete : ∀ {key path op suffix}, settings.Cut key path op suffix →
    settings.splitKey key = (path, op)
  roundTrip : ∀ {path op suffix}, path ≠ "" →
    Text.equalIgnoringCase op.token.toList suffix.toList = true →
    (settings.splitKey (path ++ settings.delimiter ++ suffix) = (path, op) ↔
      Text.FirstOnly settings.delimiter.toList (settings.delimiter.toList ++ suffix.toList))
  underscores : settings.delimiter = "__" → ∀ {path op suffix}, path ≠ "" →
    Text.equalIgnoringCase op.token.toList suffix.toList = true →
    settings.splitKey (path ++ "__" ++ suffix) = (path, op)

variable {settings : Settings} {key path suffix : String} {op : Operator}

theorem toList_whole (settings : Settings) (path suffix : String) :
    (path ++ settings.delimiter ++ suffix).toList =
      path.toList ++ (settings.delimiter.toList ++ suffix.toList) := by
  rw [String.toList_append, String.toList_append, List.append_assoc]

theorem Cut.firstOnly (cut : settings.Cut key path op suffix) :
    Text.FirstOnly settings.delimiter.toList (settings.delimiter.toList ++ suffix.toList) := by
  have last := cut.last
  rw [cut.whole, toList_whole] at last
  exact Text.firstOnly_iff_drop.mpr last

theorem Cut.splitKey (cut : settings.Cut key path op suffix) :
    settings.splitKey key = (path, op) := by
  have parts : Text.cutLast? settings.delimiter.toList key.toList =
      some (path.toList, suffix.toList) := by
    rw [cut.whole, toList_whole]
    exact Text.cutLast?_append cut.firstOnly _
  have left : path.toList.isEmpty = false := by simpa using cut.nonempty
  simp [Settings.splitKey, parts, left, Operator.ofToken?_eq_some.mpr cut.token]

theorem splitKey_cases (present : settings.delimiter ≠ "") (key : String) :
    settings.splitKey key = (key, settings.defaultOperator) ∨
      ∃ path op suffix, settings.splitKey key = (path, op) ∧ settings.Cut key path op suffix := by
  unfold Settings.splitKey
  cases cut : Text.cutLast? settings.delimiter.toList key.toList with
  | none => exact .inl rfl
  | some parts =>
    obtain ⟨path, suffix⟩ := parts
    dsimp only
    by_cases left : path.isEmpty
    · rw [if_pos left]
      exact .inl rfl
    · rw [if_neg left]
      cases named : Operator.ofToken? suffix with
      | none => exact .inl rfl
      | some op =>
        have delimiter : settings.delimiter.toList ≠ [] := by simpa using present
        obtain ⟨whole, only⟩ := Text.eq_append_of_cutLast? delimiter cut
        refine .inr ⟨String.ofList path, op, String.ofList suffix, rfl, ?_⟩
        exact {
          nonempty := by simpa using left
          whole := by
            apply String.toList_inj.mp
            rw [whole, toList_whole, String.toList_ofList, String.toList_ofList]
          token := by
            rw [String.toList_ofList]
            exact Operator.ofToken?_eq_some.mp named
          last := by
            rw [whole, String.toList_ofList]
            exact Text.firstOnly_iff_drop.mp only }

/-- A key is never its own beginning, so what stays of it tells where it was cut. -/
theorem cut_of_splitKey (present : settings.delimiter ≠ "")
    (left : (settings.splitKey (path ++ settings.delimiter ++ suffix)).1 = path) :
    ∃ op, settings.Cut (path ++ settings.delimiter ++ suffix) path op suffix := by
  rcases splitKey_cases present (path ++ settings.delimiter ++ suffix) with
    uncut | ⟨front, op, rest, split, cut⟩
  · rw [uncut] at left
    have texts := congrArg String.toList left
    rw [toList_whole] at texts
    simp [present] at texts
  · rw [split] at left
    obtain rfl : front = path := left
    have texts := congrArg String.toList cut.whole
    rw [toList_whole, toList_whole] at texts
    have same : suffix = rest := String.toList_inj.mp (by simpa using texts)
    exact ⟨op, same ▸ cut⟩

theorem splitKey_append (present : settings.delimiter ≠ "") (nonempty : path ≠ "")
    (token : Text.equalIgnoringCase op.token.toList suffix.toList = true) :
    settings.splitKey (path ++ settings.delimiter ++ suffix) = (path, op) ↔
      Text.FirstOnly settings.delimiter.toList (settings.delimiter.toList ++ suffix.toList) := by
  constructor
  · intro split
    have left : (settings.splitKey (path ++ settings.delimiter ++ suffix)).1 = path := by rw [split]
    obtain ⟨_, cut⟩ := cut_of_splitKey present left
    exact cut.firstOnly
  · intro only
    have last : ∀ n, path.toList.length < n →
        ¬ settings.delimiter.toList <+: (path ++ settings.delimiter ++ suffix).toList.drop n := by
      rw [toList_whole]
      exact Text.firstOnly_iff_drop.mp only
    have cut : settings.Cut (path ++ settings.delimiter ++ suffix) path op suffix :=
      ⟨nonempty, rfl, token, last⟩
    exact cut.splitKey

theorem decodesSuffixes (present : settings.delimiter ≠ "") : settings.DecodesSuffixes where
  sound := splitKey_cases present
  complete := Cut.splitKey
  roundTrip := splitKey_append present
  underscores := by
    intro standard path op suffix nonempty token
    rw [← standard, splitKey_append present nonempty token, standard]
    exact op.firstOnly_token token

/-- With one underscore a token that has one in it is cut in two. -/
theorem decodesSuffixes_underscore :
    let settings : Settings := { standard with delimiter := "_" }
    settings.delimiter ≠ "" ∧ settings.DecodesSuffixes ∧
      settings.splitKey ("first_name" ++ "_" ++ "IN") = ("first_name", .within) ∧
      settings.splitKey ("first_name" ++ "_" ++ "not_in") ≠ ("first_name", .notWithin) := by
  intro settings
  have present : settings.delimiter ≠ "" := by decide
  have decodes := decodesSuffixes present
  refine ⟨present, decodes, ?_, ?_⟩
  · exact (decodes.roundTrip (by decide) (by decide)).mpr (by decide)
  · exact fun split => absurd ((decodes.roundTrip (by decide) (by decide)).mp split) (by decide)

end Settings

end RequestFilter
