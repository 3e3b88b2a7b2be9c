import Mathlib.Data.List.Infix
import RequestFilter.Path

namespace RequestFilter

namespace Text

variable {d : List Char}

/-- With `d` behind the text, `d` starts only where the text ends. -/
def LastOnly (d cs : List Char) : Prop := ∀ n < cs.length, ¬ d <+: (cs ++ d).drop n

instance (cs : List Char) : Decidable (LastOnly d cs) :=
  inferInstanceAs (Decidable (∀ n < cs.length, ¬ d <+: (cs ++ d).drop n))

theorem isInfix_iff_drop {cs : List Char} : d <:+: cs ↔ ∃ n, d <+: cs.drop n := by
  constructor
  · rintro ⟨before, after, rfl⟩
    refine ⟨before.length, after, ?_⟩
    rw [List.append_assoc, List.drop_left]
  · rintro ⟨n, found⟩
    exact found.isInfix.trans (List.drop_suffix n cs).isInfix

/-- What starts with `d` and goes on with more does so by what it needs for `d` alone. -/
theorem isPrefix_of_append {front more : List Char} (found : d <+: front ++ more)
    (long : d.length ≤ front.length) : d <+: front :=
  List.prefix_of_prefix_length_le found (List.prefix_append front more) long

namespace LastOnly

variable {c : Char} {cs : List Char}

theorem not_isPrefix (only : LastOnly d (c :: cs)) (after : List Char) :
    ¬ d <+: c :: (cs ++ (d ++ after)) := by
  intro found
  have split : c :: (cs ++ (d ++ after)) = (c :: cs ++ d) ++ after := by simp
  rw [split] at found
  exact only 0 (by simp) (isPrefix_of_append found (by simp; omega))

theorem tail (only : LastOnly d (c :: cs)) : LastOnly d cs :=
  fun n inside => only (n + 1) (Nat.succ_lt_succ inside)

theorem cons (first : ¬ d <+: c :: (cs ++ d)) (only : LastOnly d cs) : LastOnly d (c :: cs) := by
  intro n inside
  cases n with
  | zero => exact first
  | succ n => exact only n (Nat.lt_of_succ_lt_succ inside)

end LastOnly

theorem exists_leftmost {cs : List Char} (found : d <:+: cs) :
    ∃ before after, cs = before ++ (d ++ after) ∧ LastOnly d before := by
  induction cs with
  | nil =>
    obtain rfl := List.infix_nil.mp found
    exact ⟨[], [], rfl, nofun⟩
  | cons c cs ih =>
    by_cases here : d <+: c :: cs
    · obtain ⟨after, whole⟩ := here
      exact ⟨[], after, whole.symm, nofun⟩
    · have later : d <:+: cs := (List.infix_cons_iff.mp found).resolve_left here
      obtain ⟨before, after, rfl, only⟩ := ih later
      refine ⟨c :: before, after, rfl, only.cons fun early => here ?_⟩
      have longer : c :: (before ++ d) <+: c :: (before ++ (d ++ after)) := ⟨after, by simp⟩
      exact early.trans longer

/-- Induction on a text along its segments. -/
@[elab_as_elim]
theorem cutInduction {motive : List Char → Prop} (present : d ≠ [])
    (single : ∀ cs, ¬ d <:+: cs → motive cs)
    (cut : ∀ before after, LastOnly d before → motive after → motive (before ++ (d ++ after)))
    (cs : List Char) : motive cs := by
  by_cases found : d <:+: cs
  · obtain ⟨before, after, rfl, only⟩ := exists_leftmost found
    exact cut before after only (cutInduction present single cut after)
  · exact single cs found
termination_by cs.length
decreasing_by
  have := List.length_pos_iff.mpr present
  simp [*]
  omega

theorem segmentsFrom_skip (skip : Nat) (cs : List Char) :
    segmentsFrom d skip cs = segmentsFrom d 0 (cs.drop skip) := by
  induction skip generalizing cs with
  | zero => rfl
  | succ skip ih =>
    cases cs with
    | nil => rfl
    | cons c cs => exact ih cs

theorem segments_of_ne_nil (present : d ≠ []) (cs : List Char) :
    segments d cs = segmentsFrom d 0 cs := by
  cases d with
  | nil => exact absurd rfl present
  | cons c d => rfl

theorem segments_nil (present : d ≠ []) : segments d [] = [[]] := segments_of_ne_nil present []

theorem segments_delimiter (present : d ≠ []) (after : List Char) :
    segments d (d ++ after) = [] :: segments d after := by
  rw [segments_of_ne_nil present, segments_of_ne_nil present]
  cases d with
  | nil => exact absurd rfl present
  | cons c d =>
    have here : (c :: d).isPrefixOf (c :: (d ++ after)) = true := by simp
    rw [List.cons_append, segmentsFrom, if_pos here, segmentsFrom_skip]
    simp

theorem segments_cons {c : Char} {cs : List Char} (other : ¬ d <+: c :: cs) :
    segments d (c :: cs) = consFirst c (segments d cs) := by
  have present : d ≠ [] := by
    rintro rfl
    exact other List.nil_prefix
  rw [segments_of_ne_nil present, segments_of_ne_nil present, segmentsFrom,
    if_neg fun found => other (List.isPrefixOf_iff_prefix.mp found)]

theorem segments_single {cs : List Char} (absent : ¬ d <:+: cs) : segments d cs = [cs] := by
  have present : d ≠ [] := by
    rintro rfl
    exact absent (List.nil_infix)
  induction cs with
  | nil => exact segments_nil present
  | cons c cs ih =>
    rw [List.infix_cons_iff, not_or] at absent
    rw [segments_cons absent.1, ih absent.2, consFirst]

theorem segments_cut (present : d ≠ []) {before : List Char} (only : LastOnly d before)
    (after : List Char) : segments d (before ++ (d ++ after)) = before :: segments d after := by
  induction before with
  | nil => exact segments_delimiter present after
  | cons c before ih =>
    rw [List.cons_append, segments_cons (only.not_isPrefix after), ih only.tail, consFirst]

theorem segments_ne_nil (d cs : List Char) : segments d cs ≠ [] := by
  by_cases present : d = []
  · simp [segments, present]
  · induction cs using cutInduction present with
    | single cs absent => simp [segments_single absent]
    | cut before after only ih => simp [segments_cut present only]

/-- Only the last segment of a text is cut again when the text goes on. -/
theorem exists_lastSegment (present : d ≠ []) (cs : List Char) :
    ∃ earlier last, ¬ d <:+: last ∧
      ∀ more, segments d (cs ++ more) = earlier ++ segments d (last ++ more) := by
  induction cs using cutInduction present with
  | single cs absent => exact ⟨[], cs, absent, fun more => rfl⟩
  | cut before after only ih =>
    obtain ⟨earlier, last, absent, goesOn⟩ := ih
    refine ⟨before :: earlier, last, absent, fun more => ?_⟩
    rw [List.append_assoc, List.append_assoc, segments_cut present only, goesOn, List.cons_append]

theorem intercalate_cons {first : List Char} {rest : List (List Char)} (more : rest ≠ []) :
    d.intercalate (first :: rest) = first ++ (d ++ d.intercalate rest) := by
  cases rest with
  | nil => exact absurd rfl more
  | cons second rest => rw [List.intercalate_cons_cons, List.append_assoc]

theorem intercalate_segments (d cs : List Char) : d.intercalate (segments d cs) = cs := by
  by_cases present : d = []
  · subst present
    have joined (parts : List (List Char)) : ([] : List Char).intercalate parts = parts.flatten := by
      induction parts with
      | nil => rfl
      | cons first rest ih =>
        cases rest with
        | nil => rfl
        | cons second rest => rw [intercalate_cons (by simp), ih]; simp
    rw [joined]
    simp [segments, List.flatten_append, ← List.flatMap_def]
  · induction cs using cutInduction present with
    | single cs absent => simp [segments_single absent, List.intercalate]
    | cut before after only ih =>
      rw [segments_cut present only, intercalate_cons (segments_ne_nil d after), ih]

end Text

namespace Path

variable (delimiter : String)

theorem map_toList_segments (path : String) :
    (segments delimiter path).map String.toList =
      Text.segments delimiter.toList path.toList := by
  rw [segments, List.map_map]
  exact (List.map_congr_left fun cs _ => String.toList_ofList).trans (List.map_id _)

theorem ofSegments_segments (path : String) :
    ofSegments delimiter (segments delimiter path) = path := by
  apply String.toList_inj.mp
  rw [ofSegments, String.toList_intercalate, map_toList_segments, Text.intercalate_segments]

theorem ofSegments_append {names more : List String} (some : names ≠ []) (rest : more ≠ []) :
    ofSegments delimiter (names ++ more) =
      ofSegments delimiter names ++ delimiter ++ ofSegments delimiter more := by
  apply String.toList_inj.mp
  simp only [ofSegments, String.toList_append, String.toList_intercalate, List.map_append]
  induction names with
  | nil => exact absurd rfl some
  | cons name names ih =>
    rw [List.map_cons, List.cons_append, Text.intercalate_cons (by simp [rest])]
    cases names with
    | nil => simp [List.intercalate]
    | cons next names =>
      rw [ih (by simp), Text.intercalate_cons (by simp)]
      simp

end Path

end RequestFilter
