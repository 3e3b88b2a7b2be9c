import RequestFilter.Proofs.Segments

namespace RequestFilter

namespace Text

variable {d : List Char}

/-- The first occurrence of `d` begins at position `n`. -/
def FirstAt (d cs : List Char) (n : Nat) : Prop := d <+: cs.drop n ∧ ∀ m < n, ¬ d <+: cs.drop m

theorem firstAt_iff {before after : List Char} :
    FirstAt d (before ++ (d ++ after)) before.length ↔ LastOnly d before := by
  have split (n : Nat) (inside : n < before.length) :
      (before ++ (d ++ after)).drop n = (before ++ d).drop n ++ after := by
    rw [← List.append_assoc, List.drop_append_of_le_length (by rw [List.length_append]; omega)]
  constructor
  · rintro ⟨_, first⟩ n inside found
    apply first n inside
    rw [split n inside]
    exact found.trans (List.prefix_append _ _)
  · intro only
    refine ⟨by rw [List.drop_left]; exact List.prefix_append d after, fun n inside found => ?_⟩
    rw [split n inside] at found
    refine only n inside (isPrefix_of_append found ?_)
    rw [List.length_drop, List.length_append]
    omega

/-- The parts of a text, cut at the leftmost occurrences of `d`. -/
structure LeftmostCut (d cs : List Char) (parts : List (List Char)) : Prop where
  nonempty : parts ≠ []
  joined : d.intercalate parts = cs
  first : ∀ earlier part later, parts = earlier ++ part :: later → later ≠ [] →
    FirstAt d (d.intercalate (part :: later)) part.length
  last : ∀ earlier part, parts = earlier ++ [part] → ¬ d <:+: part

namespace LeftmostCut

variable {cs part : List Char} {parts : List (List Char)}

theorem single (absent : ¬ d <:+: part) : LeftmostCut d part [part] where
  nonempty := List.cons_ne_nil part []
  joined := List.intercalate_singleton
  first earlier first later whole more := by
    have lengths := congrArg List.length whole
    have some := List.length_pos_iff.mpr more
    simp only [List.length_append, List.length_cons, List.length_nil] at lengths
    omega
  last earlier final whole := by
    have same := congrArg List.getLast? whole
    rw [List.getLast?_concat] at same
    cases same
    exact absent

theorem cons (only : LastOnly d part) (cut : LeftmostCut d cs parts) :
    LeftmostCut d (part ++ (d ++ cs)) (part :: parts) where
  nonempty := List.cons_ne_nil part parts
  joined := by rw [intercalate_cons cut.nonempty, cut.joined]
  first earlier first later whole more := by
    cases earlier with
    | nil =>
      obtain ⟨rfl, rfl⟩ := List.cons.inj whole
      rw [intercalate_cons more]
      exact firstAt_iff.mpr only
    | cons _ earlier => exact cut.first earlier first later (List.cons.inj whole).2 more
  last earlier final whole := by
    cases earlier with
    | nil => exact absurd (List.cons.inj whole).2 cut.nonempty
    | cons _ earlier => exact cut.last earlier final (List.cons.inj whole).2

theorem head (cut : LeftmostCut d cs (part :: parts)) (more : parts ≠ []) : LastOnly d part := by
  have first := cut.first [] part parts rfl more
  rw [intercalate_cons more] at first
  exact firstAt_iff.mp first

theorem tail (cut : LeftmostCut d cs (part :: parts)) (more : parts ≠ []) :
    LeftmostCut d (d.intercalate parts) parts where
  nonempty := more
  joined := rfl
  first earlier first later whole :=
    cut.first (part :: earlier) first later (congrArg (part :: ·) whole)
  last earlier final whole := cut.last (part :: earlier) final (congrArg (part :: ·) whole)

theorem segments_eq (cut : LeftmostCut d cs parts) (present : d ≠ []) : segments d cs = parts := by
  induction parts generalizing cs with
  | nil => exact absurd rfl cut.nonempty
  | cons part parts ih =>
    rw [← cut.joined]
    by_cases more : parts = []
    · subst more
      rw [List.intercalate_singleton, segments_single (cut.last [] part rfl)]
    · rw [intercalate_cons more, segments_cut present (cut.head more), ih (cut.tail more)]

end LeftmostCut

theorem leftmostCut_segments (present : d ≠ []) (cs : List Char) :
    LeftmostCut d cs (segments d cs) := by
  induction cs using cutInduction present with
  | single cs absent =>
    rw [segments_single absent]
    exact .single absent
  | cut before after only ih =>
    rw [segments_cut present only]
    exact ih.cons only

/-- Parts in which `d` shows up only where they are joined are cut there again. -/
theorem leftmostCut_intercalate {earlier : List (List Char)} {final : List Char}
    (only : ∀ part ∈ earlier, LastOnly d part) (absent : ¬ d <:+: final) :
    LeftmostCut d (d.intercalate (earlier ++ [final])) (earlier ++ [final]) := by
  induction earlier with
  | nil =>
    rw [List.nil_append, List.intercalate_singleton]
    exact .single absent
  | cons part earlier ih =>
    rw [List.cons_append, intercalate_cons (by simp)]
    exact (ih fun later member => only later (by simp [member])).cons (only part (by simp))

end Text

namespace Path

theorem segments_eq_iff {delimiter path : String} {names : List String} :
    segments delimiter path = names ↔
      Text.segments delimiter.toList path.toList = names.map String.toList := by
  rw [← map_toList_segments]
  exact (List.map_injective_iff.mpr fun _ _ => String.toList_inj.mp).eq_iff.symm

theorem segments_leftmost {delimiter : String} (present : delimiter ≠ "") :
    (∀ path names, segments delimiter path = names ↔
      Text.LeftmostCut delimiter.toList path.toList (names.map String.toList)) ∧
    ∀ earlier last, (∀ name ∈ earlier, Text.LastOnly delimiter.toList name.toList) →
      ¬ delimiter.toList <:+: last.toList →
      segments delimiter (ofSegments delimiter (earlier ++ [last])) = earlier ++ [last] := by
  have marks : delimiter.toList ≠ [] := by simpa using present
  have unique (path : String) (names : List String) : segments delimiter path = names ↔
      Text.LeftmostCut delimiter.toList path.toList (names.map String.toList) := by
    rw [segments_eq_iff]
    constructor
    · intro same
      rw [← same]
      exact Text.leftmostCut_segments marks path.toList
    · intro cut
      exact cut.segments_eq marks
  refine ⟨unique, fun earlier last only absent => (unique _ _).mpr ?_⟩
  have joined : Text.LeftmostCut delimiter.toList
      (delimiter.toList.intercalate (earlier.map String.toList ++ [last.toList]))
      (earlier.map String.toList ++ [last.toList]) :=
    Text.leftmostCut_intercalate (by simpa using only) absent
  rw [ofSegments, String.toList_intercalate, List.map_append]
  exact joined

/-- Five underscores are two delimiters and the first character of a name. -/
theorem segments_leftmost_underscores : "__" ≠ "" ∧
    (∀ name ∈ ["a", ""], Text.LastOnly "__".toList name.toList) ∧ ¬ "__".toList <:+: "_b".toList ∧
    segments "__" "a_____b" = ["a", "", "_b"] ∧
    Text.LeftmostCut "__".toList "a_____b".toList (["a", "", "_b"].map String.toList) := by
  have present : "__" ≠ "" := by decide
  have only : ∀ name ∈ ["a", ""], Text.LastOnly "__".toList name.toList := by decide
  have absent : ¬ "__".toList <:+: "_b".toList := by decide
  have again : segments "__" "a_____b" = ["a", "", "_b"] :=
    (segments_leftmost present).2 ["a", ""] "_b" only absent
  exact ⟨present, only, absent, again, ((segments_leftmost present).1 _ _).mp again⟩

end Path

end RequestFilter
