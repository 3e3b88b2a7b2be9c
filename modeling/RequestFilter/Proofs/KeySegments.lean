import RequestFilter.Proofs.Suffixes

namespace RequestFilter

namespace Text

variable {d : List Char}

/-- The text does not overlap itself: no proper end of it is also its beginning. -/
def Unbordered (d : List Char) : Prop := ∀ n, 0 < n → n < d.length → ¬ d.drop n <+: d

/-- Where no `d` is, one that starts there reaches into what stands behind. -/
theorem lt_of_isPrefix_drop {last : List Char} (absent : ¬ d <:+: last) {n : Nat}
    (found : d <+: last.drop n ++ d) : last.length < n + d.length := by
  by_contra short
  have front : d <+: last.drop n :=
    isPrefix_of_append found (by rw [List.length_drop]; omega)
  exact absent (isInfix_iff_drop.mpr ⟨n, front⟩)

theorem Unbordered.lastOnly (unbordered : Unbordered d) {last : List Char} (absent : ¬ d <:+: last) :
    LastOnly d last := by
  intro n inside found
  rw [List.drop_append_of_le_length (Nat.le_of_lt inside)] at found
  have reaches := lt_of_isPrefix_drop absent found
  have overlap := found.drop (last.length - n)
  rw [List.drop_left' List.length_drop] at overlap
  exact unbordered _ (by omega) (by omega) overlap

theorem lastOnly_underscores {last : List Char} (absent : ¬ ['_', '_'] <:+: last) :
    LastOnly ['_', '_'] last ↔ last.getLast? ≠ some '_' := by
  constructor
  · intro only ends
    obtain ⟨front, rfl⟩ := List.getLast?_eq_some_iff.mp ends
    apply only front.length (by simp)
    rw [List.append_assoc, List.drop_left]
    exact ⟨['_'], rfl⟩
  · intro other n inside found
    rw [List.drop_append_of_le_length (Nat.le_of_lt inside)] at found
    have reaches : last.length < n + 2 := lt_of_isPrefix_drop absent found
    obtain ⟨c, final⟩ : ∃ c, last.drop n = [c] :=
      List.length_eq_one_iff.mp (by rw [List.length_drop]; omega)
    rw [final] at found
    obtain rfl : '_' = c := (List.cons_prefix_cons.mp found).1
    apply other
    have ends : (last.drop n).getLast? = last.getLast? := by
      rw [List.getLast?_drop, if_neg (Nat.not_le_of_lt inside)]
    rw [← ends, final]
    rfl

theorem FirstOnly.not_isInfix (present : d ≠ []) {suffix : List Char}
    (only : FirstOnly d (d ++ suffix)) : ¬ d <:+: suffix := by
  intro again
  obtain ⟨n, later⟩ := isInfix_iff_drop.mp again
  have length := List.length_pos_iff.mpr present
  have behind : (d ++ suffix).drop (d.length + n) = suffix.drop n := List.drop_length_add_append n
  rw [← behind] at later
  exact only _ (by omega) later

/-- The first delimiter that starts in the last segment or behind it ends behind the segment, and so
it is the last one as well. -/
theorem exists_lastCut {last suffix : List Char} (absent : ¬ d <:+: last)
    (only : FirstOnly d (d ++ suffix)) :
    ∃ front rest, last ++ (d ++ suffix) = front ++ (d ++ rest) ∧ LastOnly d front ∧
      ¬ d <:+: rest := by
  have found : d <:+: last ++ (d ++ suffix) := ⟨last, suffix, by simp⟩
  obtain ⟨front, rest, whole, leftmost⟩ := exists_leftmost found
  have covered : last.length < front.length + d.length := by
    by_contra short
    have begins : front ++ d <+: last ++ (d ++ suffix) := by
      rw [whole, ← List.append_assoc]
      exact List.prefix_append _ _
    have within : front ++ d <+: last :=
      isPrefix_of_append begins (by rw [List.length_append]; omega)
    exact absent ((List.suffix_append front d).isInfix.trans within.isInfix)
  refine ⟨front, rest, whole, leftmost, fun again => ?_⟩
  obtain ⟨n, later⟩ := isInfix_iff_drop.mp again
  have behind : (last ++ (d ++ suffix)).drop (front.length + d.length + n) = rest.drop n := by
    rw [whole, ← List.append_assoc, ← List.length_append, List.drop_length_add_append]
  rw [← behind] at later
  exact firstOnly_iff_drop.mp only _ (by omega) later

theorem segments_lastCut {last suffix : List Char} (present : d ≠ []) (absent : ¬ d <:+: last)
    (only : FirstOnly d (d ++ suffix)) :
    ∃ front rest, last ++ (d ++ suffix) = front ++ (d ++ rest) ∧ LastOnly d front ∧
      segments d (last ++ (d ++ suffix)) = [front, rest] ∧
      (segments d (last ++ (d ++ suffix)) = [last, suffix] ↔ LastOnly d last) := by
  obtain ⟨front, rest, whole, leftmost, free⟩ := exists_lastCut absent only
  have parts : segments d (last ++ (d ++ suffix)) = [front, rest] := by
    rw [whole, segments_cut present leftmost, segments_single free]
  refine ⟨front, rest, whole, leftmost, parts, fun same => ?_, fun final => ?_⟩
  · obtain ⟨rfl, _⟩ := List.cons.inj (parts.symm.trans same)
    exact leftmost
  · rw [segments_cut present final, segments_single (only.not_isInfix present)]

end Text

namespace Settings

/-- How a key is segmented from which an operator was cut off behind the path. The segments of the
path come first, but for the last of them: that one is cut again together with what stands behind it,
at the first delimiter. -/
structure Segmented (settings : Settings) (key path suffix : String) (earlier : List String)
    (last : String) : Prop where
  ofPath : Path.segments settings.delimiter path = earlier ++ [last]
  ofKey : ∃ front rest, Path.segments settings.delimiter key = earlier ++ [front, rest] ∧
    last ++ settings.delimiter ++ suffix = front ++ settings.delimiter ++ rest ∧
    Text.LastOnly settings.delimiter.toList front.toList
  lastSegment_iff : Path.segments settings.delimiter key =
      Path.segments settings.delimiter path ++ [suffix] ↔
    Text.LastOnly settings.delimiter.toList last.toList
  unbordered : Text.Unbordered settings.delimiter.toList →
    Path.segments settings.delimiter key = Path.segments settings.delimiter path ++ [suffix]
  underscores : settings.delimiter = "__" →
    (Path.segments settings.delimiter key = Path.segments settings.delimiter path ++ [suffix] ↔
      last.toList.getLast? ≠ some '_')

variable {settings : Settings} {key path suffix : String}

theorem delimiter_ne_empty (usable : settings.fault? = none) : settings.delimiter ≠ "" := by
  intro empty
  simp [fault?, empty] at usable

/-- Equal lists of segments are equal as lists of lists of characters. -/
theorem segments_eq_append_iff {earlier parts : List (List Char)} {texts : List String}
    (ofKey : Text.segments settings.delimiter.toList key.toList = earlier ++ parts) :
    Path.segments settings.delimiter key = earlier.map String.ofList ++ texts ↔
      parts = texts.map String.toList := by
  rw [Path.segments, ofKey, List.map_append, List.append_cancel_left_eq]
  constructor
  · rintro rfl
    simp
  · rintro rfl
    simp

theorem segments_splitKey (usable : settings.fault? = none)
    (left : (settings.splitKey key).1 = path) (whole : key = path ++ settings.delimiter ++ suffix) :
    ∃ earlier last, settings.Segmented key path suffix earlier last := by
  subst whole
  have present := delimiter_ne_empty usable
  have delimiter : settings.delimiter.toList ≠ [] := by simpa using present
  obtain ⟨op, cut⟩ := cut_of_splitKey present left
  obtain ⟨earlier, last, absent, goesOn⟩ := Text.exists_lastSegment delimiter path.toList
  obtain ⟨front, rest, same, leftmost, parts, last_iff⟩ :=
    Text.segments_lastCut delimiter absent cut.firstOnly
  have ofPath : Text.segments settings.delimiter.toList path.toList = earlier ++ [last] := by
    simpa [Text.segments_single absent] using goesOn []
  have ofKey : Text.segments settings.delimiter.toList
      (path ++ settings.delimiter ++ suffix).toList = earlier ++ [front, rest] := by
    rw [toList_whole, goesOn, parts]
  have pathSegments : Path.segments settings.delimiter path =
      earlier.map String.ofList ++ [String.ofList last] :=
    (segments_eq_append_iff ofPath).mpr (by simp)
  have agree : Path.segments settings.delimiter (path ++ settings.delimiter ++ suffix) =
        Path.segments settings.delimiter path ++ [suffix] ↔
      Text.LastOnly settings.delimiter.toList last := by
    rw [pathSegments, List.append_assoc, segments_eq_append_iff ofKey, ← last_iff, parts]
    simp
  refine ⟨earlier.map String.ofList, String.ofList last, ?_⟩
  exact {
    ofPath := pathSegments
    ofKey := by
      refine ⟨String.ofList front, String.ofList rest, ?_, ?_, ?_⟩
      · exact (segments_eq_append_iff ofKey).mpr (by simp)
      · apply String.toList_inj.mp
        rw [toList_whole, toList_whole]
        simpa using same
      · simpa using leftmost
    lastSegment_iff := by
      rw [String.toList_ofList]
      exact agree
    unbordered := fun unbordered => agree.mpr (unbordered.lastOnly absent)
    underscores := by
      intro standard
      rw [String.toList_ofList, agree]
      rw [standard] at absent ⊢
      exact Text.lastOnly_underscores absent }

theorem segments_splitKey_owner :
    standard.fault? = none ∧ (standard.splitKey "owner___name__gt").1 = "owner___name" ∧
      "owner___name__gt" = "owner___name" ++ standard.delimiter ++ "gt" ∧
      ∃ earlier last, standard.Segmented "owner___name__gt" "owner___name" "gt" earlier last := by
  have usable : standard.fault? = none := by decide
  have left : (standard.splitKey "owner___name__gt").1 = "owner___name" := by decide
  have whole : "owner___name__gt" = "owner___name" ++ standard.delimiter ++ "gt" := by decide
  exact ⟨usable, left, whole, segments_splitKey usable left whole⟩

/-- Of three underscores the operator is cut off behind the last two, and the path behind the first
two. -/
theorem operator_not_lastSegment :
    standard.fault? = none ∧ standard.splitKey "a___gt" = ("a_", .gt) ∧
      "a___gt" = "a_" ++ standard.delimiter ++ "gt" ∧
      Path.segments standard.delimiter "a___gt" = ["a", "_gt"] ∧
      Path.segments standard.delimiter "a_" ++ ["gt"] = ["a_", "gt"] ∧
      Path.segments standard.delimiter "a___gt" ≠ Path.segments standard.delimiter "a_" ++ ["gt"] := by
  decide

end Settings

end RequestFilter
