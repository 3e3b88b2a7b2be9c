import Mathlib.Data.List.Basic
import RequestFilter.Request.Syntax

namespace RequestFilter

namespace Text

variable {sep : Char} {cs : List Char} {parts front back : List (List Char)}

theorem splitAt_eq_splitOn (sep : Char) (cs : List Char) : splitAt sep cs = cs.splitOn sep := by
  induction cs with
  | nil => rw [splitAt, List.splitOn_nil]
  | cons c cs ih =>
    obtain ⟨part, parts, some⟩ := List.exists_cons_of_ne_nil (List.splitOn_ne_nil sep cs)
    rw [splitAt, List.splitOn_cons_eq_if_modifyHead, ih, some]
    simp only [beq_iff_eq]
    rfl

theorem notMem_of_mem_splitAt {part : List Char} (member : part ∈ splitAt sep cs) :
    sep ∉ part := by
  induction cs generalizing part with
  | nil =>
    rw [List.mem_singleton.mp member]
    exact List.not_mem_nil
  | cons c cs ih =>
    rw [splitAt] at member
    split at member
    · rcases List.mem_cons.mp member with rfl | later
      · exact List.not_mem_nil
      · exact ih later
    · rename_i other
      cases parted : splitAt sep cs with
      | nil =>
        rw [parted] at member
        rw [List.mem_singleton.mp member, List.mem_singleton]
        exact fun same => other same.symm
      | cons first rest =>
        rw [parted] at member ih
        rcases List.mem_cons.mp member with rfl | later
        · rw [List.mem_cons, not_or]
          exact ⟨fun same => other same.symm, ih List.mem_cons_self⟩
        · exact ih (List.mem_cons_of_mem first later)

theorem splitAt_append (front back : List Char) :
    splitAt sep (front ++ sep :: back) = splitAt sep front ++ splitAt sep back := by
  simp only [splitAt_eq_splitOn, List.splitOn_append_cons_self]

theorem splitAt_append_replicate (cs : List Char) (n : Nat) :
    splitAt sep (cs ++ List.replicate n sep) = splitAt sep cs ++ List.replicate n [] := by
  induction n generalizing cs with
  | zero => rw [List.replicate_zero, List.append_nil, List.replicate_zero, List.append_nil]
  | succ n ih =>
    have one : cs ++ List.replicate (n + 1) sep = (cs ++ sep :: []) ++ List.replicate n sep := by
      rw [List.replicate_succ, List.append_assoc, List.cons_append, List.nil_append]
    rw [one, ih, splitAt_append, List.append_assoc]
    rfl

theorem splitAt_intercalate (some : parts ≠ []) (free : ∀ part ∈ parts, sep ∉ part) :
    splitAt sep ([sep].intercalate parts) = parts := by
  rw [splitAt_eq_splitOn, List.splitOn_intercalate sep free some]

theorem intercalate_splitAt (sep : Char) (cs : List Char) :
    [sep].intercalate (splitAt sep cs) = cs := by
  rw [splitAt_eq_splitOn, List.intercalate_splitOn]

theorem splitAt_injective {cs cs' : List Char} (same : splitAt sep cs = splitAt sep cs') :
    cs = cs' := by
  rw [← intercalate_splitAt sep cs, same, intercalate_splitAt]

theorem dropTrailingEmpty_cons_of_some (part : List Char) (some : dropTrailingEmpty parts ≠ []) :
    dropTrailingEmpty (part :: parts) = part :: dropTrailingEmpty parts := by
  obtain ⟨first, rest, kept⟩ := List.exists_cons_of_ne_nil some
  rw [dropTrailingEmpty, kept]

theorem dropTrailingEmpty_append_of_some (front : List (List Char))
    (some : dropTrailingEmpty back ≠ []) :
    dropTrailingEmpty (front ++ back) = front ++ dropTrailingEmpty back := by
  induction front with
  | nil => rfl
  | cons part front ih =>
    have later : dropTrailingEmpty (front ++ back) ≠ [] := by
      rw [ih]
      exact List.append_ne_nil_of_right_ne_nil front some
    rw [List.cons_append, dropTrailingEmpty_cons_of_some part later, ih, List.cons_append]

theorem dropTrailingEmpty_append_of_none (front : List (List Char))
    (none : dropTrailingEmpty back = []) :
    dropTrailingEmpty (front ++ back) = dropTrailingEmpty front := by
  induction front with
  | nil => exact none
  | cons part front ih => rw [List.cons_append, dropTrailingEmpty, ih, dropTrailingEmpty]

theorem dropTrailingEmpty_replicate (n : Nat) : dropTrailingEmpty (List.replicate n []) = [] := by
  induction n with
  | zero => rfl
  | succ n ih =>
    rw [List.replicate_succ, dropTrailingEmpty, ih]
    rfl

/-- Only empty parts are dropped. -/
theorem exists_dropped (parts : List (List Char)) :
    ∃ n, parts = dropTrailingEmpty parts ++ List.replicate n [] := by
  induction parts with
  | nil => exact ⟨0, rfl⟩
  | cons part parts ih =>
    obtain ⟨n, whole⟩ := ih
    by_cases none : dropTrailingEmpty parts = []
    · rw [none, List.nil_append] at whole
      rw [dropTrailingEmpty, none]
      cases part with
      | nil => exact ⟨n + 1, congrArg ([] :: ·) whole⟩
      | cons c cs => exact ⟨n, congrArg ((c :: cs) :: ·) whole⟩
    · refine ⟨n, ?_⟩
      rw [dropTrailingEmpty_cons_of_some part none, List.cons_append, ← whole]

theorem last_dropTrailingEmpty (parts : List (List Char)) :
    ∀ last ∈ (dropTrailingEmpty parts).getLast?, last ≠ [] := by
  induction parts with
  | nil => nofun
  | cons part parts ih =>
    by_cases none : dropTrailingEmpty parts = []
    · rw [dropTrailingEmpty, none]
      cases part with
      | nil => nofun
      | cons c cs =>
        rintro last ⟨⟩
        exact List.cons_ne_nil c cs
    · rw [dropTrailingEmpty_cons_of_some part none, List.getLast?_cons_of_ne_nil none]
      exact ih

theorem dropTrailingEmpty_of_last (ended : ∀ last ∈ parts.getLast?, last ≠ []) :
    dropTrailingEmpty parts = parts := by
  rcases List.eq_nil_or_concat' parts with rfl | ⟨front, last, rfl⟩
  · rfl
  · have some : last ≠ [] := ended last List.getLast?_concat
    have single : dropTrailingEmpty [last] = [last] :=
      if_neg fun empty => some (List.isEmpty_iff.mp empty)
    rw [dropTrailingEmpty_append_of_some front (by simp [single]), single]

theorem dropTrailingEmpty_splitAt_append_replicate (cs : List Char) (n : Nat) :
    dropTrailingEmpty (splitAt sep (cs ++ List.replicate n sep)) =
      dropTrailingEmpty (splitAt sep cs) := by
  rw [splitAt_append_replicate, dropTrailingEmpty_append_of_none _ (dropTrailingEmpty_replicate n)]

theorem dropTrailingEmpty_splitAt_intercalate (free : ∀ part ∈ parts, sep ∉ part)
    (ended : ∀ last ∈ parts.getLast?, last ≠ []) :
    dropTrailingEmpty (splitAt sep ([sep].intercalate parts)) = parts := by
  by_cases none : parts = []
  · subst none
    rfl
  · rw [splitAt_intercalate none free, dropTrailingEmpty_of_last ended]

/-- A text is its parts up to the last that is not empty, and separators behind them. -/
theorem exists_separators (sep : Char) (cs : List Char) :
    ∃ n, cs = [sep].intercalate (dropTrailingEmpty (splitAt sep cs)) ++ List.replicate n sep := by
  obtain ⟨n, whole⟩ := exists_dropped (splitAt sep cs)
  have free : ∀ part ∈ dropTrailingEmpty (splitAt sep cs), sep ∉ part := by
    intro part member
    have among : part ∈ splitAt sep cs := by
      rw [whole]
      exact List.mem_append_left _ member
    exact notMem_of_mem_splitAt among
  generalize dropTrailingEmpty (splitAt sep cs) = kept at whole free ⊢
  by_cases none : kept = []
  · subst none
    have some : splitAt sep cs ≠ [] := by
      rw [splitAt_eq_splitOn]
      exact List.splitOn_ne_nil sep cs
    cases n with
    | zero => exact absurd whole some
    | succ n =>
      refine ⟨n, splitAt_injective (whole.trans ?_)⟩
      exact (splitAt_append_replicate [] n).symm
  · refine ⟨n, splitAt_injective (whole.trans ?_)⟩
    rw [splitAt_append_replicate, splitAt_intercalate none free]

end Text

namespace Settings

variable (settings : Settings)

def joined (values : List String) : String :=
  (String.singleton settings.listSeparator).intercalate values

def separators (n : Nat) : String := String.ofList (List.replicate n settings.listSeparator)

/-- The text is the list of these values: none has a separator in it, the last is not empty, and
behind them there are only separators. -/
structure Lists (text : String) (values : List String) : Prop where
  free : ∀ value ∈ values, settings.listSeparator ∉ value.toList
  ended : ∀ last ∈ values.getLast?, last ≠ ""
  whole : ∃ n, text = settings.joined values ++ settings.separators n

variable {settings} {text : String} {values : List String}

theorem toList_joined (values : List String) :
    (settings.joined values).toList =
      [settings.listSeparator].intercalate (values.map String.toList) := by
  rw [joined, String.toList_intercalate, String.toList_singleton]

theorem toList_separators (n : Nat) :
    (settings.separators n).toList = List.replicate n settings.listSeparator := by
  rw [separators, String.toList_ofList]

theorem toList_splitValues (text : String) :
    (settings.splitValues text).map String.toList =
      Text.dropTrailingEmpty (Text.splitAt settings.listSeparator text.toList) := by
  rw [splitValues, List.map_map]
  exact (List.map_congr_left fun cs _ => String.toList_ofList).trans (List.map_id _)

theorem lists_splitValues (settings : Settings) (text : String) :
    settings.Lists text (settings.splitValues text) where
  free := by
    intro value member
    obtain ⟨n, whole⟩ :=
      Text.exists_dropped (Text.splitAt settings.listSeparator text.toList)
    have among : value.toList ∈ Text.splitAt settings.listSeparator text.toList := by
      rw [whole, ← toList_splitValues]
      exact List.mem_append_left _ (List.mem_map_of_mem member)
    exact Text.notMem_of_mem_splitAt among
  ended := by
    intro last atEnd empty
    apply Text.last_dropTrailingEmpty (Text.splitAt settings.listSeparator text.toList) last.toList
    · rw [← toList_splitValues, List.getLast?_map, atEnd]
      rfl
    · rw [empty]
      rfl
  whole := by
    obtain ⟨n, whole⟩ := Text.exists_separators settings.listSeparator text.toList
    refine ⟨n, String.toList_inj.mp ?_⟩
    rw [String.toList_append, toList_joined, toList_separators, toList_splitValues, ← whole]

theorem splitValues_of_toList {values : List String}
    (same : Text.dropTrailingEmpty (Text.splitAt settings.listSeparator text.toList) =
      values.map String.toList) : settings.splitValues text = values := by
  rw [← toList_splitValues] at same
  exact List.map_injective_iff.mpr (fun _ _ => String.toList_inj.mp) same

theorem splitValues_separators (text : String) (n : Nat) :
    settings.splitValues (text ++ settings.separators n) = settings.splitValues text := by
  apply splitValues_of_toList
  rw [String.toList_append, toList_separators, Text.dropTrailingEmpty_splitAt_append_replicate,
    toList_splitValues]

theorem splitValues_joined (free : ∀ value ∈ values, settings.listSeparator ∉ value.toList)
    (ended : ∀ last ∈ values.getLast?, last ≠ "") :
    settings.splitValues (settings.joined values) = values := by
  apply splitValues_of_toList
  rw [toList_joined]
  apply Text.dropTrailingEmpty_splitAt_intercalate
  · exact List.forall_mem_map.mpr free
  · rw [List.getLast?_map]
    intro last atEnd
    obtain ⟨value, own, rfl⟩ := Option.map_eq_some_iff.mp atEnd
    exact fun empty => ended value own (String.toList_eq_nil_iff.mp empty)

theorem Lists.unique (lists : settings.Lists text values) : settings.splitValues text = values := by
  obtain ⟨n, whole⟩ := lists.whole
  rw [whole, splitValues_separators, splitValues_joined lists.free lists.ended]

/-- The values in front of others are kept, empty ones too. -/
theorem splitValues_behind {front : List String} (some : front ≠ [])
    (free : ∀ value ∈ front, settings.listSeparator ∉ value.toList)
    (more : settings.splitValues text ≠ []) :
    settings.splitValues (settings.joined front ++ settings.separators 1 ++ text) =
      front ++ settings.splitValues text := by
  apply splitValues_of_toList
  have parts : front.map String.toList ≠ [] := by simpa using some
  have free : ∀ part ∈ front.map String.toList, settings.listSeparator ∉ part :=
    List.forall_mem_map.mpr free
  have kept : Text.dropTrailingEmpty (Text.splitAt settings.listSeparator text.toList) ≠ [] := by
    rw [← toList_splitValues]
    simpa using more
  rw [String.toList_append, String.toList_append, toList_joined, toList_separators,
    List.append_assoc, List.replicate_one, List.singleton_append, Text.splitAt_append,
    Text.splitAt_intercalate parts free, Text.dropTrailingEmpty_append_of_some _ kept,
    List.map_append, toList_splitValues]

variable (settings)

/-- A text is one list of values, which it keeps whatever separators follow. -/
structure DecodesLists : Prop where
  decodes : ∀ text values, settings.Lists text values ↔ values = settings.splitValues text
  reads : ∀ values, (∀ value ∈ values, settings.listSeparator ∉ value.toList) →
    (∀ last ∈ values.getLast?, last ≠ "") → settings.splitValues (settings.joined values) = values
  trailing : ∀ text n,
    settings.splitValues (text ++ settings.separators n) = settings.splitValues text
  /-- Only empty values at the end are lost, none at the front or inside. -/
  kept : ∀ front text, front ≠ [] → (∀ value ∈ front, settings.listSeparator ∉ value.toList) →
    settings.splitValues text ≠ [] →
    settings.splitValues (settings.joined front ++ settings.separators 1 ++ text) =
      front ++ settings.splitValues text

theorem decodesLists : settings.DecodesLists where
  decodes text values := by
    constructor
    · exact fun lists => lists.unique.symm
    · rintro rfl
      exact settings.lists_splitValues text
  reads _ := splitValues_joined
  trailing := splitValues_separators
  kept _ _ := splitValues_behind

example : standard.splitValues ",1,,2,," = ["", "1", "", "2"] := by decide

end Settings

end RequestFilter
