import Mathlib.Data.List.DropRight
import RequestFilter.Proofs.Texts.Digits
import RequestFilter.Proofs.UsedJoins
import RequestFilter.Proofs.ValueLists

namespace RequestFilter

namespace Text

def Blank (cs : List Char) : Prop := ∀ c ∈ cs, isBlank c = true

/-- No white space stands at either end. -/
structure Trimmed (cs : List Char) : Prop where
  first : ∀ c ∈ cs.head?, isBlank c = false
  last : ∀ c ∈ cs.getLast?, isBlank c = false

variable {cs before after : List Char}

theorem Trimmed.nil : Trimmed [] := ⟨nofun, nofun⟩

theorem Trimmed.single {c : Char} (solid : isBlank c = false) : Trimmed [c] where
  first := by
    rintro d ⟨⟩
    exact solid
  last := by
    rintro d ⟨⟩
    exact solid

theorem Trimmed.behind {c : Char} (solid : isBlank c = false) (trimmed : Trimmed cs)
    (some : cs ≠ []) (between : List Char) : Trimmed (c :: (between ++ cs)) where
  first := by
    rintro d ⟨⟩
    exact solid
  last := by
    rw [← List.cons_append, List.getLast?_append_of_ne_nil _ some]
    exact trimmed.last

theorem trimEnd_append (trimmed : Trimmed cs) (blank : Blank after) : trimEnd (cs ++ after) = cs := by
  have behind : ∀ c ∈ after.reverse, isBlank c = true :=
    fun c member => blank c (List.mem_reverse.mp member)
  have kept : cs.reverse.dropWhile isBlank = cs.reverse := by
    apply trimStart_of_head
    rw [List.head?_reverse]
    exact trimmed.last
  rw [trimEnd, List.reverse_append, List.dropWhile_append_of_pos behind, kept, List.reverse_reverse]

theorem trim_surrounded (trimmed : Trimmed cs) (leads : Blank before) (trails : Blank after) :
    trim (before ++ (cs ++ after)) = cs := by
  rw [trim, trimStart, List.dropWhile_append_of_pos leads]
  cases cs with
  | nil =>
    have none : after.dropWhile isBlank = [] := List.dropWhile_eq_nil_iff.mpr trails
    rw [List.nil_append, none]
    rfl
  | cons c cs =>
    have begun : trimStart (c :: cs ++ after) = c :: cs ++ after := trimStart_of_head trimmed.first
    exact (congrArg trimEnd begun).trans (trimEnd_append trimmed trails)

theorem trim_behind (trimmed : Trimmed cs) (leads : Blank before) : trim (before ++ cs) = cs := by
  have alone : trim (before ++ (cs ++ [])) = cs := trim_surrounded trimmed leads nofun
  rwa [List.append_nil] at alone

theorem trim_blank (blank : Blank cs) : trim cs = [] := by
  have trimmed := trim_behind .nil blank
  rwa [List.append_nil] at trimmed

theorem trimmed_trim (cs : List Char) : Trimmed (trim cs) where
  first := by
    intro c atFront
    obtain ⟨rest, whole⟩ : trim cs <+: trimStart cs := List.rdropWhile_prefix isBlank _
    have begun := List.head?_dropWhile_not isBlank cs
    rw [← trimStart, ← whole, List.head?_append, atFront] at begun
    exact begun
  last := by
    intro c atEnd
    have some : trim cs ≠ [] := by
      intro none
      rw [none] at atEnd
      cases atEnd
    have ended := List.rdropWhile_last_not isBlank (trimStart cs) some
    rw [List.getLast?_eq_some_getLast some] at atEnd
    cases atEnd
    exact Bool.eq_false_iff.mpr ended

theorem trim_subset (cs : List Char) : trim cs ⊆ cs := by
  have front : trimStart cs <:+ cs := List.dropWhile_suffix isBlank
  have back : trim cs <+: trimStart cs := List.rdropWhile_prefix isBlank (trimStart cs)
  exact fun c member => front.subset (back.subset member)

end Text

/-- The sign in front of a path. -/
def Direction.mark : Direction → Char
  | ascending => '+'
  | descending => '-'

/-- A path as a list has it: not empty, without white space at its ends, and without the separator. -/
structure SortPath (sep : Char) (path : String) : Prop where
  some : path ≠ ""
  trimmed : Text.Trimmed path.toList
  free : sep ∉ path.toList

/-- White space within an entry of a list. -/
def SortGap (sep : Char) (gap : List Char) : Prop := Text.Blank gap ∧ sep ∉ gap

/-- The entry writes the field down, with white space around the path and the sign. -/
inductive SortEntry (sep : Char) : List Char → SortField → Prop
  | signed {before between after : List Char} {path : String} (direction : Direction)
      (leads : SortGap sep before) (parts : SortGap sep between) (trails : SortGap sep after)
      (legible : SortPath sep path) :
      SortEntry sep (before ++ direction.mark :: (between ++ (path.toList ++ after)))
        ⟨path, direction⟩
  | unsigned {before after : List Char} {path : String}
      (leads : SortGap sep before) (trails : SortGap sep after) (legible : SortPath sep path)
      (noSign : ∀ direction : Direction, path.toList.head? ≠ some direction.mark) :
      SortEntry sep (before ++ (path.toList ++ after)) ⟨path, .ascending⟩

/-- The entry is blank, or a sign alone. -/
inductive SortEntry.Idle (sep : Char) : List Char → Prop
  | blank {gap : List Char} (blank : SortGap sep gap) : Idle sep gap
  | sign {before after : List Char} (direction : Direction) (leads : SortGap sep before)
      (trails : SortGap sep after) : Idle sep (before ++ direction.mark :: after)

/-- The entries write the sort order down, field by field, with idle entries among them. -/
inductive SortEntries (sep : Char) : List (List Char) → SortOrder → Prop
  | nil : SortEntries sep [] []
  | field {entry : List Char} {field : SortField} {entries : List (List Char)} {order : SortOrder}
      (written : SortEntry sep entry field) (rest : SortEntries sep entries order) :
      SortEntries sep (entry :: entries) (field :: order)
  | idle {entry : List Char} {entries : List (List Char)} {order : SortOrder}
      (idle : SortEntry.Idle sep entry) (rest : SortEntries sep entries order) :
      SortEntries sep (entry :: entries) order

theorem Direction.isBlank_mark (direction : Direction) : Text.isBlank direction.mark = false := by
  cases direction <;> decide

namespace Settings

variable {sep : Char} {entry : List Char} {field : SortField}

theorem directed_mark (direction : Direction) (cs : List Char) :
    directed (direction.mark :: cs) = (cs, direction) := by
  cases direction <;> rfl

theorem directed_of_noSign {cs : List Char}
    (noSign : ∀ direction : Direction, cs.head? ≠ some direction.mark) :
    directed cs = (cs, .ascending) := by
  unfold directed
  split
  · exact absurd rfl (noSign .descending)
  · exact absurd rfl (noSign .ascending)
  · rfl

theorem sortField?_of_path {path : String} {direction : Direction} {rest : List Char}
    (legible : SortPath sep path) (signed : directed (Text.trim entry) = (rest, direction))
    (trimmed : Text.trim rest = path.toList) : sortField? entry = some ⟨path, direction⟩ := by
  have some : ¬ path.toList.isEmpty = true := by
    rw [List.isEmpty_iff, String.toList_eq_nil_iff]
    exact legible.some
  unfold sortField?
  rw [signed]
  dsimp only
  rw [trimmed, if_neg some, String.ofList_toList]

theorem sortField?_written (written : SortEntry sep entry field) : sortField? entry = some field := by
  cases written with
  | signed direction leads parts trails legible =>
    rename_i before between after path
    have some : path.toList ≠ [] := fun none => legible.some (String.toList_eq_nil_iff.mp none)
    have core : Text.Trimmed (direction.mark :: (between ++ path.toList)) :=
      legible.trimmed.behind direction.isBlank_mark some between
    have whole : before ++ direction.mark :: (between ++ (path.toList ++ after)) =
        before ++ (direction.mark :: (between ++ path.toList) ++ after) := by simp
    apply sortField?_of_path legible
    · rw [whole, Text.trim_surrounded core leads.1 trails.1, directed_mark]
    · exact Text.trim_behind legible.trimmed parts.1
  | unsigned leads trails legible noSign =>
    rename_i before after path
    apply sortField?_of_path legible
    · rw [Text.trim_surrounded legible.trimmed leads.1 trails.1, directed_of_noSign noSign]
    · have alone : Text.trim ([] ++ path.toList) = path.toList :=
        Text.trim_behind legible.trimmed nofun
      exact alone

theorem sortField?_idle (idle : SortEntry.Idle sep entry) : sortField? entry = none := by
  cases idle with
  | blank blank =>
    unfold sortField?
    rw [Text.trim_blank blank.1]
    rfl
  | sign direction leads trails =>
    rename_i before after
    have core := Text.Trimmed.single direction.isBlank_mark
    have whole : before ++ direction.mark :: after = before ++ ([direction.mark] ++ after) := rfl
    unfold sortField?
    rw [whole, Text.trim_surrounded core leads.1 trails.1, directed_mark]
    rfl

theorem free_of_written (mark : ∀ direction : Direction, sep ≠ direction.mark)
    (written : SortEntry sep entry field) : sep ∉ entry := by
  cases written with
  | signed direction leads parts trails legible =>
    simp [leads.2, parts.2, trails.2, legible.free, mark direction]
  | unsigned leads trails legible => simp [leads.2, trails.2, legible.free]

theorem free_of_idle (mark : ∀ direction : Direction, sep ≠ direction.mark)
    (idle : SortEntry.Idle sep entry) : sep ∉ entry := by
  cases idle with
  | blank blank => exact blank.2
  | sign direction leads trails => simp [leads.2, trails.2, mark direction]

variable {entries : List (List Char)} {order : SortOrder}

theorem filterMap_entries (written : SortEntries sep entries order) :
    entries.filterMap sortField? = order := by
  induction written with
  | nil => rfl
  | field written _ ih => rw [List.filterMap_cons_some (sortField?_written written), ih]
  | idle idle _ ih => rw [List.filterMap_cons_none (sortField?_idle idle), ih]

theorem free_of_entries (mark : ∀ direction : Direction, sep ≠ direction.mark)
    (written : SortEntries sep entries order) : ∀ entry ∈ entries, sep ∉ entry := by
  induction written with
  | nil => nofun
  | field written _ ih => exact List.forall_mem_cons.mpr ⟨free_of_written mark written, ih⟩
  | idle idle _ ih => exact List.forall_mem_cons.mpr ⟨free_of_idle mark idle, ih⟩

variable {settings : Settings}

theorem sortOfText_entries
    (mark : ∀ direction : Direction, settings.listSeparator ≠ direction.mark)
    (written : SortEntries settings.listSeparator entries order) :
    settings.sortOfText (String.ofList ([settings.listSeparator].intercalate entries)) = order := by
  unfold sortOfText
  rw [String.toList_ofList]
  by_cases none : entries = []
  · subst none
    cases written
    rfl
  · rw [Text.splitAt_intercalate none (free_of_entries mark written), filterMap_entries written]

theorem directed_subset (cs : List Char) : (directed cs).1 ⊆ cs := by
  unfold directed
  split
  · exact List.subset_cons_self _ _
  · exact List.subset_cons_self _ _
  · exact List.Subset.refl _

theorem legible_of_sortField? (free : sep ∉ entry) (found : sortField? entry = some field) :
    SortPath sep field.key := by
  unfold sortField? at found
  dsimp only at found
  split at found
  · cases found
  · rename_i some
    cases found
    refine ⟨fun none => some ?_, ?_, fun member => free ?_⟩
    · rwa [List.isEmpty_iff, ← String.ofList_eq_empty_iff]
    · rw [String.toList_ofList]
      exact Text.trimmed_trim _
    · rw [String.toList_ofList] at member
      exact Text.trim_subset _ (directed_subset _ (Text.trim_subset _ member))

theorem legible_of_sortOfText (raw : String) :
    ∀ field ∈ settings.sortOfText raw, SortPath settings.listSeparator field.key := by
  intro field member
  obtain ⟨entry, part, found⟩ := List.mem_filterMap.mp member
  exact legible_of_sortField? (Text.notMem_of_mem_splitAt part) found

end Settings

/-- Every sort order can be written down. -/
theorem exists_entries {sep : Char} {order : SortOrder}
    (legible : ∀ field ∈ order, SortPath sep field.key) :
    ∃ entries, SortEntries sep entries order := by
  have gap : SortGap sep [] := ⟨nofun, List.not_mem_nil⟩
  induction order with
  | nil => exact ⟨[], .nil⟩
  | cons field order ih =>
    obtain ⟨first, rest⟩ := List.forall_mem_cons.mp legible
    obtain ⟨entries, written⟩ := ih rest
    exact ⟨_, .field (.signed field.direction gap gap gap first) written⟩

namespace Engine

variable (engine : Engine) (policy : Policy)

/-- The entry is the column that the path leads to, in a table that is joined already. -/
def OrdersBy (joins : Joins) (field entry : SortField) : Prop :=
  entry.direction = field.direction ∧ ∃ column,
    engine.resolve policy field.key joins = (.ok column, joins) ∧
    entry.key = String.ofList column.sql

/-- A sort order is read from its text as it was written, and a plan is ordered by all of it. -/
structure DecodesSorts : Prop where
  reads : engine.settings.listSeparator ≠ '+' → engine.settings.listSeparator ≠ '-' →
    ∀ entries order, SortEntries engine.settings.listSeparator entries order →
      engine.settings.sortOfText
        (String.ofList ([engine.settings.listSeparator].intercalate entries)) = order
  writable : ∀ order : SortOrder,
    (∀ field ∈ order, SortPath engine.settings.listSeparator field.key) →
      ∃ entries, SortEntries engine.settings.listSeparator entries order
  legible : ∀ raw, ∀ field ∈ engine.settings.sortOfText raw,
    SortPath engine.settings.listSeparator field.key
  orders : ∀ policy criteria sort plan, engine.plan policy criteria sort = .ok plan →
    ∃ joins : Joins, plan.joins = joins.toList ∧
      List.Forall₂ (engine.OrdersBy policy joins) sort plan.order

variable {engine policy}

theorem ordersBy_of_plan {criteria : List Criterion} {sort : SortOrder} {plan : Plan}
    (planned : engine.plan policy criteria sort = .ok plan) :
    List.Forall₂ (engine.OrdersBy policy (engine.pass policy criteria sort).joins) sort
      plan.order := by
  obtain ⟨walks, succeeds⟩ := succeeds_of_plan planned
  obtain ⟨clean, rfl⟩ := pass_of_plan engine planned
  rw [succeeds.passed] at clean ⊢
  refine order_of_clean clean fun field member entry found => ?_
  obtain ⟨declared, column, leads, rfl⟩ := sortResult_ok found
  have asked : field.key ∈ engine.asked policy (engine.places policy walks) criteria sort := by
    refine List.mem_append_right _ (List.mem_flatMap.mpr ⟨field, member, ?_⟩)
    rw [sortAsked, if_pos declared]
    exact List.mem_singleton_self _
  have again : engine.resolve policy field.key (.ofWalks .left walks) =
      (engine.places policy walks field.key, .ofWalks .left walks) :=
    Schema.resolve_again succeeds.valid (succeeds.walked_of_asked asked)
  refine ⟨rfl, column, ?_, rfl⟩
  rw [← leads]
  exact again

end Engine

namespace Shelf

def sortText : List (List Char) :=
  [" - editors__name ".toList, [], " +".toList, "title".toList]

def sorted : SortOrder := [⟨"editors__name", .descending⟩, ⟨"title", .ascending⟩]

theorem sortText_entries : SortEntries ',' sortText sorted := by
  have blank : SortGap ',' [' '] := ⟨List.forall_mem_singleton.mpr (by decide), by decide⟩
  have none : SortGap ',' [] := ⟨nofun, List.not_mem_nil⟩
  have editors : SortPath ',' "editors__name" :=
    ⟨by decide, ⟨by simp [Text.isBlank], by simp [Text.isBlank]⟩, by decide⟩
  have title : SortPath ',' "title" :=
    ⟨by decide, ⟨by simp [Text.isBlank], by simp [Text.isBlank]⟩, by decide⟩
  have noSign : ∀ direction : Direction, "title".toList.head? ≠ some direction.mark := by
    intro direction
    cases direction <;> decide
  exact .field (.signed .descending blank blank blank editors)
    (.idle (.blank none) (.idle (.sign .ascending blank none)
      (.field (.unsigned none none title noSign) .nil)))

end Shelf

namespace Engine

theorem decodesSorts (engine : Engine) : engine.DecodesSorts where
  reads := by
    intro plus minus entries order written
    refine Settings.sortOfText_entries (fun direction => ?_) written
    cases direction with
    | ascending => exact plus
    | descending => exact minus
  writable _ := exists_entries
  legible := Settings.legible_of_sortOfText
  orders := by
    intro policy criteria sort plan planned
    refine ⟨(engine.pass policy criteria sort).joins, ?_, ordersBy_of_plan planned⟩
    obtain ⟨_, rfl⟩ := pass_of_plan engine planned
    rfl

theorem decodesSorts_shelf :
    Shelf.engine.settings.sortOfText (String.ofList ([','].intercalate Shelf.sortText)) =
        Shelf.sorted ∧
      ∃ joins : Joins, List.Forall₂ (Shelf.engine.OrdersBy Shelf.plain joins) Shelf.sorted
        [⟨"t2.name", .descending⟩, ⟨"t0.title", .ascending⟩] := by
  have decodes := decodesSorts Shelf.engine
  refine ⟨decodes.reads (by decide) (by decide) _ _ Shelf.sortText_entries, ?_⟩
  obtain ⟨joins, _, ordered⟩ := decodes.orders Shelf.plain Shelf.people Shelf.sorted _ rfl
  exact ⟨joins, ordered⟩

end Engine

end RequestFilter
