import Mathlib.Data.List.Forall2
import RequestFilter.Filter.Sql
import RequestFilter.Proofs.Rules

namespace RequestFilter

namespace Piece

/-- The piece with a hole for its value. -/
def blank : Piece → Piece
  | sql text => .sql text
  | bind _ => .bind .null

theorem render_blank (offset : Nat) (pieces : List Piece) :
    render offset (pieces.map blank) = render offset pieces := by
  induction pieces generalizing offset with
  | nil => rfl
  | cons piece rest ih => cases piece <;> simp [blank, render, ih]

theorem length_params_blank (pieces : List Piece) :
    (params (pieces.map blank)).length = (params pieces).length := by
  induction pieces with
  | nil => rfl
  | cons piece rest ih =>
    unfold params at ih ⊢
    cases piece with
    | sql text => exact ih
    | bind value => exact congrArg Nat.succ ih

theorem map_separated (f : Piece → Piece) (separator : Piece) (parts : List (List Piece)) :
    (separated separator parts).map f = separated (f separator) (parts.map (List.map f)) := by
  induction parts with
  | nil => rfl
  | cons part rest ih =>
    cases rest with
    | nil => rfl
    | cons next rest => simp [separated, ih]

end Piece

namespace Filter

theorem piecesOfAll_eq_map (filters : List Filter) : piecesOfAll filters = filters.map pieces := by
  induction filters with
  | nil => rfl
  | cons filter filters ih => rw [piecesOfAll, ih, List.map_cons]

def skeleton (filter : Filter) : List Piece := filter.pieces.map Piece.blank

structure Alike (filter filter' : Filter) : Prop where
  isNone : filter.isNone = filter'.isNone
  skeleton : filter.skeleton = filter'.skeleton

namespace Alike

variable {filter filter' : Filter}

theorem refl (filter : Filter) : filter.Alike filter := ⟨rfl, rfl⟩

theorem text (alike : filter.Alike filter') (offset : Nat) :
    (filter.toSql offset).1 = (filter'.toSql offset).1 := by
  unfold toSql
  rw [← Piece.render_blank, ← Piece.render_blank offset filter'.pieces]
  exact congrArg (Piece.render offset) alike.skeleton

theorem count (alike : filter.Alike filter') (offset : Nat) :
    (filter.toSql offset).2.length = (filter'.toSql offset).2.length := by
  unfold toSql
  rw [← Piece.length_params_blank, ← Piece.length_params_blank filter'.pieces]
  exact congrArg (fun pieces => (Piece.params pieces).length) alike.skeleton

theorem not (alike : filter.Alike filter') : (Filter.not filter).Alike (.not filter') where
  isNone := rfl
  skeleton := by
    have inner := alike.skeleton
    unfold Filter.skeleton at inner
    simp [Filter.skeleton, pieces, inner]

theorem negate (alike : filter.Alike filter') : filter.negate.Alike filter'.negate := by
  unfold Filter.negate
  rw [alike.isNone]
  split
  · exact refl .none
  · exact alike.not

theorem skeletons {filters filters' : List Filter} (alike : List.Forall₂ Alike filters filters') :
    filters.map Filter.skeleton = filters'.map Filter.skeleton := by
  induction alike with
  | nil => rfl
  | cons first _ ih => rw [List.map_cons, List.map_cons, first.skeleton, ih]

theorem junction (connective : Connective) {filters filters' : List Filter}
    (alike : List.Forall₂ Alike filters filters') :
    (Filter.junction connective filters).Alike (.junction connective filters') where
  isNone := rfl
  skeleton := by
    have parts : ∀ filters : List Filter, (filters.map pieces).map (List.map Piece.blank) =
        filters.map Filter.skeleton := fun filters => by
      rw [List.map_map]
      rfl
    have empty : filters.isEmpty = filters'.isEmpty := by
      cases alike <;> rfl
    simp only [Filter.skeleton, pieces, empty, piecesOfAll_eq_map]
    split
    · rfl
    · simp [Piece.map_separated, parts, skeletons alike]

theorem combine (connective : Connective) {filters filters' : List Filter}
    (alike : List.Forall₂ Alike filters filters') :
    (Filter.combine connective filters).Alike (Filter.combine connective filters') := by
  have kept : List.Forall₂ Alike (filters.filter (!·.isNone)) (filters'.filter (!·.isNone)) := by
    refine List.rel_filter ?_ alike
    intro filter filter' alike
    simp only [alike.isNone]
  unfold Filter.combine
  generalize filters.filter (!·.isNone) = some at kept
  generalize filters'.filter (!·.isNone) = some' at kept
  cases kept with
  | nil => exact refl .none
  | cons first rest =>
    cases rest with
    | nil => exact first
    | cons second rest => exact junction connective (.cons first (.cons second rest))

end Alike

theorem comparePieces_of_present (comparison : Comparison) (column : Column) {value : Value}
    (present : value.isNull = false) :
    comparePieces comparison column value =
      [.sql column.sql, .lit " ", .lit comparison.sign, .lit " ", .bind value] := by
  cases value with
  | null => cases present
  | _ => cases comparison <;> rfl

theorem alike_compare (comparison : Comparison) (column : Column) {value value' : Value}
    (present : value.isNull = false) (present' : value'.isNull = false) :
    (compare comparison column value).Alike (.compare comparison column value') where
  isNone := rfl
  skeleton := by
    simp [skeleton, pieces, comparePieces_of_present, present, present', Piece.blank]

theorem alike_between (column : Column) (low high low' high' : Value) :
    (between column low high).Alike (.between column low' high') := ⟨rfl, rfl⟩

theorem alike_like (place : Place) (column : Column) (text text' : String) :
    (like place column text).Alike (.like place column text') where
  isNone := rfl
  skeleton := by
    unfold skeleton pieces Like.pieces
    dsimp only
    split <;> rfl

theorem alike_member (negated : Bool) (column : Column) {values values' : List Value}
    (count : values.length = values'.length) :
    (member negated column values).Alike (.member negated column values') where
  isNone := rfl
  skeleton := by
    have holes : ∀ values : List Value, (values.map fun value => [Piece.bind value]).map
        (List.map Piece.blank) = List.replicate values.length [.bind .null] := fun values => by
      simp [Function.comp_def, Piece.blank]
    have empty : values.isEmpty = values'.isEmpty := by
      rw [Bool.eq_iff_iff, List.isEmpty_iff_length_eq_zero, List.isEmpty_iff_length_eq_zero, count]
    simp only [skeleton, pieces, memberPieces, empty]
    split
    · rfl
    · simp only [List.map_append, Piece.map_separated, holes, count]

end Filter

end RequestFilter
