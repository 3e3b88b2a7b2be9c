import RequestFilter.Proofs.Conjuncts
import RequestFilter.Proofs.Leaves
import RequestFilter.Proofs.Skeleton
import RequestFilter.Proofs.Texts.Digits

namespace RequestFilter

namespace Sql

inductive Glyph where
  | plain (c : Char)
  | placeholder (number : Nat)
  deriving DecidableEq, Repr

namespace Glyph

def number? : Glyph → Option Nat
  | plain _ => none
  | placeholder number => some number

/-- The text of the glyph, with the number of a placeholder moved on. -/
def shifted (offset : Nat) : Glyph → List Char
  | plain c => [c]
  | placeholder number => '$' :: Digits.ofNat (offset + number)

end Glyph

/-- Reads a text from left to right. The number counts the digits that still belong to the
placeholder found last. -/
def glyphsFrom : (digits : Nat) → List Char → List Glyph
  | _, [] => []
  | digits + 1, _ :: cs => glyphsFrom digits cs
  | 0, c :: cs =>
    let digits := (Digits.span cs).1
    if c = '$' ∧ digits ≠ [] then
      .placeholder (Digits.value digits) :: glyphsFrom digits.length cs
    else .plain c :: glyphsFrom 0 cs

def glyphs (text : List Char) : List Glyph := glyphsFrom 0 text

def placeholderNumbers (text : List Char) : List Nat := (glyphs text).filterMap Glyph.number?

def shiftPlaceholders (offset : Nat) (text : List Char) : List Char :=
  (glyphs text).flatMap (Glyph.shifted offset)

theorem glyphsFrom_append (digits rest : List Char) :
    glyphsFrom digits.length (digits ++ rest) = glyphs rest := by
  induction digits with
  | nil => rfl
  | cons d digits ih => exact ih

theorem glyphs_plain {text : List Char} (unmarked : '$' ∉ text) (rest : List Char) :
    glyphs (text ++ rest) = text.map .plain ++ glyphs rest := by
  induction text with
  | nil => rfl
  | cons c text ih =>
    rw [List.mem_cons, not_or] at unmarked
    obtain ⟨other, unmarked⟩ := unmarked
    have begun : ¬ (c = '$' ∧ (Digits.span (text ++ rest)).1 ≠ []) :=
      fun both => other both.1.symm
    rw [List.cons_append, glyphs, glyphsFrom]
    simp only [begun, if_false]
    exact congrArg (List.cons _) (ih unmarked)

theorem glyphs_placeholder (number : Nat) {rest : List Char}
    (ends : ∀ c ∈ rest.head?, c.isDigit = false) :
    glyphs ('$' :: Digits.ofNat number ++ rest) = .placeholder number :: glyphs rest := by
  have digits : (Digits.span (Digits.ofNat number ++ rest)).1 = Digits.ofNat number :=
    congrArg Prod.fst (Digits.span_append (fun _ digit => Digits.isDigit_ofNat digit) ends)
  have begun : '$' = '$' ∧ Digits.ofNat number ≠ [] := ⟨rfl, Digits.ofNat_ne_nil number⟩
  rw [List.cons_append, glyphs, glyphsFrom, digits, if_pos begun, Digits.value_ofNat,
    glyphsFrom_append]

end Sql

open Sql

namespace Column

/-- No dollar sign stands in the names of the column. -/
def isUnmarked (column : Column) : Bool :=
  !column.source.toList.contains '$' && !column.name.toList.contains '$'

theorem notMem_sql {column : Column} (unmarked : column.isUnmarked = true) : '$' ∉ column.sql := by
  simp only [isUnmarked, Bool.and_eq_true, Bool.not_eq_true', List.contains_eq_mem,
    decide_eq_false_iff_not] at unmarked
  obtain ⟨source, name⟩ := unmarked
  have qualified : '$' ∉ column.qualified := by
    unfold qualified
    split
    · exact name
    · simp [source, name]
  unfold sql
  cases column.transform with
  | none => exact qualified
  | some transform =>
    cases transform with
    | upper => simp [qualified]
    | utc => simp [qualified]

end Column

namespace Piece

/-- The glyphs of the text that the pieces are rendered to. -/
def glyphs : (offset : Nat) → List Piece → List Glyph
  | _, [] => []
  | offset, sql text :: rest => text.map .plain ++ glyphs offset rest
  | offset, bind _ :: rest => .placeholder (offset + 1) :: glyphs (offset + 1) rest

/-- No digit is the first character of the pieces. -/
def EndsNumber : List Piece → Prop
  | [] => True
  | sql (c :: _) :: _ => c.isDigit = false
  | _ => False

/-- The only dollar signs and the only digits behind them are those of placeholders. -/
def Unmarked : List Piece → Prop
  | [] => True
  | sql text :: rest => '$' ∉ text ∧ Unmarked rest
  | bind _ :: rest => EndsNumber rest ∧ Unmarked rest

theorem EndsNumber.render {pieces : List Piece} (ends : EndsNumber pieces) (offset : Nat) :
    ∀ c ∈ (render offset pieces).head?, c.isDigit = false := by
  cases pieces with
  | nil => nofun
  | cons piece rest =>
    cases piece with
    | bind value => cases ends
    | sql text =>
      cases text with
      | nil => cases ends
      | cons first text =>
        rintro c ⟨⟩
        exact ends

theorem EndsNumber.append {pieces more : List Piece} (ends : EndsNumber pieces)
    (behind : EndsNumber more) : EndsNumber (pieces ++ more) := by
  cases pieces with
  | nil => exact behind
  | cons piece rest =>
    cases piece with
    | bind value => cases ends
    | sql text =>
      cases text with
      | nil => cases ends
      | cons c text => exact ends

theorem Unmarked.append {pieces more : List Piece} (unmarked : Unmarked pieces)
    (ends : EndsNumber more) (behind : Unmarked more) : Unmarked (pieces ++ more) := by
  induction pieces with
  | nil => exact behind
  | cons piece rest ih =>
    cases piece with
    | sql text => exact ⟨unmarked.1, ih unmarked.2⟩
    | bind value => exact ⟨unmarked.1.append ends, ih unmarked.2⟩

theorem Unmarked.ofSeparated {separator : String} {parts : List (List Piece)}
    (free : '$' ∉ separator.toList) (ends : EndsNumber [lit separator])
    (each : ∀ part ∈ parts, Unmarked part) : Unmarked (separated (lit separator) parts) := by
  induction parts with
  | nil => trivial
  | cons part rest ih =>
    obtain ⟨first, others⟩ := List.forall_mem_cons.mp each
    cases rest with
    | nil => exact first
    | cons next rest =>
      have separated : Piece.separated (lit separator) (part :: next :: rest) =
        part ++ lit separator :: Piece.separated (lit separator) (next :: rest) := rfl
      rw [separated]
      refine first.append ?_ ⟨free, ih others⟩
      unfold lit at ends ⊢
      generalize separator.toList = text at ends ⊢
      cases text with
      | nil => cases ends
      | cons c text => exact ends

theorem glyphs_render {pieces : List Piece} (unmarked : Unmarked pieces) (offset : Nat) :
    Sql.glyphs (render offset pieces) = glyphs offset pieces := by
  induction pieces generalizing offset with
  | nil => rfl
  | cons piece rest ih =>
    cases piece with
    | sql text => rw [render, glyphs_plain unmarked.1, ih unmarked.2, glyphs]
    | bind value =>
      rw [render, glyphs_placeholder _ (unmarked.1.render _), ih unmarked.2, glyphs]

theorem numbers_glyphs (offset : Nat) (pieces : List Piece) :
    (glyphs offset pieces).filterMap Glyph.number? =
      List.range' (offset + 1) (params pieces).length := by
  induction pieces generalizing offset with
  | nil => rfl
  | cons piece rest ih =>
    cases piece with
    | sql text =>
      have plain : (text.map Glyph.plain).filterMap Glyph.number? = [] := by
        rw [List.filterMap_map, List.filterMap_eq_nil_iff]
        exact fun _ _ => rfl
      rw [glyphs, List.filterMap_append, plain, List.nil_append, ih, params_sql]
    | bind value =>
      have number : (Glyph.placeholder (offset + 1)).number? = some (offset + 1) := rfl
      rw [glyphs, List.filterMap_cons_some number, ih, params_bind, List.length_cons,
        List.range'_succ]

theorem shifted_glyphs (offset start : Nat) (pieces : List Piece) :
    (glyphs start pieces).flatMap (Glyph.shifted offset) = render (offset + start) pieces := by
  induction pieces generalizing start with
  | nil => rfl
  | cons piece rest ih =>
    cases piece with
    | sql text =>
      have plain : (text.map Glyph.plain).flatMap (Glyph.shifted offset) = text := by
        rw [List.flatMap_map]
        exact List.flatMap_singleton' text
      rw [glyphs, List.flatMap_append, plain, ih, render]
    | bind value =>
      rw [glyphs, List.flatMap_cons, ih, render]
      rfl

end Piece

namespace Filter

open Piece

theorem unmarked_compare (comparison : Comparison) {column : Column}
    (unmarked : '$' ∉ column.sql) (value : Value) :
    Unmarked (comparePieces comparison column value) := by
  have absent : ∀ negated, Unmarked (nullPieces negated column) := fun negated => by
    cases negated <;> exact ⟨unmarked, by decide, trivial⟩
  have compared : ∀ value, Unmarked [.sql column.sql, .lit " ", .lit comparison.sign, .lit " ",
      .bind value] := fun value => by
    cases comparison <;> exact ⟨unmarked, by decide, by decide, by decide, trivial, trivial⟩
  cases value with
  | null =>
    cases comparison with
    | eq => exact absent false
    | neq => exact absent true
    | _ => exact compared .null
  | _ => cases comparison <;> exact compared _

theorem unmarked_member (negated : Bool) {column : Column} (unmarked : '$' ∉ column.sql)
    (values : List Value) : Unmarked (memberPieces negated column values) := by
  unfold memberPieces
  split
  · cases negated <;> exact ⟨by decide, trivial⟩
  · have binds : Unmarked (separated (.lit ", ") (values.map fun value => [.bind value])) := by
      refine .ofSeparated (by decide) rfl fun part member => ?_
      obtain ⟨value, _, rfl⟩ := List.mem_map.mp member
      exact ⟨trivial, trivial⟩
    have ends : EndsNumber [.lit ")"] := rfl
    have closed := binds.append ends ⟨by decide, trivial⟩
    cases negated <;> exact ⟨unmarked, by decide, closed⟩

theorem unmarked_like (place : Place) {column : Column} (unmarked : '$' ∉ column.sql)
    (text : String) : Unmarked (Like.pieces place column text) := by
  unfold Like.pieces
  dsimp only
  split <;> exact ⟨unmarked, by decide, rfl, by decide, trivial⟩

theorem unmarked_pieces (filter : Filter)
    (unmarked : ∀ column ∈ filter.columns, column.isUnmarked = true) : Unmarked filter.pieces := by
  have named : ∀ column ∈ filter.columns, '$' ∉ column.sql :=
    fun column member => Column.notMem_sql (unmarked column member)
  clear unmarked
  induction filter using induction with
  | none => exact ⟨by decide, trivial⟩
  | compare comparison column value =>
    exact unmarked_compare comparison (named column (by simp [columns])) value
  | member negated column values =>
    exact unmarked_member negated (named column (by simp [columns])) values
  | between column low high =>
    exact ⟨named column (by simp [columns]), by decide, rfl, by decide, trivial, trivial⟩
  | like place column text => exact unmarked_like place (named column (by simp [columns])) text
  | nullCheck negated column =>
    cases negated <;> exact ⟨named column (by simp [columns]), by decide, trivial⟩
  | not filter ih => exact ⟨by decide, (ih named).append rfl ⟨by decide, trivial⟩⟩
  | junction connective filters ih =>
    rw [columns, columnsAll_eq_flatMap] at named
    have each : ∀ part ∈ filters.map pieces, Unmarked part := by
      intro part member
      obtain ⟨filter, among, rfl⟩ := List.mem_map.mp member
      exact ih filter among fun column looked =>
        named column (List.mem_flatMap.mpr ⟨filter, among, looked⟩)
    have members : Unmarked (separated (.lit connective.keyword) (filters.map pieces)) := by
      cases connective <;> exact .ofSeparated (by decide) rfl each
    rw [pieces, piecesOfAll_eq_map]
    split
    · cases connective <;> exact ⟨by decide, trivial⟩
    · exact ⟨by decide, members.append rfl ⟨by decide, trivial⟩⟩

end Filter

namespace Piece

theorem render_enclosed (opening closing : String) (offset : Nat) (pieces : List Piece) :
    render offset (lit opening :: pieces ++ [lit closing]) =
      opening.toList ++ render offset pieces ++ closing.toList := by
  have behind : ∀ offset, render offset [lit closing] = closing.toList := fun _ => List.append_nil _
  rw [List.cons_append, lit, render, render_append, behind, List.append_assoc]

theorem params_enclosed (opening closing : String) (pieces : List Piece) :
    params (lit opening :: pieces ++ [lit closing]) = params pieces := by
  rw [List.cons_append, params_lit, params_append, params_lit, params_nil, List.append_nil]

end Piece

namespace Filter

open Piece

/-- The texts of the predicates by themselves, each numbered on from the parameters of those before
it. -/
def textsFrom (offset : Nat) : List Filter → List (List Char)
  | [] => []
  | filter :: rest =>
    (filter.toSql offset).1 :: textsFrom (offset + (filter.toSql offset).2.length) rest

theorem render_separated (separator : String) (offset : Nat) (filters : List Filter) :
    render offset (separated (.lit separator) (filters.map pieces)) =
      separator.toList.intercalate (textsFrom offset filters) := by
  induction filters generalizing offset with
  | nil => rfl
  | cons filter rest ih =>
    cases rest with
    | nil => exact (List.append_nil _).symm
    | cons next rest =>
      have separated : Piece.separated (.lit separator) ((filter :: next :: rest).map pieces) =
        filter.pieces ++ .lit separator ::
          Piece.separated (.lit separator) ((next :: rest).map pieces) := rfl
      rw [separated, render_append, Piece.lit, render, ← Piece.lit, ih, textsFrom]
      simp [List.intercalate, textsFrom, toSql]

theorem toSql_junction (connective : Connective) {filters : List Filter} (some : filters ≠ [])
    (offset : Nat) :
    (junction connective filters).toSql offset =
      ('(' :: connective.keyword.toList.intercalate (textsFrom offset filters) ++ [')'],
        filters.flatMap fun filter => (filter.toSql offset).2) := by
  have nonempty : ¬ filters.isEmpty = true := by simpa using some
  have bound : (filters.map pieces).flatMap params =
      filters.flatMap fun filter => (filter.toSql offset).2 := by
    rw [List.flatMap_map]
    rfl
  rw [toSql, pieces, if_neg nonempty, piecesOfAll_eq_map, render_enclosed, params_enclosed,
    render_separated, params_separated, bound]
  rfl

theorem toSql_not (filter : Filter) (offset : Nat) :
    (not filter).toSql offset =
      ("NOT (".toList ++ (filter.toSql offset).1 ++ [')'], (filter.toSql offset).2) := by
  rw [toSql, pieces, render_enclosed, params_enclosed]
  rfl

/-- The placeholders are numbered on from the offset, one for each parameter, and the text is put
together from the texts of its parts. -/
structure Numbered (filter : Filter) (offset : Nat) : Prop where
  numbers : placeholderNumbers (filter.toSql offset).1 =
    List.range' (offset + 1) (filter.toSql offset).2.length
  params : (filter.toSql offset).2 = (filter.toSql 0).2
  shifted : (filter.toSql offset).1 = shiftPlaceholders offset (filter.toSql 0).1
  junction : ∀ connective filters, filter = .junction connective filters → filters ≠ [] →
    filter.toSql offset =
      ('(' :: connective.keyword.toList.intercalate (textsFrom offset filters) ++ [')'],
        filters.flatMap fun filter => (filter.toSql offset).2)
  not : ∀ inner, filter = .not inner →
    filter.toSql offset =
      ("NOT (".toList ++ (inner.toSql offset).1 ++ [')'], (inner.toSql offset).2)

/-- Placeholders in groups, in a list of values, and next to names that end or begin with digits. -/
def chapters : Filter :=
  .junction .or [
    .between ⟨"t0", "page 1", .i32, Option.none⟩ (.int 100) (.int 200),
    .compare .neq ⟨"t0", "isbn", .string, Option.none⟩ .null,
    .not (.junction .and [
      .member false ⟨"", "7", .i64, Option.none⟩ [.int 1, .int 2],
      .like .atStart ⟨"t1", "it's", .string, some .upper⟩ "$9"])]

theorem toSql_numbered (filter : Filter)
    (unmarked : ∀ column ∈ filter.columns, column.isUnmarked = true) (offset : Nat) :
    filter.Numbered offset := by
  have glyphs := glyphs_render (filter.unmarked_pieces unmarked)
  exact {
    numbers := by
      unfold placeholderNumbers toSql
      rw [glyphs, numbers_glyphs]
    params := rfl
    shifted := by
      unfold shiftPlaceholders toSql
      rw [glyphs, shifted_glyphs, Nat.add_zero]
    junction := by
      rintro connective filters rfl some
      exact toSql_junction connective some offset
    not := by
      rintro inner rfl
      exact toSql_not inner offset }

/-- The dollar sign of a value is no placeholder, for the value is not in the text. -/
theorem toSql_numbered_chapters :
    (∀ column ∈ chapters.columns, column.isUnmarked = true) ∧
    (chapters.toSql 7).1 = ("(t0.page 1 BETWEEN $8 AND $9 OR t0.isbn IS NOT NULL OR " ++
      "NOT ((7 IN ($10, $11) AND UPPER(t1.it's) LIKE UPPER($12) ESCAPE '\\')))").toList ∧
    placeholderNumbers (chapters.toSql 7).1 = [8, 9, 10, 11, 12] ∧
    chapters.Numbered 7 := by
  have unmarked : ∀ column ∈ chapters.columns, column.isUnmarked = true := by decide
  have numbered := toSql_numbered chapters unmarked 7
  exact ⟨unmarked, by decide +kernel, numbered.numbers, numbered⟩

end Filter

end RequestFilter
