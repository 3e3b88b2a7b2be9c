import RequestFilter.Proofs.Conjuncts
import RequestFilter.Proofs.Skeleton
import RequestFilter.Proofs.Sql.Rendering

namespace RequestFilter.Filter

open Sql

def compareNormal (comparison : Comparison) (column : Column) (value : Value) : Reading Value :=
  match comparison, value with
  | .eq, .null => .test column.operand (.nullCheck false)
  | .neq, .null => .test column.operand (.nullCheck true)
  | comparison, value => .test column.operand (.compare comparison value)

def memberNormal (negated : Bool) (column : Column) : List Value → Reading Value
  | [] => .constant negated
  | first :: more => .test column.operand (.member negated first more)

/-- A backslash stands before each backslash and each wildcard of the text. -/
def escapedNormal : List Char → List Char
  | [] => []
  | '\\' :: cs => '\\' :: '\\' :: escapedNormal cs
  | '%' :: cs => '\\' :: '%' :: escapedNormal cs
  | '_' :: cs => '\\' :: '_' :: escapedNormal cs
  | c :: cs => c :: escapedNormal cs

def patternNormal (place : Place) (text : String) : String :=
  match place with
  | .anywhere => "%" ++ String.ofList (escapedNormal text.toList) ++ "%"
  | .atStart => String.ofList (escapedNormal text.toList) ++ "%"
  | .atEnd => "%" ++ String.ofList (escapedNormal text.toList)

mutual

def normal : Filter → Reading Value
  | none => .constant true
  | compare comparison column value => compareNormal comparison column value
  | member negated column values => memberNormal negated column values
  | between column low high => .test column.operand (.between low high)
  | like place column text =>
    .test column.operand
      (.like (column.transform = some .upper) (.text (patternNormal place text)))
  | nullCheck negated column => .test column.operand (.nullCheck negated)
  | junction connective filters => .join connective (normalAll filters)
  | not filter => .not (normal filter)

def normalAll : List Filter → List (Reading Value)
  | [] => []
  | filter :: filters => normal filter :: normalAll filters

end

theorem normalAll_eq_map (filters : List Filter) : normalAll filters = filters.map normal := by
  induction filters with
  | nil => rfl
  | cons filter filters ih => rw [normalAll, ih, List.map_cons]

theorem readsAs_compare (comparison : Comparison) {column : Column} (plain : column.isPlain = true)
    (value : Value) :
    ReadsAs (comparePieces comparison column value) (compareNormal comparison column value) := by
  cases value with
  | null =>
    cases comparison with
    | eq => exact (asks_nullCheck false).readsAs plain
    | neq => exact (asks_nullCheck true).readsAs plain
    | _ => exact (asks_compare _ .null).readsAs plain
  | _ => cases comparison <;> exact (asks_compare _ _).readsAs plain

theorem readsAs_member (negated : Bool) {column : Column} (plain : column.isPlain = true)
    (values : List Value) :
    ReadsAs (memberPieces negated column values) (memberNormal negated column values) := by
  cases values with
  | nil => exact readsAs_constant negated
  | cons first more => exact (asks_member negated first more).readsAs plain

theorem escape_eq (cs : List Char) : Like.escape cs = escapedNormal cs := by
  fun_induction escapedNormal cs with
  | case1 => rfl
  | case2 cs ih | case3 cs ih | case4 cs ih =>
    rw [← ih]
    rfl
  | case5 c cs backslash percent underscore ih =>
    have ordinary : Like.isSpecial c = false := by
      simp only [Like.isSpecial, Bool.or_eq_false_iff, beq_eq_false_iff_ne]
      exact ⟨⟨backslash, percent⟩, underscore⟩
    rw [← ih, Like.escape, List.flatMap_cons, ordinary]
    rfl

theorem pattern_eq (place : Place) (text : String) :
    String.ofList (Like.pattern place text.toList) = patternNormal place text := by
  cases place <;> simp [Like.pattern, patternNormal, escape_eq, String.append_assoc]

example : patternNormal .anywhere "50%" = "%50\\%%" := by decide

theorem readsAs_like (place : Place) {column : Column} (plain : column.isPlain = true) (text : String) :
    ReadsAs (Like.pieces place column text) (like place column text).normal := by
  unfold Like.pieces normal
  dsimp only
  rw [pattern_eq]
  split
  · rename_i upper
    simp only [upper, decide_true]
    exact (asks_likeUpper _).readsAs plain
  · rename_i other
    simp only [other, decide_false]
    exact (asks_like _).readsAs plain

theorem readsAs (filter : Filter) (plain : ∀ column ∈ filter.columns, column.isPlain = true) :
    ReadsAs filter.pieces filter.normal := by
  induction filter using induction with
  | none => exact readsAs_constant true
  | compare comparison column value =>
    exact readsAs_compare comparison (plain column (by simp [columns])) value
  | member negated column values =>
    exact readsAs_member negated (plain column (by simp [columns])) values
  | between column low high =>
    exact (asks_between low high).readsAs (plain column (by simp [columns]))
  | like place column text => exact readsAs_like place (plain column (by simp [columns])) text
  | nullCheck negated column =>
    exact (asks_nullCheck negated).readsAs (plain column (by simp [columns]))
  | not filter ih => exact (ih plain).not
  | junction connective filters ih =>
    cases filters with
    | nil =>
      cases connective with
      | and => exact readsAs_constant true
      | or => exact readsAs_constant false
    | cons filter filters =>
      rw [columns, columnsAll_eq_flatMap] at plain
      have each : ∀ filter' ∈ filter :: filters, ReadsAs filter'.pieces filter'.normal :=
        fun filter' member => ih filter' member fun column looked =>
          plain column (List.mem_flatMap.mpr ⟨filter', member, looked⟩)
      obtain ⟨first, rest⟩ := List.forall_mem_cons.mp each
      have others : List.Forall₂ ReadsAs (filters.map pieces) (filters.map normal) := by
        rw [List.forall₂_map_left_iff, List.forall₂_map_right_iff, List.forall₂_same]
        exact rest
      have nonempty : ¬ (filter :: filters).isEmpty = true := by simp
      rw [pieces, if_neg nonempty, piecesOfAll, piecesOfAll_eq_map, normal, normalAll,
        normalAll_eq_map]
      exact readsAs_junction connective first others

/-- A predicate with groups in groups, lists of values and none, and columns of every form. -/
def nested : Filter :=
  .not (.junction .or [
    .between ⟨"t0", "pages", .i32, Option.none⟩ (.int 100) (.int 200),
    .junction .and [
      .like .anywhere ⟨"t1", "name", .string, some .upper⟩ "50%",
      .member true ⟨"", "id", .i64, Option.none⟩ [.int 1, .int 2],
      .junction .or []],
    .junction .and [.compare .gt ⟨"t0", "added", .offsetDateTime, some .utc⟩ (.int 0)],
    .compare .eq ⟨"t0", "isbn", .string, Option.none⟩ .null])

/-- The text of a predicate over plain names has one reading, and with the values in place of the
parameters that reading is the normal form of the predicate. -/
theorem toSql_readsBack (filter : Filter) (plain : ∀ column ∈ filter.columns, column.isPlain = true)
    (offset : Nat) :
    ∃ reading, Reads (filter.toSql offset).1 reading ∧
      (∀ other, Reads (filter.toSql offset).1 other → other = reading) ∧
      reading.map (parameter offset (filter.toSql offset).2) = filter.normal.map some := by
  obtain ⟨ts, reading, lexes, derives, same⟩ := filter.readsAs plain offset
  have reads : Reads (filter.toSql offset).1 reading := by
    unfold Reads
    rw [toSql, lexes.tokens_eq]
    exact .single .or (derives.lift .or)
  exact ⟨reading, reads, fun other others => reads.unique others,
    same _ (binds_parameter offset (filter.toSql offset).2)⟩

theorem toSql_readsBack_nested :
    (∀ column ∈ nested.columns, column.isPlain = true) ∧
    ∃ reading, Reads (nested.toSql 7).1 reading ∧
      (∀ other, Reads (nested.toSql 7).1 other → other = reading) ∧
      reading.map (parameter 7 (nested.toSql 7).2) = nested.normal.map some :=
  ⟨by decide, toSql_readsBack nested (by decide) 7⟩

/-- A group of its own stands inside the parentheses of a negation. -/
example :
    let column : Column := ⟨"", "a", .i32, Option.none⟩
    ((not (.junction .or [.compare .lt column (.int 1), .nullCheck true column])).toSql 0).1 =
      "NOT ((a < $1 OR a IS NOT NULL))".toList := rfl

end RequestFilter.Filter
