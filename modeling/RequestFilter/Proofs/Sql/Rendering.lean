import Mathlib.Data.List.Forall2
import RequestFilter.Proofs.Leaves
import RequestFilter.Proofs.Sql.Unambiguous

namespace RequestFilter

open Sql

namespace Column

/-- What the column is in a text. -/
def operand (column : Column) : Operand where
  source := if column.source.isEmpty then none else some column.source
  name := column.name
  transform := column.transform

/-- The names of the column need no quotes. -/
def isPlain (column : Column) : Bool :=
  (column.source.isEmpty || isPlainName column.source.toList) && isPlainName column.name.toList

end Column

namespace Sql

theorem lexes_qualified {column : Column} (plain : column.isPlain = true) :
    Lexes column.qualified (reference column.operand.source column.name) := by
  simp only [Column.isPlain, Bool.and_eq_true, Bool.or_eq_true] at plain
  obtain ⟨source, name⟩ := plain
  unfold Column.qualified Column.operand
  by_cases empty : column.source.isEmpty = true
  · simp only [empty, if_true]
    exact lexes_name name
  · have dot : Closes ['.'] [.dot] := fun _ => rfl
    simp only [empty, Bool.false_eq_true, if_false]
    exact (lexes_name (source.resolve_left empty)).append (dot.append (lexes_name name))
      (apart_cons rfl _)

theorem lexes_sql {column : Column} (plain : column.isPlain = true) :
    ∃ ts, column.operand.Spelled ts ∧ Lexes column.sql ts := by
  have qualified := lexes_qualified plain
  obtain ⟨source, name, type, transform⟩ := column
  cases transform with
  | none => exact ⟨_, .plain _ _, qualified⟩
  | some transform =>
    cases transform with
    | upper =>
      have call : Closes "UPPER(".toList [.name "UPPER", .opening] := fun _ => rfl
      have closing : Lexes [')'] [.closing] := fun _ _ => rfl
      refine ⟨_, .upper _ _ (rfl : SameWord "UPPER" "UPPER"), ?_⟩
      have upper := call.append (qualified.append closing (apart_cons rfl _))
      unfold Column.sql
      rw [List.append_assoc]
      exact upper
    | utc =>
      have opening : Closes ['('] [.opening] := fun _ => rfl
      have zone : Lexes " AT TIME ZONE 'UTC')".toList
        [.name "AT", .name "TIME", .name "ZONE", .literal "UTC", .closing] := fun _ _ => rfl
      refine ⟨_, .utc _ _ (rfl : SameWord "AT" "AT") (rfl : SameWord "TIME" "TIME")
        (rfl : SameWord "ZONE" "ZONE"), ?_⟩
      exact opening.append (qualified.append zone (apart_cons rfl _))

/-- The values are those of the placeholders that are numbered on from the offset. -/
def Binds (f : Nat → Option Value) : (offset : Nat) → List Value → Prop
  | _, [] => True
  | offset, value :: rest => f (offset + 1) = some value ∧ Binds f (offset + 1) rest

theorem binds_append {f : Nat → Option Value} {offset : Nat} {values more : List Value} :
    Binds f offset (values ++ more) ↔
      Binds f offset values ∧ Binds f (offset + values.length) more := by
  induction values generalizing offset with
  | nil => simp [Binds]
  | cons value values ih =>
    rw [List.cons_append, Binds, Binds, ih, and_assoc, List.length_cons, Nat.add_assoc,
      Nat.add_comm 1]

/-- The text of the pieces is a predicate that says the same. -/
def ReadsAs (pieces : List Piece) (normal : Reading Value) : Prop :=
  ∀ offset, ∃ ts reading, Lexes (Piece.render offset pieces) ts ∧ Derives .negation ts reading ∧
    ∀ f, Binds f offset (Piece.params pieces) → reading.map f = normal.map some

/-- The text of the pieces, behind an operand, is a test that asks the same of it. -/
def Asks (pieces : List Piece) (test : Test Value) : Prop :=
  ∀ offset, ∃ ts asked, Lexes (Piece.render offset pieces) ts ∧ Apart (Piece.render offset pieces) ∧
    Test.Spelled asked ts ∧ ∀ f, Binds f offset (Piece.params pieces) → asked.map f = test.map some

theorem readsAs_constant (value : Bool) :
    ReadsAs [.lit (if value then "TRUE" else "FALSE")] (.constant value) := by
  intro offset
  refine ⟨_, _, ?_, .primary (.constant value), fun _ _ => rfl⟩
  cases value with
  | true => exact lexes_keyword .truth
  | false => exact lexes_keyword .falsity

theorem Asks.readsAs {column : Column} {pieces : List Piece} {test : Test Value}
    (asks : Asks pieces test) (plain : column.isPlain = true) :
    ReadsAs (.sql column.sql :: pieces) (.test column.operand test) := by
  intro offset
  obtain ⟨ts, spelled, sql⟩ := lexes_sql plain
  obtain ⟨us, asked, lexes, apart, asking, same⟩ := asks offset
  refine ⟨ts ++ us, .test column.operand asked, sql.append lexes apart,
    .primary (.test spelled asking), fun f binds => ?_⟩
  rw [Reading.map, Reading.map, same f binds]

theorem asks_compare (comparison : Comparison) (value : Value) :
    Asks [.lit " ", .lit comparison.sign, .lit " ", .bind value] (.compare comparison value) := by
  intro offset
  have sign : Closes (" ".toList ++ comparison.sign.toList ++ " ".toList) [.sign comparison] := by
    cases comparison <;> exact fun _ => rfl
  refine ⟨_, .compare comparison (offset + 1), ?_, apart_cons rfl _, .compare comparison (offset + 1),
    fun f binds => ?_⟩
  · have lexes := sign.append (lexes_placeholder (offset + 1))
    rw [List.append_assoc, List.append_assoc] at lexes
    simp only [Piece.render, Piece.lit, List.append_nil]
    exact lexes
  · rw [Test.map, Test.map, binds.1]

theorem asks_between (low high : Value) :
    Asks [.lit " BETWEEN ", .bind low, .lit " AND ", .bind high] (.between low high) := by
  intro offset
  have between : Closes " BETWEEN ".toList [.keyword .between] := fun _ => rfl
  have and : Closes " AND ".toList [.keyword .and] := fun _ => rfl
  refine ⟨_, .between (offset + 1) (offset + 2), ?_, apart_cons rfl _, .between _ _,
    fun f binds => ?_⟩
  · have lexes := between.append ((lexes_placeholder (offset + 1)).append
      (and.append (lexes_placeholder (offset + 2))) (apart_cons rfl _))
    simp only [Piece.render, Piece.lit, List.append_nil]
    exact lexes
  · rw [Test.map, Test.map, binds.1, binds.2.1]

theorem lexes_placeholders (first : Value) (more : List Value) (offset : Nat) :
    ∃ numbers, Lexes (Piece.render offset
        (Piece.separated (.lit ", ") ((first :: more).map fun value => [.bind value])))
      (placeholders (offset + 1) numbers) ∧
      ∀ f, Binds f offset (first :: more) →
        f (offset + 1) = some first ∧ numbers.map f = more.map some := by
  induction more generalizing first offset with
  | nil =>
    refine ⟨[], ?_, fun f binds => ⟨binds.1, rfl⟩⟩
    have lexes := lexes_placeholder (offset + 1)
    simpa [Piece.separated, Piece.render, placeholders] using lexes
  | cons second more ih =>
    obtain ⟨numbers, lexes, same⟩ := ih second (offset + 1)
    have comma : Closes ", ".toList [.comma] := fun _ => rfl
    refine ⟨(offset + 2) :: numbers, ?_, fun f binds => ?_⟩
    · exact (lexes_placeholder (offset + 1)).append (comma.append lexes) (apart_cons rfl _)
    · obtain ⟨known, others⟩ := same f binds.2
      exact ⟨binds.1, by rw [List.map_cons, List.map_cons, known, others]⟩

theorem asks_member (negated : Bool) (first : Value) (more : List Value) :
    Asks (.lit (if negated then " NOT IN (" else " IN (") ::
        Piece.separated (.lit ", ") ((first :: more).map fun value => [.bind value]) ++ [.lit ")"])
      (.member negated first more) := by
  intro offset
  obtain ⟨numbers, lexes, same⟩ := lexes_placeholders first more offset
  have opening : Closes (if negated then " NOT IN (" else " IN (").toList
      (negation negated ++ [.keyword .within, .opening]) := by
    cases negated <;> exact fun _ => rfl
  have closing : Lexes [')'] [.closing] := fun _ _ => rfl
  refine ⟨_, .member negated (offset + 1) numbers, ?_, ?_, .member negated (offset + 1) numbers,
    fun f binds => ?_⟩
  · have whole := opening.append (lexes.append closing (apart_cons rfl _))
    rw [List.append_assoc] at whole
    rw [List.cons_append, Piece.lit, Piece.render, Piece.render_append, List.append_assoc]
    exact whole
  · cases negated <;> exact apart_cons rfl _
  · rw [List.cons_append, Piece.params_lit, Piece.params_append, Piece.params_binds, binds_append] at binds
    obtain ⟨known, others⟩ := same f binds.1
    rw [Test.map, Test.map, known, others]

theorem asks_like (text : Value) :
    Asks [.lit " LIKE ", .bind text, .lit " ESCAPE '\\'"] (.like false text) := by
  intro offset
  have like : Closes " LIKE ".toList [.keyword .like] := fun _ => rfl
  have escape : Lexes " ESCAPE '\\'".toList [.keyword .escape, .literal "\\"] := fun _ _ => rfl
  refine ⟨_, .like false (offset + 1), ?_, apart_cons rfl _, .like (offset + 1), fun f binds => ?_⟩
  · have lexes := like.append ((lexes_placeholder (offset + 1)).append escape (apart_cons rfl _))
    simp only [Piece.render, Piece.lit, List.append_nil]
    exact lexes
  · rw [Test.map, Test.map, binds.1]

theorem asks_likeUpper (text : Value) :
    Asks [.lit " LIKE UPPER(", .bind text, .lit ") ESCAPE '\\'"] (.like true text) := by
  intro offset
  have like : Closes " LIKE UPPER(".toList [.keyword .like, .name "UPPER", .opening] := fun _ => rfl
  have escape : Lexes ") ESCAPE '\\'".toList [.closing, .keyword .escape, .literal "\\"] :=
    fun _ _ => rfl
  refine ⟨_, .like true (offset + 1), ?_, apart_cons rfl _,
    .likeUpper (rfl : SameWord "UPPER" "UPPER") (offset + 1), fun f binds => ?_⟩
  · have lexes := like.append ((lexes_placeholder (offset + 1)).append escape (apart_cons rfl _))
    simp only [Piece.render, Piece.lit, List.append_nil]
    exact lexes
  · rw [Test.map, Test.map, binds.1]

theorem asks_nullCheck (negated : Bool) :
    Asks [.lit (if negated then " IS NOT NULL" else " IS NULL")] (.nullCheck negated) := by
  intro offset
  refine ⟨_, .nullCheck negated, ?_, ?_, .nullCheck negated, fun _ _ => rfl⟩
  · have test : Closes (if negated then " IS NOT " else " IS ").toList
        (.keyword .is :: negation negated) := by
      cases negated <;> exact fun _ => rfl
    have lexes := test.append (lexes_keyword .null)
    cases negated <;> exact lexes
  · cases negated <;> exact apart_cons rfl _

/-- A chain of predicates is a chain of their readings. -/
theorem reads_chain (connective : Connective) {part : List Piece} {parts : List (List Piece)}
    {normal : Reading Value} {normals : List (Reading Value)} (first : ReadsAs part normal)
    (each : List.Forall₂ ReadsAs parts normals) (offset : Nat) :
    ∃ ts reading, ∃ more : List (List Token × Reading Nat),
      Lexes (Piece.render offset (Piece.separated (.lit connective.keyword) (part :: parts)))
        (ts ++ more.flatMap fun part => .keyword connective.word :: part.1) ∧
      Derives .negation ts reading ∧ (∀ part ∈ more, Derives .negation part.1 part.2) ∧
      ∀ f, Binds f offset (Piece.params (Piece.separated (.lit connective.keyword) (part :: parts))) →
        (reading :: more.map Prod.snd).map (Reading.map f) =
          (normal :: normals).map (Reading.map some) := by
  -- On the members behind the first: each is numbered on from where the one before it stopped.
  induction each generalizing part normal offset with
  | nil =>
    obtain ⟨ts, reading, lexes, derives, same⟩ := first offset
    refine ⟨ts, reading, [], ?_, derives, nofun, fun f binds => ?_⟩
    · rw [List.flatMap_nil, List.append_nil]
      exact lexes
    · exact congrArg (fun reading => [reading]) (same f binds)
  | @cons next normal' parts normals second _ ih =>
    obtain ⟨ts, reading, lexes, derives, same⟩ := first offset
    obtain ⟨us, reading', more, rest, derives', each', same'⟩ :=
      ih second (offset + (Piece.params part).length)
    have separated : Piece.separated (.lit connective.keyword) (part :: next :: parts) =
      part ++ .lit connective.keyword ::
        Piece.separated (.lit connective.keyword) (next :: parts) := rfl
    have word : Closes connective.keyword.toList [.keyword connective.word] := by
      cases connective <;> exact fun _ => rfl
    have apart : ∀ more, Apart (connective.keyword.toList ++ more) := by
      cases connective <;> exact fun _ => apart_cons rfl _
    refine ⟨ts, reading, (us, reading') :: more, ?_, derives, ?_, fun f binds => ?_⟩
    · rw [separated, Piece.render_append]
      exact lexes.append (word.append rest) (apart _)
    · exact List.forall_mem_cons.mpr ⟨derives', each'⟩
    · rw [separated, Piece.params_append, Piece.params_lit, binds_append] at binds
      rw [List.map_cons, same f binds.1]
      exact congrArg (List.cons _) (same' f binds.2)

theorem readsAs_junction (connective : Connective) {part : List Piece} {parts : List (List Piece)}
    {normal : Reading Value} {normals : List (Reading Value)} (first : ReadsAs part normal)
    (each : List.Forall₂ ReadsAs parts normals) :
    ReadsAs (.lit "(" :: Piece.separated (.lit connective.keyword) (part :: parts) ++ [.lit ")"])
      (.join connective (normal :: normals)) := by
  intro offset
  obtain ⟨ts, reading, more, lexes, derives, each, same⟩ := reads_chain connective first each offset
  have opening : Closes "(".toList [.opening] := fun _ => rfl
  have closing : Lexes ")".toList [.closing] := fun _ _ => rfl
  have chain : Derives (.chain connective)
      (ts ++ more.flatMap fun part => .keyword connective.word :: part.1)
      (.join connective (reading :: more.map Prod.snd)) :=
    .chain (derives.lift connective) fun part member => (each part member).lift connective
  refine ⟨_, _, ?_, .primary (.group chain.top), fun f binds => ?_⟩
  · rw [List.cons_append, Piece.lit, Piece.render, Piece.render_append]
    exact opening.append (lexes.append closing (apart_cons rfl _))
  · rw [List.cons_append, Piece.params_lit, Piece.params_append, binds_append] at binds
    rw [Reading.map_join, Reading.map_join, same f binds.1]

theorem ReadsAs.not {pieces : List Piece} {normal : Reading Value} (reads : ReadsAs pieces normal) :
    ReadsAs (.lit "NOT (" :: pieces ++ [.lit ")"]) (.not normal) := by
  intro offset
  obtain ⟨ts, reading, lexes, derives, same⟩ := reads offset
  have opening : Closes "NOT (".toList [.keyword .not, .opening] := fun _ => rfl
  have closing : Lexes ")".toList [.closing] := fun _ _ => rfl
  have group : Derives .primary (.opening :: ts ++ [.closing]) reading :=
    .group (.single .or (derives.lift .or))
  refine ⟨_, _, ?_, .not (.primary group), fun f binds => ?_⟩
  · rw [List.cons_append, Piece.lit, Piece.render, Piece.render_append]
    exact opening.append (lexes.append closing (apart_cons rfl _))
  · rw [List.cons_append, Piece.params_lit, Piece.params_append, binds_append] at binds
    rw [Reading.map, Reading.map, same f binds.1]

/-- The value of a placeholder whose numbers go on from the offset. -/
def parameter (offset : Nat) (params : List Value) (number : Nat) : Option Value :=
  if offset < number then params[number - offset - 1]? else none

theorem binds_parameter (offset : Nat) (params : List Value) :
    Binds (parameter offset params) offset params := by
  have behind : ∀ values before : List Value,
      Binds (parameter offset (before ++ values)) (offset + before.length) values := by
    intro values
    induction values with
    | nil => exact fun _ => trivial
    | cons value values ih =>
      intro before
      have rest := ih (before ++ [value])
      rw [List.append_assoc, List.singleton_append, List.length_append, List.length_singleton,
        ← Nat.add_assoc] at rest
      refine ⟨?_, rest⟩
      have position : offset + before.length + 1 - offset - 1 = before.length := by omega
      rw [parameter, if_pos (by omega), position]
      simp
  exact behind params []

end Sql

end RequestFilter
