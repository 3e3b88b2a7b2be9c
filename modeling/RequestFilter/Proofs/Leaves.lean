import RequestFilter.Filter.Sql

namespace RequestFilter

namespace Piece

@[simp] theorem params_nil : params [] = [] := rfl

@[simp] theorem params_lit (s : String) (rest : List Piece) : params (lit s :: rest) = params rest := rfl

@[simp] theorem params_sql (text : List Char) (rest : List Piece) :
    params (sql text :: rest) = params rest := rfl

@[simp] theorem params_bind (value : Value) (rest : List Piece) :
    params (bind value :: rest) = value :: params rest := rfl

@[simp] theorem params_append (pieces more : List Piece) :
    params (pieces ++ more) = params pieces ++ params more := List.filterMap_append

theorem render_append (offset : Nat) (pieces more : List Piece) :
    render offset (pieces ++ more) =
      render offset pieces ++ render (offset + (params pieces).length) more := by
  induction pieces generalizing offset with
  | nil => rfl
  | cons piece pieces ih =>
    cases piece with
    | sql text =>
      rw [List.cons_append, render, ih, render, List.append_assoc]
      rfl
    | bind value =>
      rw [List.cons_append, render, ih, render, List.append_assoc, params_bind, List.length_cons,
        Nat.add_assoc, Nat.add_comm 1]

theorem params_separated (separator : String) (parts : List (List Piece)) :
    params (separated (lit separator) parts) = parts.flatMap params := by
  induction parts with
  | nil => rfl
  | cons part rest ih =>
    cases rest with
    | nil => simp [separated]
    | cons next rest =>
      change params (part ++ lit separator :: separated (lit separator) (next :: rest)) = _
      rw [params_append, params_lit, ih]
      exact List.flatMap_cons.symm

theorem params_binds (values : List Value) :
    params (separated (lit ", ") (values.map fun value => [bind value])) = values := by
  rw [params_separated, List.flatMap_map]
  exact List.flatMap_singleton' values

end Piece

namespace Filter

mutual

def leaves : Filter → List Filter
  | none => []
  | junction _ filters => leavesAll filters
  | not filter => leaves filter
  | leaf => [leaf]

def leavesAll : List Filter → List Filter
  | [] => []
  | filter :: filters => leaves filter ++ leavesAll filters

end

theorem leavesAll_eq_flatMap (filters : List Filter) :
    leavesAll filters = filters.flatMap leaves := by
  induction filters with
  | nil => rfl
  | cons filter filters ih => rw [leavesAll, ih, List.flatMap_cons]

/-- Induction on predicates, with a hypothesis for each member of a junction. -/
@[elab_as_elim]
theorem induction {motive : Filter → Prop} (none : motive none)
    (compare : ∀ comparison column value, motive (compare comparison column value))
    (member : ∀ negated column values, motive (member negated column values))
    (between : ∀ column low high, motive (between column low high))
    (like : ∀ place column text, motive (like place column text))
    (nullCheck : ∀ negated column, motive (nullCheck negated column))
    (junction : ∀ connective filters, (∀ filter ∈ filters, motive filter) →
      motive (junction connective filters))
    (not : ∀ filter, motive filter → motive (not filter)) : ∀ filter, motive filter
  | .none => none
  | .compare comparison column value => compare comparison column value
  | .member negated column values => member negated column values
  | .between column low high => between column low high
  | .like place column text => like place column text
  | .nullCheck negated column => nullCheck negated column
  | .junction connective filters => junction connective filters fun filter _ =>
    induction none compare member between like nullCheck junction not filter
  | .not filter => not filter (induction none compare member between like nullCheck junction not filter)

theorem leaves_combine (connective : Connective) (filters : List Filter) :
    (combine connective filters).leaves = (filters.filter (!·.isNone)).flatMap leaves := by
  unfold combine
  split
  · rename_i none
    rw [none]
    rfl
  · rename_i filter one
    rw [one, List.flatMap_singleton]
  · rw [leaves, leavesAll_eq_flatMap]

theorem params_like (place : Place) (column : Column) (text : String) :
    Piece.params (Like.pieces place column text) =
      [.text (String.ofList (Like.pattern place text.toList))] := by
  unfold Like.pieces
  dsimp only
  split <;> rfl

theorem params_nullPieces (negated : Bool) (column : Column) :
    Piece.params (nullPieces negated column) = [] := rfl

theorem params_memberPieces (negated : Bool) (column : Column) (values : List Value) :
    Piece.params (memberPieces negated column values) = values := by
  unfold memberPieces
  cases values with
  | nil => rfl
  | cons value values =>
    rw [if_neg (by simp), Piece.params_append, Piece.params_append, Piece.params_binds]
    exact List.append_nil _

/-- The values to bind are those of the leaves, in order. -/
theorem params_pieces (filter : Filter) :
    Piece.params filter.pieces = filter.leaves.flatMap fun leaf => Piece.params leaf.pieces := by
  induction filter using induction with
  | none => rfl
  | not filter ih => simp [pieces, leaves, ih]
  | junction connective filters ih =>
    have parts : (piecesOfAll filters).flatMap Piece.params =
        filters.flatMap fun filter => filter.leaves.flatMap fun leaf => Piece.params leaf.pieces := by
      clear connective
      induction filters with
      | nil => rfl
      | cons filter filters rest =>
        rw [piecesOfAll, List.flatMap_cons, List.flatMap_cons, ih filter (by simp),
          rest fun filter member => ih filter (List.mem_cons_of_mem _ member)]
    rw [leaves, leavesAll_eq_flatMap, List.flatMap_assoc, ← parts, pieces]
    cases filters with
    | nil => rfl
    | cons filter filters => simp [Piece.params_separated]
  | _ => simp [leaves]

end Filter

end RequestFilter
