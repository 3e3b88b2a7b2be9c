import RequestFilter.Filter
import RequestFilter.Number.Digits

/-!
A predicate is first written as pieces: SQL text, and values to bind in between. Only then are the
placeholders numbered, from left to right, so the text of a predicate is put together from the texts
of its parts, and no value ever becomes part of the text.
-/

namespace RequestFilter

inductive Piece where
  | sql (text : List Char)
  | bind (value : Value)

namespace Piece

def lit (s : String) : Piece := .sql s.toList

def value? : Piece → Option Value
  | sql _ => none
  | bind value => some value

def params (pieces : List Piece) : List Value := pieces.filterMap value?

/-- The text, with placeholders numbered on from `offset`. -/
def render : (offset : Nat) → List Piece → List Char
  | _, [] => []
  | offset, sql text :: rest => text ++ render offset rest
  | offset, bind _ :: rest => '$' :: Digits.ofNat (offset + 1) ++ render (offset + 1) rest

def separated (separator : Piece) : List (List Piece) → List Piece
  | [] => []
  | [pieces] => pieces
  | pieces :: rest => pieces ++ separator :: separated separator rest

end Piece

def Comparison.sign : Comparison → String
  | .eq => "="
  | .neq => "!="
  | .lt => "<"
  | .lte => "<="
  | .gt => ">"
  | .gte => ">="

def Connective.keyword : Connective → String
  | .and => " AND "
  | .or => " OR "

def Connective.neutral : Connective → String
  | .and => "TRUE"
  | .or => "FALSE"

namespace Like

def isSpecial (c : Char) : Bool := c == '\\' || c == '%' || c == '_'

def escape (cs : List Char) : List Char :=
  cs.flatMap fun c => if isSpecial c then ['\\', c] else [c]

def pattern (place : Place) (cs : List Char) : List Char :=
  match place with
  | .anywhere => '%' :: escape cs ++ ['%']
  | .atStart => escape cs ++ ['%']
  | .atEnd => '%' :: escape cs

/-- The test of a column against a bound pattern. A column in upper case is compared with the
pattern in upper case. -/
def pieces (place : Place) (column : Column) (text : String) : List Piece :=
  let value := Piece.bind (.text (String.ofList (pattern place text.toList)))
  if column.transform = some .upper then
    [.sql column.sql, .lit " LIKE UPPER(", value, .lit ") ESCAPE '\\'"]
  else [.sql column.sql, .lit " LIKE ", value, .lit " ESCAPE '\\'"]

end Like

namespace Filter

def nullPieces (negated : Bool) (column : Column) : List Piece :=
  [.sql column.sql, .lit (if negated then " IS NOT NULL" else " IS NULL")]

/-- A comparison with one value. Equality with nothing is a test for absence. -/
def comparePieces (comparison : Comparison) (column : Column) (value : Value) : List Piece :=
  match comparison, value with
  | .eq, .null => nullPieces false column
  | .neq, .null => nullPieces true column
  | comparison, value =>
    [.sql column.sql, .lit " ", .lit comparison.sign, .lit " ", .bind value]

def memberPieces (negated : Bool) (column : Column) (values : List Value) : List Piece :=
  if values.isEmpty then [.lit (if negated then "TRUE" else "FALSE")]
  else
    [.sql column.sql, .lit (if negated then " NOT IN (" else " IN (")] ++
      Piece.separated (.lit ", ") (values.map fun value => [.bind value]) ++ [.lit ")"]

mutual

def pieces : Filter → List Piece
  | none => [.lit "TRUE"]
  | compare comparison column value => comparePieces comparison column value
  | member negated column values => memberPieces negated column values
  | between column low high =>
    [.sql column.sql, .lit " BETWEEN ", .bind low, .lit " AND ", .bind high]
  | like place column text => Like.pieces place column text
  | nullCheck negated column => nullPieces negated column
  | junction connective filters =>
    if filters.isEmpty then [.lit connective.neutral]
    else
      .lit "(" :: Piece.separated (.lit connective.keyword) (piecesOfAll filters) ++ [.lit ")"]
  | not filter => .lit "NOT (" :: pieces filter ++ [.lit ")"]

def piecesOfAll : List Filter → List (List Piece)
  | [] => []
  | filter :: filters => pieces filter :: piecesOfAll filters

end

def toSql (filter : Filter) (offset : Nat) : List Char × List Value :=
  (Piece.render offset filter.pieces, Piece.params filter.pieces)

end Filter

end RequestFilter
