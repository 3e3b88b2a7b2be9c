import RequestFilter.Text.AsciiCase

/-!
An operator is written by its token, in any ASCII case. A set answers membership; listing it gives
the members in the order of declaration.
-/

namespace RequestFilter

inductive Operator where
  | eq | neq | gt | lt | gte | lte
  | isNull | isNotNull
  | within | notWithin
  | between | notBetween
  | contains | iContains
  | startsWith | iStartsWith
  | endsWith | iEndsWith
  deriving DecidableEq, Repr

namespace Operator

def all : List Operator :=
  [eq, neq, gt, lt, gte, lte, isNull, isNotNull, within, notWithin, between, notBetween,
    contains, iContains, startsWith, iStartsWith, endsWith, iEndsWith]

def token : Operator → String
  | eq => "eq"
  | neq => "neq"
  | gt => "gt"
  | lt => "lt"
  | gte => "gte"
  | lte => "lte"
  | isNull => "is_null"
  | isNotNull => "is_not_null"
  | within => "in"
  | notWithin => "not_in"
  | between => "between"
  | notBetween => "not_between"
  | contains => "contains"
  | iContains => "icontains"
  | startsWith => "starts_with"
  | iStartsWith => "istarts_with"
  | endsWith => "ends_with"
  | iEndsWith => "iends_with"

def ofToken? (text : List Char) : Option Operator :=
  all.find? fun op => Text.equalIgnoringCase op.token.toList text

def isNullCheck : Operator → Bool
  | isNull | isNotNull => true
  | _ => false

/-- Orders values, so that both sides must be in comparable form. -/
def isOrdering : Operator → Bool
  | gt | lt | gte | lte | between | notBetween => true
  | _ => false

end Operator

structure OperatorSet where
  contains : Operator → Bool

namespace OperatorSet

def ofList (ops : List Operator) : OperatorSet := ⟨fun op => ops.contains op⟩

def toList (s : OperatorSet) : List Operator := Operator.all.filter s.contains

def size (s : OperatorSet) : Nat := s.toList.length

def isEmpty (s : OperatorSet) : Bool := s.toList.isEmpty

def union (s t : OperatorSet) : OperatorSet := ⟨fun op => s.contains op || t.contains op⟩

def insert (s : OperatorSet) (op : Operator) : OperatorSet :=
  ⟨fun o => o == op || s.contains o⟩

def erase (s : OperatorSet) (op : Operator) : OperatorSet :=
  ⟨fun o => o != op && s.contains o⟩

def empty : OperatorSet := ofList []

def all : OperatorSet := ofList Operator.all

def nullChecks : OperatorSet := ofList [.isNull, .isNotNull]

def equality : OperatorSet := ofList [.eq, .neq, .within, .notWithin, .isNull, .isNotNull]

def comparable : OperatorSet :=
  equality.union (ofList [.gt, .lt, .gte, .lte, .between, .notBetween])

def pattern : OperatorSet :=
  ofList [.contains, .iContains, .startsWith, .iStartsWith, .endsWith, .iEndsWith]

def text : OperatorSet := comparable.union pattern

end OperatorSet

end RequestFilter
