import RequestFilter.Number.Digits
import RequestFilter.Schema

/-!
The root table has the alias `t0`, and every joined table the next number. A relation of one table
is joined once: whoever walks it again gets the alias it has.
-/

namespace RequestFilter

structure Alias where
  number : Nat
  deriving DecidableEq, Repr

namespace Alias

def root : Alias := ⟨0⟩

def text (a : Alias) : String := String.ofList ('t' :: Digits.ofNat a.number)

end Alias

inductive JoinKind where
  | left | inner
  deriving DecidableEq, Repr

def JoinKind.sql : JoinKind → String
  | left => "LEFT JOIN"
  | inner => "INNER JOIN"

structure Join where
  own : Alias
  parent : Alias
  /-- The relation walked; the link table of one has a name derived from it. -/
  relation : String
  table : String
  kind : JoinKind
  on : List (String × String)
  deriving DecidableEq, Repr

namespace Join

def condition (join : Join) (pair : String × String) : String :=
  join.parent.text ++ "." ++ pair.1 ++ " = " ++ join.own.text ++ "." ++ pair.2

def sql (join : Join) : String :=
  join.kind.sql ++ " " ++ join.table ++ " AS " ++ join.own.text ++ " ON " ++
    " AND ".intercalate (join.on.map join.condition)

end Join

structure Hop where
  source : Alias
  relation : String
  link : Option Join
  target : Join
  deriving DecidableEq, Repr

namespace Hop

def joins (hop : Hop) : List Join := hop.link.toList ++ [hop.target]

def isAlong (source : Alias) (relation : String) (hop : Hop) : Bool :=
  hop.source == source && hop.relation == relation

end Hop

structure Joins where
  kind : JoinKind
  hops : List Hop
  deriving DecidableEq, Repr

namespace Joins

def ofKind (kind : JoinKind) : Joins := ⟨kind, []⟩

def empty : Joins := ofKind .left

def toList (joins : Joins) : List Join := joins.hops.flatMap Hop.joins

def size (joins : Joins) : Nat := joins.toList.length

def nextAlias (joins : Joins) : Alias := ⟨joins.size + 1⟩

def sql (joins : List Join) : String := " ".intercalate (joins.map Join.sql)

def linkName (relation : String) : String := relation ++ "#through"

def newHop (joins : Joins) (source : Alias) (owner target : Entity) (relation : Relation) : Hop :=
  let first := joins.nextAlias
  match relation.through? with
  | some link =>
    let second : Alias := ⟨first.number + 1⟩
    let ownerColumn := relation.fields.head?.getD owner.idColumn
    let targetColumn := relation.references.head?.getD target.idColumn
    { source := source
      relation := relation.name
      link := some ⟨first, source, linkName relation.name, link.table, joins.kind,
        [(ownerColumn, link.source)]⟩
      target := ⟨second, first, relation.name, target.table, joins.kind,
        [(link.target, targetColumn)]⟩ }
  | none =>
    { source := source
      relation := relation.name
      link := none
      target := ⟨first, source, relation.name, target.table, joins.kind,
        relation.columns owner target⟩ }

/-- Walks a relation: the alias of the target, and the joins with those the walk needs. -/
def walk (joins : Joins) (source : Alias) (owner target : Entity) (relation : Relation) :
    Alias × Joins :=
  match joins.hops.find? (Hop.isAlong source relation.name) with
  | some hop => (hop.target.own, joins)
  | none =>
    let hop := joins.newHop source owner target relation
    (hop.target.own, { joins with hops := joins.hops ++ [hop] })

end Joins

end RequestFilter
