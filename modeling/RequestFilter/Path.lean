import RequestFilter.Column
import RequestFilter.Joins
import RequestFilter.Text.Split

/-!
A path is resolved from the root entity: every name but the last must be a relation, and the last a
column or a relation, which then stands for the identifier of its target. Joins are made as the path
is walked, and stay if it turns out to lead nowhere.
-/

namespace RequestFilter

inductive PathFault where
  | emptySegment (path : String)
  | unknownEntity (name : String)
  | unknownAttribute (entity name : String)
  | trailingSegments (entity name rest : String)
  | missingIdentifier (entity : String)
  deriving DecidableEq, Repr

def PathFault.message : PathFault → String
  | emptySegment path => "field path `" ++ path ++ "` contains an empty segment"
  | unknownEntity name => "unknown entity `" ++ name ++ "`"
  | unknownAttribute entity name =>
    "entity `" ++ entity ++ "` has no attribute `" ++ name ++ "`"
  | trailingSegments entity name rest =>
    "`" ++ name ++ "` on `" ++ entity ++ "` is not a relation; cannot resolve `" ++ rest ++
      "` beyond it"
  | missingIdentifier entity => "entity `" ++ entity ++ "` has no identifier attribute"

namespace Path

def segments (delimiter path : String) : List String :=
  (Text.segments delimiter.toList path.toList).map String.ofList

def ofSegments (delimiter : String) (names : List String) : String := delimiter.intercalate names

end Path

namespace Scalar

def columnOf (scalar : Scalar) (source : Alias) : Column :=
  ⟨source.text, scalar.column, scalar.type, none⟩

end Scalar

namespace Schema

def follow (schema : Schema) (delimiter : String) (entity : Entity) (source : Alias)
    (joins : Joins) : List String → Except PathFault Column × Joins
  | [] =>
    match entity.identifier? with
    | some id => (.ok (id.columnOf source), joins)
    | none => (.error (.missingIdentifier entity.name), joins)
  | name :: rest =>
    match entity.attribute? name with
    | none => (.error (.unknownAttribute entity.name name), joins)
    | some (.scalar scalar) =>
      if rest.isEmpty then (.ok (scalar.columnOf source), joins)
      else (.error (.trailingSegments entity.name name (Path.ofSegments delimiter rest)), joins)
    | some (.relation relation) =>
      match schema.entity? relation.target with
      | none => (.error (.unknownEntity relation.target), joins)
      | some target =>
        let (source, joins) := joins.walk source entity target relation
        follow schema delimiter target source joins rest

/-- The column that a path leads to from the entity `root`, and the joins with those of the path. -/
def resolve (schema : Schema) (delimiter root path : String) (joins : Joins) :
    Except PathFault Column × Joins :=
  let names := Path.segments delimiter path
  if names.any String.isEmpty then (.error (.emptySegment path), joins)
  else
    match schema.entity? root with
    | none => (.error (.unknownEntity root), joins)
    | some entity => schema.follow delimiter entity .root joins names

end Schema

end RequestFilter
