import RequestFilter.DataType
import RequestFilter.KeyedList

/-!
Attributes are found by name. Of two attributes of one name, and of two entities of one name, the
later counts.
-/

namespace RequestFilter

inductive Cardinality where
  | oneToOne | oneToMany | manyToOne | manyToMany
  deriving DecidableEq, Repr

structure LinkTable where
  table : String
  source : String
  target : String
  deriving DecidableEq, Repr

structure Relation where
  name : String
  cardinality : Cardinality
  target : String
  fields : List String
  references : List String
  link : Option LinkTable
  deriving DecidableEq, Repr

structure Scalar where
  column : String
  type : DataType
  deriving DecidableEq, Repr

inductive Attribute where
  | scalar (scalar : Scalar)
  | relation (relation : Relation)
  deriving DecidableEq, Repr

namespace Attribute

def isRelation : Attribute → Bool
  | scalar _ => false
  | relation _ => true

/-- The attribute under a name, which is also the name of a relation. -/
def named (name : String) : Attribute → Attribute
  | scalar column => scalar column
  | relation r => relation { r with name := name }

end Attribute

structure Entity where
  name : String
  table : String
  id : String
  attributes : KeyedList String Attribute
  deriving DecidableEq, Repr

namespace Entity

def attribute? (entity : Entity) (name : String) : Option Attribute :=
  (entity.attributes.get? name).map (Attribute.named name)

def identifier? (entity : Entity) : Option Scalar :=
  match entity.attribute? entity.id with
  | some (.scalar scalar) => some scalar
  | _ => none

/-- The name of the identifying column; that of the attribute where no column is declared. -/
def idColumn (entity : Entity) : String := (entity.identifier?.map Scalar.column).getD entity.id

def withAttribute (entity : Entity) (name : String) (value : Attribute) : Entity :=
  { entity with attributes := entity.attributes.put name value }

end Entity

namespace Relation

/-- The pairs of columns that are equal along the relation, of the owner and of the target. A side
without columns stands by its identifier. -/
def columns (relation : Relation) (owner target : Entity) : List (String × String) :=
  match relation.fields, relation.references with
  | [], [] => [(owner.idColumn, target.idColumn)]
  | fields, [] => fields.map fun field => (field, target.idColumn)
  | [], references => references.map fun reference => (owner.idColumn, reference)
  | fields, references => fields.zip references

def through? (relation : Relation) : Option LinkTable :=
  if relation.cardinality = .manyToMany then relation.link else none

end Relation

abbrev Schema := KeyedList String Entity

namespace Schema

def entity? (schema : Schema) (name : String) : Option Entity := schema.get? name

def ofEntities (entities : List Entity) : Schema :=
  KeyedList.ofPairs (entities.map fun entity => (entity.name, entity))

end Schema

end RequestFilter
