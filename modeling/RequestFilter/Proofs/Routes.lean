import RequestFilter.Path
import RequestFilter.Proofs.FirstValues

/-!
A route starts at the root entity and is known by its relations alone, so two paths that begin with
the same relations share the beginning of their routes. Resolving a path walks its route on the joins
made before; the column it leads to is a matter of the path alone.
-/

namespace RequestFilter

structure Step where
  owner : Entity
  relation : Relation
  target : Entity
  deriving DecidableEq

inductive Route where
  | root
  | along (before : Route) (step : Step)
  deriving DecidableEq

/-- The last relation of a route, and the route behind which it is walked. -/
structure Leg where
  before : Route
  step : Step
  deriving DecidableEq

namespace Leg

def route (leg : Leg) : Route := leg.before.along leg.step

end Leg

namespace Route

/-- The legs of a route from the root on, one for every prefix of it that walks a relation. -/
def legs : Route → List Leg
  | root => []
  | along before step => legs before ++ [⟨before, step⟩]

def names : Route → List String
  | root => []
  | along before step => names before ++ [step.relation.name]

theorem mem_legs_along (before : Route) (step : Step) :
    (⟨before, step⟩ : Leg) ∈ (before.along step).legs := by
  simp [legs]

end Route

namespace Joins

/-- Walking the route on `joins` ends at a table and leaves the joins `grown`. A relation that has
been walked from the same table is not joined again. -/
inductive Walked (joins : Joins) : Route → Alias → Joins → Prop
  | root : Walked joins .root .root joins
  | again {before : Route} {source : Alias} {grown : Joins} {step : Step} {hop : Hop}
      (earlier : Walked joins before source grown)
      (known : grown.hops.find? (Hop.isAlong source step.relation.name) = some hop) :
      Walked joins (before.along step) hop.target.own grown
  | anew {before : Route} {source : Alias} {grown : Joins} {step : Step} {hop : Hop}
      (earlier : Walked joins before source grown)
      (fresh : grown.hops.find? (Hop.isAlong source step.relation.name) = none)
      (made : hop = grown.newHop source step.owner step.target step.relation) :
      Walked joins (before.along step) hop.target.own { grown with hops := grown.hops ++ [hop] }

variable {joins grown : Joins} {before : Route} {source : Alias}

theorem Walked.walk (earlier : Walked joins before source grown) (step : Step) :
    Walked joins (before.along step) (grown.walk source step.owner step.target step.relation).1
      (grown.walk source step.owner step.target step.relation).2 := by
  unfold Joins.walk
  split
  · rename_i hop known
    exact earlier.again known
  · rename_i fresh
    exact earlier.anew fresh rfl

theorem Walked.unique {route : Route} {a b : Alias} {grown' : Joins}
    (walked : Walked joins route a grown) (rival : Walked joins route b grown') :
    a = b ∧ grown = grown' := by
  induction walked generalizing b grown' with
  | root =>
    cases rival
    exact ⟨rfl, rfl⟩
  | again earlier known ih =>
    cases rival with
    | again earlier' known' =>
      obtain ⟨rfl, rfl⟩ := ih earlier'
      obtain rfl := Option.some.inj (known.symm.trans known')
      exact ⟨rfl, rfl⟩
    | anew earlier' fresh made =>
      obtain ⟨rfl, rfl⟩ := ih earlier'
      cases fresh.symm.trans known
  | anew earlier fresh made ih =>
    cases rival with
    | again earlier' known =>
      obtain ⟨rfl, rfl⟩ := ih earlier'
      cases fresh.symm.trans known
    | anew earlier' fresh' made' =>
      obtain ⟨rfl, rfl⟩ := ih earlier'
      rw [made, made']
      exact ⟨rfl, rfl⟩

end Joins

namespace Entity

variable {entity : Entity} {name : String}

/-- The first attribute under the name; a relation goes by that name. -/
inductive Has (entity : Entity) (name : String) : Attribute → Prop
  | scalar {scalar : Scalar} (stored : KeyedList.First name (.scalar scalar) entity.attributes) :
      Has entity name (.scalar scalar)
  | relation {relation : Relation}
      (stored : KeyedList.First name (.relation relation) entity.attributes) :
      Has entity name (.relation { relation with name := name })

theorem attribute?_eq_some_iff {value : Attribute} :
    entity.attribute? name = some value ↔ entity.Has name value := by
  simp only [attribute?, Option.map_eq_some_iff, KeyedList.get?_eq_some_iff]
  constructor
  · rintro ⟨stored, first, rfl⟩
    cases stored with
    | scalar scalar => exact .scalar first
    | relation relation => exact .relation first
  · intro has
    cases has with
    | scalar stored => exact ⟨_, stored, rfl⟩
    | relation stored => exact ⟨_, stored, rfl⟩

theorem attribute?_eq_none_iff :
    entity.attribute? name = none ↔ name ∉ entity.attributes.map Prod.fst := by
  rw [attribute?, Option.map_eq_none_iff, KeyedList.get?_eq_none_iff]

theorem identifier?_eq_some_iff {scalar : Scalar} :
    entity.identifier? = some scalar ↔ entity.Has entity.id (.scalar scalar) := by
  rw [← attribute?_eq_some_iff, identifier?]
  split
  · rename_i found
    simp [found]
  · rename_i other
    constructor
    · nofun
    · intro found
      exact absurd found (other scalar)

theorem identifier?_eq_none_iff :
    entity.identifier? = none ↔ ∀ scalar, ¬ entity.Has entity.id (.scalar scalar) := by
  simp only [Option.eq_none_iff_forall_ne_some, ne_eq, identifier?_eq_some_iff]

theorem Has.unique {value other : Attribute} (has : entity.Has name value)
    (rival : entity.Has name other) : value = other := by
  rw [← attribute?_eq_some_iff] at has rival
  exact Option.some.inj (has.symm.trans rival)

theorem Has.relation_name {relation : Relation} (has : entity.Has name (.relation relation)) :
    relation.name = name := by
  cases has
  rfl

end Entity

namespace Schema

variable (schema : Schema)

def Has (name : String) (entity : Entity) : Prop := KeyedList.First name entity schema

def Ends (root : String) : Route → Entity → Prop
  | .root, entity => schema.Has root entity
  | .along _ step, entity => step.target = entity

/-- Every relation of the route is an attribute of the entity reached before, with a known entity
as its target. -/
def Admits (root : String) : Route → Prop
  | .root => True
  | .along before step =>
    Admits root before ∧ schema.Ends root before step.owner ∧
      step.owner.Has step.relation.name (.relation step.relation) ∧
      schema.Has step.relation.target step.target

/-- The route along the names behind `before`, as far as they are relations to known entities. -/
def extend (before : Route) (entity : Entity) : List String → Route
  | [] => before
  | name :: rest =>
    match entity.attribute? name with
    | some (.relation relation) =>
      match schema.entity? relation.target with
      | some target => extend (before.along ⟨entity, relation, target⟩) target rest
      | none => before
    | _ => before

def reach (delimiter : String) (entity : Entity) : List String → Except PathFault Scalar
  | [] =>
    match entity.identifier? with
    | some id => .ok id
    | none => .error (.missingIdentifier entity.name)
  | name :: rest =>
    match entity.attribute? name with
    | none => .error (.unknownAttribute entity.name name)
    | some (.scalar scalar) =>
      if rest.isEmpty then .ok scalar
      else .error (.trailingSegments entity.name name (Path.ofSegments delimiter rest))
    | some (.relation relation) =>
      match schema.entity? relation.target with
      | none => .error (.unknownEntity relation.target)
      | some target => reach delimiter target rest

/-- The relations that a path walks from the entity `root`, whether or not it leads to a column. -/
def route (delimiter root path : String) : Route :=
  let names := Path.segments delimiter path
  if names.any String.isEmpty then .root
  else
    match schema.entity? root with
    | none => .root
    | some entity => schema.extend .root entity names

/-- The column that a path leads to from the entity `root`, apart from its table. -/
def destination (delimiter root path : String) : Except PathFault Scalar :=
  let names := Path.segments delimiter path
  if names.any String.isEmpty then .error (.emptySegment path)
  else
    match schema.entity? root with
    | none => .error (.unknownEntity root)
    | some entity => schema.reach delimiter entity names

variable {schema}

variable {root : String}

theorem entity?_eq_some_iff {name : String} {entity : Entity} :
    schema.entity? name = some entity ↔ schema.Has name entity := KeyedList.get?_eq_some_iff

theorem entity?_eq_none_iff {name : String} :
    schema.entity? name = none ↔ name ∉ schema.map Prod.fst := KeyedList.get?_eq_none_iff

theorem Ends.unique {route : Route} {entity other : Entity} (ends : schema.Ends root route entity)
    (rival : schema.Ends root route other) : entity = other := by
  cases route with
  | root => exact KeyedList.First.unique ends rival
  | along before step => exact ends.symm.trans rival

theorem Admits.step_unique {before : Route} {step other : Step}
    (admitted : schema.Admits root (before.along step))
    (rival : schema.Admits root (before.along other))
    (name : step.relation.name = other.relation.name) : step = other := by
  obtain ⟨_, owner, has, target⟩ := admitted
  obtain ⟨_, owner', has', target'⟩ := rival
  have owners : step.owner = other.owner := owner.unique owner'
  rw [owners, name] at has
  have relations : step.relation = other.relation := Attribute.relation.inj (has.unique has')
  rw [relations] at target
  have targets : step.target = other.target := KeyedList.First.unique target target'
  cases step
  cases other
  simp_all

theorem Admits.route_unique {route other : Route} (admitted : schema.Admits root route)
    (rival : schema.Admits root other) (names : route.names = other.names) : route = other := by
  induction route generalizing other with
  | root =>
    cases other with
    | root => rfl
    | along before step => simp [Route.names] at names
  | along before step ih =>
    cases other with
    | root => simp [Route.names] at names
    | along before' step' =>
      obtain ⟨earlier, last⟩ := List.append_inj' names rfl
      obtain rfl := ih admitted.1 rival.1 earlier
      rw [admitted.step_unique rival (List.singleton_inj.mp last)]

theorem Admits.along {before : Route} (admitted : schema.Admits root before) {owner target : Entity}
    (ends : schema.Ends root before owner) {name : String} {relation : Relation}
    (has : owner.Has name (.relation relation)) (known : schema.Has relation.target target) :
    schema.Admits root (before.along ⟨owner, relation, target⟩) := by
  refine ⟨admitted, ends, ?_, known⟩
  rw [has.relation_name]
  exact has

theorem admits_extend (names : List String) {before : Route} {entity : Entity}
    (admitted : schema.Admits root before) (ends : schema.Ends root before entity) :
    schema.Admits root (schema.extend before entity names) := by
  induction names generalizing before entity with
  | nil => exact admitted
  | cons name rest ih =>
    simp only [extend]
    split
    · rename_i relation found
      split
      · rename_i target known
        exact ih (admitted.along ends (Entity.attribute?_eq_some_iff.mp found)
          (entity?_eq_some_iff.mp known)) rfl
      · exact admitted
    · exact admitted

theorem follow_walked (schema : Schema) (delimiter : String) (names : List String)
    (entity : Entity) {joins grown : Joins} {source : Alias}
    (walked : joins.Walked before source grown) :
    ∃ a grown', joins.Walked (schema.extend before entity names) a grown' ∧
      schema.follow delimiter entity source grown names =
        ((schema.reach delimiter entity names).map (·.columnOf a), grown') := by
  induction names generalizing before entity source grown with
  | nil =>
    refine ⟨source, grown, walked, ?_⟩
    simp only [follow, reach]
    cases entity.identifier? <;> rfl
  | cons name rest ih =>
    simp only [extend, follow, reach]
    cases entity.attribute? name with
    | none => exact ⟨source, grown, walked, rfl⟩
    | some leads =>
      cases leads with
      | scalar scalar =>
        refine ⟨source, grown, walked, ?_⟩
        cases rest <;> rfl
      | relation relation =>
        dsimp only
        cases schema.entity? relation.target with
        | none => exact ⟨source, grown, walked, rfl⟩
        | some target => exact ih target (walked.walk ⟨entity, relation, target⟩)

theorem resolve_walked (schema : Schema) (delimiter root path : String) (joins : Joins) :
    ∃ source grown, joins.Walked (schema.route delimiter root path) source grown ∧
      schema.resolve delimiter root path joins =
        ((schema.destination delimiter root path).map (·.columnOf source), grown) := by
  unfold resolve destination route
  by_cases gap : (Path.segments delimiter path).any String.isEmpty
  · simp only [gap, if_true]
    exact ⟨.root, joins, .root, rfl⟩
  · simp only [gap]
    cases schema.entity? root with
    | none => exact ⟨.root, joins, .root, rfl⟩
    | some start => exact schema.follow_walked delimiter _ start .root

/-- The joins made before decide about the table of a column, and about nothing else. -/
theorem resolve_destination (schema : Schema) (delimiter root path : String) (joins : Joins) :
    ∃ a : Alias, (schema.resolve delimiter root path joins).1 =
      (schema.destination delimiter root path).map (·.columnOf a) := by
  obtain ⟨a, grown, _, resolved⟩ := schema.resolve_walked delimiter root path joins
  exact ⟨a, congrArg Prod.fst resolved⟩

theorem admits_route (schema : Schema) (delimiter root path : String) :
    schema.Admits root (schema.route delimiter root path) := by
  unfold route
  by_cases gap : (Path.segments delimiter path).any String.isEmpty
  · simp only [gap, if_true]
    trivial
  · simp only [gap]
    cases known : schema.entity? root with
    | none => trivial
    | some start => exact admits_extend _ trivial (entity?_eq_some_iff.mp known)

end Schema

end RequestFilter
