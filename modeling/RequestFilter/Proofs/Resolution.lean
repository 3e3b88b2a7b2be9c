import RequestFilter.Proofs.Routes
import RequestFilter.Proofs.Segments

namespace RequestFilter

namespace Schema

/-- The segments of the path, none of them empty, begin with the relations of `before`, which lead
to `entity`; `rest` is left. -/
structure Stands (schema : Schema) (delimiter root path : String) (before : Route) (entity : Entity)
    (rest : List String) : Prop where
  filled : "" ∉ Path.segments delimiter path
  admitted : schema.Admits root before
  ends : schema.Ends root before entity
  names : Path.segments delimiter path = before.names ++ rest

/-- The relations that a path walks and the column it leads to, or why it is refused. -/
inductive Verdict (schema : Schema) (delimiter root path : String) :
    Route → Except PathFault Scalar → Prop
  | emptySegment (gap : "" ∈ Path.segments delimiter path) :
      Verdict schema delimiter root path .root (.error (.emptySegment path))
  | unknownRoot (filled : "" ∉ Path.segments delimiter path) (unknown : root ∉ schema.map Prod.fst) :
      Verdict schema delimiter root path .root (.error (.unknownEntity root))
  | unknownAttribute {before : Route} {entity : Entity} {name : String} {rest : List String}
      (stands : schema.Stands delimiter root path before entity (name :: rest))
      (missing : name ∉ entity.attributes.map Prod.fst) :
      Verdict schema delimiter root path before (.error (.unknownAttribute entity.name name))
  | trailingSegments {before : Route} {entity : Entity} {name : String} {rest : List String}
      {scalar : Scalar} {remainder : String}
      (stands : schema.Stands delimiter root path before entity (name :: rest))
      (has : entity.Has name (.scalar scalar)) (more : rest ≠ [])
      (literal :
        path = Path.ofSegments delimiter (before.names ++ [name]) ++ delimiter ++ remainder) :
      Verdict schema delimiter root path before
        (.error (.trailingSegments entity.name name remainder))
  | unknownTarget {before : Route} {entity : Entity} {name : String} {rest : List String}
      {relation : Relation}
      (stands : schema.Stands delimiter root path before entity (name :: rest))
      (has : entity.Has name (.relation relation))
      (unknown : relation.target ∉ schema.map Prod.fst) :
      Verdict schema delimiter root path before (.error (.unknownEntity relation.target))
  | missingIdentifier {before : Route} {entity : Entity}
      (stands : schema.Stands delimiter root path before entity [])
      (missing : ∀ scalar, ¬ entity.Has entity.id (.scalar scalar)) :
      Verdict schema delimiter root path before (.error (.missingIdentifier entity.name))
  | column {before : Route} {entity : Entity} {name : String} {scalar : Scalar}
      (stands : schema.Stands delimiter root path before entity [name])
      (has : entity.Has name (.scalar scalar)) :
      Verdict schema delimiter root path before (.ok scalar)
  | identifier {before : Route} {entity : Entity} {scalar : Scalar}
      (stands : schema.Stands delimiter root path before entity [])
      (has : entity.Has entity.id (.scalar scalar)) :
      Verdict schema delimiter root path before (.ok scalar)

variable {schema : Schema} {delimiter root path : String} {before : Route} {entity : Entity}
  {rest : List String}

theorem any_isEmpty_iff {names : List String} : names.any String.isEmpty = true ↔ "" ∈ names := by
  rw [List.any_eq_true]
  constructor
  · rintro ⟨name, member, empty⟩
    rwa [String.isEmpty_iff.mp empty] at member
  · intro member
    exact ⟨"", member, rfl⟩

namespace Stands

theorem along {name : String} {relation : Relation} {target : Entity}
    (stands : schema.Stands delimiter root path before entity (name :: rest))
    (has : entity.Has name (.relation relation)) (known : schema.Has relation.target target) :
    schema.Stands delimiter root path (before.along ⟨entity, relation, target⟩) target rest where
  filled := stands.filled
  admitted := stands.admitted.along stands.ends has known
  ends := rfl
  names := by
    rw [stands.names, Route.names, has.relation_name, List.append_cons]

theorem back {step : Step}
    (stands : schema.Stands delimiter root path (before.along step) entity rest) :
    schema.Stands delimiter root path before step.owner (step.relation.name :: rest) where
  filled := stands.filled
  admitted := stands.admitted.1
  ends := stands.admitted.2.1
  names := by
    rw [stands.names, Route.names, List.append_assoc, List.singleton_append]

/-- What is left of the path, read on from the entity reached, decides about the whole path. -/
theorem ahead (stands : schema.Stands delimiter root path before entity rest) :
    schema.route delimiter root path = schema.extend before entity rest ∧
      schema.destination delimiter root path = schema.reach delimiter entity rest := by
  induction before generalizing entity rest with
  | root =>
    have known : schema.entity? root = some entity := entity?_eq_some_iff.mpr stands.ends
    have names : Path.segments delimiter path = rest := stands.names
    have filled := mt any_isEmpty_iff.mp stands.filled
    unfold route destination
    rw [names] at filled
    simp only [names, known, if_neg filled, and_self]
  | along before step ih =>
    obtain ⟨walked, result⟩ := ih stands.back
    obtain ⟨_, _, has, target⟩ := stands.admitted
    have found := Entity.attribute?_eq_some_iff.mpr has
    have known := entity?_eq_some_iff.mpr target
    obtain rfl : step.target = entity := stands.ends
    simp only [extend, found, known] at walked
    simp only [reach, found, known] at result
    exact ⟨walked, result⟩

theorem literal {name : String}
    (stands : schema.Stands delimiter root path before entity (name :: rest)) (more : rest ≠ []) :
    path = Path.ofSegments delimiter (before.names ++ [name]) ++ delimiter ++
      Path.ofSegments delimiter rest := by
  calc path = Path.ofSegments delimiter (Path.segments delimiter path) :=
        (Path.ofSegments_segments delimiter path).symm
    _ = Path.ofSegments delimiter (before.names ++ [name] ++ rest) := by
        rw [stands.names, List.append_cons]
    _ = _ := Path.ofSegments_append delimiter (by simp) more

theorem verdict (stands : schema.Stands delimiter root path before entity rest) :
    schema.Verdict delimiter root path (schema.extend before entity rest)
      (schema.reach delimiter entity rest) := by
  induction rest generalizing before entity with
  | nil =>
    unfold extend reach
    cases found : entity.identifier? with
    | none => exact .missingIdentifier stands (Entity.identifier?_eq_none_iff.mp found)
    | some scalar => exact .identifier stands (Entity.identifier?_eq_some_iff.mp found)
  | cons name rest ih =>
    simp only [extend, reach]
    cases found : entity.attribute? name with
    | none => exact .unknownAttribute stands (Entity.attribute?_eq_none_iff.mp found)
    | some leads =>
      have has := Entity.attribute?_eq_some_iff.mp found
      cases leads with
      | scalar scalar =>
        dsimp only
        cases rest with
        | nil => exact .column stands has
        | cons next rest =>
          have more : next :: rest ≠ [] := List.cons_ne_nil next rest
          exact .trailingSegments stands has more (stands.literal more)
      | relation relation =>
        dsimp only
        cases known : schema.entity? relation.target with
        | none => exact .unknownTarget stands has (entity?_eq_none_iff.mp known)
        | some target => exact ih (stands.along has (entity?_eq_some_iff.mp known))

end Stands

theorem verdict_destination (schema : Schema) (delimiter root path : String) :
    schema.Verdict delimiter root path (schema.route delimiter root path)
      (schema.destination delimiter root path) := by
  by_cases gap : "" ∈ Path.segments delimiter path
  · unfold route destination
    simp only [any_isEmpty_iff.mpr gap, if_true]
    exact .emptySegment gap
  cases known : schema.entity? root with
  | none =>
    have filled := mt any_isEmpty_iff.mp gap
    unfold route destination
    simp only [known, if_neg filled]
    exact .unknownRoot gap (entity?_eq_none_iff.mp known)
  | some start =>
    have stands : schema.Stands delimiter root path .root start (Path.segments delimiter path) :=
      ⟨gap, trivial, entity?_eq_some_iff.mp known, rfl⟩
    rw [stands.ahead.1, stands.ahead.2]
    exact stands.verdict

theorem Verdict.unique {walked : Route} {result : Except PathFault Scalar}
    (verdict : schema.Verdict delimiter root path walked result) :
    walked = schema.route delimiter root path ∧ result = schema.destination delimiter root path := by
  cases verdict with
  | emptySegment gap =>
    unfold route destination
    simp only [any_isEmpty_iff.mpr gap, if_true, and_self]
  | unknownRoot filled unknown =>
    have filled := mt any_isEmpty_iff.mp filled
    unfold route destination
    simp only [entity?_eq_none_iff.mpr unknown, if_neg filled, and_self]
  | unknownAttribute stands missing =>
    rw [stands.ahead.1, stands.ahead.2]
    simp only [extend, reach, Entity.attribute?_eq_none_iff.mpr missing, and_self]
  | trailingSegments stands has more literal =>
    rename_i remainder
    have found := Entity.attribute?_eq_some_iff.mpr has
    rw [stands.ahead.1, stands.ahead.2]
    have same : remainder = Path.ofSegments delimiter _ :=
      (String.append_right_inj _).mp (literal.symm.trans (stands.literal more))
    simp [extend, reach, found, more, same]
  | unknownTarget stands has unknown =>
    rw [stands.ahead.1, stands.ahead.2]
    simp only [extend, reach, Entity.attribute?_eq_some_iff.mpr has,
      entity?_eq_none_iff.mpr unknown, and_self]
  | missingIdentifier stands missing =>
    rw [stands.ahead.1, stands.ahead.2]
    simp only [extend, reach, Entity.identifier?_eq_none_iff.mpr missing, and_self]
  | column stands has =>
    rw [stands.ahead.1, stands.ahead.2]
    simp [extend, reach, Entity.attribute?_eq_some_iff.mpr has]
  | identifier stands has =>
    rw [stands.ahead.1, stands.ahead.2]
    simp only [extend, reach, Entity.identifier?_eq_some_iff.mpr has, and_self]

/-- The route up to the leg leads along the first segments of the path, none of which is empty. -/
structure Passes (schema : Schema) (delimiter root path : String) (leg : Leg) : Prop where
  filled : "" ∉ Path.segments delimiter path
  admitted : schema.Admits root leg.route
  names : leg.route.names <+: Path.segments delimiter path

theorem stands_route {leg : Leg} (own : leg ∈ (schema.route delimiter root path).legs) :
    ∃ entity rest,
      schema.Stands delimiter root path (schema.route delimiter root path) entity rest := by
  have verdict := schema.verdict_destination delimiter root path
  generalize schema.route delimiter root path = route at verdict own
  generalize schema.destination delimiter root path = result at verdict
  cases verdict with
  | emptySegment | unknownRoot => cases own
  | unknownAttribute stands | trailingSegments stands | unknownTarget stands
  | missingIdentifier stands | column stands | identifier stands => exact ⟨_, _, stands⟩

theorem legs_extend (before : Route) (entity : Entity) (names : List String) :
    before.legs ⊆ (schema.extend before entity names).legs := by
  induction names generalizing before entity with
  | nil => exact List.Subset.refl _
  | cons name rest ih =>
    simp only [extend]
    split
    · rename_i relation _
      split
      · rename_i target _
        have further := ih (before.along ⟨entity, relation, target⟩) target
        exact List.Subset.trans (List.subset_append_left _ _) further
      · exact List.Subset.refl _
    · exact List.Subset.refl _

theorem Admits.leg {route : Route} {leg : Leg} (admitted : schema.Admits root route)
    (own : leg ∈ route.legs) : schema.Admits root leg.route ∧ leg.route.names <+: route.names := by
  induction route with
  | root => cases own
  | along before step ih =>
    rcases List.mem_append.mp own with earlier | last
    · obtain ⟨admits, names⟩ := ih admitted.1 earlier
      exact ⟨admits, names.trans (List.prefix_append _ _)⟩
    · obtain rfl := List.mem_singleton.mp last
      exact ⟨admitted, List.prefix_refl _⟩

theorem mem_legs_route {leg : Leg} :
    leg ∈ (schema.route delimiter root path).legs ↔ schema.Passes delimiter root path leg := by
  constructor
  · intro own
    obtain ⟨entity, rest, stands⟩ := stands_route own
    obtain ⟨admitted, names⟩ := stands.admitted.leg own
    refine ⟨stands.filled, admitted, ?_⟩
    rw [stands.names]
    exact names.trans (List.prefix_append _ _)
  · intro passes
    obtain ⟨rest, names⟩ := passes.names
    have stands : schema.Stands delimiter root path leg.route leg.step.target rest :=
      ⟨passes.filled, passes.admitted, rfl, names.symm⟩
    rw [stands.ahead.1]
    exact legs_extend _ _ _ (Route.mem_legs_along leg.before leg.step)

end Schema

end RequestFilter
