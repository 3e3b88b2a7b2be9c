import RequestFilter.Proofs.Independence
import RequestFilter.Proofs.Renaming

namespace RequestFilter

structure Walks.Renumbers (rename : Equiv.Perm Alias) (walks walks' : Walks) : Prop where
  root : rename .root = .root
  number : ∀ table, rename (walks.number table) = walks'.number table

/-- The renaming takes the joins, the predicates of the criteria and the order of one pass to those
of another. -/
structure Engine.Pass.Renames (rename : Equiv.Perm Alias) (pass pass' : Engine.Pass) : Prop where
  root : rename .root = .root
  joins : (pass.plan.joins.map (Join.rename rename)).Perm pass'.plan.joins
  predicates : ((pass.filters.filter (!·.isNone)).map (Filter.rename rename)).Perm
    (pass'.filters.filter (!·.isNone))
  order : pass.plan.order.map (SortField.rename rename) = pass'.plan.order

namespace Walks

variable {walks walks' : Walks}

theorem exists_renumbers (same : ∀ leg, leg ∈ walks ↔ leg ∈ walks') :
    ∃ rename, Renumbers rename walks walks' := by
  have tables : walks.tables.Perm walks'.tables :=
    (Distinct.eraseDups_perm same).flatMap_right Leg.tables
  refine ⟨Alias.renumbering tables (nodup_tables walks), rfl, fun table => ?_⟩
  exact Alias.renumber_idxOf tables table

namespace Renumbers

variable {rename : Equiv.Perm Alias}

theorem alias_eq (renumbers : Renumbers rename walks walks') (route : Route) :
    rename (route.alias walks.number) = route.alias walks'.number := by
  cases route with
  | root => exact renumbers.root
  | along before step => exact renumbers.number _

theorem joins_leg (renumbers : Renumbers rename walks walks') (kind : JoinKind) (leg : Leg) :
    (leg.joins kind walks.number).map (Join.rename rename) = leg.joins kind walks'.number := by
  unfold Leg.joins Leg.link? Leg.target
  cases leg.linkTable? <;>
    simp [Join.rename, renumbers.alias_eq, renumbers.number]

theorem joins_perm (renumbers : Renumbers rename walks walks')
    (same : ∀ leg, leg ∈ walks ↔ leg ∈ walks') (kind : JoinKind) :
    ((Joins.ofWalks kind walks).toList.map (Join.rename rename)).Perm
      (Joins.ofWalks kind walks').toList := by
  rw [Joins.toList_ofWalks, Joins.toList_ofWalks, List.map_flatMap]
  have moved : (fun leg : Leg => (leg.joins kind walks.number).map (Join.rename rename)) =
      Leg.joins kind walks'.number := funext (renumbers.joins_leg kind)
  rw [moved]
  exact (Distinct.eraseDups_perm same).flatMap_right _

end Renumbers

end Walks

namespace Engine

variable (engine : Engine) {policy : Policy} {rename : Equiv.Perm Alias} {walks walks' : Walks}

theorem places_rename (renumbers : Walks.Renumbers rename walks walks') :
    (engine.places policy walks).relocate (Alias.renameText rename) =
      engine.places policy walks' := by
  funext path
  unfold Places.relocate places Schema.place
  cases engine.schema.destination engine.settings.delimiter policy.root path with
  | error fault => rfl
  | ok scalar =>
    simp [Except.map, Scalar.columnOf, Column.relocate, renumbers.alias_eq]

theorem predicate?_rename (recipes : policy.UsesRecipes)
    (renumbers : Walks.Renumbers rename walks walks') (criterion : Criterion) :
    engine.predicate? policy (engine.places policy walks') criterion =
      (engine.predicate? policy (engine.places policy walks) criterion).map (Filter.rename rename) := by
  have follows := engine.follows_script (Alias.renameText rename) recipes criterion
  unfold predicate?
  rw [← engine.places_rename renumbers, follows.outcome]
  cases filter : ((engine.script policy criterion).outcome (engine.places policy walks)).filter with
  | none => simp [Outcome.relocate, filter]
  | some found =>
    cases restricts : found.isNone <;>
      simp [Outcome.relocate, filter, Option.filter_some, restricts, Filter.rename]

theorem sortResult_rename (policy : Policy) (renumbers : Walks.Renumbers rename walks walks')
    (field : SortField) :
    (sortResult policy (engine.places policy walks') field).toOption =
      (sortResult policy (engine.places policy walks) field).toOption.map
        (SortField.rename rename) := by
  unfold sortResult places Schema.place
  cases policy.isDeclared field.key with
  | false => rfl
  | true =>
    cases engine.schema.destination engine.settings.delimiter policy.root field.key with
    | error fault => rfl
    | ok scalar =>
      simp [Except.map, sortEntry, Except.toOption, SortField.rename_columnOf, renumbers.alias_eq]

theorem asked_script_places (recipes : policy.UsesRecipes) (criterion : Criterion)
    (walks walks' : Walks) :
    (engine.script policy criterion).asked (engine.places policy walks) =
      (engine.script policy criterion).asked (engine.places policy walks') := by
  have follows := engine.follows_script (fun _ => "") recipes criterion
  have here := follows.asked (engine.places policy walks)
  rw [places_relocate engine walks walks'] at here
  exact here.symm.trans (follows.asked (engine.places policy walks'))

theorem asked_perm (recipes : policy.UsesRecipes) {criteria criteria' : List Criterion}
    (reordered : criteria.Perm criteria') (sort : SortOrder) (walks walks' : Walks) :
    (engine.asked policy (engine.places policy walks) criteria sort).Perm
      (engine.asked policy (engine.places policy walks') criteria' sort) := by
  unfold asked
  have each := fun criterion => engine.asked_script_places recipes criterion walks walks'
  rw [funext each]
  exact (reordered.flatMap_right _).append_right _

theorem alone_perm (policy : Policy) {criteria criteria' : List Criterion}
    (reordered : criteria.Perm criteria') (sort : SortOrder) :
    (engine.alone policy criteria sort).Perm (engine.alone policy criteria' sort) :=
  (reordered.flatMap_right _).append_right _

theorem pass_reordered (recipes : policy.UsesRecipes) {criteria criteria' : List Criterion}
    (reordered : criteria.Perm criteria') (sort : SortOrder) :
    ∃ rename, (engine.pass policy criteria sort).Renames rename
      (engine.pass policy criteria' sort) := by
  obtain ⟨walks, _, walked, passed⟩ := engine.pass_eq policy criteria sort
  obtain ⟨walks', _, walked', passed'⟩ := engine.pass_eq policy criteria' sort
  have asked := engine.asked_perm recipes reordered sort walks walks'
  have same : ∀ leg, leg ∈ walks ↔ leg ∈ walks' := by
    intro leg
    rw [walked, walked', mem_walks, mem_walks]
    simp only [asked.mem_iff]
  obtain ⟨rename, renumbers⟩ := Walks.exists_renumbers same
  refine ⟨rename, ?_⟩
  rw [passed, passed']
  exact {
    root := renumbers.root
    joins := renumbers.joins_perm same .left
    predicates := by
      have moved := funext (engine.predicate?_rename recipes renumbers)
      rw [filters_restricting, filters_restricting, moved, List.map_filterMap]
      exact reordered.filterMap _
    order := by
      have moved := funext (engine.sortResult_rename policy renumbers)
      unfold Pass.plan
      rw [List.filterMap_map, List.filterMap_map, List.map_filterMap]
      exact congrArg (sort.filterMap ·) moved.symm }

/-- The criteria lead to the same plan up to a renaming of aliases, or to the same failure up to the
order of its messages. -/
def SameUpToAliases (policy : Policy) (criteria criteria' : List Criterion) (sort : SortOrder) :
    Prop :=
  (∃ rename, engine.plan policy criteria sort = .ok (engine.pass policy criteria sort).plan ∧
    engine.plan policy criteria' sort = .ok (engine.pass policy criteria' sort).plan ∧
    (engine.pass policy criteria sort).Renames rename (engine.pass policy criteria' sort)) ∨
  ∃ failure failure', engine.plan policy criteria sort = .error failure ∧
    engine.plan policy criteria' sort = .error failure' ∧ failure.code = failure'.code ∧
    (KeyedList.pairs failure.errors).Perm (KeyedList.pairs failure'.errors)

theorem plan_reordered (engine : Engine) (policy : Policy) (recipes : policy.UsesRecipes)
    {criteria criteria' : List Criterion} (reordered : criteria.Perm criteria') (sort : SortOrder) :
    engine.SameUpToAliases policy criteria criteria' sort := by
  have problems : ((engine.pass policy criteria sort).report engine.settings.sortParam).Perm
      ((engine.pass policy criteria' sort).report engine.settings.sortParam) := by
    rw [engine.report_pass recipes, engine.report_pass recipes]
    exact engine.alone_perm policy reordered sort
  rcases Report.result_perm policy.root problems (engine.pass policy criteria sort).plan
    (engine.pass policy criteria' sort).plan with ⟨ok, ok'⟩ | failed
  · obtain ⟨rename, renames⟩ := engine.pass_reordered recipes reordered sort
    exact .inl ⟨rename, ok, ok', renames⟩
  · exact .inr failed

/-- The tables are joined in the order of the criteria, and so have other aliases. -/
theorem plan_reordered_shelf :
    Shelf.policy.UsesRecipes ∧ Shelf.people.Perm Shelf.people.reverse ∧
    (Shelf.engine.pass Shelf.policy Shelf.people []).plan.joins.map Join.table =
      ["book_editors", "authors", "authors"] ∧
    (Shelf.engine.pass Shelf.policy Shelf.people.reverse []).plan.joins.map Join.table =
      ["authors", "book_editors", "authors"] ∧
    Shelf.engine.SameUpToAliases Shelf.policy Shelf.people Shelf.people.reverse [] :=
  have reordered : Shelf.people.Perm Shelf.people.reverse := (List.reverse_perm _).symm
  ⟨Shelf.usesRecipes, reordered, rfl, rfl, plan_reordered _ _ Shelf.usesRecipes reordered []⟩

end Engine

end RequestFilter
