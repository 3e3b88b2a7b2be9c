import RequestFilter.Proofs.JoinTrie
import RequestFilter.Proofs.Resolution

namespace RequestFilter

namespace Schema

def resolveAll (schema : Schema) (delimiter root : String) :
    List String → Joins → List (Except PathFault Column) × Joins
  | [], joins => ([], joins)
  | path :: rest, joins =>
    let (column, joins) := schema.resolve delimiter root path joins
    let (columns, joins) := resolveAll schema delimiter root rest joins
    (column :: columns, joins)

def walks (schema : Schema) (delimiter root : String) (paths : List String) : Walks :=
  paths.flatMap fun path => (schema.route delimiter root path).legs

end Schema

/-- The joins of the trie of the legs `walked`, whose tables have the aliases of `number`. -/
structure Joins.IsTrie (kind : JoinKind) (walked : List Leg) (number : Table → Alias)
    (joins : List Join) : Prop where
  /-- There are no other joins than those of the legs, and none of them twice. -/
  blocks : joins = walked.flatMap (Leg.joins kind number)
  distinct : walked.Nodup
  own : ∀ i (h : i < joins.length), joins[i].own = ⟨i + 1⟩
  texts : ∀ i (h : i < joins.length), joins[i].own.text = "t" ++ toString (i + 1)
  kinds : ∀ join ∈ joins, join.kind = kind
  parent : ∀ i (h : i < joins.length),
    joins[i].parent = .root ∨ ∃ earlier ∈ joins.take i, joins[i].parent = earlier.own
  conditions : ∀ join ∈ joins, join.on ≠ []

structure Schema.TrieRun (schema : Schema) (delimiter root : String) (kind : JoinKind)
    (paths : List String) (walked : List Leg) (number : Table → Alias)
    (columns : List (Except PathFault Column)) (joins : Joins) : Prop where
  trie : Joins.IsTrie kind walked number joins.toList
  walked_iff : ∀ leg, leg ∈ walked ↔ ∃ path ∈ paths, schema.Passes delimiter root path leg
  admitted : ∀ leg ∈ walked, schema.Admits root leg.route
  /-- Of every list of relations there is one leg. -/
  prefixes : (walked.map fun leg => leg.route.names).Nodup
  columns_eq : columns = paths.map (schema.place delimiter root number)
  appends : ∀ path, joins.toList <+: (schema.resolve delimiter root path joins).2.toList
  repeats : ∀ path ∈ paths,
    schema.resolve delimiter root path joins = (schema.place delimiter root number path, joins)

theorem Alias.text_eq (a : Alias) : a.text = "t" ++ toString a.number := by
  rw [Alias.text, Digits.ofNat, ← List.singleton_append, String.ofList_append]
  rfl

theorem Relation.columns_ne_nil (relation : Relation) (owner target : Entity) :
    relation.columns owner target ≠ [] := by
  unfold Relation.columns
  cases relation.fields <;> cases relation.references <;> simp

theorem Leg.joins_wellFormed (kind : JoinKind) (number : Table → Alias) (leg : Leg) :
    ∀ join ∈ leg.joins kind number, join.kind = kind ∧ join.on ≠ [] := by
  unfold Leg.joins Leg.link? Leg.target
  cases leg.linkTable? with
  | none => simp [Relation.columns_ne_nil]
  | some link => simp

namespace Joins

def Rooted (joins : List Join) : Prop := ∀ i (h : i < joins.length),
  joins[i].parent = .root ∨ ∃ earlier ∈ joins.take i, joins[i].parent = earlier.own

theorem Rooted.concat {joins : List Join} (rooted : Rooted joins) {join : Join}
    (parent : join.parent = .root ∨ ∃ earlier ∈ joins, join.parent = earlier.own) :
    Rooted (joins ++ [join]) := by
  intro i bound
  by_cases old : i < joins.length
  · rw [List.getElem_append_left old, List.take_append_of_le_length (Nat.le_of_lt old)]
    exact rooted i old
  · have last : i = joins.length := by
      rw [List.length_append, List.length_singleton] at bound
      omega
    subst last
    simpa using parent

variable {schema : Schema} {root : String} {kind : JoinKind} {walks : Walks}

theorem toList_concat (valid : walks.Valid schema root) {leg : Leg} (fresh : leg ∉ walks) :
    (ofWalks kind (walks ++ [leg])).toList =
      (ofWalks kind walks).toList ++ leg.joins kind (Walks.number (walks ++ [leg])) := by
  rw [toList, hops_concat valid fresh, List.flatMap_append, List.flatMap_singleton]
  rfl

theorem alias_joined (kind : JoinKind) {route : Route} (walked : route.legs ⊆ walks) :
    route.alias walks.number = .root ∨
      ∃ join ∈ (ofWalks kind walks).toList, route.alias walks.number = join.own := by
  cases route with
  | root => exact .inl rfl
  | along before step =>
    right
    refine ⟨(⟨before, step⟩ : Leg).target kind walks.number, ?_, by simp [Route.alias]⟩
    rw [toList_ofWalks, List.mem_flatMap]
    have joined := walked (Route.mem_legs_along before step)
    exact ⟨_, List.mem_eraseDups.mpr joined, by simp [Leg.joins]⟩

theorem rooted_ofWalks (valid : walks.Valid schema root) : Rooted (ofWalks kind walks).toList := by
  induction valid with
  | nil =>
    intro i bound
    simp [ofWalks, toList] at bound
  | concat valid admitted covered ih =>
    rename_i walks leg
    by_cases walked : leg ∈ walks
    · rw [ofWalks_again (by simpa using walked)]
      exact ih
    · have start : leg.before.alias (Walks.number (walks ++ [leg])) = leg.before.alias walks.number :=
        Walks.alias_stable (List.prefix_append _ _) covered
      have below := alias_joined kind covered
      rw [← start] at below
      rw [toList_concat valid walked]
      unfold Leg.joins Leg.link? Leg.target
      cases leg.linkTable? with
      | none => exact ih.concat below
      | some link =>
        -- The target hangs below the link table, which is joined just before it.
        rw [Option.map_some, Option.toList_some, ← List.append_assoc]
        apply (ih.concat below).concat
        right
        exact ⟨_, List.mem_append_right _ (List.mem_singleton_self _), rfl⟩

theorem joins_wellFormed :
    ∀ join ∈ (ofWalks kind walks).toList, join.kind = kind ∧ join.on ≠ [] := by
  intro join member
  rw [toList_ofWalks, List.mem_flatMap] at member
  obtain ⟨leg, _, own⟩ := member
  exact leg.joins_wellFormed kind walks.number join own

theorem own_getElem {i : Nat} (bound : i < (ofWalks kind walks).toList.length) :
    (ofWalks kind walks).toList[i].own = ⟨i + 1⟩ := by
  have joined : i < walks.tables.length := by
    rw [← size_ofWalks kind walks]
    exact bound
  have owns := own_ofWalks kind walks
  have here := congrArg (fun l => l[i]?) owns
  simp only [List.getElem?_map, List.getElem?_eq_getElem bound, List.getElem?_eq_getElem joined,
    Option.map_some, Option.some.injEq] at here
  rw [here, Walks.number, (Walks.nodup_tables walks).idxOf_getElem]

theorem isTrie_ofWalks (valid : walks.Valid schema root) :
    IsTrie kind walks.eraseDups walks.number (ofWalks kind walks).toList where
  blocks := toList_ofWalks kind walks
  distinct := Distinct.nodup_eraseDups walks
  own _ bound := own_getElem bound
  texts i bound := by rw [own_getElem bound, Alias.text_eq]
  kinds := fun join member => (joins_wellFormed join member).1
  parent := rooted_ofWalks valid
  conditions := fun join member => (joins_wellFormed join member).2

theorem toList_isPrefix (valid : walks.Valid schema root) {route : Route}
    (admitted : schema.Admits root route) :
    (ofWalks kind walks).toList <+: (ofWalks kind (walks ++ route.legs)).toList := by
  induction route with
  | root =>
    have none : walks ++ Route.root.legs = walks := List.append_nil walks
    exact ⟨[], by rw [none, List.append_nil]⟩
  | along before step ih =>
    refine (ih admitted.1).trans ?_
    rw [Route.legs, ← List.append_assoc]
    by_cases walked : ⟨before, step⟩ ∈ walks ++ before.legs
    · have again := List.cons_subset.mpr ⟨walked, List.nil_subset _⟩
      exact ⟨[], by rw [ofWalks_again again, List.append_nil]⟩
    · rw [toList_concat (valid.append_legs admitted.1) walked]
      exact List.prefix_append _ _

end Joins

namespace Schema

variable {schema : Schema} {delimiter root : String} {kind : JoinKind} {walks : Walks}

theorem place_stable {grown : Walks} (later : walks <+: grown) {path : String}
    (walked : (schema.route delimiter root path).legs ⊆ walks) :
    schema.place delimiter root grown.number path = schema.place delimiter root walks.number path := by
  unfold place
  rw [Walks.alias_stable later walked]

theorem resolve_again (valid : walks.Valid schema root) {path : String}
    (walked : (schema.route delimiter root path).legs ⊆ walks) :
    schema.resolve delimiter root path (.ofWalks kind walks) =
      (schema.place delimiter root walks.number path, .ofWalks kind walks) := by
  rw [resolve_ofWalks valid, Walks.number_again walked, Joins.ofWalks_again walked]

theorem resolveAll_ofWalks (delimiter : String) (kind : JoinKind) (paths : List String)
    (valid : walks.Valid schema root) :
    Walks.Valid schema root (walks ++ schema.walks delimiter root paths) ∧
      schema.resolveAll delimiter root paths (.ofWalks kind walks) =
        (paths.map (schema.place delimiter root
            (Walks.number (walks ++ schema.walks delimiter root paths))),
          .ofWalks kind (walks ++ schema.walks delimiter root paths)) := by
  induction paths generalizing walks with
  | nil =>
    simp only [Schema.walks, List.flatMap_nil, List.append_nil]
    exact ⟨valid, rfl⟩
  | cons path rest ih =>
    have grown := valid.append_legs (schema.admits_route delimiter root path)
    obtain ⟨valid', resolved⟩ := ih grown
    have all : walks ++ schema.walks delimiter root (path :: rest) =
        walks ++ (schema.route delimiter root path).legs ++ schema.walks delimiter root rest := by
      simp [Schema.walks]
    rw [all]
    refine ⟨valid', ?_⟩
    simp only [resolveAll, resolve_ofWalks valid, resolved, List.map_cons]
    rw [place_stable (List.prefix_append _ _) (List.subset_append_right _ _)]

theorem resolveAll_trie (schema : Schema) (delimiter root : String) (kind : JoinKind)
    (paths : List String) :
    ∃ walked number, schema.TrieRun delimiter root kind paths walked number
      (schema.resolveAll delimiter root paths (.ofKind kind)).1
      (schema.resolveAll delimiter root paths (.ofKind kind)).2 := by
  let walks := schema.walks delimiter root paths
  have start : Walks.Valid schema root [] := .nil
  obtain ⟨valid, resolved⟩ := resolveAll_ofWalks delimiter kind paths start
  have covered : ∀ path ∈ paths, (schema.route delimiter root path).legs ⊆ walks :=
    fun path member leg own => List.mem_flatMap.mpr ⟨path, member, own⟩
  refine ⟨walks.eraseDups, walks.number, ?_⟩
  rw [List.nil_append] at valid resolved
  have empty : Joins.ofKind kind = .ofWalks kind [] := rfl
  rw [empty, resolved]
  exact {
    trie := Joins.isTrie_ofWalks valid
    walked_iff := by
      intro leg
      simp only [← mem_legs_route]
      rw [List.mem_eraseDups]
      exact List.mem_flatMap
    admitted := fun leg walked => valid.admitted (List.mem_eraseDups.mp walked)
    prefixes := valid.nodup_names
    columns_eq := rfl
    appends := by
      intro path
      rw [resolve_ofWalks valid]
      exact Joins.toList_isPrefix valid (schema.admits_route delimiter root path)
    repeats := fun path member => resolve_again valid (covered path member) }

end Schema

end RequestFilter
