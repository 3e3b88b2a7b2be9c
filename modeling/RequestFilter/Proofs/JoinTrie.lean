import Mathlib.Data.List.Basic
import RequestFilter.Proofs.Distinct
import RequestFilter.Proofs.Routes

/-!
The joins made so far are a function of the legs walked so far: each distinct leg has its tables,
numbered in the order in which they were first walked. Walking a leg again changes nothing, and
walking a new one appends its tables.
-/

namespace RequestFilter

inductive Table where
  | link (leg : Leg)
  | target (leg : Leg)
  deriving DecidableEq

def Table.leg : Table → Leg
  | link leg => leg
  | target leg => leg

/-- The legs walked so far, in order. A leg may occur again. -/
abbrev Walks := List Leg

namespace Leg

/-- The table that links the two sides, if both have many and the relation has such a table. -/
def linkTable? (leg : Leg) : Option LinkTable :=
  match leg.step.relation.cardinality, leg.step.relation.link with
  | .manyToMany, some link => some link
  | _, _ => none

theorem through?_eq (leg : Leg) : leg.step.relation.through? = leg.linkTable? := by
  unfold Relation.through? linkTable?
  cases leg.step.relation.cardinality <;> cases leg.step.relation.link <;> rfl

def tables (leg : Leg) : List Table :=
  match leg.linkTable? with
  | none => [.target leg]
  | some _ => [.link leg, .target leg]

end Leg

namespace Walks

def tables (walks : Walks) : List Table := walks.eraseDups.flatMap Leg.tables

/-- The alias of a table; that of a table not joined yet is the next free one. -/
def number (walks : Walks) (table : Table) : Alias := ⟨walks.tables.idxOf table + 1⟩

/-- Legs are walked one by one, each behind a route walked before, and all of them on routes of the
schema from the entity `root`. -/
inductive Valid (schema : Schema) (root : String) : Walks → Prop
  | nil : Valid schema root []
  | concat {walks : Walks} {leg : Leg} (valid : Valid schema root walks)
      (admitted : schema.Admits root leg.route) (covered : leg.before.legs ⊆ walks) :
      Valid schema root (walks ++ [leg])

end Walks

def Route.alias (number : Table → Alias) : Route → Alias
  | .root => .root
  | .along before step => number (.target ⟨before, step⟩)

namespace Leg

variable (kind : JoinKind) (number : Table → Alias) (leg : Leg)

def link? : Option Join :=
  leg.linkTable?.map fun link =>
    { own := number (.link leg)
      parent := leg.before.alias number
      relation := Joins.linkName leg.step.relation.name
      table := link.table
      kind := kind
      on := [(leg.step.relation.fields.head?.getD leg.step.owner.idColumn, link.source)] }

def target : Join :=
  match leg.linkTable? with
  | none =>
    { own := number (.target leg)
      parent := leg.before.alias number
      relation := leg.step.relation.name
      table := leg.step.target.table
      kind := kind
      on := leg.step.relation.columns leg.step.owner leg.step.target }
  | some link =>
    { own := number (.target leg)
      parent := number (.link leg)
      relation := leg.step.relation.name
      table := leg.step.target.table
      kind := kind
      on := [(link.target, leg.step.relation.references.head?.getD leg.step.target.idColumn)] }

def joins : List Join := (leg.link? kind number).toList ++ [leg.target kind number]

def hop : Hop where
  source := leg.before.alias number
  relation := leg.step.relation.name
  link := leg.link? kind number
  target := leg.target kind number

@[simp] theorem own_target : (leg.target kind number).own = number (.target leg) := by
  unfold target
  split <;> rfl

theorem own_joins : (leg.joins kind number).map Join.own = leg.tables.map number := by
  unfold joins link? target tables
  cases leg.linkTable? <;> rfl

variable {leg}

theorem target_mem_tables : Table.target leg ∈ leg.tables := by
  unfold tables
  split <;> simp

theorem leg_of_mem_tables {table : Table} (member : table ∈ leg.tables) : table.leg = leg := by
  unfold tables at member
  split at member
  · obtain rfl := List.mem_singleton.mp member
    rfl
  · rcases List.mem_pair.mp member with rfl | rfl <;> rfl

end Leg

namespace Walks

variable {walks grown : Walks}

theorem leg_of_mem_tables {table : Table} (member : table ∈ walks.tables) : table.leg ∈ walks := by
  obtain ⟨leg, walked, own⟩ := List.mem_flatMap.mp member
  rw [Leg.leg_of_mem_tables own]
  exact List.mem_eraseDups.mp walked

theorem mem_tables {leg : Leg} (walked : leg ∈ walks) {table : Table}
    (member : table ∈ leg.tables) : table ∈ walks.tables :=
  List.mem_flatMap.mpr ⟨leg, List.mem_eraseDups.mpr walked, member⟩

theorem target_mem_tables {leg : Leg} (walked : leg ∈ walks) : .target leg ∈ walks.tables :=
  mem_tables walked Leg.target_mem_tables

theorem nodup_tables (walks : Walks) : walks.tables.Nodup := by
  unfold tables
  rw [List.nodup_flatMap]
  constructor
  · intro leg _
    unfold Leg.tables
    split <;> simp
  · refine (Distinct.nodup_eraseDups walks).imp ?_
    intro leg other different table member member'
    exact different ((Leg.leg_of_mem_tables member).symm.trans (Leg.leg_of_mem_tables member'))

theorem tables_isPrefix (later : walks <+: grown) : walks.tables <+: grown.tables := by
  obtain ⟨more, same⟩ := Distinct.eraseDups_isPrefix later
  unfold tables
  rw [← same, List.flatMap_append]
  exact List.prefix_append _ _

theorem number_stable (later : walks <+: grown) {table : Table} (member : table ∈ walks.tables) :
    grown.number table = walks.number table := by
  unfold number
  rw [(tables_isPrefix later).idxOf_eq_of_mem member]

theorem alias_stable (later : walks <+: grown) {route : Route} (walked : route.legs ⊆ walks) :
    route.alias grown.number = route.alias walks.number := by
  cases route with
  | root => rfl
  | along before step =>
    exact number_stable later (target_mem_tables (walked (Route.mem_legs_along before step)))

theorem alias_injective {route other : Route} (walked : route.legs ⊆ walks)
    (same : route.alias walks.number = other.alias walks.number) : route = other := by
  cases route with
  | root =>
    cases other with
    | root => rfl
    | along before step => cases congrArg Alias.number same
  | along before step =>
    cases other with
    | root => cases congrArg Alias.number same
    | along before' step' =>
      have joined : .target ⟨before, step⟩ ∈ walks.tables :=
        target_mem_tables (walked (Route.mem_legs_along before step))
      have equal := congrArg Alias.number same
      simp only [Route.alias, number, Nat.add_right_cancel_iff] at equal
      cases (List.idxOf_inj joined).mp equal
      rfl

namespace Valid

variable {schema : Schema} {root : String}

theorem closed (valid : Valid schema root walks) {leg : Leg} (walked : leg ∈ walks) :
    leg.before.legs ⊆ walks := by
  induction valid with
  | nil => cases walked
  | concat valid admitted covered ih =>
    refine List.Subset.trans ?_ (List.subset_append_left _ _)
    rcases List.mem_append.mp walked with old | last
    · exact ih old
    · obtain rfl := List.mem_singleton.mp last
      exact covered

theorem admitted (valid : Valid schema root walks) {leg : Leg} (walked : leg ∈ walks) :
    schema.Admits root leg.route := by
  induction valid with
  | nil => cases walked
  | concat valid admitted covered ih =>
    rcases List.mem_append.mp walked with old | last
    · exact ih old
    · obtain rfl := List.mem_singleton.mp last
      exact admitted

theorem nodup_names (valid : Valid schema root walks) :
    (walks.eraseDups.map fun leg => leg.route.names).Nodup := by
  apply List.Nodup.map_on _ (Distinct.nodup_eraseDups walks)
  intro leg walked other walked' names
  have same : leg.route = other.route :=
    (valid.admitted (List.mem_eraseDups.mp walked)).route_unique
      (valid.admitted (List.mem_eraseDups.mp walked')) names
  cases leg
  cases other
  cases same
  rfl

theorem append_legs (valid : Valid schema root walks) {route : Route}
    (admitted : schema.Admits root route) : Valid schema root (walks ++ route.legs) := by
  induction route with
  | root =>
    rw [Route.legs, List.append_nil]
    exact valid
  | along before step ih =>
    rw [Route.legs, ← List.append_assoc]
    exact .concat (ih admitted.1) admitted (List.subset_append_right _ _)

end Valid

theorem tables_concat {leg : Leg} (fresh : leg ∉ walks) :
    tables (walks ++ [leg]) = walks.tables ++ leg.tables := by
  simp [tables, Distinct.eraseDups_concat fresh]

theorem number_new {leg : Leg} (fresh : leg ∉ walks) {table : Table} (member : table ∈ leg.tables) :
    number (walks ++ [leg]) table = ⟨walks.tables.length + leg.tables.idxOf table + 1⟩ := by
  have unjoined : table ∉ walks.tables := by
    intro joined
    have walked := leg_of_mem_tables joined
    rw [Leg.leg_of_mem_tables member] at walked
    exact fresh walked
  rw [number, tables_concat fresh, List.idxOf_append_of_notMem unjoined]

theorem tables_again {more : List Leg} (known : more ⊆ walks) :
    tables (walks ++ more) = walks.tables := by
  simp [tables, Distinct.eraseDups_append_subset known]

theorem number_again {more : List Leg} (known : more ⊆ walks) :
    number (walks ++ more) = walks.number := by
  funext table
  simp [number, tables_again known]

end Walks

namespace Leg

variable {kind : JoinKind} {leg : Leg}

theorem hop_congr {number number' : Table → Alias}
    (start : leg.before.alias number' = leg.before.alias number)
    (own : ∀ table ∈ leg.tables, number' table = number table) :
    leg.hop kind number' = leg.hop kind number := by
  have target := own _ Leg.target_mem_tables
  unfold tables at own
  unfold hop link? Leg.target
  cases through : leg.linkTable? with
  | none => simp [start, target]
  | some link =>
    have linked : number' (.link leg) = number (.link leg) := own _ (by simp [through])
    simp [start, target, linked]

end Leg

namespace Joins

def ofWalks (kind : JoinKind) (walks : Walks) : Joins where
  kind := kind
  hops := walks.eraseDups.map (Leg.hop kind walks.number)

variable {kind : JoinKind} {walks : Walks}

theorem toList_ofWalks (kind : JoinKind) (walks : Walks) :
    (ofWalks kind walks).toList = walks.eraseDups.flatMap (Leg.joins kind walks.number) := by
  rw [ofWalks, toList, List.flatMap_map]
  rfl

theorem own_ofWalks (kind : JoinKind) (walks : Walks) :
    (ofWalks kind walks).toList.map Join.own = walks.tables.map walks.number := by
  rw [toList_ofWalks, Walks.tables, List.map_flatMap, List.map_flatMap]
  congr 1
  funext leg
  exact Leg.own_joins kind walks.number leg

theorem size_ofWalks (kind : JoinKind) (walks : Walks) :
    (ofWalks kind walks).size = walks.tables.length := by
  have lengths := congrArg List.length (own_ofWalks kind walks)
  simpa only [size, List.length_map] using lengths

theorem newHop_ofWalks {leg : Leg} (fresh : leg ∉ walks) (covered : leg.before.legs ⊆ walks) :
    (ofWalks kind walks).newHop (leg.before.alias walks.number) leg.step.owner leg.step.target
      leg.step.relation = leg.hop kind (Walks.number (walks ++ [leg])) := by
  have start : leg.before.alias (Walks.number (walks ++ [leg])) = leg.before.alias walks.number :=
    Walks.alias_stable (List.prefix_append _ _) covered
  have own : ∀ table ∈ leg.tables, Walks.number (walks ++ [leg]) table =
      ⟨walks.tables.length + leg.tables.idxOf table + 1⟩ :=
    fun table member => Walks.number_new fresh member
  unfold Leg.tables at own
  unfold newHop Leg.hop Leg.link? Leg.target nextAlias
  rw [size_ofWalks, start, leg.through?_eq]
  cases through : leg.linkTable? with
  | none =>
    have target : Walks.number (walks ++ [leg]) (.target leg) = ⟨walks.tables.length + 1⟩ := by
      simpa [through] using own (.target leg)
    simp [target, ofWalks]
  | some link =>
    have between : Walks.number (walks ++ [leg]) (.link leg) = ⟨walks.tables.length + 1⟩ := by
      simpa [through] using own (.link leg)
    have target : Walks.number (walks ++ [leg]) (.target leg) = ⟨walks.tables.length + 1 + 1⟩ := by
      simpa [through] using own (.target leg)
    simp [between, target, ofWalks]

variable {schema : Schema} {root : String}

/-- Of the legs walked, only the leg itself has its start and the name of its relation. -/
theorem isAlong_iff (valid : walks.Valid schema root) {leg other : Leg} (walked : other ∈ walks)
    (admitted : schema.Admits root leg.route) :
    Hop.isAlong (leg.before.alias walks.number) leg.step.relation.name
      (other.hop kind walks.number) = true ↔ other = leg := by
  constructor
  · intro along
    simp only [Hop.isAlong, Leg.hop, Bool.and_eq_true, beq_iff_eq] at along
    have rival := valid.admitted walked
    -- The starts have one alias, so they are one route; from there on the name decides.
    have before : other.before = leg.before :=
      Walks.alias_injective (valid.closed walked) along.1
    obtain ⟨otherBefore, otherStep⟩ := other
    obtain rfl : otherBefore = leg.before := before
    have step : otherStep = leg.step := rival.step_unique admitted along.2
    rw [step]
  · rintro rfl
    simp [Hop.isAlong, Leg.hop]

theorem ofWalks_again {more : List Leg} (known : more ⊆ walks) :
    ofWalks kind (walks ++ more) = ofWalks kind walks := by
  simp only [ofWalks, Walks.number_again known, Distinct.eraseDups_append_subset known]

theorem hops_concat (valid : walks.Valid schema root) {leg : Leg} (fresh : leg ∉ walks) :
    (ofWalks kind (walks ++ [leg])).hops =
      (ofWalks kind walks).hops ++ [leg.hop kind (Walks.number (walks ++ [leg]))] := by
  have later : walks <+: walks ++ [leg] := List.prefix_append _ _
  have kept : ∀ other ∈ walks.eraseDups,
      other.hop kind (Walks.number (walks ++ [leg])) = other.hop kind walks.number := by
    intro other member
    have walked := List.mem_eraseDups.mp member
    apply Leg.hop_congr (Walks.alias_stable later (valid.closed walked))
    intro table own
    exact Walks.number_stable later (Walks.mem_tables walked own)
  simp only [ofWalks, Distinct.eraseDups_concat fresh, List.map_append, List.map_cons,
    List.map_nil, List.map_congr_left kept]

theorem walk_ofWalks (valid : walks.Valid schema root) {leg : Leg}
    (admitted : schema.Admits root leg.route) (covered : leg.before.legs ⊆ walks) :
    (ofWalks kind walks).walk (leg.before.alias walks.number) leg.step.owner leg.step.target
      leg.step.relation =
      (leg.route.alias (Walks.number (walks ++ [leg])), ofWalks kind (walks ++ [leg])) := by
  unfold walk
  by_cases walked : leg ∈ walks
  · have found : (ofWalks kind walks).hops.find?
        (Hop.isAlong (leg.before.alias walks.number) leg.step.relation.name) =
          some (leg.hop kind walks.number) := by
      rw [ofWalks, List.find?_map, Distinct.find?_unique (List.mem_eraseDups.mpr walked)]
      · rfl
      · intro other member
        exact isAlong_iff valid (List.mem_eraseDups.mp member) admitted
    have again : [leg] ⊆ walks := by simpa using walked
    rw [found, ofWalks_again again, Walks.number_again again]
    simp [Leg.hop, Route.alias, Leg.route]
  · have missing : (ofWalks kind walks).hops.find?
        (Hop.isAlong (leg.before.alias walks.number) leg.step.relation.name) = none := by
      rw [ofWalks, List.find?_map, Option.map_eq_none_iff, List.find?_eq_none]
      intro other member along
      have walked' := List.mem_eraseDups.mp member
      exact walked ((isAlong_iff valid walked' admitted).mp along ▸ walked')
    have grown : { ofWalks kind walks with
        hops := (ofWalks kind walks).hops ++ [leg.hop kind (Walks.number (walks ++ [leg]))] } =
          ofWalks kind (walks ++ [leg]) := by
      rw [← hops_concat valid walked]
      rfl
    rw [missing]
    simp only [newHop_ofWalks walked covered, grown]
    simp [Leg.hop, Route.alias, Leg.route]

end Joins

namespace Schema

def place (schema : Schema) (delimiter root : String) (number : Table → Alias) (path : String) :
    Except PathFault Column :=
  (schema.destination delimiter root path).map fun scalar =>
    scalar.columnOf ((schema.route delimiter root path).alias number)

variable {schema : Schema} {root : String} {walks : Walks}

theorem walked_ofWalks (kind : JoinKind) (valid : walks.Valid schema root) {route : Route}
    (admitted : schema.Admits root route) :
    (Joins.ofWalks kind walks).Walked route (route.alias (Walks.number (walks ++ route.legs)))
      (.ofWalks kind (walks ++ route.legs)) := by
  induction route with
  | root =>
    rw [Route.legs, List.append_nil]
    exact .root
  | along before step ih =>
    have leads : schema.Admits root (⟨before, step⟩ : Leg).route := admitted
    have along := (ih admitted.1).walk step
    rw [Joins.walk_ofWalks (valid.append_legs admitted.1) leads
      (List.subset_append_right _ _)] at along
    rw [Route.legs, ← List.append_assoc]
    exact along

theorem resolve_ofWalks {delimiter : String} {kind : JoinKind} (valid : walks.Valid schema root)
    (path : String) :
    schema.resolve delimiter root path (.ofWalks kind walks) =
      (schema.place delimiter root (Walks.number (walks ++ (schema.route delimiter root path).legs))
          path,
        .ofWalks kind (walks ++ (schema.route delimiter root path).legs)) := by
  obtain ⟨source, grown, walked, resolved⟩ :=
    schema.resolve_walked delimiter root path (.ofWalks kind walks)
  obtain ⟨rfl, rfl⟩ :=
    walked.unique (walked_ofWalks kind valid (schema.admits_route delimiter root path))
  exact resolved

end Schema

end RequestFilter
