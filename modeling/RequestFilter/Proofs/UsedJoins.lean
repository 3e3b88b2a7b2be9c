import RequestFilter.Proofs.Fates
import RequestFilter.Proofs.Renaming
import RequestFilter.Proofs.ValueIndependence

namespace RequestFilter

namespace Plan

/-- A column of the table is looked at, or the plan is ordered by one. -/
def Shows (plan : Plan) (a : Alias) : Prop :=
  (∃ column ∈ plan.filter.columns, column.source = a.text) ∨
    ∃ entry ∈ plan.order, ∃ name, entry.key = a.text ++ "." ++ name

inductive Uses (plan : Plan) : Join → Prop
  | shown {join : Join} (shows : plan.Shows join.own) : Uses plan join
  | above {join below : Join} (joined : below ∈ plan.joins) (uses : Uses plan below)
      (parent : below.parent = join.own) : Uses plan join

end Plan

namespace Route

theorem legs_before {route : Route} {leg : Leg} (own : leg ∈ route.legs) :
    leg.before.legs ⊆ route.legs := by
  induction route with
  | root => cases own
  | along before step ih =>
    refine List.Subset.trans ?_ (List.subset_append_left _ _)
    rcases List.mem_append.mp own with earlier | last
    · exact ih earlier
    · obtain rfl := List.mem_singleton.mp last
      exact List.Subset.refl _

end Route

namespace Leg

variable {kind : JoinKind} {number : Table → Alias} {leg : Leg} {join : Join}

theorem target_mem_joins : leg.target kind number ∈ leg.joins kind number :=
  List.mem_append_right _ (List.mem_singleton_self _)

theorem table_of_join (member : join ∈ leg.joins kind number) :
    ∃ table ∈ leg.tables, join.own = number table := by
  have own : join.own ∈ (leg.joins kind number).map Join.own := List.mem_map_of_mem member
  rw [own_joins] at own
  obtain ⟨table, among, same⟩ := List.mem_map.mp own
  exact ⟨table, among, same.symm⟩

/-- A join of a leg hangs below the table that the leg starts from, or below its link table. -/
theorem parent_of_join (member : join ∈ leg.joins kind number) :
    join.parent = leg.before.alias number ∨
      .link leg ∈ leg.tables ∧ join.parent = number (.link leg) := by
  unfold joins link? target at member
  unfold tables
  cases through : leg.linkTable? with
  | none =>
    simp only [through, Option.map_none, Option.toList_none, List.nil_append] at member
    rw [List.mem_singleton.mp member]
    exact .inl rfl
  | some link =>
    simp only [through, Option.map_some, Option.toList_some, List.singleton_append] at member
    rcases List.mem_pair.mp member with rfl | rfl
    · exact .inl rfl
    · exact .inr ⟨by simp, rfl⟩

/-- The join that hangs below the start of the leg, with the target behind it or the same. -/
theorem exists_top (kind : JoinKind) (number : Table → Alias) (leg : Leg) :
    ∃ top ∈ leg.joins kind number, top.parent = leg.before.alias number ∧
      (∀ join ∈ leg.joins kind number, join = top ∨ join = leg.target kind number) ∧
      (top = leg.target kind number ∨ (leg.target kind number).parent = top.own) := by
  unfold joins link? target
  cases leg.linkTable? with
  | none => simp
  | some link => simp

end Leg

namespace Walks

variable {walks : Walks}

/-- A table that has the alias of a route is joined by a leg of that route. -/
theorem leg_of_alias {route : Route} (walked : route.legs ⊆ walks) {table : Table}
    (same : walks.number table = route.alias walks.number) : table.leg ∈ route.legs := by
  cases route with
  | root => cases congrArg Alias.number same
  | along before step =>
    have last := Route.mem_legs_along before step
    have joined : .target ⟨before, step⟩ ∈ walks.tables := target_mem_tables (walked last)
    have equal := congrArg Alias.number same.symm
    simp only [Route.alias, number, Nat.add_right_cancel_iff] at equal
    rw [← (List.idxOf_inj joined).mp equal]
    exact last

theorem number_injective {table other : Table} (joined : table ∈ walks.tables)
    (same : walks.number table = walks.number other) : table = other := by
  have equal := congrArg Alias.number same
  simp only [number, Nat.add_right_cancel_iff] at equal
  exact (List.idxOf_inj joined).mp equal

end Walks

namespace Plan

variable {plan : Plan} {walks : Walks}

theorem leg_of_join (joins : plan.joins = (Joins.ofWalks .left walks).toList) {join : Join}
    (member : join ∈ plan.joins) : ∃ leg ∈ walks, join ∈ leg.joins .left walks.number := by
  rw [joins, Joins.toList_ofWalks] at member
  obtain ⟨leg, walked, own⟩ := List.mem_flatMap.mp member
  exact ⟨leg, List.mem_eraseDups.mp walked, own⟩

theorem join_of_leg (joins : plan.joins = (Joins.ofWalks .left walks).toList) {leg : Leg}
    (walked : leg ∈ walks) {join : Join} (own : join ∈ leg.joins .left walks.number) :
    join ∈ plan.joins := by
  rw [joins, Joins.toList_ofWalks]
  exact List.mem_flatMap.mpr ⟨leg, List.mem_eraseDups.mpr walked, own⟩

/-- If the table at the end of a route is used, so are all tables on the way to it. -/
theorem uses_route (joins : plan.joins = (Joins.ofWalks .left walks).toList) {route : Route}
    (walked : route.legs ⊆ walks)
    (used : ∀ join ∈ plan.joins, join.own = route.alias walks.number → plan.Uses join) :
    ∀ leg ∈ route.legs, ∀ join ∈ leg.joins .left walks.number, plan.Uses join := by
  induction route with
  | root => nofun
  | along before step ih =>
    let last : Leg := ⟨before, step⟩
    have lastWalked : last ∈ walks := walked (Route.mem_legs_along before step)
    have target : plan.Uses (last.target .left walks.number) :=
      used _ (join_of_leg joins lastWalked Leg.target_mem_joins) (last.own_target .left walks.number)
    obtain ⟨top, own, parent, each, behind⟩ := last.exists_top .left walks.number
    have topUsed : plan.Uses top := by
      rcases behind with rfl | below
      · exact target
      · exact .above (join_of_leg joins lastWalked Leg.target_mem_joins) target below
    have earlier : before.legs ⊆ walks :=
      List.Subset.trans (List.subset_append_left _ _) walked
    have start : ∀ join ∈ plan.joins, join.own = before.alias walks.number → plan.Uses join :=
      fun join _ same => .above (join_of_leg joins lastWalked own) topUsed (parent.trans same.symm)
    intro leg member join among
    rcases List.mem_append.mp member with before | here
    · exact ih earlier start leg before join among
    · obtain rfl := List.mem_singleton.mp here
      rcases each join among with rfl | rfl
      · exact topUsed
      · exact target

/-- If a plan shows the ends of certain routes, it uses the joins of their legs and no others. -/
theorem uses_iff (joins : plan.joins = (Joins.ofWalks .left walks).toList) {shown : Route → Prop}
    (walked : ∀ route, shown route → route.legs ⊆ walks)
    (shows : ∀ a, plan.Shows a ↔ ∃ route, shown route ∧ a = route.alias walks.number) {leg : Leg}
    (known : leg ∈ walks) {join : Join} (own : join ∈ leg.joins .left walks.number) :
    plan.Uses join ↔ ∃ route, shown route ∧ leg ∈ route.legs := by
  constructor
  · intro uses
    induction uses generalizing leg with
    | shown shown =>
      obtain ⟨route, among, atEnd⟩ := (shows _).mp shown
      obtain ⟨table, mine, same⟩ := Leg.table_of_join own
      rw [← Leg.leg_of_mem_tables mine]
      exact ⟨route, among, Walks.leg_of_alias (walked route among) (same.symm.trans atEnd)⟩
    | above joined _ parent ih =>
      obtain ⟨lower, lowerKnown, lowerOwn⟩ := leg_of_join joins joined
      obtain ⟨route, among, lowerLeg⟩ := ih lowerKnown lowerOwn
      obtain ⟨table, mine, same⟩ := Leg.table_of_join own
      have number := same.symm.trans parent.symm
      rw [← Leg.leg_of_mem_tables mine]
      rcases Leg.parent_of_join lowerOwn with start | ⟨link, linked⟩
      · have covered := Route.legs_before lowerLeg
        have walkedBefore := List.Subset.trans covered (walked route among)
        exact ⟨route, among, covered (Walks.leg_of_alias walkedBefore (number.trans start))⟩
      · have tables := Walks.mem_tables known mine
        rw [Walks.number_injective tables (number.trans linked)]
        exact ⟨route, among, lowerLeg⟩
  · rintro ⟨route, among, member⟩
    refine uses_route joins (walked route among) (fun join _ same => ?_) leg member join own
    exact .shown ((shows _).mpr ⟨route, among, same⟩)

end Plan

theorem Alias.text_injective {a b : Alias} (same : a.text = b.text) : a = b := by
  have read := congrArg Alias.read? same
  rw [read?_text, read?_text] at read
  exact Option.some.inj read

theorem Alias.eq_of_qualified {a b : Alias} {name other : String}
    (same : a.text ++ "." ++ name = b.text ++ "." ++ other) : a = b := by
  have cut := a.cutFirst?_qualified name
  rw [same, b.cutFirst?_qualified other] at cut
  simp only [Option.some.injEq, Prod.mk.injEq, String.toList_inj] at cut
  exact Alias.text_injective cut.1.symm

theorem Outcome.restricts_iff {outcome : Outcome} (clean : outcome.problems = []) :
    outcome.fate? = some .restricts ↔
      ∃ filter, outcome.filter.filter (!·.isNone) = some filter := by
  obtain ⟨problems, filter⟩ := outcome
  obtain rfl : problems = [] := clean
  cases filter with
  | none => simp [fate?]
  | some filter => cases none : filter.isNone <;> simp [fate?, Option.filter, none]

namespace Engine

section Refers

variable (engine : Engine) (policy : Policy)

/-- The paths that a plan refers to: those of the criteria that restrict it, and those of the fields
that it is ordered by. -/
inductive Refers (criteria : List Criterion) (sort : SortOrder) : String → Prop
  | criterion {entry : Criterion × Outcome}
      (answered : entry ∈ (engine.pass policy criteria sort).outcomes)
      (restricts : entry.2.fate? = some .restricts) : Refers criteria sort entry.1.path
  | field {field : SortField} (sorted : field ∈ sort) : Refers criteria sort field.key

/-- A path that the plan refers to leads along the relation. -/
def Needs (criteria : List Criterion) (sort : SortOrder) (leg : Leg) : Prop :=
  ∃ path, engine.Refers policy criteria sort path ∧ leg ∈ (engine.route policy path).legs

/-- Which joins of a plan are used: those of the relations on the way to what it refers to. All
others come from criteria without a value. -/
structure JoinsUsed (criteria : List Criterion) (sort : SortOrder) (plan : Plan) (walked : List Leg)
    (number : Table → Alias) : Prop where
  trie : Joins.IsTrie .left walked number plan.joins
  uses : ∀ leg ∈ walked, ∀ join ∈ leg.joins .left number,
    plan.Uses join ↔ engine.Needs policy criteria sort leg
  others : ∀ leg ∈ walked, engine.Needs policy criteria sort leg ∨
    ∃ entry ∈ (engine.pass policy criteria sort).outcomes, entry.2.fate? = some .passes ∧
      leg ∈ (engine.route policy entry.1.path).legs
  all : (∀ join ∈ plan.joins, plan.Uses join) ↔
    ∀ entry ∈ (engine.pass policy criteria sort).outcomes, entry.2.fate? = some .passes →
      ∀ leg ∈ (engine.route policy entry.1.path).legs, engine.Needs policy criteria sort leg

end Refers

variable {engine : Engine} {policy : Policy} {criteria : List Criterion} {sort : SortOrder}
variable {plan : Plan} {walks : Walks}

theorem fate_of_clean (plain : policy.custom = []) {places : Places} {criterion : Criterion}
    (allowed : policy.allows criterion.path criterion.operator = true)
    (clean : ((engine.script policy criterion).outcome places).problems = []) :
    ((engine.script policy criterion).outcome places).fate? = some .restricts ∨
      ((engine.script policy criterion).outcome places).fate? = some .passes := by
  rw [script_of_plain engine plain, if_pos allowed, fieldScript, Script.outcome] at clean ⊢
  cases leads : places criterion.path with
  | error fault =>
    rw [leads] at clean
    cases clean
  | ok column =>
    rw [leads] at clean
    dsimp only at clean ⊢
    rw [Script.outcome_script] at clean ⊢
    obtain ⟨_, _, _, filter, _, same⟩ := grounds_of_clean clean
    rw [same]
    cases none : filter.isNone <;> simp [Outcome.ofFilter, Outcome.fate?, none]

/-- The plan of a pass over the legs `walks`, in which nothing failed. -/
structure Succeeds (engine : Engine) (policy : Policy) (criteria : List Criterion)
    (sort : SortOrder) (walks : Walks) : Prop where
  valid : walks.Valid engine.schema policy.root
  walked : walks =
    engine.walks policy (engine.asked policy (engine.places policy walks) criteria sort)
  passed : engine.pass policy criteria sort =
    { outcomes := criteria.map fun criterion =>
        (criterion, (engine.script policy criterion).outcome (engine.places policy walks))
      columns := sort.map (sortResult policy (engine.places policy walks))
      joins := .ofWalks .left walks }
  clean : ∀ criterion ∈ criteria,
    ((engine.script policy criterion).outcome (engine.places policy walks)).problems = []
  sorted : ∀ field ∈ sort, ∃ entry,
    sortResult policy (engine.places policy walks) field = .ok entry

theorem succeeds_of_plan (planned : engine.plan policy criteria sort = .ok plan) :
    ∃ walks, engine.Succeeds policy criteria sort walks := by
  have clean := clean_of_plan planned
  obtain ⟨sorted, _⟩ := pass_of_plan engine planned
  obtain ⟨walks, valid, walked, passed⟩ := engine.pass_eq policy criteria sort
  rw [passed] at clean sorted
  refine ⟨walks, valid, walked, passed, ?_, fun field member => ?_⟩
  · simpa only [List.forall_mem_map] using clean
  · rw [List.filterMap_map, List.filterMap_eq_nil_iff] at sorted
    have found := sorted field member
    cases result : sortResult policy (engine.places policy walks) field with
    | ok entry => exact ⟨entry, rfl⟩
    | error problem =>
      rw [Function.comp_apply, result] at found
      cases found

namespace Succeeds

variable (succeeds : engine.Succeeds policy criteria sort walks)

include succeeds

theorem refers_iff {path : String} : engine.Refers policy criteria sort path ↔
    (∃ criterion ∈ criteria, path = criterion.path ∧
      ∃ filter, engine.predicate? policy (engine.places policy walks) criterion = some filter) ∨
    ∃ field ∈ sort, path = field.key := by
  have restricts : ∀ criterion ∈ criteria, _ :=
    fun criterion member => Outcome.restricts_iff (succeeds.clean criterion member)
  constructor
  · intro refers
    cases refers with
    | criterion answered fate =>
      rw [succeeds.passed] at answered
      obtain ⟨criterion, member, rfl⟩ := List.mem_map.mp answered
      exact .inl ⟨criterion, member, rfl, (restricts criterion member).mp fate⟩
    | field member => exact .inr ⟨_, member, rfl⟩
  · rintro (⟨criterion, member, rfl, predicate⟩ | ⟨field, member, rfl⟩)
    · have answered : (criterion, (engine.script policy criterion).outcome
          (engine.places policy walks)) ∈ (engine.pass policy criteria sort).outcomes := by
        rw [succeeds.passed]
        exact List.mem_map_of_mem member
      exact .criterion answered ((restricts criterion member).mpr predicate)
    · exact .field member

theorem columns_iff (plain : policy.custom = []) {a : Alias} :
    (∃ column ∈ (engine.pass policy criteria sort).plan.filter.columns, column.source = a.text) ↔
      ∃ criterion ∈ criteria, a = (engine.route policy criterion.path).alias walks.number ∧
        ∃ filter, engine.predicate? policy (engine.places policy walks) criterion = some filter := by
  have columns : (engine.pass policy criteria sort).plan.filter.columns =
      (engine.answered policy (engine.places policy walks) criteria).flatMap fun entry =>
        entry.2.columns := by
    rw [succeeds.passed, Pass.plan, Filter.columns_combine, filters_restricting, ← map_snd_answered,
      List.flatMap_map]
  rw [columns]
  constructor
  · rintro ⟨column, looked, source⟩
    obtain ⟨entry, answered, own⟩ := List.mem_flatMap.mp looked
    obtain ⟨member, predicate⟩ := engine.mem_answered answered
    obtain ⟨_, tested, ⟨_, _, _, _, here⟩, single⟩ := engine.answered_reads plain answered
    rw [single, List.mem_singleton] at own
    rw [own] at source
    exact ⟨entry.1, member, Alias.text_injective (source.symm.trans here), _, predicate⟩
  · rintro ⟨criterion, member, rfl, filter, predicate⟩
    have answered : (criterion, filter) ∈
        engine.answered policy (engine.places policy walks) criteria :=
      List.mem_filterMap.mpr ⟨criterion, member, by rw [predicate]; rfl⟩
    obtain ⟨_, column, ⟨_, _, _, _, here⟩, single⟩ := engine.answered_reads plain answered
    exact ⟨column, List.mem_flatMap.mpr ⟨_, answered, by simp [single]⟩, here⟩

theorem order_iff {a : Alias} :
    (∃ entry ∈ (engine.pass policy criteria sort).plan.order, ∃ name,
      entry.key = a.text ++ "." ++ name) ↔
      ∃ field ∈ sort, a = (engine.route policy field.key).alias walks.number := by
  have order : (engine.pass policy criteria sort).plan.order =
      (sort.map (sortResult policy (engine.places policy walks))).filterMap Except.toOption := by
    rw [succeeds.passed]
    rfl
  have keys : ∀ field entry,
      sortResult policy (engine.places policy walks) field = .ok entry →
        ∃ name, entry.key = ((engine.route policy field.key).alias walks.number).text ++ "." ++ name := by
    intro field entry found
    obtain ⟨_, column, leads, rfl⟩ := sortResult_ok found
    obtain ⟨scalar, _, rfl⟩ := engine.places_ok leads
    exact ⟨_, scalar.sql_columnOf _⟩
  rw [order, List.filterMap_map]
  constructor
  · rintro ⟨entry, among, name, key⟩
    obtain ⟨field, member, some⟩ := List.mem_filterMap.mp among
    cases found : sortResult policy (engine.places policy walks) field with
    | error problem =>
      rw [Function.comp_apply, found] at some
      cases some
    | ok sorted =>
      rw [Function.comp_apply, found] at some
      cases some
      obtain ⟨other, same⟩ := keys field entry found
      exact ⟨field, member, Alias.eq_of_qualified (key.symm.trans same)⟩
  · rintro ⟨field, member, rfl⟩
    obtain ⟨entry, found⟩ := succeeds.sorted field member
    obtain ⟨name, key⟩ := keys field entry found
    exact ⟨entry, List.mem_filterMap.mpr ⟨field, member, by simp [found, Except.toOption]⟩, name, key⟩

theorem shows_iff (plain : policy.custom = []) (a : Alias) :
    (engine.pass policy criteria sort).plan.Shows a ↔
      ∃ route, (∃ path, engine.Refers policy criteria sort path ∧ route = engine.route policy path) ∧
        a = route.alias walks.number := by
  unfold Plan.Shows
  rw [succeeds.columns_iff plain, succeeds.order_iff]
  simp only [succeeds.refers_iff]
  constructor
  · rintro (⟨criterion, member, rfl, predicate⟩ | ⟨field, member, rfl⟩)
    · exact ⟨_, ⟨_, .inl ⟨criterion, member, rfl, predicate⟩, rfl⟩, rfl⟩
    · exact ⟨_, ⟨_, .inr ⟨field, member, rfl⟩, rfl⟩, rfl⟩
  · rintro ⟨_, ⟨path, ⟨criterion, member, rfl, predicate⟩ | ⟨field, member, rfl⟩, rfl⟩, rfl⟩
    · exact .inl ⟨criterion, member, rfl, predicate⟩
    · exact .inr ⟨field, member, rfl⟩

theorem walked_of_asked {path : String}
    (asked : path ∈ engine.asked policy (engine.places policy walks) criteria sort) :
    (engine.route policy path).legs ⊆ walks := by
  intro leg own
  rw [succeeds.walked]
  exact mem_walks.mpr ⟨path, asked, own⟩

theorem walked_of_allowed (plain : policy.custom = []) {criterion : Criterion}
    (member : criterion ∈ criteria)
    (allowed : policy.allows criterion.path criterion.operator = true) :
    (engine.route policy criterion.path).legs ⊆ walks :=
  succeeds.walked_of_asked ((engine.mem_asked plain).mpr (.inl ⟨criterion, member, allowed, rfl⟩))

theorem walked_of_refers (plain : policy.custom = []) {path : String}
    (refers : engine.Refers policy criteria sort path) : (engine.route policy path).legs ⊆ walks := by
  rcases succeeds.refers_iff.mp refers with ⟨criterion, member, rfl, _, predicate⟩ |
    ⟨field, member, rfl⟩
  · exact succeeds.walked_of_allowed plain member (engine.predicate_tests plain predicate).1
  · obtain ⟨entry, found⟩ := succeeds.sorted field member
    obtain ⟨declared, _⟩ := sortResult_ok found
    exact succeeds.walked_of_asked ((engine.mem_asked plain).mpr (.inr ⟨field, member, declared, rfl⟩))

theorem walked_of_passes (plain : policy.custom = []) {entry : Criterion × Outcome}
    (answered : entry ∈ (engine.pass policy criteria sort).outcomes)
    (passes : entry.2.fate? = some .passes) : (engine.route policy entry.1.path).legs ⊆ walks := by
  rw [succeeds.passed] at answered
  obtain ⟨criterion, member, rfl⟩ := List.mem_map.mp answered
  by_cases allowed : policy.allows criterion.path criterion.operator = true
  · exact succeeds.walked_of_allowed plain member allowed
  · rw [script_of_plain engine plain, if_neg allowed] at passes
    cases passes

theorem needs_or_passes (plain : policy.custom = []) {leg : Leg} (walked : leg ∈ walks) :
    engine.Needs policy criteria sort leg ∨
      ∃ entry ∈ (engine.pass policy criteria sort).outcomes, entry.2.fate? = some .passes ∧
        leg ∈ (engine.route policy entry.1.path).legs := by
  rw [succeeds.walked] at walked
  obtain ⟨path, asked, own⟩ := mem_walks.mp walked
  rcases (engine.mem_asked plain).mp asked with ⟨criterion, member, allowed, rfl⟩ |
    ⟨field, member, _, rfl⟩
  · have answered : (criterion, (engine.script policy criterion).outcome
        (engine.places policy walks)) ∈ (engine.pass policy criteria sort).outcomes := by
      rw [succeeds.passed]
      exact List.mem_map_of_mem member
    rcases fate_of_clean plain allowed (succeeds.clean criterion member) with restricts | passes
    · exact .inl ⟨_, .criterion answered restricts, own⟩
    · exact .inr ⟨_, answered, passes, own⟩
  · exact .inl ⟨_, .field member, own⟩

theorem uses_iff_needs (plain : policy.custom = []) {leg : Leg} (walked : leg ∈ walks) {join : Join}
    (own : join ∈ leg.joins .left walks.number) :
    (engine.pass policy criteria sort).plan.Uses join ↔ engine.Needs policy criteria sort leg := by
  have joins : (engine.pass policy criteria sort).plan.joins =
      (Joins.ofWalks .left walks).toList := by
    rw [succeeds.passed]
    rfl
  have routes : ∀ route, (∃ path, engine.Refers policy criteria sort path ∧
      route = engine.route policy path) → route.legs ⊆ walks := by
    rintro _ ⟨path, refers, rfl⟩
    exact succeeds.walked_of_refers plain refers
  rw [Plan.uses_iff joins routes (succeeds.shows_iff plain) walked own]
  constructor
  · rintro ⟨_, ⟨path, refers, rfl⟩, member⟩
    exact ⟨path, refers, member⟩
  · rintro ⟨path, refers, member⟩
    exact ⟨_, ⟨path, refers, rfl⟩, member⟩

end Succeeds

end Engine

namespace Shelf

/-- The editor is asked for by name, but no name is given. -/
def nobody : List Criterion := [.ofPath "editors__name" .eq [], .ofPath "author__name" .eq ["Bob"]]

def nobodyPlan : Plan where
  filter := .compare .eq ⟨"t3", "name", .string, none⟩ (.text "Bob")
  joins :=
    [⟨⟨1⟩, ⟨0⟩, "editors#through", "book_editors", .left, [("id", "book_id")]⟩,
      ⟨⟨2⟩, ⟨1⟩, "editors", "authors", .left, [("author_id", "id")]⟩,
      ⟨⟨3⟩, ⟨0⟩, "author", "authors", .left, [("author_id", "id")]⟩]
  order := []

end Shelf

namespace Engine

/-- Without custom filters, a plan uses the joins on the way to what it refers to, and the only other
joins are those that criteria without a value leave behind. -/
theorem plan_joinsUsed (engine : Engine) (policy : Policy) (plain : policy.custom = [])
    (criteria : List Criterion) (sort : SortOrder) (plan : Plan)
    (planned : engine.plan policy criteria sort = .ok plan) :
    ∃ walked number, engine.JoinsUsed policy criteria sort plan walked number := by
  obtain ⟨walks, succeeds⟩ := succeeds_of_plan planned
  obtain ⟨_, rfl⟩ := pass_of_plan engine planned
  have joins : (engine.pass policy criteria sort).plan.joins =
      (Joins.ofWalks .left walks).toList := by
    rw [succeeds.passed]
    rfl
  refine ⟨walks.eraseDups, walks.number, ?_⟩
  exact {
    trie := by
      rw [joins]
      exact Joins.isTrie_ofWalks succeeds.valid
    uses := fun leg walked join own =>
      succeeds.uses_iff_needs plain (List.mem_eraseDups.mp walked) own
    others := fun leg walked => succeeds.needs_or_passes plain (List.mem_eraseDups.mp walked)
    all := by
      constructor
      · intro all entry answered passes leg own
        have walked := succeeds.walked_of_passes plain answered passes own
        have target := Plan.join_of_leg joins walked Leg.target_mem_joins
        exact (succeeds.uses_iff_needs plain walked Leg.target_mem_joins).mp (all _ target)
      · intro covered join member
        obtain ⟨leg, walked, own⟩ := Plan.leg_of_join joins member
        refine (succeeds.uses_iff_needs plain walked own).mpr ?_
        rcases succeeds.needs_or_passes plain walked with needs | ⟨entry, answered, passes, along⟩
        · exact needs
        · exact covered entry answered passes leg along }

theorem plan_joinsUsed_shelf :
    Shelf.plain.custom = [] ∧
    Shelf.engine.plan Shelf.plain Shelf.nobody [] = .ok Shelf.nobodyPlan ∧
    ∃ walked number, Shelf.engine.JoinsUsed Shelf.plain Shelf.nobody [] Shelf.nobodyPlan walked number :=
  ⟨rfl, rfl, plan_joinsUsed _ _ rfl _ _ _ rfl⟩

end Engine

namespace Shelf

/-- The editors are joined, though nothing of them is looked at. -/
theorem editors_unused :
    ¬ ∀ (engine : Engine) (policy : Policy) (criteria : List Criterion) (sort : SortOrder)
      (plan : Plan), policy.custom = [] → engine.plan policy criteria sort = .ok plan →
        ∀ join ∈ plan.joins, plan.Uses join := by
  intro always
  let editors : Join := ⟨⟨2⟩, ⟨1⟩, "editors", "authors", .left, [("author_id", "id")]⟩
  have uses : nobodyPlan.Uses editors :=
    always engine plain nobody [] nobodyPlan rfl rfl editors (by decide)
  have hidden : ¬ nobodyPlan.Shows editors.own := by
    rintro (⟨column, looked, source⟩ | ⟨entry, sorted, _⟩)
    · rw [List.mem_singleton.mp looked] at source
      have same : (⟨3⟩ : Alias) = editors.own := Alias.text_injective source
      cases same
    · cases sorted
  have lowest : ∀ below ∈ nobodyPlan.joins, below.parent ≠ editors.own := by decide
  cases uses with
  | shown shows => exact hidden shows
  | above joined _ parent => exact lowest _ joined parent

end Shelf

end RequestFilter
