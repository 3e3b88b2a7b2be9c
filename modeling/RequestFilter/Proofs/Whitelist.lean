import RequestFilter.Proofs.Answers
import RequestFilter.Proofs.Conjuncts
import RequestFilter.Proofs.Independence

namespace RequestFilter

def Joins.Names (joins : List Join) (source : String) : Prop :=
  source = Alias.root.text ∨ ∃ join ∈ joins, source = join.own.text

namespace Engine

variable (engine : Engine) (policy : Policy)

/-- The column is the one that the path leads to by itself, in the table at the end of its route. -/
def Reads (number : Table → Alias) (path : String) (column : Column) : Prop :=
  ∃ found, (engine.resolve policy path .empty).1 = .ok found ∧
    column.name = found.name ∧ column.type = found.type ∧
    column.source = ((engine.route policy path).alias number).text

def Sorts (number : Table → Alias) (joins : List Join) (field entry : SortField) : Prop :=
  policy.isDeclared field.key ∧ entry.direction = field.direction ∧
    ∃ column, engine.Reads policy number field.key column ∧ Joins.Names joins column.source ∧
      entry.key = column.source ++ "." ++ column.name

/-- What a plan reaches: `answered` are the criteria with a predicate in it, and `walked` the
relations along which it joins. -/
structure Whitelisted (criteria : List Criterion) (sort : SortOrder) (plan : Plan)
    (walked : List Leg) (number : Table → Alias) (answered : List (Criterion × Filter)) : Prop where
  conjuncts : plan.filter.conjuncts = answered.map Prod.snd
  inOrder : (answered.map Prod.fst).Sublist criteria
  allowed : ∀ entry ∈ answered, policy.allows entry.1.path entry.1.operator
  tests : ∀ entry ∈ answered, ∃ column, engine.Reads policy number entry.1.path column ∧
    entry.2.columns = [column]
  order : List.Forall₂ (engine.Sorts policy number plan.joins) sort plan.order
  joined : ∀ leg ∈ walked,
    (∃ criterion ∈ criteria, policy.allows criterion.path criterion.operator ∧
      leg ∈ (engine.route policy criterion.path).legs) ∨
    ∃ field ∈ sort, policy.isDeclared field.key ∧ leg ∈ (engine.route policy field.key).legs
  trie : Joins.IsTrie .left walked number plan.joins
  sources : ∀ column ∈ plan.filter.columns, Joins.Names plan.joins column.source

variable {policy}

theorem names_alias {walks : Walks} {route : Route} (walked : route.legs ⊆ walks) :
    Joins.Names (Joins.ofWalks .left walks).toList (route.alias walks.number).text := by
  rcases Joins.alias_joined .left walked with atRoot | ⟨join, joined, same⟩
  · exact .inl (congrArg Alias.text atRoot)
  · exact .inr ⟨join, joined, congrArg Alias.text same⟩

theorem places_ok {walks : Walks} {path : String} {column : Column}
    (leads : engine.places policy walks path = .ok column) :
    ∃ scalar : Scalar,
      engine.schema.destination engine.settings.delimiter policy.root path = .ok scalar ∧
        column = scalar.columnOf ((engine.route policy path).alias walks.number) := by
  unfold places Schema.place at leads
  cases destination : engine.schema.destination engine.settings.delimiter policy.root path with
  | error fault =>
    rw [destination] at leads
    cases leads
  | ok scalar =>
    rw [destination] at leads
    exact ⟨scalar, rfl, (Except.ok.inj leads).symm⟩

theorem reads_of_places {walks : Walks} {path : String} {column : Column}
    (leads : engine.places policy walks path = .ok column) (transform : Option Transform) :
    engine.Reads policy walks.number path { column with transform := transform } := by
  obtain ⟨scalar, destination, rfl⟩ := engine.places_ok leads
  let alone : Walks := (engine.route policy path).legs
  have empty : Joins.empty = .ofWalks .left [] := rfl
  have resolved : (engine.resolve policy path .empty).1 =
      .ok (scalar.columnOf ((engine.route policy path).alias alone.number)) := by
    rw [resolve, empty, Schema.resolve_ofWalks .nil, Schema.place, destination]
    rfl
  exact ⟨_, resolved, rfl, rfl, rfl⟩

theorem answerColumn_tests {criterion : Criterion} {column : Column} {filter : Filter}
    (answered : (engine.answerColumn criterion column).filter = some filter) :
    filter.isNone = true ∨ filter.Tests column := by
  obtain ⟨_, _, _, grounds⟩ := grounds_of_filter answered
  exact Rule.apply_tests grounds.applied

theorem script_of_plain (plain : policy.custom = []) (criterion : Criterion) :
    engine.script policy criterion =
      if policy.allows criterion.path criterion.operator then engine.fieldScript criterion
      else .done none := by
  rw [script, Policy.custom?_of_plain plain]

theorem outcome_column (plain : policy.custom = []) {places : Places} {criterion : Criterion}
    {filter : Filter}
    (answered : ((engine.script policy criterion).outcome places).filter = some filter) :
    policy.allows criterion.path criterion.operator ∧
      ∃ column, places criterion.path = .ok column ∧
        (engine.answerColumn criterion column).filter = some filter := by
  rw [script_of_plain engine plain] at answered
  by_cases allowed : policy.allows criterion.path criterion.operator = true
  · simp only [allowed, if_true, fieldScript, Script.outcome] at answered
    cases leads : places criterion.path with
    | error fault =>
      rw [leads] at answered
      cases answered
    | ok column =>
      rw [leads] at answered
      simp only [Script.outcome_script] at answered
      exact ⟨allowed, column, rfl, answered⟩
  · simp only [allowed] at answered
    cases answered

theorem outcome_tests (plain : policy.custom = []) {places : Places} {criterion : Criterion}
    {filter : Filter}
    (answered : ((engine.script policy criterion).outcome places).filter = some filter) :
    policy.allows criterion.path criterion.operator ∧
      ∃ column, places criterion.path = .ok column ∧
        (filter.isNone = true ∨ filter.Tests column) := by
  obtain ⟨allowed, column, leads, found⟩ := engine.outcome_column plain answered
  exact ⟨allowed, column, leads, engine.answerColumn_tests found⟩

theorem asked_script (plain : policy.custom = []) (places : Places) (criterion : Criterion) :
    (engine.script policy criterion).asked places =
      if policy.allows criterion.path criterion.operator then [criterion.path] else [] := by
  rw [script_of_plain engine plain]
  by_cases allowed : policy.allows criterion.path criterion.operator = true
  · simp only [allowed, if_true, fieldScript, Script.asked]
    cases places criterion.path with
    | error fault => rfl
    | ok column => simp
  · simp only [allowed]
    rfl

def answered (policy : Policy) (places : Places) (criteria : List Criterion) :
    List (Criterion × Filter) :=
  criteria.filterMap fun criterion =>
    (engine.predicate? policy places criterion).map (criterion, ·)

theorem answered_sublist (places : Places) (criteria : List Criterion) :
    ((engine.answered policy places criteria).map Prod.fst).Sublist criteria := by
  induction criteria with
  | nil => exact .slnil
  | cons criterion rest ih =>
    unfold answered at ih ⊢
    cases predicate : engine.predicate? policy places criterion with
    | none =>
      simp only [List.filterMap_cons, predicate, Option.map_none]
      exact ih.cons criterion
    | some filter =>
      simp only [List.filterMap_cons, predicate, Option.map_some, List.map_cons]
      exact ih.cons_cons criterion

theorem mem_answered {places : Places} {criteria : List Criterion} {entry : Criterion × Filter}
    (member : entry ∈ engine.answered policy places criteria) :
    entry.1 ∈ criteria ∧ engine.predicate? policy places entry.1 = some entry.2 := by
  obtain ⟨criterion, asked, found⟩ := List.mem_filterMap.mp member
  obtain ⟨filter, predicate, same⟩ := Option.map_eq_some_iff.mp found
  subst same
  exact ⟨asked, predicate⟩

theorem predicate_tests (plain : policy.custom = []) {places : Places} {criterion : Criterion}
    {filter : Filter} (predicate : engine.predicate? policy places criterion = some filter) :
    policy.allows criterion.path criterion.operator ∧
      ∃ column, places criterion.path = .ok column ∧ filter.Tests column := by
  obtain ⟨outcome, restricts⟩ := Option.filter_eq_some_iff.mp predicate
  obtain ⟨allowed, column, leads, tests⟩ := engine.outcome_tests plain outcome
  refine ⟨allowed, column, leads, ?_⟩
  rcases tests with none | tests
  · simp [none] at restricts
  · exact tests

theorem map_snd_answered (places : Places) (criteria : List Criterion) :
    (engine.answered policy places criteria).map Prod.snd =
      criteria.filterMap (engine.predicate? policy places) := by
  unfold answered
  rw [List.map_filterMap]
  congr 1
  funext criterion
  cases engine.predicate? policy places criterion <;> rfl

theorem pass_of_plan {criteria : List Criterion} {sort : SortOrder} {plan : Plan}
    (planned : engine.plan policy criteria sort = .ok plan) :
    (engine.pass policy criteria sort).columns.filterMap problem? = [] ∧
      plan = (engine.pass policy criteria sort).plan := by
  obtain ⟨clean, same⟩ := Report.eq_of_result_ok _ _ planned
  obtain ⟨_, columns⟩ := List.append_eq_nil_iff.mp clean
  exact ⟨List.map_eq_nil_iff.mp columns, same⟩

theorem sortResult_ok {places : Places} {field entry : SortField}
    (sorted : sortResult policy places field = .ok entry) :
    policy.isDeclared field.key ∧ ∃ column, places field.key = .ok column ∧
      entry = ⟨String.ofList column.sql, field.direction⟩ := by
  unfold sortResult sortEntry at sorted
  split at sorted
  · rename_i declared
    split at sorted
    · rename_i column leads
      cases sorted
      exact ⟨declared, column, leads, rfl⟩
    · cases sorted
  · cases sorted

theorem order_of_clean {places : Places} {sort : SortOrder} {sorts : SortField → SortField → Prop}
    (clean : (sort.map (sortResult policy places)).filterMap problem? = [])
    (each : ∀ field ∈ sort, ∀ entry, sortResult policy places field = .ok entry →
      sorts field entry) :
    List.Forall₂ sorts sort ((sort.map (sortResult policy places)).filterMap Except.toOption) := by
  induction sort with
  | nil => exact .nil
  | cons field rest ih =>
    rw [List.map_cons] at clean ⊢
    cases sorted : sortResult policy places field with
    | error problem =>
      rw [sorted] at clean
      cases clean
    | ok entry =>
      rw [sorted] at clean
      have first := each field (by simp) entry sorted
      exact .cons first (ih clean fun field member => each field (List.mem_cons_of_mem _ member))

theorem filters_single (plain : policy.custom = []) {places : Places} {criteria : List Criterion}
    {columns : List (Except Problem SortField)} {joins : Joins} {filter : Filter}
    (member : filter ∈ (Pass.mk (criteria.map fun criterion =>
      (criterion, (engine.script policy criterion).outcome places)) columns joins).filters) :
    filter.isConjunction = false := by
  obtain ⟨_, passed, answer⟩ := List.mem_filterMap.mp member
  obtain ⟨criterion, _, rfl⟩ := List.mem_map.mp passed
  obtain ⟨_, column, _, none | tests⟩ := engine.outcome_tests plain answer
  · cases filter <;> first | rfl | cases none
  · exact tests.2

theorem mem_asked (plain : policy.custom = []) {places : Places} {criteria : List Criterion}
    {sort : SortOrder} {path : String} :
    path ∈ engine.asked policy places criteria sort ↔
      (∃ criterion ∈ criteria, policy.allows criterion.path criterion.operator ∧
        path = criterion.path) ∨
      ∃ field ∈ sort, policy.isDeclared field.key ∧ path = field.key := by
  simp only [asked, asked_script engine plain, sortAsked, List.mem_append, List.mem_flatMap,
    List.mem_ite_nil_right, List.mem_singleton]

section PassWalks

variable {walks : Walks} {criteria : List Criterion} {sort : SortOrder}

theorem names_of_asked {paths : List String} (walked : walks = engine.walks policy paths)
    {path : String} (member : path ∈ paths) :
    Joins.Names (Joins.ofWalks .left walks).toList
      ((engine.route policy path).alias walks.number).text := by
  apply names_alias
  intro leg own
  rw [walked]
  exact mem_walks.mpr ⟨path, member, own⟩

theorem answered_reads (plain : policy.custom = []) {entry : Criterion × Filter}
    (member : entry ∈ engine.answered policy (engine.places policy walks) criteria) :
    policy.allows entry.1.path entry.1.operator ∧
      ∃ column, engine.Reads policy walks.number entry.1.path column ∧ entry.2.columns = [column] := by
  obtain ⟨_, predicate⟩ := engine.mem_answered member
  obtain ⟨allowed, column, leads, ⟨transform, columns⟩, _⟩ := engine.predicate_tests plain predicate
  exact ⟨allowed, _, engine.reads_of_places leads transform, columns⟩

variable (walked : walks =
  engine.walks policy (engine.asked policy (engine.places policy walks) criteria sort))

include walked

theorem joined_of_walked (plain : policy.custom = []) {leg : Leg} (member : leg ∈ walks) :
    (∃ criterion ∈ criteria, policy.allows criterion.path criterion.operator ∧
      leg ∈ (engine.route policy criterion.path).legs) ∨
    ∃ field ∈ sort, policy.isDeclared field.key ∧ leg ∈ (engine.route policy field.key).legs := by
  rw [walked] at member
  obtain ⟨path, asked, own⟩ := mem_walks.mp member
  rcases (engine.mem_asked plain).mp asked with ⟨criterion, among, allowed, rfl⟩ |
    ⟨field, among, declared, rfl⟩
  · exact .inl ⟨criterion, among, allowed, own⟩
  · exact .inr ⟨field, among, declared, own⟩

theorem order_sorts (plain : policy.custom = [])
    (clean : (sort.map (sortResult policy (engine.places policy walks))).filterMap problem? = []) :
    List.Forall₂ (engine.Sorts policy walks.number (Joins.ofWalks .left walks).toList) sort
      ((sort.map (sortResult policy (engine.places policy walks))).filterMap Except.toOption) := by
  refine order_of_clean clean fun field member entry found => ?_
  obtain ⟨declared, column, leads, rfl⟩ := sortResult_ok found
  have asked : field.key ∈ engine.asked policy (engine.places policy walks) criteria sort :=
    (engine.mem_asked plain).mpr (.inr ⟨field, member, declared, rfl⟩)
  have reads := engine.reads_of_places leads column.transform
  obtain ⟨scalar, _, rfl⟩ := engine.places_ok leads
  exact ⟨declared, rfl, _, reads, engine.names_of_asked walked asked, scalar.sql_columnOf _⟩

theorem names_source (plain : policy.custom = []) {filter : Filter}
    (member : filter ∈ (engine.answered policy (engine.places policy walks) criteria).map Prod.snd)
    {column : Column} (looked : column ∈ filter.columns) :
    Joins.Names (Joins.ofWalks .left walks).toList column.source := by
  obtain ⟨entry, answers, rfl⟩ := List.mem_map.mp member
  obtain ⟨allowed, tested, ⟨_, _, _, _, source⟩, columns⟩ := engine.answered_reads plain answers
  rw [columns, List.mem_singleton] at looked
  rw [looked, source]
  have among := (engine.mem_answered answers).1
  have asked : entry.1.path ∈ engine.asked policy (engine.places policy walks) criteria sort :=
    (engine.mem_asked plain).mpr (.inl ⟨entry.1, among, allowed, rfl⟩)
  exact engine.names_of_asked walked asked

end PassWalks

end Engine

namespace Shelf

def plain : Policy := { policy with custom := [] }

def peoplePlan : Plan where
  filter := .junction .and
    [.like .anywhere ⟨"t2", "name", .string, none⟩ "Ann",
      .compare .eq ⟨"t3", "name", .string, none⟩ (.text "Bob")]
  joins :=
    [⟨⟨1⟩, ⟨0⟩, "editors#through", "book_editors", .left, [("id", "book_id")]⟩,
      ⟨⟨2⟩, ⟨1⟩, "editors", "authors", .left, [("author_id", "id")]⟩,
      ⟨⟨3⟩, ⟨0⟩, "author", "authors", .left, [("author_id", "id")]⟩]
  order := [⟨"t2.name", .descending⟩]

end Shelf

namespace Engine

/-- Without custom filters, a plan reaches only what the policy declares. -/
theorem plan_whitelisted (engine : Engine) (policy : Policy) (plain : policy.custom = [])
    (criteria : List Criterion) (sort : SortOrder) (plan : Plan)
    (planned : engine.plan policy criteria sort = .ok plan) :
    ∃ walked number answered,
      engine.Whitelisted policy criteria sort plan walked number answered := by
  obtain ⟨clean, rfl⟩ := pass_of_plan engine planned
  obtain ⟨walks, valid, walked, passed⟩ := engine.pass_eq policy criteria sort
  rw [passed] at clean ⊢
  let places := engine.places policy walks
  have predicates := engine.filters_restricting policy places criteria
    (sort.map (sortResult policy places)) (.ofWalks .left walks)
  rw [← engine.map_snd_answered] at predicates
  refine ⟨walks.eraseDups, walks.number, engine.answered policy places criteria, ?_⟩
  exact {
    conjuncts := by
      rw [← predicates]
      exact Filter.conjuncts_combine fun filter member => engine.filters_single plain member
    inOrder := engine.answered_sublist places criteria
    allowed := fun entry member => (engine.answered_reads plain member).1
    tests := fun entry member => (engine.answered_reads plain member).2
    order := engine.order_sorts walked plain clean
    joined := fun leg member => engine.joined_of_walked walked plain (List.mem_eraseDups.mp member)
    trie := Joins.isTrie_ofWalks valid
    sources := by
      intro column member
      unfold Pass.plan at member
      rw [Filter.columns_combine, predicates, List.mem_flatMap] at member
      obtain ⟨filter, among, looked⟩ := member
      exact engine.names_source walked plain among looked }

theorem plan_whitelisted_shelf :
    Shelf.plain.custom = [] ∧
    Shelf.engine.plan Shelf.plain Shelf.people [⟨"editors__name", .descending⟩] =
      .ok Shelf.peoplePlan ∧
    ∃ walked number answered, Shelf.engine.Whitelisted Shelf.plain Shelf.people
      [⟨"editors__name", .descending⟩] Shelf.peoplePlan walked number answered :=
  ⟨rfl, rfl, plan_whitelisted _ _ rfl _ _ _ rfl⟩

end Engine

end RequestFilter
