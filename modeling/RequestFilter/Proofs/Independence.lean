import RequestFilter.FieldType.Readers
import RequestFilter.Proofs.Grouping
import RequestFilter.Proofs.Relocation

namespace RequestFilter

namespace Engine

variable (engine : Engine) (policy : Policy)

def alone (criteria : List Criterion) (sort : SortOrder) : Report :=
  criteria.flatMap (fun criterion =>
      Report.ofField criterion.label (engine.answer policy criterion .empty).1.problems) ++
    sort.flatMap fun field =>
      Report.ofField engine.settings.sortParam
        (problem? (engine.sortColumn policy field .empty).1).toList

/-- A pass tells exactly the problems found alone, those of clients first. -/
structure ToldAlone (criteria : List Criterion) (sort : SortOrder) : Prop where
  report : (engine.pass policy criteria sort).report engine.settings.sortParam =
    engine.alone policy criteria sort
  succeeds : (∃ plan, engine.plan policy criteria sort = .ok plan) ↔
    engine.alone policy criteria sort = []
  client : (engine.alone policy criteria sort).ofBlame .client ≠ [] →
    ∃ failure, engine.plan policy criteria sort = .error failure ∧
      failure.TellsOf .client ((engine.alone policy criteria sort).ofBlame .client)
  server : engine.alone policy criteria sort ≠ [] →
    (engine.alone policy criteria sort).ofBlame .client = [] →
    ∃ failure, engine.plan policy criteria sort = .error failure ∧
      failure.TellsOf .server ((engine.alone policy criteria sort).ofBlame .server)

variable {policy}

theorem places_relocate (walks walks' : Walks) (table : String) :
    (engine.places policy walks).relocate (fun _ => table) =
      (engine.places policy walks').relocate fun _ => table := by
  funext path
  unfold Places.relocate places Schema.place
  cases engine.schema.destination engine.settings.delimiter policy.root path <;> rfl

theorem outcome_places (recipes : policy.UsesRecipes) (criterion : Criterion)
    (walks walks' : Walks) (table : String) :
    ((engine.script policy criterion).outcome (engine.places policy walks)).relocate
        (fun _ => table) =
      ((engine.script policy criterion).outcome (engine.places policy walks')).relocate
        fun _ => table := by
  have follows := engine.follows_script (fun _ => table) recipes criterion
  have moved := follows.outcome (engine.places policy walks)
  rw [places_relocate engine walks walks', follows.outcome] at moved
  exact moved.symm

theorem problem_sortResult (field : SortField) (walks walks' : Walks) :
    problem? (sortResult policy (engine.places policy walks) field) =
      problem? (sortResult policy (engine.places policy walks') field) := by
  unfold sortResult places Schema.place
  cases policy.isDeclared field.key with
  | false => rfl
  | true =>
    cases engine.schema.destination engine.settings.delimiter policy.root field.key <;> rfl

/-- The answer to a criterion alone is that of a pass, but for the aliases of tables. -/
theorem outcome_answer (recipes : policy.UsesRecipes) (criterion : Criterion) (walks : Walks)
    (table : String) :
    (engine.answer policy criterion .empty).1.relocate (fun _ => table) =
      ((engine.script policy criterion).outcome (engine.places policy walks)).relocate
        fun _ => table := by
  have traced : engine.Traces policy (engine.run policy (engine.script policy criterion))
    (fun places => (engine.script policy criterion).outcome places)
    fun places => (engine.script policy criterion).asked places := traces_run _
  obtain ⟨grown, _, _, told⟩ := traced .left [] .nil
  have empty : Joins.empty = .ofWalks .left [] := rfl
  rw [answer_eq_run, empty, (told grown (List.prefix_refl _)).1]
  exact engine.outcome_places recipes criterion grown walks table

theorem problems_answer (recipes : policy.UsesRecipes) (criterion : Criterion) (walks : Walks) :
    (engine.answer policy criterion .empty).1.problems =
      ((engine.script policy criterion).outcome (engine.places policy walks)).problems := by
  have same := congrArg Outcome.problems (engine.outcome_answer recipes criterion walks "")
  exact same

theorem problem_sortColumn (field : SortField) (walks : Walks) :
    problem? (engine.sortColumn policy field .empty).1 =
      problem? (sortResult policy (engine.places policy walks) field) := by
  have traced : engine.Traces policy (engine.sortColumn policy field) _ _ := traces_sortColumn field
  obtain ⟨grown, _, _, told⟩ := traced .left [] .nil
  have empty : Joins.empty = .ofWalks .left [] := rfl
  rw [empty, (told grown (List.prefix_refl _)).1]
  exact engine.problem_sortResult field grown walks

theorem report_pass (recipes : policy.UsesRecipes) (criteria : List Criterion) (sort : SortOrder) :
    (engine.pass policy criteria sort).report engine.settings.sortParam =
      engine.alone policy criteria sort := by
  obtain ⟨walks, _, _, passed⟩ := engine.pass_eq policy criteria sort
  rw [passed]
  unfold Pass.report alone
  congr 1
  · rw [List.flatMap_map]
    congr 1
    funext criterion
    rw [engine.problems_answer recipes criterion walks]
  · unfold Report.ofField
    rw [List.filterMap_map, List.filterMap_eq_flatMap_toList, List.map_flatMap]
    congr 1
    funext field
    rw [engine.problem_sortColumn field walks]
    rfl

end Engine

namespace Shelf

def author : Entity where
  name := "author"
  table := "authors"
  id := "id"
  attributes := [("id", .scalar ⟨"id", .i64⟩), ("name", .scalar ⟨"name", .string⟩)]

def book : Entity where
  name := "book"
  table := "books"
  id := "id"
  attributes := [("id", .scalar ⟨"id", .i64⟩), ("title", .scalar ⟨"title", .string⟩),
    ("author", .relation ⟨"author", .manyToOne, "author", ["author_id"], [], none⟩),
    ("editors", .relation ⟨"editors", .manyToMany, "author", [], [],
      some ⟨"book_editors", "book_id", "author_id"⟩⟩)]

def engine : Engine where
  schema := .ofEntities [book, author]
  types := .builtin fun _ => none
  rules := .builtin
  settings := .standard
  settings_ok := by decide +kernel

/-- One of the declared paths, `isbn`, leads nowhere. -/
def policy : Policy where
  root := "book"
  fields := [("id", .comparable), ("title", .text), ("author__name", .text),
    ("editors__name", .text), ("isbn", .text)]
  custom := [("anyone", .ofRecipe .string (.any ["author__name", "editors__name"]))]

theorem usesRecipes : policy.UsesRecipes := by
  intro path custom found
  simp only [policy, Policy.custom?, KeyedList.get?] at found
  split at found
  · exact ⟨_, _, (Option.some.inj found).symm⟩
  · cases found

def criteria : List Criterion :=
  [.ofPath "isbn" .eq ["1"], .ofPath "anyone" .eq ["Ann"], .ofPath "id" .eq ["x"]]

def people : List Criterion :=
  [.ofPath "editors__name" .contains ["Ann"], .ofPath "shelf" .eq ["3"],
    .ofPath "author__name" .eq ["Bob"]]

def order : SortOrder := [⟨"editors__name", .descending⟩, ⟨"shelf", .ascending⟩]

end Shelf

namespace Engine

theorem toldAlone (engine : Engine) (policy : Policy) (recipes : policy.UsesRecipes)
    (criteria : List Criterion) (sort : SortOrder) : engine.ToldAlone policy criteria sort := by
  have reported := engine.report_pass recipes criteria sort
  have planned : engine.plan policy criteria sort =
      (engine.alone policy criteria sort).result policy.root
        (engine.pass policy criteria sort).plan := by
    rw [← reported]
    rfl
  constructor
  · exact reported
  · rw [planned]
    exact Report.result_ok_iff _ _
  · rw [planned]
    exact Report.result_client _ _
  · rw [planned]
    exact Report.result_server _ _

/-- Problems on both sides, of which the failure tells those of the client. -/
theorem toldAlone_shelf :
    Shelf.policy.UsesRecipes ∧
    (Shelf.engine.alone Shelf.policy Shelf.criteria Shelf.order).map Report.entry =
      [("isbn", "entity `book` has no attribute `isbn`"), ("id", "`x` is not a valid i64"),
        ("sort", "cannot sort by `shelf`: not a filterable field")] ∧
    Shelf.engine.ToldAlone Shelf.policy Shelf.criteria Shelf.order :=
  ⟨Shelf.usesRecipes, rfl, toldAlone _ _ Shelf.usesRecipes _ _⟩

end Engine

end RequestFilter
