import RequestFilter.Casting
import RequestFilter.FieldType.Readers
import RequestFilter.Filter.Sql
import RequestFilter.Policy
import RequestFilter.Report
import RequestFilter.Request.Syntax
import RequestFilter.Rule

/-!
Every criterion is answered by itself; what it shares with the others are the joins. Its problems
go to the report, and the pass goes on.
-/

namespace RequestFilter

structure Engine where
  schema : Schema
  types : FieldTypes
  rules : Rules
  settings : Settings
  settings_ok : settings.fault? = none

structure Plan where
  filter : Filter
  joins : List Join
  order : SortOrder

structure Outcome where
  problems : List Problem
  filter : Option Filter

namespace Outcome

def ofProblem (problem : Problem) : Outcome := ⟨[problem], none⟩

def silent : Outcome := ⟨[], none⟩

def ofFilter (filter : Filter) : Outcome := ⟨[], some filter⟩

def behind (problem : Problem) (outcome : Outcome) : Outcome :=
  { outcome with problems := problem :: outcome.problems }

def restricting (outcome : Outcome) : Outcome :=
  { outcome with filter := outcome.filter.filter (!·.isNone) }

end Outcome

namespace Engine

def create (schema : Schema) (types : FieldTypes) (rules : Rules) (settings : Settings) :
    Except SettingsFault Engine :=
  match h : settings.fault? with
  | some fault => .error fault
  | none => .ok ⟨schema, types, rules, settings, h⟩

def resolve (engine : Engine) (policy : Policy) (path : String) (joins : Joins) :
    Except PathFault Column × Joins :=
  engine.schema.resolve engine.settings.delimiter policy.root path joins

def describe (engine : Engine) (type : DataType) : Except Problem FieldType :=
  match engine.types.describe? type with
  | some fieldType => .ok fieldType
  | none => .error (.missingFieldType type)

def run (engine : Engine) (policy : Policy) : Script → Joins → Outcome × Joins
  | .done filter, joins => (⟨[], filter⟩, joins)
  | .report problem next, joins =>
    let (outcome, joins) := run engine policy next joins
    (outcome.behind problem, joins)
  | .resolve path next, joins =>
    match engine.resolve policy path joins with
    | (.ok column, joins) => run engine policy (next (some column)) joins
    | (.error fault, joins) =>
      let (outcome, joins) := run engine policy (next none) joins
      (outcome.behind (.unresolvable fault), joins)

def answerCustom (engine : Engine) (policy : Policy) (custom : CustomFilter)
    (criterion : Criterion) (joins : Joins) : Outcome × Joins :=
  match engine.describe custom.type with
  | .error problem => (.ofProblem problem, joins)
  | .ok fieldType =>
    match fieldType.castAll criterion.values with
    | .error problems => (⟨problems, none⟩, joins)
    | .ok values =>
      let question : Question := ⟨criterion.label, criterion.operator, values⟩
      let (outcome, joins) := engine.run policy (custom.script question) joins
      (outcome.restricting, joins)

/-- The value of a test for presence that turns it round: a single `false`. No other value of a test
for absence or presence counts. -/
def nullFlag (op : Operator) (raws : List String) : List Value :=
  match raws with
  | [raw] =>
    if op = .isNotNull ∧ ValueReader.bool? (Text.trim raw.toList) = some false then [.bool false]
    else []
  | _ => []

def values (fieldType : FieldType) (criterion : Criterion) : Except (List Problem) (List Value) :=
  if criterion.operator.isNullCheck then .ok (nullFlag criterion.operator criterion.values)
  else fieldType.castAll criterion.values

def applyRule (engine : Engine) (op : Operator) (column : Column) (values : List Value) :
    Outcome :=
  match engine.rules.rule? op with
  | none => .ofProblem (.missingRule op)
  | some rule =>
    match rule.apply column values with
    | .error problem => .ofProblem problem
    | .ok filter => .ofFilter filter

def answerColumn (engine : Engine) (criterion : Criterion) (column : Column) : Outcome :=
  match engine.describe column.type with
  | .error problem => .ofProblem problem
  | .ok fieldType =>
    match fieldType.checkOperator criterion.operator with
    | .error problem => .ofProblem problem
    | .ok () =>
      match values fieldType criterion with
      | .error problems => ⟨problems, none⟩
      | .ok values => engine.applyRule criterion.operator column values

def answerField (engine : Engine) (policy : Policy) (criterion : Criterion) (joins : Joins) :
    Outcome × Joins :=
  match engine.resolve policy criterion.path joins with
  | (.error fault, joins) => (.ofProblem (.unresolvable fault), joins)
  | (.ok column, joins) => (engine.answerColumn criterion column, joins)

/-- The answer to a criterion. What the policy does not allow is passed over. -/
def answer (engine : Engine) (policy : Policy) (criterion : Criterion) (joins : Joins) :
    Outcome × Joins :=
  match policy.custom? criterion.path with
  | some custom => engine.answerCustom policy custom criterion joins
  | none =>
    if policy.allows criterion.path criterion.operator then
      engine.answerField policy criterion joins
    else (.silent, joins)

def answers (engine : Engine) (policy : Policy) :
    List Criterion → Joins → List (Criterion × Outcome) × Joins
  | [], joins => ([], joins)
  | criterion :: rest, joins =>
    let (outcome, joins) := engine.answer policy criterion joins
    let (outcomes, joins) := answers engine policy rest joins
    ((criterion, outcome) :: outcomes, joins)

def sortColumn (engine : Engine) (policy : Policy) (field : SortField) (joins : Joins) :
    Except Problem SortField × Joins :=
  if policy.isDeclared field.key then
    match engine.resolve policy field.key joins with
    | (.ok column, joins) => (.ok ⟨String.ofList column.sql, field.direction⟩, joins)
    | (.error fault, joins) => (.error (.unresolvableSort field.key fault), joins)
  else (.error (.undeclaredSort field.key), joins)

def sortColumns (engine : Engine) (policy : Policy) :
    SortOrder → Joins → List (Except Problem SortField) × Joins
  | [], joins => ([], joins)
  | field :: rest, joins =>
    let (column, joins) := engine.sortColumn policy field joins
    let (columns, joins) := sortColumns engine policy rest joins
    (column :: columns, joins)

def problem? {α : Type} : Except Problem α → Option Problem
  | .ok _ => none
  | .error problem => some problem

structure Pass where
  outcomes : List (Criterion × Outcome)
  columns : List (Except Problem SortField)
  joins : Joins

namespace Pass

def report (pass : Pass) (sortLabel : String) : Report :=
  pass.outcomes.flatMap (fun (criterion, outcome) => Report.ofField criterion.label outcome.problems) ++
    Report.ofField sortLabel (pass.columns.filterMap problem?)

def filters (pass : Pass) : List Filter := pass.outcomes.filterMap fun (_, outcome) => outcome.filter

def plan (pass : Pass) : Plan where
  filter := .combine .and pass.filters
  joins := pass.joins.toList
  order := pass.columns.filterMap Except.toOption

end Pass

def pass (engine : Engine) (policy : Policy) (criteria : List Criterion) (sort : SortOrder) : Pass :=
  let (outcomes, joins) := engine.answers policy criteria .empty
  let (columns, joins) := engine.sortColumns policy sort joins
  ⟨outcomes, columns, joins⟩

def plan (engine : Engine) (policy : Policy) (criteria : List Criterion) (sort : SortOrder) :
    Except Failure Plan :=
  let pass := engine.pass policy criteria sort
  (pass.report engine.settings.sortParam).result policy.root pass.plan

def fieldReport (engine : Engine) (policy : Policy) : List String → Joins → Report
  | [], _ => []
  | path :: rest, joins =>
    let (column, joins) := engine.resolve policy path joins
    let found := match column with
      | .error fault => some (Problem.unresolvable fault)
      | .ok column => problem? (engine.describe column.type)
    Report.ofField path found.toList ++ fieldReport engine policy rest joins

def customReport (engine : Engine) (policy : Policy) : Report :=
  policy.custom.flatMap fun (path, custom) =>
    Report.ofField path (problem? (engine.describe custom.type)).toList

def verify (engine : Engine) (policy : Policy) : Except Failure Unit :=
  let report := engine.fieldReport policy (policy.fields.map Prod.fst) .empty ++
    engine.customReport policy
  report.result policy.root ()

end Engine

end RequestFilter
