import RequestFilter.Proofs.Answers
import RequestFilter.Proofs.Independence

namespace RequestFilter

/-- The script reports only what clients are to blame for, and asks only for paths that lead to a
column. -/
def Script.Blameless (engine : Engine) (policy : Policy) : Script → Prop
  | .done _ => True
  | .report problem next => problem.blame = .client ∧ Blameless engine policy next
  | .resolve path next =>
    (∃ column, (engine.resolve policy path .empty).1 = .ok column) ∧
      ∀ joins column, (engine.resolve policy path joins).1 = .ok column →
        Blameless engine policy (next (some column))

def Policy.Blameless (engine : Engine) (policy : Policy) : Prop :=
  ∀ path custom, policy.custom? path = some custom →
    ∀ question, (custom.script question).Blameless engine policy

namespace Engine

variable (engine : Engine) (policy : Policy)

def destination (path : String) : Except PathFault Scalar :=
  engine.schema.destination engine.settings.delimiter policy.root path

def fieldProblem? (path : String) : Option Problem :=
  match engine.destination policy path with
  | .error fault => some (.unresolvable fault)
  | .ok scalar => problem? (engine.describe scalar.type)

def customProblem? (custom : CustomFilter) : Option Problem := problem? (engine.describe custom.type)

/-- What is wrong with the declarations of a policy, each taken by itself. -/
def declarationReport : Report :=
  (policy.fields.flatMap fun field =>
      Report.ofField field.1 (engine.fieldProblem? policy field.1).toList) ++
    policy.custom.flatMap fun field => Report.ofField field.1 (engine.customProblem? field.2).toList

/-- A request of the path alone fails, and this is all that it is told. -/
def FailsAlone (path message : String) : Prop :=
  ∃ criterion : Criterion, criterion.path = path ∧
    ∃ failure, engine.plan policy [criterion] [] = .error failure ∧
      failure.code = .misconfigured ∧ failure.errors = [(path, [message])]

structure Verifies : Prop where
  sound : engine.verify policy = .ok () → ∀ criteria sort,
    (∃ plan, engine.plan policy criteria sort = .ok plan) ∨
    ∃ failure, engine.plan policy criteria sort = .error failure ∧ failure.blame = .client
  reports : ∀ failure, engine.verify policy = .error failure → ∀ path message,
    message ∈ failure.messagesOf path ↔
      ∃ problem, ⟨path, problem⟩ ∈ engine.declarationReport policy ∧ problem.message = message
  fields : ∀ failure, engine.verify policy = .error failure → ∀ path operators,
    policy.fields.get? path = some operators → operators.isEmpty = false →
    policy.custom? path = none →
    ∀ message ∈ failure.messagesOf path, engine.FailsAlone policy path message
  custom : ∀ failure, engine.verify policy = .error failure → ∀ path custom problem,
    policy.custom? path = some custom → engine.customProblem? custom = some problem →
    problem.message ∈ failure.messagesOf path ∧ engine.FailsAlone policy path problem.message

theorem resolve_destination (path : String) (joins : Joins) :
    ∃ a : Alias, (engine.resolve policy path joins).1 =
      (engine.destination policy path).map (·.columnOf a) :=
  engine.schema.resolve_destination _ _ path joins

theorem plan_single (criterion : Criterion) :
    ∃ plan, engine.plan policy [criterion] [] =
      (Report.ofField criterion.label (engine.answer policy criterion .empty).1.problems).result
        policy.root plan := by
  refine ⟨(engine.pass policy [criterion] []).plan, ?_⟩
  simp [plan, pass, answers, sortColumns, Pass.report, Report.ofField]

variable {engine policy}

theorem fieldReport_eq (paths : List String) (joins : Joins) :
    engine.fieldReport policy paths joins =
      paths.flatMap fun path => Report.ofField path (engine.fieldProblem? policy path).toList := by
  induction paths generalizing joins with
  | nil => rfl
  | cons path rest ih =>
    obtain ⟨a, resolved⟩ := engine.resolve_destination policy path joins
    simp only [fieldReport, List.flatMap_cons, ih, resolved, fieldProblem?]
    cases engine.destination policy path <;> rfl

theorem verify_eq : engine.verify policy = (engine.declarationReport policy).result policy.root () := by
  unfold verify declarationReport
  rw [fieldReport_eq, List.flatMap_map]
  rfl

theorem describe_server {type : DataType} {problem : Problem}
    (missing : problem? (engine.describe type) = some problem) :
    engine.describe type = .error problem ∧ problem.blame = .server := by
  cases described : engine.describe type with
  | ok fieldType =>
    rw [described] at missing
    cases missing
  | error fault =>
    rw [described] at missing
    cases missing
    unfold describe at described
    split at described <;> cases described
    exact ⟨rfl, rfl⟩

theorem fieldProblem?_server {path : String} {problem : Problem}
    (found : engine.fieldProblem? policy path = some problem) : problem.blame = .server := by
  unfold fieldProblem? at found
  split at found
  · cases found
    rfl
  · exact (describe_server found).2

theorem mem_declarationReport {path : String} {problem : Problem} :
    ⟨path, problem⟩ ∈ engine.declarationReport policy ↔
      (path ∈ policy.fields.map Prod.fst ∧ engine.fieldProblem? policy path = some problem) ∨
      ∃ custom, (path, custom) ∈ policy.custom ∧ engine.customProblem? custom = some problem := by
  simp only [declarationReport, Report.ofField, List.mem_append, List.mem_flatMap, List.mem_map,
    Option.mem_toList, FieldProblem.mk.injEq]
  constructor
  · rintro (⟨field, declared, found, told, rfl, rfl⟩ | ⟨⟨_, custom⟩, declared, found, told, rfl, rfl⟩)
    · exact .inl ⟨⟨field, declared, rfl⟩, told⟩
    · exact .inr ⟨custom, declared, told⟩
  · rintro (⟨⟨field, declared, rfl⟩, told⟩ | ⟨custom, declared, told⟩)
    · exact .inl ⟨field, declared, problem, told, rfl, rfl⟩
    · exact .inr ⟨_, declared, problem, told, rfl, rfl⟩

theorem declarationReport_server :
    ∀ entry ∈ engine.declarationReport policy, entry.problem.blame = .server := by
  rintro ⟨path, problem⟩ member
  rcases mem_declarationReport.mp member with ⟨_, told⟩ | ⟨custom, _, told⟩
  · exact fieldProblem?_server told
  · exact (describe_server told).2

section Sound

theorem run_client (script : Script) (blameless : script.Blameless engine policy) (joins : Joins) :
    ∀ problem ∈ (engine.run policy script joins).1.problems, problem.blame = .client := by
  induction script generalizing joins with
  | done filter => simp [run]
  | report problem next ih =>
    obtain ⟨client, blameless⟩ := blameless
    simpa [run, Outcome.behind, client] using ih blameless joins
  | resolve path next ih =>
    obtain ⟨⟨column, leads⟩, blameless⟩ := blameless
    -- The path leads to a column on no joins at all, so it does on these.
    obtain ⟨a, alone⟩ := engine.resolve_destination policy path .empty
    obtain ⟨b, here⟩ := engine.resolve_destination policy path joins
    rw [alone] at leads
    cases destination : engine.destination policy path with
    | error fault =>
      rw [destination] at leads
      cases leads
    | ok scalar =>
      rw [destination] at here
      have after := blameless joins _ here
      rw [run_resolve]
      dsimp only
      rw [here]
      exact ih _ after _

theorem answerCustom_client {custom : CustomFilter} (described : engine.customProblem? custom = none)
    (blameless : ∀ question, (custom.script question).Blameless engine policy)
    (criterion : Criterion) (joins : Joins) :
    ∀ problem ∈ (engine.answerCustom policy custom criterion joins).1.problems,
      problem.blame = .client := by
  unfold answerCustom
  unfold customProblem? at described
  cases type : engine.describe custom.type with
  | error problem =>
    rw [type] at described
    cases described
  | ok fieldType =>
    dsimp only
    cases cast : fieldType.castAll criterion.values with
    | error problems => exact (FieldType.castAll_error cast).2
    | ok values => exact run_client _ (blameless _) joins

theorem answerField_client (rules : engine.rules = .builtin) {criterion : Criterion}
    (declared : engine.fieldProblem? policy criterion.path = none) (joins : Joins) :
    ∀ problem ∈ (engine.answerField policy criterion joins).1.problems, problem.blame = .client := by
  obtain ⟨a, resolved⟩ :=
    engine.resolve_destination policy criterion.path joins
  unfold fieldProblem? at declared
  cases destination : engine.destination policy criterion.path with
  | error fault =>
    rw [destination] at declared
    cases declared
  | ok scalar =>
    rw [destination] at declared resolved
    have column : engine.answerField policy criterion joins =
        (engine.answerColumn criterion (scalar.columnOf a),
          (engine.resolve policy criterion.path joins).2) := by
      unfold answerField
      generalize engine.resolve policy criterion.path joins = result at resolved
      obtain ⟨found, grown⟩ := result
      cases resolved
      rfl
    rw [column]
    cases described : engine.types.describe? scalar.type with
    | none => simp [describe, described, problem?] at declared
    | some fieldType => exact blame_answerColumn rules described

variable (rules : engine.rules = .builtin) (blameless : policy.Blameless engine)
  (clean : engine.declarationReport policy = [])

include rules blameless clean

theorem answer_client (criterion : Criterion) (joins : Joins) :
    ∀ problem ∈ (engine.answer policy criterion joins).1.problems, problem.blame = .client := by
  have unreported : ∀ problem, ⟨criterion.path, problem⟩ ∉ engine.declarationReport policy := by
    simp [clean]
  unfold answer
  cases found : policy.custom? criterion.path with
  | some custom =>
    refine answerCustom_client ?_ (blameless _ _ found) criterion joins
    rw [Option.eq_none_iff_forall_ne_some]
    intro problem told
    exact unreported problem
      (mem_declarationReport.mpr (.inr ⟨custom, KeyedList.mem_of_get? found, told⟩))
  | none =>
    dsimp only
    split
    · rename_i allowed
      refine answerField_client rules ?_ joins
      unfold Policy.allows at allowed
      split at allowed
      · rename_i operators found
        rw [Option.eq_none_iff_forall_ne_some]
        intro problem told
        have declared := List.mem_map_of_mem (f := Prod.fst) (KeyedList.mem_of_get? found)
        exact unreported problem (mem_declarationReport.mpr (.inl ⟨declared, told⟩))
      · cases allowed
    · simp [Outcome.silent]

theorem answers_client (criteria : List Criterion) (joins : Joins) :
    ∀ entry ∈ (engine.answers policy criteria joins).1, ∀ problem ∈ entry.2.problems,
      problem.blame = .client := by
  induction criteria generalizing joins with
  | nil => simp [answers]
  | cons criterion rest ih =>
    intro entry member
    rcases List.mem_cons.mp member with rfl | later
    · exact answer_client rules blameless clean criterion joins
    · exact ih _ entry later

omit rules blameless clean in
theorem sortColumn_client (field : SortField) (joins : Joins) {problem : Problem}
    (found : problem? (engine.sortColumn policy field joins).1 = some problem) :
    problem.blame = .client := by
  unfold sortColumn at found
  split at found
  · split at found <;> cases found
    rfl
  · cases found
    rfl

omit rules blameless clean in
theorem sortColumns_client (sort : SortOrder) (joins : Joins) :
    ∀ problem ∈ (engine.sortColumns policy sort joins).1.filterMap problem?,
      problem.blame = .client := by
  induction sort generalizing joins with
  | nil => simp [sortColumns]
  | cons field rest ih =>
    intro problem member
    obtain ⟨column, among, found⟩ := List.mem_filterMap.mp member
    rcases List.mem_cons.mp among with rfl | later
    · exact sortColumn_client field joins found
    · exact ih _ problem (List.mem_filterMap.mpr ⟨column, later, found⟩)

theorem report_client (criteria : List Criterion) (sort : SortOrder) :
    ∀ entry ∈ (engine.pass policy criteria sort).report engine.settings.sortParam,
      entry.problem.blame = .client := by
  intro entry member
  rcases List.mem_append.mp member with told | told
  · obtain ⟨⟨criterion, outcome⟩, answered, told⟩ := List.mem_flatMap.mp told
    obtain ⟨problem, found, rfl⟩ := List.mem_map.mp told
    exact answers_client rules blameless clean criteria .empty _ answered problem found
  · obtain ⟨problem, found, rfl⟩ := List.mem_map.mp told
    exact sortColumns_client sort _ problem found

end Sound

section Complete

theorem failsAlone_of_answer (criterion : Criterion) (label : criterion.label = criterion.path)
    {problem : Problem} (server : problem.blame = .server)
    (told : (engine.answer policy criterion .empty).1.problems = [problem]) :
    engine.FailsAlone policy criterion.path problem.message := by
  obtain ⟨plan, planned⟩ := engine.plan_single policy criterion
  have one : Report.ofField criterion.label [problem] = [⟨criterion.path, problem⟩] := by
    rw [label]
    rfl
  rw [told, one] at planned
  have failed : Report.result [⟨criterion.path, problem⟩] policy.root plan =
      .error ((Failure.misconfigured [(criterion.path, [problem.message])]).withEntity
        policy.root) := by
    simp [Report.result, Report.failure?, Report.blames, Report.messages, KeyedList.group,
      KeyedList.add, server]
  exact ⟨criterion, rfl, _, planned.trans failed, rfl, rfl⟩

theorem field_failsAlone {path : String} {operators : OperatorSet}
    (declared : policy.fields.get? path = some operators) (offers : operators.isEmpty = false)
    (generic : policy.custom? path = none) {problem : Problem}
    (found : engine.fieldProblem? policy path = some problem) :
    engine.FailsAlone policy path problem.message := by
  have listed : operators.toList ≠ [] := by
    rintro none
    simp [OperatorSet.isEmpty, none] at offers
  obtain ⟨op, member⟩ := List.exists_mem_of_ne_nil _ listed
  have offered := (List.mem_filter.mp member).2
  let criterion := Criterion.ofPath path op []
  have allowed : policy.allows path op = true := by
    rw [Policy.allows, declared]
    exact offered
  refine failsAlone_of_answer criterion rfl (fieldProblem?_server found) ?_
  obtain ⟨a, resolved⟩ := engine.resolve_destination policy path .empty
  have answered : engine.answer policy criterion .empty = engine.answerField policy criterion .empty := by
    simp [answer, criterion, Criterion.ofPath, generic, allowed]
  rw [answered]
  unfold answerField
  have here : criterion.path = path := rfl
  rw [here]
  generalize engine.resolve policy path .empty = result at resolved
  obtain ⟨column, grown⟩ := result
  unfold fieldProblem? at found
  cases destination : engine.destination policy path with
  | error fault =>
    rw [destination] at resolved found
    cases resolved
    cases found
    rfl
  | ok scalar =>
    rw [destination] at resolved found
    cases resolved
    obtain ⟨missing, _⟩ := describe_server found
    have type : (scalar.columnOf a).type = scalar.type := rfl
    simp [answerColumn, type, missing, Outcome.ofProblem]

theorem custom_failsAlone {path : String} {custom : CustomFilter}
    (found : policy.custom? path = some custom) {problem : Problem}
    (missing : engine.customProblem? custom = some problem) :
    engine.FailsAlone policy path problem.message := by
  obtain ⟨undescribed, server⟩ := describe_server missing
  refine failsAlone_of_answer (.ofPath path .eq []) rfl server ?_
  simp [answer, Criterion.ofPath, found, answerCustom, undescribed, Outcome.ofProblem]

end Complete

end Engine

namespace Shelf

/-- Whoever asks for both names finds them, whatever else is declared. -/
theorem blameless (fields : KeyedList String OperatorSet) :
    ({ policy with fields := fields } : Policy).Blameless engine := by
  intro path custom found question
  simp only [policy, Policy.custom?, KeyedList.get?] at found
  split at found
  · cases found
    exact ⟨⟨_, rfl⟩, fun _ _ _ => ⟨⟨_, rfl⟩, fun _ _ _ => trivial⟩⟩
  · cases found

def stocked : Policy := { policy with fields := policy.fields.dropLast }

end Shelf

namespace Engine

theorem verifies (engine : Engine) (policy : Policy) (rules : engine.rules = .builtin)
    (blameless : policy.Blameless engine) : engine.Verifies policy where
  sound := by
    intro verified criteria sort
    rw [verify_eq] at verified
    have clean := (Report.eq_of_result_ok _ _ verified).1
    have client := report_client rules blameless clean criteria sort
    rcases Report.result_blame policy.root (engine.pass policy criteria sort).plan client with
      ok | failed
    · exact .inl ⟨_, ok⟩
    · exact .inr failed
  reports := by
    intro failure failed path message
    rw [verify_eq] at failed
    exact Report.mem_messagesOf _ _ declarationReport_server failed
  fields := by
    intro failure failed path operators declared offers generic message told
    rw [verify_eq] at failed
    obtain ⟨problem, reported, rfl⟩ :=
      (Report.mem_messagesOf _ _ declarationReport_server failed).mp told
    rcases mem_declarationReport.mp reported with ⟨_, found⟩ | ⟨custom, listed, _⟩
    · exact field_failsAlone declared offers generic found
    · have unlisted := KeyedList.get?_eq_none_iff.mp generic
      exact absurd (List.mem_map_of_mem (f := Prod.fst) listed) unlisted
  custom := by
    intro failure failed path custom problem found missing
    rw [verify_eq] at failed
    have reported : ⟨path, problem⟩ ∈ engine.declarationReport policy :=
      mem_declarationReport.mpr (.inr ⟨custom, KeyedList.mem_of_get? found, missing⟩)
    exact ⟨(Report.mem_messagesOf _ _ declarationReport_server failed).mpr
      ⟨problem, reported, rfl⟩, custom_failsAlone found missing⟩

/-- One path of the policy leads nowhere; without it the policy is clean. -/
theorem verifies_shelf :
    Shelf.engine.rules = .builtin ∧ Shelf.policy.Blameless Shelf.engine ∧
    (∃ failure, Shelf.engine.verify Shelf.policy = .error failure ∧
      failure.errors = [("isbn", ["entity `book` has no attribute `isbn`"])]) ∧
    Shelf.engine.verify Shelf.stocked = .ok () ∧
    Shelf.engine.Verifies Shelf.policy ∧ Shelf.engine.Verifies Shelf.stocked :=
  ⟨rfl, Shelf.blameless _, ⟨_, rfl, rfl⟩, rfl, verifies _ _ rfl (Shelf.blameless _),
    verifies _ _ rfl (Shelf.blameless _)⟩

end Engine

end RequestFilter
