import RequestFilter.Proofs.Readers
import RequestFilter.Proofs.Whitelist

namespace RequestFilter

inductive Fate where
  | restricts | passes | fails
  deriving DecidableEq, Repr

def Outcome.fate? : Outcome → Option Fate
  | ⟨[], some filter⟩ => some (if filter.isNone then .passes else .restricts)
  | ⟨_ :: _, none⟩ => some .fails
  | _ => none

namespace Engine

section Settled

variable (engine : Engine) (policy : Policy)

/-- The path leads to the column, and its type has a meaning. -/
structure Reaches (path : String) (column : Column) (fieldType : FieldType) : Prop where
  leads : (engine.resolve policy path .empty).1 = .ok column
  described : engine.types.describe? column.type = some fieldType

variable (criterion : Criterion)

/-- All that a criterion is told when it fails. -/
inductive Complaint : List Problem → Prop
  | unresolvable {fault : PathFault}
      (leads : (engine.resolve policy criterion.path .empty).1 = .error fault) :
      Complaint [.unresolvable fault]
  | missingFieldType {column : Column}
      (leads : (engine.resolve policy criterion.path .empty).1 = .ok column)
      (missing : engine.types.describe? column.type = none) :
      Complaint [.missingFieldType column.type]
  | unsupported {column : Column} {fieldType : FieldType}
      (reaches : engine.Reaches policy criterion.path column fieldType)
      (refused : fieldType.operators.contains criterion.operator = false) :
      Complaint [.unsupportedOperator criterion.operator fieldType.type]
  | arity {column : Column} {fieldType : FieldType} {values : List Value}
      (reaches : engine.Reaches policy criterion.path column fieldType)
      (ranges : criterion.operator = .between ∨ criterion.operator = .notBetween)
      (read : List.Forall₂ (fun raw value => fieldType.cast raw = .ok value)
        criterion.values values)
      (some : values.length ≠ 0) (notTwo : values.length ≠ 2) :
      Complaint [.arity criterion.operator "exactly 2" values.length]
  | values {column : Column} {fieldType : FieldType} {problems : List Problem}
      (reaches : engine.Reaches policy criterion.path column fieldType)
      (checks : criterion.operator.isNullCheck = false)
      (each : List.Forall₂
        (fun raw problem => ∃ fault, fieldType.cast raw = .error fault ∧
          problem = .invalidValue fault)
        (criterion.values.filter fun raw => !(fieldType.cast raw).isOk) problems)
      (some : problems ≠ []) : Complaint problems

/-- The criterion has exactly one fate, for a reason of its own. -/
structure Settled (outcome : Outcome) : Prop where
  fate : ∃ fate, outcome.fate? = some fate
  passes : outcome.fate? = some .passes →
    criterion.operator.isNullCheck = false ∧
      ∃ column fieldType, engine.Reaches policy criterion.path column fieldType ∧
        (criterion.values = [] ∨ ∃ raw ∈ criterion.values, fieldType.cast raw = .ok .null)
  fails : outcome.fate? = some .fails → engine.Complaint policy criterion outcome.problems

end Settled

variable {engine : Engine} {policy : Policy} {criterion : Criterion}

theorem Complaint.ne_nil {problems : List Problem}
    (complaint : engine.Complaint policy criterion problems) : problems ≠ [] := by
  cases complaint with
  | values _ _ _ some => exact some
  | _ => exact List.cons_ne_nil _ _

theorem Complaint.settled {problems : List Problem}
    (complaint : engine.Complaint policy criterion problems) :
    engine.Settled policy criterion ⟨problems, none⟩ := by
  cases problems with
  | nil => exact absurd rfl complaint.ne_nil
  | cons problem rest => exact ⟨⟨.fails, rfl⟩, nofun, fun _ => complaint⟩

theorem code_of_each {fieldType : FieldType} {raws : List String} {problems : List Problem}
    (each : List.Forall₂
      (fun raw problem => ∃ fault, fieldType.cast raw = .error fault ∧
        problem = .invalidValue fault) raws problems) :
    ∀ problem ∈ problems, problem.code = .invalidValue := by
  induction each with
  | nil => nofun
  | cons first _ ih =>
    obtain ⟨fault, _, rfl⟩ := first
    exact List.forall_mem_cons.mpr ⟨rfl, ih⟩

theorem Complaint.codes {problems : List Problem}
    (complaint : engine.Complaint policy criterion problems) :
    ∀ problem ∈ problems,
      (problem.code ≠ .rejectedValue ∧ problem.code ≠ .missingOperator) ∧
      (criterion.operator.isNullCheck = true →
        problem.code ≠ .invalidValue ∧ problem.code ≠ .invalidArity) := by
  intro problem member
  cases complaint with
  | unresolvable | missingFieldType | unsupported =>
    cases List.mem_singleton.mp member
    simp [Problem.code]
  | arity _ ranges =>
    cases List.mem_singleton.mp member
    rcases ranges with op | op <;> simp [Problem.code, op, Operator.isNullCheck]
  | values _ checks each =>
    have invalid := code_of_each each problem member
    simp [invalid, checks]

theorem Settled.codes {outcome : Outcome} (settled : engine.Settled policy criterion outcome) :
    ∀ problem ∈ outcome.problems,
      (problem.code ≠ .rejectedValue ∧ problem.code ≠ .missingOperator) ∧
      (criterion.operator.isNullCheck = true →
        problem.code ≠ .invalidValue ∧ problem.code ≠ .invalidArity) := by
  obtain ⟨fate, same⟩ := settled.fate
  obtain ⟨problems, filter⟩ := outcome
  cases problems with
  | nil => nofun
  | cons problem rest =>
    cases filter with
    | none => exact (settled.fails rfl).codes
    | some filter => cases same

variable (engine) (policy)

end Engine

namespace Shelf

end Shelf

namespace Engine

end Engine

end RequestFilter
