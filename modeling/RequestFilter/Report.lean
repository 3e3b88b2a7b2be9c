import RequestFilter.Problem

/-!
A pass goes on after a problem, so that one answer tells all of them. As long as a client is to
blame for any, the answer tells of those only.
-/

namespace RequestFilter

/-- Messages by the label of the field, in the order in which the labels came first. -/
abbrev FieldMessages := KeyedList String (List String)

structure Failure where
  code : Code
  message : String
  errors : FieldMessages
  entity : Option String
  suggestions : List String
  help : Option String
  source : Option String
  deriving DecidableEq, Repr

namespace Failure

def ofCode (code : Code) (message : String) : Failure := ⟨code, message, [], none, [], none, none⟩

def count (errors : FieldMessages) : Nat := (errors.flatMap Prod.snd).length

def validation (errors : FieldMessages) : Failure where
  code := .validation
  message := "Filter validation failed with " ++ Digits.text (count errors) ++ " error(s)"
  errors := errors
  entity := none
  suggestions := ["Check the listed fields for malformed values or unsupported operators"]
  help := none
  source := none

def misconfigured (errors : FieldMessages) : Failure where
  code := .misconfigured
  message := "Filter configuration is invalid (" ++ Digits.text (count errors) ++ " error(s))"
  errors := errors
  entity := none
  suggestions := []
  help := some "A declared filter does not match the entity model - this is an application bug"
  source := none

def invalidConfiguration (message : String) : Failure :=
  ofCode .invalidConfiguration ("Invalid filter configuration: " ++ message)

def internal (message : String) : Failure :=
  { ofCode .internal ("Internal error: " ++ message) with
    help := some "This is likely a bug in Sift - please report it" }

def withEntity (failure : Failure) (entity : String) : Failure :=
  { failure with entity := some entity }

def blame (failure : Failure) : Blame := failure.code.blame

def messagesOf (failure : Failure) (label : String) : List String :=
  (failure.errors.get? label).getD []

def display (failure : Failure) : String := "[" ++ failure.code.text ++ "] " ++ failure.message

def fieldLines (field : String × List String) : List String :=
  field.2.map fun message => "  → " ++ field.1 ++ ": " ++ message ++ "\n"

def suggestionLines : (n : Nat) → List String → List String
  | _, [] => []
  | n, suggestion :: rest =>
    ("  " ++ Digits.text n ++ ". " ++ suggestion ++ "\n") :: suggestionLines (n + 1) rest

def displayFull (failure : Failure) : String :=
  String.join (
    ["Error [" ++ failure.code.text ++ "]: " ++ failure.message ++ "\n"] ++
    (failure.entity.map fun entity => "  → Entity: " ++ entity ++ "\n").toList ++
    failure.errors.flatMap fieldLines ++
    (if failure.suggestions.isEmpty then []
      else "\nSuggestions:\n" :: suggestionLines 1 failure.suggestions) ++
    (failure.help.map fun help => "\nHelp: " ++ help ++ "\n").toList)

end Failure

structure FieldProblem where
  label : String
  problem : Problem
  deriving DecidableEq, Repr

abbrev Report := List FieldProblem

namespace Report

def ofField (label : String) (problems : List Problem) : Report :=
  problems.map fun problem => ⟨label, problem⟩

def blames (report : Report) (blame : Blame) : Bool :=
  report.any fun entry => entry.problem.blame == blame

def messages (report : Report) (blame : Blame) : FieldMessages :=
  KeyedList.group ((report.filter fun entry => entry.problem.blame == blame).map
    fun entry => (entry.label, entry.problem.message))

def failure? (report : Report) : Option Failure :=
  if report.blames .client then some (.validation (report.messages .client))
  else if report.blames .server then some (.misconfigured (report.messages .server))
  else none

/-- The value, unless there are problems. The failure names the entity asked for. -/
def result {α : Type} (report : Report) (entity : String) (value : α) : Except Failure α :=
  match report.failure? with
  | some failure => .error (failure.withEntity entity)
  | none => .ok value

end Report

end RequestFilter
