import RequestFilter.Policy

namespace RequestFilter

inductive Recipe where
  | ignore
  | unrestricted
  | between (path : String)
  | equals (path : String)
  | notIn (path : String)
  | any (paths : List String)
  /-- Rejects the criterion, and says what it is about. -/
  | reject (message : String)
  /-- Rejects the criterion by the message alone, and still gives a predicate. -/
  | rejectWithFilter (message path : String)
  | report (code : Code) (message : String)
  deriving DecidableEq, Repr

namespace Recipe

def first (question : Question) : Value := question.values.head?.getD .null

def onColumn (path : String) (predicate : Column → Filter) : Script :=
  .resolve path fun column? => .done (column?.map predicate)

def equations (value : Value) : List String → Filter → Script
  | [], filter => .done (some filter)
  | path :: paths, filter =>
    .resolve path fun
      | some column => equations value paths (filter.orElse (.compare .eq column value))
      | none => equations value paths filter

def rejection (message : String) (question : Question) : Problem :=
  .rejected (message ++ " [" ++ question.label ++ "] " ++ question.operator.token ++ " n=" ++
    Digits.text question.values.length)

def script (recipe : Recipe) (question : Question) : Script :=
  match recipe with
  | ignore => .done none
  | unrestricted => .done (some .none)
  | between path =>
    match question.values.head?, question.values.getLast? with
    | some low, some high => onColumn path fun column => .between column low high
    | _, _ => .done none
  | equals path => onColumn path fun column => .compare .eq column (first question)
  | notIn path =>
    onColumn path fun column => Filter.negate (.member false column question.values)
  | any paths => equations (first question) paths .none
  | reject message => .report (rejection message question) (.done none)
  | rejectWithFilter message path =>
    .report (.rejected message) (onColumn path fun column => .nullCheck true column)
  | report code message => .report (.reported code message) (.done none)

end Recipe

def CustomFilter.ofRecipe (type : DataType) (recipe : Recipe) : CustomFilter := ⟨type, recipe.script⟩

end RequestFilter
