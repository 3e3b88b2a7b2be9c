import RequestFilter.Request.Criterion
import RequestFilter.Settings
import RequestFilter.Sort
import RequestFilter.Text.Split

/-!
In a query the key holds the path and, as its last part, the operator; a key counts once, with its
first value. An entry has its operator beside the path. A text that names no operator leaves the
default, and in a key it stays part of the path.
-/

namespace RequestFilter.Settings

def splitKey (settings : Settings) (key : String) : String × Operator :=
  match Text.cutLast? settings.delimiter.toList key.toList with
  | none => (key, settings.defaultOperator)
  | some (path, suffix) =>
    match if path.isEmpty then none else Operator.ofToken? suffix with
    | none => (key, settings.defaultOperator)
    | some op => (String.ofList path, op)

/-- The values of a list; separators behind the last value do not count. -/
def splitValues (settings : Settings) (value : String) : List String :=
  (Text.dropTrailingEmpty (Text.splitAt settings.listSeparator value.toList)).map String.ofList

def criterionOfPair (settings : Settings) (pair : String × String) : Criterion :=
  let (path, op) := settings.splitKey pair.1
  ⟨path, pair.1, op, settings.splitValues pair.2, .query⟩

def criteriaOfQuery (settings : Settings) (pairs : List (String × String)) : List Criterion :=
  (KeyedList.firsts (pairs.filter fun pair => pair.1 != settings.sortParam)).map
    settings.criterionOfPair

def entryOperator (settings : Settings) (entry : Entry) : Operator :=
  (entry.operator.bind fun token => Operator.ofToken? token.toList).getD settings.defaultOperator

def criterionOfEntry? (settings : Settings) (entry : Entry) : Option Criterion :=
  if Text.isBlankText entry.field then none
  else some ⟨entry.field, entry.field, settings.entryOperator entry,
    settings.splitValues entry.value, .body⟩

def criteriaOfEntries (settings : Settings) (entries : List Entry) : List Criterion :=
  entries.filterMap settings.criterionOfEntry?

def directed : List Char → List Char × Direction
  | '-' :: path => (path, .descending)
  | '+' :: path => (path, .ascending)
  | path => (path, .ascending)

def sortField? (cs : List Char) : Option SortField :=
  let (path, direction) := directed (Text.trim cs)
  let path := Text.trim path
  if path.isEmpty then none else some ⟨String.ofList path, direction⟩

def sortOfText (settings : Settings) (raw : String) : SortOrder :=
  (Text.splitAt settings.listSeparator raw.toList).filterMap sortField?

def sortOfQuery (settings : Settings) (pairs : List (String × String)) : SortOrder :=
  match pairs.find? fun pair => pair.1 == settings.sortParam with
  | some pair => settings.sortOfText pair.2
  | none => []

end RequestFilter.Settings
