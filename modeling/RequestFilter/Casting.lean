import RequestFilter.Problem

/-!
Every value is read, so that each one that cannot be read gives a problem of its own.
-/

namespace RequestFilter.FieldType

def checkOperator (fieldType : FieldType) (op : Operator) : Except Problem Unit :=
  if fieldType.operators.contains op then .ok ()
  else .error (.unsupportedOperator op fieldType.type)

def castProblems (fieldType : FieldType) (raws : List String) : List Problem :=
  raws.filterMap fun raw =>
    match fieldType.cast raw with
    | .ok _ => none
    | .error fault => some (.invalidValue fault)

def castable (fieldType : FieldType) (raws : List String) : List Value :=
  raws.filterMap fun raw => (fieldType.cast raw).toOption

def castAll (fieldType : FieldType) (raws : List String) : Except (List Problem) (List Value) :=
  let problems := fieldType.castProblems raws
  if problems.isEmpty then .ok (fieldType.castable raws) else .error problems

end RequestFilter.FieldType
