import RequestFilter.Text.Split

namespace RequestFilter

structure Target where
  path : List Char
  query : List Char

namespace Target

def ofPathAndQuery (cs : List Char) : Target :=
  let (path, query) := (Text.cutFirst? (· == '?') cs).getD (cs, [])
  ⟨path, query⟩

def authority? (cs : List Char) : Option (List Char) :=
  match Text.cutFirst? (· == ':') cs with
  | some (_, '/' :: '/' :: rest) => some rest
  | _ => none

/-- Reads a target. Behind a host an empty path is the root; without a scheme, what is neither a
path nor `*` is a host alone. -/
def read (text : List Char) : Target :=
  let cs := text.takeWhile (· != '#')
  if cs.head? = some '/' ∨ cs = ['*'] then ofPathAndQuery cs
  else
    match authority? cs with
    | none => ⟨[], []⟩
    | some rest =>
      let target := ofPathAndQuery (rest.dropWhile fun c => c != '/' && c != '?')
      { target with path := if target.path.isEmpty then ['/'] else target.path }

end Target

end RequestFilter
