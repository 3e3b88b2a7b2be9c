/-!
A reference is `$` and a name in braces; the name is any text without a closing brace. References
are replaced in one pass from the left, so a value that looks like a reference stays as it is. A
reference to a variable that is not set stays too.
-/

namespace RequestFilter

abbrev Environment := List Char → Option (List Char)

namespace Environment

def ofList (vars : List (String × String)) : Environment := fun name =>
  (vars.reverse.lookup (String.ofList name)).map String.toList

def reference? : List Char → Option (List Char)
  | '$' :: '\x7b' :: cs =>
    let name := cs.takeWhile (· != '\x7d')
    if name.isEmpty || name.length == cs.length then none else some name
  | _ => none

def replacement (env : Environment) (name : List Char) : List Char :=
  (env name).getD ('$' :: '\x7b' :: name ++ ['\x7d'])

/-- Replaces references. The number counts the characters that still belong to the last one. -/
def expandFrom (env : Environment) : Nat → List Char → List Char
  | _, [] => []
  | skip + 1, _ :: cs => expandFrom env skip cs
  | 0, c :: cs =>
    match reference? (c :: cs) with
    | some name => env.replacement name ++ expandFrom env (name.length + 2) cs
    | none => c :: expandFrom env 0 cs

def expand (env : Environment) (cs : List Char) : List Char := expandFrom env 0 cs

end Environment

end RequestFilter
