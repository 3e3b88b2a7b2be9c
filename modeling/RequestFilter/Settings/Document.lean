import RequestFilter.Number.Hex
import RequestFilter.Settings
import RequestFilter.Settings.Environment

/-!
Every setting is a text, so of the language only keys with text values are needed: a document with
a table, or with a value of another kind, has a key that no setting has. The four forms of texts are
all read: on one line or over several, with escapes or literal.
-/

namespace RequestFilter

namespace Document

def isSpace (c : Char) : Bool := c == ' ' || c == '\t'

def skipSpace (cs : List Char) : List Char := cs.dropWhile isSpace

def isPrintable (c : Char) : Bool := c == '\t' || (0x20 ≤ c.toNat && c.toNat != 0x7F)

def newline? : List Char → Option (List Char)
  | '\n' :: cs => some cs
  | '\r' :: '\n' :: cs => some cs
  | _ => none

def lineEnd? (cs : List Char) : Option (List Char) :=
  let rest := match skipSpace cs with
    | '#' :: cs => cs.dropWhile isPrintable
    | cs => cs
  if rest.isEmpty then some [] else newline? rest

def codePoint? (width : Nat) (cs : List Char) : Option (List Char × List Char) :=
  let digits := cs.take width
  if digits.length = width then
    match Hex.read? digits with
    | some code => if code.isValidChar then some ([Char.ofNat code], cs.drop width) else none
    | none => none
  else none

def escape? : List Char → Option (List Char × List Char)
  | [] => none
  | c :: cs =>
    if c = 'u' then codePoint? 4 cs
    else if c = 'U' then codePoint? 8 cs
    else
      let single := [('b', '\x08'), ('t', '\t'), ('n', '\n'), ('f', '\x0c'), ('r', '\r'),
        ('"', '"'), ('\\', '\\')]
      (single.lookup c).map fun c => ([c], cs)

def skipLines : List Char → List Char
  | [] => []
  | '\r' :: '\n' :: cs => skipLines cs
  | c :: cs => if isSpace c || c == '\n' then skipLines cs else c :: cs

def continued? (cs : List Char) : Option (List Char) :=
  (newline? (skipSpace cs)).map skipLines

structure Quoting where
  quote : Char
  multiline : Bool

def Quoting.item? (q : Quoting) : List Char → Option (List Char × List Char)
  | [] => none
  | c :: cs =>
    if c = '\\' ∧ q.quote = '"' then
      match if q.multiline then continued? cs else none with
      | some rest => some ([], rest)
      | none => escape? cs
    else if isPrintable c then some ([c], cs)
    else if q.multiline then (newline? (c :: cs)).map fun rest => (['\n'], rest)
    else none

/-- Reads a text up to its closing quotes. A text over several lines may have up to two quotes in
front of them. No more steps are needed than there are characters. -/
def Quoting.body? (q : Quoting) : (fuel : Nat) → List Char → Option (List Char × List Char)
  | 0, _ => none
  | fuel + 1, cs =>
    let n := (cs.takeWhile (· == q.quote)).length
    if n = 0 then do
      let (text, rest) ← q.item? cs
      let (more, rest) ← q.body? fuel rest
      some (text ++ more, rest)
    else if ¬ q.multiline then some ([], cs.drop 1)
    else if n < 3 then do
      let (more, rest) ← q.body? fuel (cs.drop n)
      some (List.replicate n q.quote ++ more, rest)
    else if n ≤ 5 then some (List.replicate (n - 3) q.quote, cs.drop n)
    else none

def line? (quote : Char) (cs : List Char) : Option (List Char × List Char) :=
  Quoting.body? ⟨quote, false⟩ (cs.length + 1) cs

def text? : List Char → Option (List Char × List Char)
  | [] => none
  | c :: cs =>
    if c = '"' ∨ c = '\'' then
      if cs.take 2 = [c, c] then
        let cs := cs.drop 2
        let cs := (newline? cs).getD cs
        Quoting.body? ⟨c, true⟩ (cs.length + 1) cs
      else line? c cs
    else none

def isBare (c : Char) : Bool := c.isAlphanum || c == '_' || c == '-'

def key? : List Char → Option (List Char × List Char)
  | [] => none
  | c :: cs =>
    if c = '"' ∨ c = '\'' then line? c cs
    else if isBare c then some ((c :: cs).takeWhile isBare, (c :: cs).dropWhile isBare)
    else none

def pair? (cs : List Char) : Option ((String × String) × List Char) := do
  let (key, cs) ← key? cs
  match skipSpace cs with
  | '=' :: cs =>
    let (value, cs) ← text? (skipSpace cs)
    let cs ← lineEnd? cs
    some ((String.ofList key, String.ofList value), cs)
  | _ => none

/-- Reads keys and values to the end of the document. No more lines are read than there are
characters. -/
def pairs? : (fuel : Nat) → List Char → Option (List (String × String))
  | 0, _ => none
  | fuel + 1, cs =>
    let cs := skipSpace cs
    if cs.isEmpty then some []
    else
      match lineEnd? cs with
      | some rest => pairs? fuel rest
      | none => do
        let (pair, rest) ← pair? cs
        let pairs ← pairs? fuel rest
        some (pair :: pairs)

def read? (cs : List Char) : Option (List (String × String)) :=
  let cs := match cs with
    | '\uFEFF' :: cs => cs
    | cs => cs
  pairs? (cs.length + 1) cs

end Document

namespace Settings

def set? (settings : Settings) (key value : String) : Option Settings :=
  if key = "delimiter" then some { settings with delimiter := value }
  else if key = "list_separator" then
    match value.toList with
    | [c] => some { settings with listSeparator := c }
    | _ => none
  else if key = "sort_param" then some { settings with sortParam := value }
  else if key = "default_operator" then
    (Operator.ofToken? value.toList).map fun op => { settings with defaultOperator := op }
  else none

/-- The standard settings with those given; no key may be given twice. -/
def ofPairs? (pairs : List (String × String)) : Option Settings :=
  if (pairs.map Prod.fst).Nodup then
    pairs.foldlM (fun settings pair => settings.set? pair.1 pair.2) standard
  else none

def ofDocument (env : Environment) (content : String) : Except SettingsFault Settings :=
  match (Document.read? (env.expand content.toList)).bind ofPairs? with
  | none => .error .malformed
  | some settings => settings.checked

end Settings

end RequestFilter
