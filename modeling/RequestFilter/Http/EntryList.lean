import RequestFilter.Http.JsonToken
import RequestFilter.Request.Criterion

/-!
The body is an array. An entry is an object with the texts `field`, `value` and, if it names one,
`operator`; other members are passed over, whatever they are. An array of the three in the order
field, operator, value is an entry too. Tokens are read one by one, and the first that does not fit
decides between a fault of the syntax and one of the shape.
-/

namespace RequestFilter

inductive BodyFault where
  | mediaType
  | syntaxError
  | shape
  deriving DecidableEq, Repr

namespace EntryList

open Json (Token)

def faultOf : Token → BodyFault
  | .openArray | .openObject | .null | .true | .false => .shape
  | .number inRange => if inRange then .shape else .syntaxError
  | .string (some _) => .shape
  | _ => .syntaxError

structure Draft where
  field : Option String
  operator : Option (Option String)
  value : Option String
  deriving DecidableEq, Repr

namespace Draft

def empty : Draft := ⟨none, none, none⟩

def entry? (draft : Draft) : Option Entry := do
  let field ← draft.field
  let value ← draft.value
  some ⟨field, draft.operator.getD none, value⟩

end Draft

inductive Member where
  | field | operator | value
  deriving DecidableEq, Repr

namespace Member

def ofKey? (key : String) : Option Member :=
  if key = "field" then some field
  else if key = "operator" then some operator
  else if key = "value" then some value
  else none

def isSet (member : Member) (draft : Draft) : Bool :=
  match member with
  | field => draft.field.isSome
  | operator => draft.operator.isSome
  | value => draft.value.isSome

def set (member : Member) (draft : Draft) (token : Token) : Except BodyFault Draft :=
  match member, token with
  | field, .string (some text) => .ok { draft with field := some text }
  | operator, .string (some text) => .ok { draft with operator := some (some text) }
  | operator, .null => .ok { draft with operator := some none }
  | value, .string (some text) => .ok { draft with value := some text }
  | _, token => .error (faultOf token)

def next? : Member → Option Member
  | field => some operator
  | operator => some value
  | value => none

end Member

inductive Nesting where
  | array | object
  deriving DecidableEq, Repr

inductive Expected where
  | value | valueOrEnd | key | keyOrEnd | colon | separator
  deriving DecidableEq, Repr

/-- A value that is passed over, by its open brackets; none once it is complete. -/
abbrev Skipping := Option (List Nesting × Expected)

namespace Skipping

def behind : List Nesting → Skipping
  | [] => none
  | stack => some (stack, .separator)

def value (stack : List Nesting) (token : Token) : Except BodyFault Skipping :=
  match token with
  | .openArray => .ok (some (.array :: stack, .valueOrEnd))
  | .openObject => .ok (some (.object :: stack, .keyOrEnd))
  | .null | .true | .false | .number _ | .string _ => .ok (behind stack)
  | _ => .error .syntaxError

def key (stack : List Nesting) (token : Token) : Except BodyFault Skipping :=
  match token with
  | .string _ => .ok (some (stack, .colon))
  | _ => .error .syntaxError

def step (stack : List Nesting) (expected : Expected) (token : Token) :
    Except BodyFault Skipping :=
  match expected, stack, token with
  | .valueOrEnd, _ :: rest, .closeArray => .ok (behind rest)
  | .value, _, token | .valueOrEnd, _, token => value stack token
  | .keyOrEnd, _ :: rest, .closeObject => .ok (behind rest)
  | .key, _, token | .keyOrEnd, _, token => key stack token
  | .colon, _, .colon => .ok (some (stack, .value))
  | .separator, .array :: _, .comma => .ok (some (stack, .value))
  | .separator, .array :: rest, .closeArray => .ok (behind rest)
  | .separator, .object :: _, .comma => .ok (some (stack, .key))
  | .separator, .object :: rest, .closeObject => .ok (behind rest)
  | _, _, _ => .error .syntaxError

end Skipping

inductive State where
  | start
  | entry (isFirst : Bool)
  | entrySeparator
  | item (draft : Draft) (member : Member)
  | itemSeparator (draft : Draft) (member : Member)
  | key (draft : Draft) (isFirst : Bool)
  | colon (draft : Draft) (member : Option Member)
  /-- The value of a key; none stands for a key that does not matter. -/
  | content (draft : Draft) (member : Option Member)
  | skipping (draft : Draft) (stack : List Nesting) (expected : Expected)
  | memberSeparator (draft : Draft)
  | done

abbrev Step := Except BodyFault (State × Option Entry)

namespace State

def goTo (state : State) : Step := .ok (state, none)

def finish (draft : Draft) : Step :=
  match draft.entry? with
  | some found => .ok (.entrySeparator, some found)
  | none => .error .shape

def openEntry (token : Token) : Step :=
  match token with
  | .openObject => goTo (.key .empty true)
  | .openArray => goTo (.item .empty .field)
  | token => .error (faultOf token)

/-- Reads a token where an item belongs. An array that ends here has too few. -/
def readItem (draft : Draft) (member : Member) (token : Token) : Step :=
  match token with
  | .closeArray => .error (if member = .field then .shape else .syntaxError)
  | token => (member.set draft token).bind fun draft => goTo (.itemSeparator draft member)

def readItemSeparator (draft : Draft) (member : Member) (token : Token) : Step :=
  match token, member.next? with
  | .comma, some next => goTo (.item draft next)
  | .closeArray, some _ => .error .shape
  | .closeArray, none => finish draft
  | _, _ => .error .syntaxError

def readKey (draft : Draft) (token : Token) : Step :=
  match token with
  | .string (some name) =>
    let member := Member.ofKey? name
    if member.any (·.isSet draft) then .error .shape else goTo (.colon draft member)
  | _ => .error .syntaxError

def skipped (draft : Draft) : Skipping → Step
  | none => goTo (.memberSeparator draft)
  | some (stack, expected) => goTo (.skipping draft stack expected)

def step (state : State) (token : Token) : Step :=
  match state with
  | start =>
    match token with
    | .openArray => goTo (.entry true)
    | token => .error (faultOf token)
  | entry isFirst =>
    if token = .closeArray then if isFirst then goTo .done else .error .syntaxError
    else openEntry token
  | entrySeparator =>
    match token with
    | .comma => goTo (.entry false)
    | .closeArray => goTo .done
    | _ => .error .syntaxError
  | item draft member => readItem draft member token
  | itemSeparator draft member => readItemSeparator draft member token
  | key draft isFirst =>
    if token = .closeObject then if isFirst then finish draft else .error .syntaxError
    else readKey draft token
  | colon draft member =>
    if token = .colon then goTo (.content draft member) else .error .syntaxError
  | content draft member =>
    match member with
    | some member => (member.set draft token).bind fun draft => goTo (.memberSeparator draft)
    | none => (Skipping.value [] token).bind (skipped draft)
  | skipping draft stack expected => (Skipping.step stack expected token).bind (skipped draft)
  | memberSeparator draft =>
    match token with
    | .comma => goTo (.key draft false)
    | .closeObject => finish draft
    | _ => .error .syntaxError
  | done => .error .syntaxError

def run : State → List Token → Except BodyFault (List Entry)
  | done, [] => .ok []
  | _, [] => .error .syntaxError
  | state, token :: rest =>
    match state.step token with
    | .error fault => .error fault
    | .ok (state, found) => (run state rest).map (found.toList ++ ·)

end State

def read (cs : List Char) : Except BodyFault (List Entry) := State.start.run (Json.tokens cs)

end EntryList

end RequestFilter
