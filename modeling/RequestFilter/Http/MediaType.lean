import RequestFilter.Text.AsciiCase
import RequestFilter.Text.Split

namespace RequestFilter

structure MediaType where
  type : List Char
  subtype : List Char
  /-- What follows the last plus sign of the subtype, which then ends there. -/
  suffix : Option (List Char)
  deriving DecidableEq, Repr

namespace MediaType

def isToken (c : Char) : Bool := c.isAlphanum || "!#$%&'*+-.^_`|~".toList.contains c

def isQuotable (c : Char) : Bool := 31 < c.toNat && c.toNat != 127

def isVisible (c : Char) : Bool := c == '\t' || (32 ≤ c.toNat && c.toNat < 127)

inductive Mark where
  | separator
  | name
  | equals
  | value
  | openingQuote
  | quoted
  | closingQuote
  deriving DecidableEq, Repr

namespace Mark

def step (mark : Mark) (c : Char) : Option Mark :=
  match mark with
  | separator => if c = ' ' then some separator else if isToken c then some name else none
  | name => if c = '=' then some equals else if isToken c then some name else none
  | equals => if c = '"' then some openingQuote else if isToken c then some value else none
  | value => if c = ';' then some separator else if isToken c then some value else none
  | openingQuote => if isQuotable c then some quoted else none
  | quoted => if c = '"' then some closingQuote else if isQuotable c then some quoted else none
  | closingQuote => if c = ';' then some separator else if c = ' ' then some closingQuote else none

def isEnd : Mark → Bool
  | separator | equals | value | closingQuote => true
  | _ => false

end Mark

def areParameters (cs : List Char) : Bool := (cs.foldlM Mark.step .separator).any Mark.isEnd

def ofNames (type name : List Char) : MediaType :=
  match Text.cutLast? ['+'] name with
  | some (subtype, suffix) =>
    if subtype.isEmpty then ⟨type, name, none⟩ else ⟨type, subtype, some suffix⟩
  | none => ⟨type, name, none⟩

def read? (cs : List Char) : Option MediaType :=
  let type := cs.takeWhile isToken
  match cs.dropWhile isToken with
  | '/' :: rest =>
    let name := rest.takeWhile isToken
    let parameters := rest.dropWhile isToken
    let wellFormed := match parameters with
      | [] => true
      | ';' :: parameters => !name.isEmpty && areParameters parameters
      | _ => false
    if !type.isEmpty && wellFormed && cs.all isVisible then
      some (ofNames (Text.lower type) (Text.lower name))
    else none
  | _ => none

def isJson (mediaType : MediaType) : Bool :=
  let json := "json".toList
  mediaType.type == "application".toList &&
    (mediaType.subtype == json || mediaType.suffix == some json)

end MediaType

end RequestFilter
