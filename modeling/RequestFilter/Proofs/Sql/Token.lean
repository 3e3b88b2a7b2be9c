import RequestFilter.Filter.Sql
import RequestFilter.Text.AsciiCase

/-!
A text is read from left to right, one character after the other, and every token is as long as can
be. Words are keywords in any ASCII case, and names else. What belongs to no token stays as a token
of its own that no rule of the grammar takes.
-/

namespace RequestFilter.Sql

inductive Keyword where
  | truth | falsity | and | or | not | between | within | like | escape | is | null
  deriving DecidableEq, Repr

namespace Keyword

def all : List Keyword :=
  [truth, falsity, and, or, not, between, within, like, escape, is, null]

def spelling : Keyword → String
  | truth => "TRUE"
  | falsity => "FALSE"
  | and => "AND"
  | or => "OR"
  | not => "NOT"
  | between => "BETWEEN"
  | within => "IN"
  | like => "LIKE"
  | escape => "ESCAPE"
  | is => "IS"
  | null => "NULL"

def ofWord? (cs : List Char) : Option Keyword :=
  all.find? fun keyword => Text.equalIgnoringCase keyword.spelling.toList cs

end Keyword

inductive Token where
  | name (word : String)
  | keyword (keyword : Keyword)
  | placeholder (number : Nat)
  | sign (comparison : Comparison)
  | literal (text : String)
  | opening | closing | comma | dot
  | stray (c : Char)
  deriving DecidableEq, Repr

def Token.ofWord (cs : List Char) : Token :=
  match Keyword.ofWord? cs with
  | some word => .keyword word
  | none => .name (String.ofList cs)

/-- Letters beyond ASCII are letters of names, too. -/
def isLetter (c : Char) : Bool := c.isAlpha || c == '_' || decide (128 ≤ c.toNat)

def isNameChar (c : Char) : Bool := isLetter c || c.isDigit

/-- A name that needs no quotes. -/
def isPlainName (cs : List Char) : Bool :=
  match cs with
  | [] => false
  | c :: rest => isLetter c && rest.all isNameChar && (Keyword.ofWord? cs).isNone

/-- The token that the characters read last belong to. -/
inductive Mode where
  | idle
  | word (read : List Char)
  | number (read : List Char)
  | quoted (read : List Char)
  | sign (alone withEqual : Token)
  deriving DecidableEq, Repr

namespace Mode

def pending : Mode → List Token
  | idle => []
  | word read => [.ofWord read]
  | number [] => [.stray '$']
  | number read => [.placeholder (Digits.value read)]
  | quoted _ => [.stray '\'']
  | sign alone _ => [alone]

/-- The way on with a character that belongs to the same token. -/
def extend? : Mode → Char → Option (List Token × Mode)
  | idle, _ => none
  | word read, c => if isNameChar c then some ([], word (read ++ [c])) else none
  | number read, c => if c.isDigit then some ([], number (read ++ [c])) else none
  | quoted read, c =>
    if c = '\'' then some ([.literal (String.ofList read)], idle) else some ([], quoted (read ++ [c]))
  | sign _ withEqual, c => if c = '=' then some ([withEqual], idle) else none

/-- The first character of a token, or one between tokens. -/
def start (c : Char) : List Token × Mode :=
  if c.isWhitespace then ([], idle)
  else if isLetter c then ([], word [c])
  else match c with
    | '$' => ([], number [])
    | '\'' => ([], quoted [])
    | '=' => ([.sign .eq], idle)
    | '!' => ([], sign (.stray '!') (.sign .neq))
    | '<' => ([], sign (.sign .lt) (.sign .lte))
    | '>' => ([], sign (.sign .gt) (.sign .gte))
    | '(' => ([.opening], idle)
    | ')' => ([.closing], idle)
    | ',' => ([.comma], idle)
    | '.' => ([.dot], idle)
    | c => ([.stray c], idle)

def step (mode : Mode) (c : Char) : List Token × Mode :=
  match mode.extend? c with
  | some next => next
  | none => (mode.pending ++ (start c).1, (start c).2)

def scan : Mode → List Char → List Token
  | mode, [] => mode.pending
  | mode, c :: cs => (mode.step c).1 ++ scan (mode.step c).2 cs

end Mode

def tokens (text : List Char) : List Token := Mode.idle.scan text

/-- No token goes on into the text. -/
def Parted (text : List Char) : Prop := ∀ c ∈ text.head?, isNameChar c = false

theorem parted_nil : Parted [] := nofun

theorem parted_cons {c : Char} (outside : isNameChar c = false) (text : List Char) :
    Parted (c :: text) := by
  intro first same
  cases same
  exact outside

namespace Mode

@[simp] theorem idle_step (c : Char) : idle.step c = start c := rfl

theorem step_of_done {mode : Mode} {c : Char} (done : mode.extend? c = none) :
    mode.step c = (mode.pending ++ (start c).1, (start c).2) := by
  rw [step, done]

theorem scan_of_extend {mode next : Mode} {c : Char} (goesOn : mode.extend? c = some ([], next))
    (text : List Char) : mode.scan (c :: text) = next.scan text := by
  rw [scan, step, goesOn, List.nil_append]

theorem scan_of_done {mode : Mode} {text : List Char} (done : ∀ c ∈ text.head?, mode.extend? c = none) :
    mode.scan text = mode.pending ++ tokens text := by
  cases text with
  | nil => exact (List.append_nil _).symm
  | cons c rest => rw [tokens, scan, scan, step_of_done (done c rfl), idle_step, List.append_assoc]

theorem scan_word (read name text : List Char) (named : ∀ c ∈ name, isNameChar c = true) :
    (word read).scan (name ++ text) = (word (read ++ name)).scan text := by
  induction name generalizing read with
  | nil => simp
  | cons c name ih =>
    have goesOn : (word read).extend? c = some ([], word (read ++ [c])) := if_pos (named c (by simp))
    rw [List.cons_append, scan_of_extend goesOn,
      ih _ fun c member => named c (List.mem_cons_of_mem _ member), List.append_assoc,
      List.singleton_append]

theorem scan_number (read digits text : List Char) (numeric : ∀ c ∈ digits, c.isDigit = true) :
    (number read).scan (digits ++ text) = (number (read ++ digits)).scan text := by
  induction digits generalizing read with
  | nil => simp
  | cons c digits ih =>
    have goesOn : (number read).extend? c = some ([], number (read ++ [c])) :=
      if_pos (numeric c (by simp))
    rw [List.cons_append, scan_of_extend goesOn,
      ih _ fun c member => numeric c (List.mem_cons_of_mem _ member), List.append_assoc,
      List.singleton_append]

theorem pending_number {read : List Char} (some : read ≠ []) :
    (number read).pending = [.placeholder (Digits.value read)] := by
  cases read with
  | nil => exact absurd rfl some
  | cons c read => rfl

theorem start_letter {c : Char} (letter : isLetter c = true) : start c = ([], word [c]) := by
  have visible : c.isWhitespace = false := by
    refine Bool.eq_false_iff.mpr fun blank => ?_
    simp only [Char.isWhitespace, Bool.or_eq_true, decide_eq_true_eq] at blank
    rcases blank with ((rfl | rfl) | rfl) | rfl <;> cases letter
  simp [start, visible, letter]

end Mode

/-- The tokens of the text, which no text behind it changes. -/
def Closes (text : List Char) (ts : List Token) : Prop :=
  ∀ rest, tokens (text ++ rest) = ts ++ tokens rest

/-- The tokens of the text, where no name goes on behind it. -/
def Lexes (text : List Char) (ts : List Token) : Prop :=
  ∀ rest, Parted rest → tokens (text ++ rest) = ts ++ tokens rest

/-- The text begins with no part of a name. -/
def Apart (text : List Char) : Prop := ∀ rest, Parted (text ++ rest)

theorem apart_cons {c : Char} (outside : isNameChar c = false) (text : List Char) :
    Apart (c :: text) := fun _ => parted_cons outside _

variable {text more : List Char} {ts us : List Token}

theorem Closes.append (closes : Closes text ts) (behind : Lexes more us) :
    Lexes (text ++ more) (ts ++ us) := by
  intro rest parted
  rw [List.append_assoc, closes, behind rest parted, List.append_assoc]

theorem Lexes.append (lexes : Lexes text ts) (behind : Lexes more us) (apart : Apart more) :
    Lexes (text ++ more) (ts ++ us) := by
  intro rest parted
  rw [List.append_assoc, lexes _ (apart rest), behind rest parted, List.append_assoc]

theorem Lexes.tokens_eq (lexes : Lexes text ts) : tokens text = ts := by
  have alone := lexes [] parted_nil
  rwa [List.append_nil, show tokens [] = [] from rfl, List.append_nil] at alone

theorem lexes_word {c : Char} {word : List Char} (letter : isLetter c = true)
    (named : word.all isNameChar = true) : Lexes (c :: word) [.ofWord (c :: word)] := by
  intro rest parted
  have begun : tokens (c :: word ++ rest) = (Mode.word [c]).scan (word ++ rest) := by
    rw [List.cons_append, tokens, Mode.scan, Mode.idle_step, Mode.start_letter letter,
      List.nil_append]
  have done : ∀ d ∈ rest.head?, (Mode.word (c :: word)).extend? d = none := by
    intro d first
    simp [Mode.extend?, parted d first]
  rw [begun, Mode.scan_word _ _ _ (List.all_eq_true.mp named), List.singleton_append,
    Mode.scan_of_done done]
  rfl

theorem lexes_keyword (keyword : Keyword) : Lexes keyword.spelling.toList [.keyword keyword] := by
  cases keyword <;> exact lexes_word rfl rfl

theorem lexes_name {name : String} (plain : isPlainName name.toList = true) :
    Lexes name.toList [.name name] := by
  have word : Token.name (String.ofList name.toList) = .name name := by rw [String.ofList_toList]
  rw [← word]
  generalize name.toList = cs at plain
  cases cs with
  | nil => cases plain
  | cons c rest =>
    simp only [isPlainName, Bool.and_eq_true, Option.isNone_iff_eq_none] at plain
    obtain ⟨⟨letter, named⟩, free⟩ := plain
    have lexes := lexes_word letter named
    rwa [Token.ofWord, free] at lexes

theorem lexes_placeholder (i : Nat) : Lexes ('$' :: Digits.ofNat i) [.placeholder i] := by
  intro rest parted
  have begun : tokens ('$' :: Digits.ofNat i ++ rest) =
      (Mode.number []).scan (Digits.ofNat i ++ rest) := rfl
  have done : ∀ c ∈ rest.head?, (Mode.number (Digits.ofNat i)).extend? c = none := by
    intro c first
    have outside := parted c first
    simp only [isNameChar, Bool.or_eq_false_iff] at outside
    simp [Mode.extend?, outside.2]
  rw [begun, Mode.scan_number _ _ _ fun c digit => Digits.isDigit_ofNat digit, List.nil_append,
    Mode.scan_of_done done, Mode.pending_number (Digits.ofNat_ne_nil i), Digits.value_ofNat]

end RequestFilter.Sql
