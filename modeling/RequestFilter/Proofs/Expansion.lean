import Mathlib.Data.List.Infix
import Mathlib.Data.List.TakeWhile
import RequestFilter.Settings.Environment

namespace RequestFilter.Environment

/-- A name may hold `$` and opening braces. -/
def IsName (name : List Char) : Prop := name ≠ [] ∧ '\x7d' ∉ name

def written (name : List Char) : List Char := '$' :: '\x7b' :: (name ++ ['\x7d'])

/-- A reference starts where the text does. -/
def Leads (cs : List Char) : Prop := ∃ name, IsName name ∧ written name <+: cs

def Plain (cs : List Char) : Prop := ∀ n, ¬ Leads (cs.drop n)

/-- `name` is referred to behind `before`, and no reference starts earlier. -/
structure FirstReference (cs before name after : List Char) : Prop where
  whole : cs = before ++ (written name ++ after)
  isName : IsName name
  first : ∀ n < before.length, ¬ Leads (cs.drop n)

/-- The names in the references of a text: in the first, and in those of what stands behind it. -/
inductive Refers : List Char → List Char → Prop where
  | first {cs before name after} : FirstReference cs before name after → Refers cs name
  | later {cs before name after other} : FirstReference cs before name after →
      Refers after other → Refers cs other

section References

variable {c : Char} {cs before name after : List Char}

theorem takeWhile_name (isName : IsName name) (after : List Char) :
    (name ++ '\x7d' :: after).takeWhile (· != '\x7d') = name := by
  rw [List.takeWhile_append_of_pos]
  · simp
  · intro c member
    have other : c ≠ '\x7d' := fun closing => isName.2 (closing ▸ member)
    simpa using other

theorem reference?_written (isName : IsName name) (after : List Char) :
    reference? (written name ++ after) = some name := by
  have text : written name ++ after = '$' :: '\x7b' :: (name ++ '\x7d' :: after) := by
    simp [written]
  rw [text, reference?, takeWhile_name isName]
  simp [isName.1]

/-- A text with a closing brace is a name, the brace, and a rest. -/
theorem exists_closing (closed : (cs.takeWhile (· != '\x7d')).length ≠ cs.length) :
    '\x7d' ∉ cs.takeWhile (· != '\x7d') ∧
      ∃ after, cs = cs.takeWhile (· != '\x7d') ++ '\x7d' :: after := by
  refine ⟨fun member => by simpa using List.mem_takeWhile_imp member, ?_⟩
  have parts := List.takeWhile_append_dropWhile (p := (· != '\x7d')) (l := cs)
  have stops := List.head?_dropWhile_not (· != '\x7d') cs
  cases closing : cs.dropWhile (· != '\x7d') with
  | nil =>
    rw [closing, List.append_nil] at parts
    exact absurd (congrArg List.length parts) closed
  | cons c after =>
    rw [closing] at parts stops
    obtain rfl : c = '\x7d' := by simpa using stops
    exact ⟨after, parts.symm⟩

theorem leads_of_reference? (found : reference? cs = some name) :
    IsName name ∧ written name <+: cs := by
  unfold reference? at found
  split at found
  · rename_i rest
    dsimp only at found
    split at found
    · cases found
    · rename_i usable
      cases found
      simp only [Bool.or_eq_true, List.isEmpty_iff, beq_iff_eq, not_or] at usable
      obtain ⟨free, after, whole⟩ := exists_closing usable.2
      refine ⟨⟨usable.1, free⟩, after, ?_⟩
      conv_rhs => rw [whole]
      simp [written]
  · cases found

theorem leads_iff : Leads cs ↔ ∃ name, reference? cs = some name := by
  constructor
  · rintro ⟨name, isName, after, rfl⟩
    exact ⟨name, reference?_written isName after⟩
  · rintro ⟨name, found⟩
    exact ⟨name, leads_of_reference? found⟩

theorem reference?_of_not_leads (plain : ¬ Leads cs) : reference? cs = none := by
  cases found : reference? cs with
  | none => rfl
  | some name => exact absurd (leads_iff.mpr ⟨name, found⟩) plain

theorem Plain.tail (plain : Plain (c :: cs)) : Plain cs := fun n => plain (n + 1)

namespace FirstReference

theorem tail (reference : FirstReference (c :: cs) (c :: before) name after) :
    FirstReference cs before name after where
  whole := (List.cons.inj reference.whole).2
  isName := reference.isName
  first n inside := reference.first (n + 1) (Nat.succ_lt_succ inside)

theorem cons (reference : FirstReference cs before name after) (plain : ¬ Leads (c :: cs)) :
    FirstReference (c :: cs) (c :: before) name after where
  whole := by rw [reference.whole, List.cons_append]
  isName := reference.isName
  first n inside := by
    cases n with
    | zero => exact plain
    | succ n => exact reference.first n (Nat.lt_of_succ_lt_succ inside)

theorem length_lt (reference : FirstReference cs before name after) : after.length < cs.length := by
  rw [reference.whole, List.length_append, List.length_append, written, List.length_cons]
  omega

end FirstReference

theorem plain_or_firstReference (cs : List Char) :
    Plain cs ∨ ∃ before name after, FirstReference cs before name after := by
  induction cs with
  | nil =>
    left
    rintro n ⟨name, _, found⟩
    rw [List.drop_nil] at found
    exact absurd (List.prefix_nil.mp found) (List.cons_ne_nil _ _)
  | cons c cs ih =>
    by_cases here : Leads (c :: cs)
    · obtain ⟨name, isName, after, whole⟩ := here
      exact .inr ⟨[], name, after, whole.symm, isName, nofun⟩
    · rcases ih with plain | ⟨before, name, after, reference⟩
      · left
        intro n
        cases n with
        | zero => exact here
        | succ n => exact plain n
      · exact .inr ⟨c :: before, name, after, reference.cons here⟩

/-- Induction on a text along its references. -/
@[elab_as_elim]
theorem referenceInduction {motive : List Char → Prop} (plain : ∀ cs, Plain cs → motive cs)
    (reference : ∀ cs before name after, FirstReference cs before name after → motive after →
      motive cs) (cs : List Char) : motive cs := by
  rcases plain_or_firstReference cs with none | ⟨before, name, after, found⟩
  · exact plain cs none
  · exact reference cs before name after found (referenceInduction plain reference after)
termination_by cs.length
decreasing_by exact found.length_lt

end References

section Expansion

variable (env : Environment) {c : Char} {cs before name after : List Char}

theorem expandFrom_skip (skip : Nat) (cs : List Char) :
    env.expandFrom skip cs = env.expand (cs.drop skip) := by
  induction skip generalizing cs with
  | zero => rfl
  | succ skip ih =>
    cases cs with
    | nil => rfl
    | cons c cs => exact ih cs

theorem expand_cons (plain : ¬ Leads (c :: cs)) : env.expand (c :: cs) = c :: env.expand cs := by
  rw [expand, expandFrom, reference?_of_not_leads plain]
  rfl

theorem expand_written (isName : IsName name) (after : List Char) :
    env.expand (written name ++ after) = env.replacement name ++ env.expand after := by
  have found := reference?_written isName after
  rw [written, List.cons_append] at found ⊢
  have behind : ('\x7b' :: (name ++ ['\x7d']) ++ after).drop (name.length + 2) = after :=
    List.drop_left' (by simp)
  rw [expand, expandFrom, found]
  dsimp only
  rw [expandFrom_skip, behind]

theorem expand_first (reference : FirstReference cs before name after) :
    env.expand cs = before ++ (env.replacement name ++ env.expand after) := by
  -- What stands in front passes one character at a time, as no reference starts there.
  induction before generalizing cs with
  | nil =>
    rw [reference.whole, List.nil_append, List.nil_append, expand_written env reference.isName]
  | cons c before ih =>
    obtain ⟨tail, rfl⟩ : ∃ tail, cs = c :: tail := ⟨_, reference.whole⟩
    have plain : ¬ Leads (c :: tail) := reference.first 0 (Nat.zero_lt_succ before.length)
    rw [expand_cons env plain, ih reference.tail, List.cons_append]

theorem expand_plain (plain : Plain cs) : env.expand cs = cs := by
  induction cs with
  | nil => rfl
  | cons c cs ih => rw [expand_cons env (plain 0), ih plain.tail]

variable {env}

theorem expand_congr {other : Environment} (same : ∀ name, Refers cs name → env name = other name) :
    env.expand cs = other.expand cs := by
  induction cs using referenceInduction with
  | plain cs plain => rw [expand_plain env plain, expand_plain other plain]
  | reference cs before name after reference ih =>
    have value : env.replacement name = other.replacement name := by
      rw [replacement, replacement, same name (.first reference)]
    have rest := ih fun other refers => same other (.later reference refers)
    rw [expand_first env reference, expand_first other reference, value, rest]

theorem expand_unset (unset : ∀ name, Refers cs name → env name = none) : env.expand cs = cs := by
  induction cs using referenceInduction with
  | plain cs plain => exact expand_plain env plain
  | reference cs before name after reference ih =>
    have stays : env.replacement name = written name := by
      rw [replacement, unset name (.first reference)]
      rfl
    have rest := ih fun other refers => unset other (.later reference refers)
    rw [expand_first env reference, stays, rest, ← reference.whole]

/-- Texts are expanded once, from the left, and only by the variables they refer to. -/
structure ExpandsOnce (env : Environment) : Prop where
  covered : ∀ cs, Plain cs ∨ ∃ before name after, FirstReference cs before name after
  known : ∀ cs before name after value, FirstReference cs before name after → env name = some value →
    env.expand cs = before ++ value ++ env.expand after
  unknown : ∀ cs before name after, FirstReference cs before name after → env name = none →
    env.expand cs = before ++ written name ++ env.expand after
  plain : ∀ cs, Plain cs → env.expand cs = cs
  untouched : ∀ cs, (∀ name, Refers cs name → env name = none) → env.expand cs = cs
  depends : ∀ cs (other : Environment), (∀ name, Refers cs name → env name = other name) →
    env.expand cs = other.expand cs

end Expansion

theorem expandsOnce (env : Environment) : env.ExpandsOnce where
  covered := plain_or_firstReference
  known cs before name after value reference set := by
    rw [expand_first env reference, replacement, set, Option.getD_some, List.append_assoc]
  unknown cs before name after reference unset := by
    rw [expand_first env reference, replacement, unset, List.append_assoc]
    rfl
  plain _ := expand_plain env
  untouched _ := expand_unset
  depends _ _ := expand_congr

/-- A name may look like the start of a reference, and so may a value. -/
example : (ofList [("a$\x7bb", "$\x7bc\x7d"), ("c", "d")]).expand "$\x7b\x7d$\x7ba$\x7bb\x7d$\x7b".toList =
    "$\x7b\x7d$\x7bc\x7d$\x7b".toList := by decide

end RequestFilter.Environment
