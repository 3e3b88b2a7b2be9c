import Mathlib.Data.List.Basic
import Mathlib.Data.List.Induction
import RequestFilter.Proofs.Leaves

/-!
A predicate that restricts nothing is always true, yet it is left out of both connectives: for `and`
that changes nothing, and an `or` of what is left is no longer true by it.
-/

namespace RequestFilter

inductive Truth where
  | no | unknown | yes
  deriving DecidableEq, Repr

namespace Truth

def not : Truth → Truth
  | no => yes
  | unknown => unknown
  | yes => no

def and : Truth → Truth → Truth
  | no, _ => no
  | unknown, no => no
  | unknown, _ => unknown
  | yes, t => t

def or : Truth → Truth → Truth
  | yes, _ => yes
  | unknown, yes => yes
  | unknown, _ => unknown
  | no, t => t

end Truth

namespace Connective

def both : Connective → Truth → Truth → Truth
  | and => Truth.and
  | or => Truth.or

/-- The truth of no members at all. -/
def unit : Connective → Truth
  | and => .yes
  | or => .no

def join (connective : Connective) (truths : List Truth) : Truth :=
  truths.foldr connective.both connective.unit

variable (connective : Connective)

theorem both_assoc (s t u : Truth) :
    connective.both (connective.both s t) u = connective.both s (connective.both t u) := by
  cases connective <;> cases s <;> cases t <;> cases u <;> rfl

theorem unit_both (t : Truth) : connective.both connective.unit t = t := by
  cases connective <;> rfl

theorem both_unit (t : Truth) : connective.both t connective.unit = t := by
  cases connective <;> cases t <;> rfl

theorem join_append (truths more : List Truth) :
    connective.join (truths ++ more) =
      connective.both (connective.join truths) (connective.join more) := by
  induction truths with
  | nil => exact (connective.unit_both _).symm
  | cons t truths ih =>
    calc connective.both t (connective.join (truths ++ more))
        = connective.both t (connective.both (connective.join truths) (connective.join more)) := by
          rw [ih]
      _ = connective.both (connective.join (t :: truths)) (connective.join more) :=
          (connective.both_assoc _ _ _).symm

theorem join_singleton (t : Truth) : connective.join [t] = t := connective.both_unit t

end Connective

namespace Filter

mutual

/-- What a predicate says of a row of which the answers to single tests are given. -/
def truth (given : Filter → Truth) : Filter → Truth
  | none => .yes
  | junction connective filters => connective.join (truthOfAll given filters)
  | not filter => (truth given filter).not
  | leaf => given leaf

def truthOfAll (given : Filter → Truth) : List Filter → List Truth
  | [] => []
  | filter :: filters => truth given filter :: truthOfAll given filters

end

mutual

/-- Nothing is without effect in the predicate, and every junction has at least two members. -/
def isNormal : Filter → Bool
  | none => false
  | junction _ filters => 2 ≤ filters.length && areNormal filters
  | not filter => isNormal filter
  | _ => true

def areNormal : List Filter → Bool
  | [] => true
  | filter :: filters => isNormal filter && areNormal filters

end

def isTidy (filter : Filter) : Bool := filter.isNone || filter.isNormal

/-- The members that restrict something, joined; true if there is none. -/
def joinKept (given : Filter → Truth) (connective : Connective) (filters : List Filter) : Truth :=
  if filters.all isNone then .yes
  else connective.join ((filters.filter (!·.isNone)).map (truth given))

variable {given : Filter → Truth} {connective : Connective} {filter more : Filter}
  {filters : List Filter}

theorem truthOfAll_eq_map (filters : List Filter) :
    truthOfAll given filters = filters.map (truth given) := by
  induction filters with
  | nil => rfl
  | cons filter filters ih => rw [truthOfAll, ih, List.map_cons]

theorem areNormal_eq_all (filters : List Filter) : areNormal filters = filters.all isNormal := by
  induction filters with
  | nil => rfl
  | cons filter filters ih => rw [areNormal, ih, List.all_cons]

theorem truth_junction :
    (junction connective filters).truth given = connective.join (filters.map (truth given)) := by
  rw [truth, truthOfAll_eq_map]

theorem eq_none_of_isNone (idle : filter.isNone = true) : filter = none := by
  cases filter with
  | none => rfl
  | _ => cases idle

theorem filter_eq_nil_iff : filters.filter (!·.isNone) = [] ↔ filters.all isNone = true := by
  simp

theorem truth_combine (given : Filter → Truth) (connective : Connective) (filters : List Filter) :
    (combine connective filters).truth given = joinKept given connective filters := by
  unfold combine joinKept
  split
  · rename_i idle
    rw [if_pos (filter_eq_nil_iff.mp idle)]
    rfl
  · rename_i filter one
    have restricts : ¬ filters.all isNone = true := fun idle => by
      rw [filter_eq_nil_iff.mpr idle] at one
      cases one
    rw [if_neg restricts, one, List.map_singleton, Connective.join_singleton]
  · rename_i idle single
    rw [if_neg fun all => idle (filter_eq_nil_iff.mpr all), truth_junction]

/-- Under `and` a member that restricts nothing does no harm. -/
theorem joinKept_and (given : Filter → Truth) (filters : List Filter) :
    joinKept given .and filters = Connective.and.join (filters.map (truth given)) := by
  have kept : Connective.and.join ((filters.filter (!·.isNone)).map (truth given)) =
      Connective.and.join (filters.map (truth given)) := by
    induction filters with
    | nil => rfl
    | cons filter filters ih =>
      by_cases idle : filter.isNone
      · obtain rfl := eq_none_of_isNone idle
        exact ih
      · rw [List.filter_cons_of_pos (by simpa using idle)]
        exact congrArg (Truth.and _) ih
  unfold joinKept
  split
  · rename_i idle
    rw [← kept, filter_eq_nil_iff.mpr idle]
    rfl
  · exact kept

theorem joinKept_concat (given : Filter → Truth) (connective : Connective) (filters : List Filter)
    (filter : Filter) :
    joinKept given connective (filters ++ [filter]) =
      if filters.all isNone then filter.truth given
      else if filter.isNone then joinKept given connective filters
      else connective.both (joinKept given connective filters) (filter.truth given) := by
  by_cases idle : filter.isNone
  · obtain rfl := eq_none_of_isNone idle
    unfold joinKept
    by_cases rest : filters.all isNone <;> simp [rest, isNone, truth]
  · have kept : (filters ++ [filter]).filter (!·.isNone) =
        filters.filter (!·.isNone) ++ [filter] := by
      rw [List.filter_append]
      simp [idle]
    unfold joinKept
    rw [kept, if_neg (by simp [idle]), if_neg idle, List.map_append, List.map_singleton,
      Connective.join_append, Connective.join_singleton]
    by_cases rest : filters.all isNone
    · rw [if_pos rest, filter_eq_nil_iff.mpr rest]
      exact connective.unit_both _
    · rw [if_neg rest, if_neg rest]

theorem truth_append (given : Filter → Truth) (connective : Connective) (filter more : Filter) :
    (append connective filter more).truth given =
      if filter.isNone then more.truth given
      else if more.isNone then filter.truth given
      else connective.both (filter.truth given) (more.truth given) := by
  have pair : (junction connective [filter, more]).truth given =
      connective.both (filter.truth given) (more.truth given) := by
    rw [truth_junction]
    exact congrArg (connective.both _) (connective.join_singleton _)
  unfold append
  split
  · rfl
  split
  · rfl
  split
  · rename_i c members
    split
    · rename_i same
      obtain rfl := same
      rw [truth_junction, truth_junction, List.map_append, Connective.join_append,
        List.map_singleton, Connective.join_singleton]
    · exact pair
  · exact pair

theorem isNone_append (connective : Connective) (filter more : Filter) :
    (append connective filter more).isNone = (filter.isNone && more.isNone) := by
  unfold append
  split
  · rename_i idle
    rw [idle, Bool.true_and]
  rename_i restricts
  rw [Bool.eq_false_iff.mpr restricts, Bool.false_and]
  split
  · exact Bool.eq_false_iff.mpr restricts
  split
  · split <;> rfl
  · rfl

theorem isNone_chain (connective : Connective) (filters : List Filter) :
    (filters.foldl (append connective) none).isNone = filters.all isNone := by
  induction filters using List.reverseRecOn with
  | nil => rfl
  | append_singleton filters filter ih =>
    rw [List.foldl_concat, isNone_append, ih, List.all_append]
    simp

/-- Chaining joins the members from the left, and which of them are nested makes no difference. -/
theorem truth_chain (given : Filter → Truth) (connective : Connective) (filters : List Filter) :
    (filters.foldl (append connective) none).truth given = joinKept given connective filters := by
  induction filters using List.reverseRecOn with
  | nil => rfl
  | append_singleton filters filter ih =>
    rw [List.foldl_concat, truth_append, isNone_chain, ih, joinKept_concat]

theorem leaves_append (connective : Connective) (filter more : Filter) :
    (append connective filter more).leaves = filter.leaves ++ more.leaves := by
  have pair : (junction connective [filter, more]).leaves = filter.leaves ++ more.leaves := by
    simp [leaves, leavesAll]
  unfold append
  split
  · rename_i idle
    rw [eq_none_of_isNone idle]
    rfl
  split
  · rename_i idle
    rw [eq_none_of_isNone idle]
    exact (List.append_nil _).symm
  split
  · split
    · rw [leaves, leaves, leavesAll_eq_flatMap, leavesAll_eq_flatMap, List.flatMap_append,
        List.flatMap_singleton]
    · exact pair
  · exact pair

theorem leaves_chain (connective : Connective) (filters : List Filter) :
    (filters.foldl (append connective) none).leaves = filters.flatMap leaves := by
  induction filters using List.reverseRecOn with
  | nil => rfl
  | append_singleton filters filter ih =>
    rw [List.foldl_concat, leaves_append, ih, List.flatMap_append, List.flatMap_singleton]

theorem leaves_kept (filters : List Filter) :
    (filters.filter (!·.isNone)).flatMap leaves = filters.flatMap leaves := by
  induction filters with
  | nil => rfl
  | cons filter filters ih =>
    by_cases idle : filter.isNone
    · obtain rfl := eq_none_of_isNone idle
      exact ih
    · rw [List.filter_cons_of_pos (by simpa using idle), List.flatMap_cons, List.flatMap_cons, ih]

theorem params_chain (connective : Connective) (filters : List Filter) (offset : Nat) :
    ((filters.foldl (append connective) none).toSql offset).2 =
      ((combine connective filters).toSql offset).2 := by
  have same : (filters.foldl (append connective) none).leaves =
      (combine connective filters).leaves := by
    rw [leaves_chain, leaves_combine, leaves_kept]
  rw [toSql, toSql, params_pieces, params_pieces, same]

theorem isNormal_of_isTidy (tidy : filter.isTidy = true) (restricts : ¬ filter.isNone = true) :
    filter.isNormal = true := by
  simpa [isTidy, restricts] using tidy

theorem isTidy_junction (many : 2 ≤ filters.length)
    (normal : ∀ filter ∈ filters, filter.isNormal = true) :
    (junction connective filters).isTidy = true := by
  simp only [isTidy, isNormal, areNormal_eq_all, Bool.or_eq_true, Bool.and_eq_true,
    decide_eq_true_eq, List.all_eq_true]
  exact .inr ⟨many, normal⟩

theorem isTidy_combine (connective : Connective)
    (tidy : ∀ filter ∈ filters, filter.isTidy = true) :
    (combine connective filters).isTidy = true := by
  have kept : ∀ filter ∈ filters.filter (!·.isNone), filter.isNormal = true := by
    intro filter member
    obtain ⟨member, restricts⟩ := List.mem_filter.mp member
    exact isNormal_of_isTidy (tidy filter member) (by simpa using restricts)
  unfold combine
  split
  · rfl
  · rename_i filter one
    rw [one] at kept
    have normal := kept filter (List.mem_singleton_self _)
    simp [isTidy, normal]
  · rename_i many single
    apply isTidy_junction _ kept
    generalize filters.filter (!·.isNone) = members at many single
    match members with
    | [] => exact absurd rfl many
    | [filter] => exact absurd rfl (single filter)
    | _ :: _ :: _ => simp

theorem isTidy_append (connective : Connective) (first : filter.isTidy = true)
    (second : more.isTidy = true) : (append connective filter more).isTidy = true := by
  unfold append
  split
  · exact second
  split
  · exact first
  rename_i restricts restricts'
  have normal := isNormal_of_isTidy first restricts
  have normal' := isNormal_of_isTidy second restricts'
  have pair : (junction connective [filter, more]).isTidy = true :=
    isTidy_junction (by simp) (by simp [normal, normal'])
  split
  · rename_i c members
    split
    · simp only [isNormal, areNormal_eq_all, Bool.and_eq_true, decide_eq_true_eq,
        List.all_eq_true] at normal
      apply isTidy_junction
      · rw [List.length_append]
        omega
      · intro member among
        rcases List.mem_append.mp among with old | new
        · exact normal.2 member old
        · rw [List.mem_singleton.mp new]
          exact normal'
    · exact pair
  · exact pair

theorem isTidy_negate (tidy : filter.isTidy = true) : (negate filter).isTidy = true := by
  unfold negate
  split
  · rfl
  · rename_i restricts
    have normal := isNormal_of_isTidy tidy restricts
    simp [isTidy, isNormal, normal]

theorem andThen_truth (given : Filter → Truth) (filter more : Filter) :
    (filter.andThen more).truth given = (filter.truth given).and (more.truth given) := by
  have both := truth_append given .and filter more
  by_cases idle : filter.isNone
  · rw [if_pos idle] at both
    rw [eq_none_of_isNone idle] at both ⊢
    exact both
  rw [if_neg idle] at both
  by_cases idle' : more.isNone
  · rw [if_pos idle'] at both
    rw [eq_none_of_isNone idle'] at both ⊢
    exact both.trans (Connective.and.both_unit _).symm
  · rwa [if_neg idle'] at both

theorem orElse_truth (given : Filter → Truth) (filter more : Filter) :
    (filter.orElse more).truth given = joinKept given .or [filter, more] :=
  truth_chain given .or [filter, more]

/-- What the functions that combine predicates keep: the meaning under every answer to the single
tests, the bound values however the predicates are chained, and the absence of idle parts. -/
structure Composes (given : Filter → Truth) (filters : List Filter) (filter more : Filter) :
    Prop where
  all : (combine .and filters).truth given = Connective.and.join (filters.map (truth given))
  any : (combine .or filters).truth given = joinKept given .or filters
  andThen : (filter.andThen more).truth given = (filter.truth given).and (more.truth given)
  orElse : (filter.orElse more).truth given = joinKept given .or [filter, more]
  negate : filter.negate.truth given = if filter.isNone then .yes else (filter.truth given).not
  chained : (filters.foldl Filter.andThen none).truth given = (combine .and filters).truth given ∧
    (filters.foldl Filter.orElse none).truth given = (combine .or filters).truth given
  binds : ∀ offset,
    ((filters.foldl Filter.andThen none).toSql offset).2 = ((combine .and filters).toSql offset).2 ∧
    ((filters.foldl Filter.orElse none).toSql offset).2 = ((combine .or filters).toSql offset).2
  tidyAll : (∀ member ∈ filters, member.isTidy = true) →
    (combine .and filters).isTidy = true ∧ (combine .or filters).isTidy = true
  tidyPair : filter.isTidy = true → more.isTidy = true →
    (filter.andThen more).isTidy = true ∧ (filter.orElse more).isTidy = true
  tidyNegate : filter.isTidy = true → filter.negate.isTidy = true

theorem composes (given : Filter → Truth) (filters : List Filter) (filter more : Filter) :
    Composes given filters filter more where
  all := (truth_combine given .and filters).trans (joinKept_and given filters)
  any := truth_combine given .or filters
  andThen := andThen_truth given filter more
  orElse := orElse_truth given filter more
  negate := by
    unfold Filter.negate
    split <;> rfl
  chained :=
    ⟨(truth_chain given .and filters).trans (truth_combine given .and filters).symm,
      (truth_chain given .or filters).trans (truth_combine given .or filters).symm⟩
  binds offset := ⟨params_chain .and filters offset, params_chain .or filters offset⟩
  tidyAll tidy := ⟨isTidy_combine .and tidy, isTidy_combine .or tidy⟩
  tidyPair first second := ⟨isTidy_append .and first second, isTidy_append .or first second⟩
  tidyNegate := isTidy_negate

def above (name : String) (n : Int) : Filter := compare .gt ⟨"t0", name, .i32, Option.none⟩ (.int n)

/-- Only the column `b` has no value. -/
def bMissing : Filter → Truth
  | compare _ column _ => if column.name = "b" then .unknown else .yes
  | _ => .no

/-- A group in front takes up what is chained behind it, and is a member of its own if all are
combined at once. -/
theorem composes_flattened :
    let group := junction .and [above "a" 1, above "b" 2]
    let filters := [group, none, above "c" 3]
    filters.foldl Filter.andThen none = junction .and [above "a" 1, above "b" 2, above "c" 3] ∧
    combine .and filters = junction .and [group, above "c" 3] ∧
    (∀ member ∈ filters, member.isTidy = true) ∧ (combine .and filters).isTidy = true ∧
    (filters.foldl Filter.andThen none).truth bMissing = .unknown ∧
    (filters.foldl Filter.andThen none).truth bMissing = (combine .and filters).truth bMissing ∧
    ((filters.foldl Filter.andThen none).toSql 4).2 = [.int 1, .int 2, .int 3] ∧
    ((filters.foldl Filter.andThen none).toSql 4).2 = ((combine .and filters).toSql 4).2 := by
  intro group filters
  have kept := composes bMissing filters group none
  have tidy : ∀ member ∈ filters, member.isTidy = true := by decide
  exact ⟨rfl, rfl, tidy, (kept.tidyAll tidy).1, rfl, kept.chained.1, rfl, (kept.binds 4).1⟩

end Filter

end RequestFilter
