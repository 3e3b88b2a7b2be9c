import Mathlib.Data.List.Induction
import RequestFilter.Proofs.Comparands
import RequestFilter.Proofs.Distinct
import RequestFilter.Rule

namespace RequestFilter

namespace Rule

variable {values values' : List Value} {value : Value}

theorem distinct_concat (values : List Value) (value : Value) : distinct (values ++ [value]) =
    if (distinct values).any (·.same value) then distinct values else distinct values ++ [value] := by
  rw [distinct, List.foldl_append]
  rfl

theorem distinct_sublist (values : List Value) : (distinct values).Sublist values := by
  induction values using List.reverseRecOn with
  | nil => exact .slnil
  | append_singleton values value ih =>
    rw [distinct_concat]
    split
    · exact ih.trans (List.sublist_append_left values [value])
    · exact ih.append_right [value]

theorem comparand_of_any (known : values.any (·.same value) = true) :
    value.comparand ∈ values.map Value.comparand := by
  obtain ⟨kept, member, same⟩ := List.any_eq_true.mp known
  exact List.mem_map.mpr ⟨kept, member, (Value.same_iff.mp same).2.2⟩

theorem any_of_comparand (numbers : ∀ v ∈ values, v.isNaN = false) (number : value.isNaN = false)
    (known : value.comparand ∈ values.map Value.comparand) : values.any (·.same value) = true := by
  obtain ⟨kept, member, same⟩ := List.mem_map.mp known
  exact List.any_eq_true.mpr ⟨kept, member, Value.same_iff.mpr ⟨numbers kept member, number, same⟩⟩

theorem notMem_of_fresh (numbers : ∀ v ∈ values ++ [value], v.isNaN = false)
    (comparands : (distinct values).map Value.comparand = (values.map Value.comparand).eraseDups)
    (fresh : ¬ (distinct values).any (·.same value) = true) :
    value.comparand ∉ values.map Value.comparand := by
  intro member
  rw [← List.mem_eraseDups, ← comparands] at member
  have kept : ∀ v ∈ distinct values, v.isNaN = false := fun v among =>
    numbers v (List.mem_append_left [value] ((distinct_sublist values).subset among))
  exact fresh (any_of_comparand kept (numbers value (by simp)) member)

/-- The comparands of what is kept are those of all values without their repetitions. -/
theorem map_comparand_distinct (numbers : ∀ v ∈ values, v.isNaN = false) :
    (distinct values).map Value.comparand = (values.map Value.comparand).eraseDups := by
  -- The list is gone through from the left, so the last value is the last one to be kept.
  induction values using List.reverseRecOn with
  | nil => rfl
  | append_singleton values value ih =>
    have comparands := ih fun v member => numbers v (List.mem_append_left [value] member)
    rw [distinct_concat, List.map_append]
    split
    · rename_i known
      have member := comparand_of_any known
      rw [comparands, List.mem_eraseDups] at member
      rw [comparands, Distinct.eraseDups_append_subset (by simpa using member)]
    · rename_i fresh
      have missing := notMem_of_fresh numbers comparands fresh
      rw [List.map_append, comparands]
      exact (Distinct.eraseDups_concat missing).symm

theorem nodup_comparands (numbers : ∀ v ∈ values, v.isNaN = false) :
    ((distinct values).map Value.comparand).Nodup := by
  rw [map_comparand_distinct numbers]
  exact Distinct.nodup_eraseDups _

theorem distinct_of_nodup (apart : (values.map Value.comparand).Nodup) : distinct values = values := by
  induction values using List.reverseRecOn with
  | nil => rfl
  | append_singleton values value ih =>
    rw [List.map_append, List.nodup_append] at apart
    obtain ⟨before, _, disjoint⟩ := apart
    have fresh : ¬ values.any (·.same value) = true := fun known =>
      disjoint _ (comparand_of_any known) _ (by simp) rfl
    rw [distinct_concat, ih before, if_neg fresh]

theorem find?_distinct (numbers : ∀ v ∈ values, v.isNaN = false) (kept : value ∈ distinct values) :
    values.find? (·.comparand = value.comparand) = some value := by
  induction values using List.reverseRecOn with
  | nil => cases kept
  | append_singleton values last ih =>
    have earlier : ∀ v ∈ values, v.isNaN = false := fun v member =>
      numbers v (List.mem_append_left [last] member)
    rw [distinct_concat] at kept
    rw [List.find?_append]
    split at kept
    · rw [ih earlier kept, Option.some_or]
    · rename_i fresh
      rcases List.mem_append.mp kept with known | new
      · rw [ih earlier known, Option.some_or]
      · obtain rfl := List.mem_singleton.mp new
        have missing := notMem_of_fresh numbers (map_comparand_distinct earlier) fresh
        have none : values.find? (·.comparand = value.comparand) = none := by
          rw [List.find?_eq_none]
          intro v member same
          exact missing (List.mem_map.mpr ⟨v, member, by simpa using same⟩)
        rw [none, Option.none_or]
        simp

/-- Of the values that are the same, the first is kept. -/
structure Keeps (values kept : List Value) : Prop where
  sublist : kept.Sublist values
  apart : kept.Pairwise fun v w => v.comparand ≠ w.comparand
  covers : ∀ v ∈ values, ∃! w, w ∈ kept ∧ w.comparand = v.comparand
  first : ∀ v ∈ kept, values.find? (·.comparand = v.comparand) = some v

theorem keeps_distinct (numbers : ∀ v ∈ values, v.isNaN = false) : Keeps values (distinct values) where
  sublist := distinct_sublist values
  apart := List.pairwise_map.mp (nodup_comparands numbers)
  covers v member := by
    have known : v.comparand ∈ (distinct values).map Value.comparand := by
      rw [map_comparand_distinct numbers, List.mem_eraseDups]
      exact List.mem_map_of_mem member
    obtain ⟨w, kept, same⟩ := List.mem_map.mp known
    refine ⟨w, ⟨kept, same⟩, fun other ⟨among, alike⟩ => ?_⟩
    exact List.inj_on_of_nodup_map (nodup_comparands numbers) among kept (alike.trans same.symm)
  first _ kept := find?_distinct numbers kept

theorem comparands_perm (numbers : ∀ v ∈ values, v.isNaN = false)
    (rearranged : ∀ v, v ∈ values' ↔ v ∈ values) :
    ((distinct values').map Value.comparand).Perm ((distinct values).map Value.comparand) := by
  have numbers' : ∀ v ∈ values', v.isNaN = false := fun v member =>
    numbers v ((rearranged v).mp member)
  rw [map_comparand_distinct numbers, map_comparand_distinct numbers']
  refine Distinct.eraseDups_perm fun c => ?_
  simp only [List.mem_map, rearranged]

/-- What a test for membership makes of values that are all there. It keeps the same values of those
it kept, and values of the same comparands of any list with the same members. -/
structure Collapses (rule : Rule) (negated : Bool) (column : Column) (values kept : List Value) :
    Prop where
  compares : ∀ v ∈ values, ∀ w ∈ values, v.same w = true ↔ v.comparand = w.comparand
  applied : rule.apply column values = .ok (.member negated column kept)
  keeps : Keeps values kept
  again : rule.apply column kept = rule.apply column values
  rearranged : ∀ values', (∀ v, v ∈ values' ↔ v ∈ values) → ∃ kept',
    rule.apply column values' = .ok (.member negated column kept') ∧
      (kept'.map Value.comparand).Perm (kept.map Value.comparand)

theorem isAbsent_eq_false (some : values ≠ []) (present : ∀ v ∈ values, v.isNull = false) :
    isAbsent values = false := by
  unfold isAbsent
  simpa [some] using present

theorem membership_present (negated : Bool) (column : Column) (some : values ≠ [])
    (present : ∀ v ∈ values, v.isNull = false) : (membership negated).apply column values =
      .ok (.member negated column (distinct values)) := by
  rw [apply, test, isAbsent_eq_false some present]
  rfl

theorem membership_collapses (negated : Bool) (column : Column) (some : values ≠ [])
    (proper : ∀ v ∈ values, v.isNull = false ∧ v.isNaN = false) :
    Collapses (.membership negated) negated column values (distinct values) := by
  have present : ∀ v ∈ values, v.isNull = false := fun v member => (proper v member).1
  have numbers : ∀ v ∈ values, v.isNaN = false := fun v member => (proper v member).2
  have applied := membership_present negated column some present
  have keeps := keeps_distinct numbers
  refine ⟨fun v member w among => ?_, applied, keeps, ?_, fun values' rearranged => ?_⟩
  · rw [Value.same_iff]
    simp [numbers v member, numbers w among]
  · obtain ⟨v, member⟩ := List.exists_mem_of_ne_nil values some
    obtain ⟨w, ⟨kept, _⟩, _⟩ := keeps.covers v member
    rw [applied, membership_present negated column (List.ne_nil_of_mem kept)
      fun v kept => present v (keeps.sublist.subset kept), distinct_of_nodup (nodup_comparands numbers)]
  · obtain ⟨v, member⟩ := List.exists_mem_of_ne_nil values some
    exact ⟨distinct values', membership_present negated column
      (List.ne_nil_of_mem ((rearranged v).mpr member))
      fun v member => present v ((rearranged v).mp member), comparands_perm numbers rearranged⟩

end Rule

namespace Rules

theorem membership_builtin (negated : Bool) (column : Column) {values : List Value}
    (some : values ≠ []) (proper : ∀ v ∈ values, v.isNull = false ∧ v.isNaN = false) :
    ∃ rule kept, builtin.rule? (if negated then .notWithin else .within) = .some rule ∧
      rule.Collapses negated column values kept := by
  refine ⟨.membership negated, Rule.distinct values, ?_,
    Rule.membership_collapses negated column some proper⟩
  cases negated <;> rfl

/-- One and a half in two forms, one twice, and both zeros. -/
def mixed : List Value :=
  [.decimal ⟨false, 15, 1, by decide, by decide⟩, .int 1, .float ⟨0⟩,
    .decimal ⟨false, 150, 2, by decide, by decide⟩, .float ⟨0x8000000000000000⟩, .int 1]

theorem membership_builtin_mixed :
    mixed ≠ [] ∧ (∀ v ∈ mixed, v.isNull = false ∧ v.isNaN = false) ∧
    ∃ rule kept, builtin.rule? .notWithin = some rule ∧
      rule.Collapses true ⟨"t0", "price", .decimal, none⟩ mixed kept ∧
      kept = [.decimal ⟨false, 15, 1, by decide, by decide⟩, .int 1, .float ⟨0⟩] := by
  have some : mixed ≠ [] := List.cons_ne_nil _ _
  have proper : ∀ v ∈ mixed, v.isNull = false ∧ v.isNaN = false := by decide
  obtain ⟨rule, kept, ruled, collapses⟩ :=
    membership_builtin true ⟨"t0", "price", .decimal, none⟩ some proper
  refine ⟨some, proper, rule, kept, ruled, collapses, ?_⟩
  cases Option.some.inj ruled
  injection Except.ok.inj collapses.applied with _ _ same
  rw [← same]
  decide

end Rules

end RequestFilter
