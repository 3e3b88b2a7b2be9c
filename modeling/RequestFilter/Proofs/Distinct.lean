import Mathlib.Data.List.Nodup
import Mathlib.Data.List.Perm.Lattice

namespace RequestFilter.Distinct

variable {α : Type} [DecidableEq α]

theorem nodup_eraseDups (l : List α) : l.eraseDups.Nodup := by
  match l with
  | [] => simp
  | a :: rest =>
    have shorter : (rest.filter fun b => !b == a).length ≤ rest.length := List.length_filter_le _ _
    rw [List.eraseDups_cons, List.nodup_cons]
    exact ⟨by simp, nodup_eraseDups _⟩
termination_by l.length
decreasing_by simp_wf; omega

theorem removeAll_of_subset {l more : List α} (known : more ⊆ l) : more.removeAll l = [] := by
  simp only [List.removeAll, List.filter_eq_nil_iff]
  intro a member
  simp [known member]

theorem eraseDups_append_subset {l more : List α} (known : more ⊆ l) :
    (l ++ more).eraseDups = l.eraseDups := by
  rw [List.eraseDups_append, removeAll_of_subset known, List.eraseDups_nil, List.append_nil]

theorem eraseDups_concat {l : List α} {a : α} (fresh : a ∉ l) :
    (l ++ [a]).eraseDups = l.eraseDups ++ [a] := by
  have kept : [a].removeAll l = [a] := by simp [List.removeAll, fresh]
  rw [List.eraseDups_append, kept]
  rfl

theorem eraseDups_isPrefix {l l' : List α} (grown : l <+: l') : l.eraseDups <+: l'.eraseDups := by
  obtain ⟨more, rfl⟩ := grown
  rw [List.eraseDups_append]
  exact List.prefix_append _ _

theorem eraseDups_perm {l l' : List α} (same : ∀ a, a ∈ l ↔ a ∈ l') :
    l.eraseDups.Perm l'.eraseDups := by
  rw [List.perm_ext_iff_of_nodup (nodup_eraseDups l) (nodup_eraseDups l')]
  simpa using same

theorem find?_unique {β : Type} {l : List β} {p : β → Bool} {b : β} (member : b ∈ l)
    (only : ∀ c ∈ l, p c = true ↔ c = b) : l.find? p = some b := by
  induction l with
  | nil => cases member
  | cons c rest ih =>
    by_cases here : c = b
    · subst here
      simp [(only c (by simp)).mpr rfl]
    · have skipped : ¬ p c = true := fun stops => here ((only c (by simp)).mp stops)
      have later : b ∈ rest := by simpa [Ne.symm here] using member
      rw [List.find?_cons_of_neg skipped]
      exact ih later fun d found => only d (by simp [found])

end RequestFilter.Distinct
