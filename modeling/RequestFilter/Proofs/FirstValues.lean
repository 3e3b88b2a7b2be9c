import Mathlib.Data.List.Induction
import Mathlib.Data.List.Nodup
import RequestFilter.KeyedList

namespace RequestFilter.KeyedList

variable {α β : Type}

/-- The value stands under the key, and none stands there before it. -/
inductive First (k : α) (v : β) : KeyedList α β → Prop
  | here (rest : KeyedList α β) : First k v ((k, v) :: rest)
  | behind {k' : α} (other : k ≠ k') (v' : β) {rest : KeyedList α β} (first : First k v rest) :
      First k v ((k', v') :: rest)

theorem First.mem {k : α} {v : β} {map : KeyedList α β} (first : First k v map) : (k, v) ∈ map := by
  induction first with
  | here rest => exact List.mem_cons_self
  | behind _ _ _ ih => exact List.mem_cons_of_mem _ ih

variable [DecidableEq α]

theorem get?_eq_some_iff {k : α} {v : β} {map : KeyedList α β} :
    map.get? k = some v ↔ First k v map := by
  constructor
  · intro found
    induction map with
    | nil => cases found
    | cons entry rest ih =>
      obtain ⟨key, value⟩ := entry
      by_cases here : k = key
      · subst here
        simp only [get?, if_true, Option.some.injEq] at found
        exact found ▸ .here rest
      · simp only [get?, here, if_false] at found
        exact .behind here value (ih found)
  · intro first
    induction first with
    | here rest => simp [get?]
    | behind other value _ ih => rw [get?, if_neg other, ih]

theorem get?_eq_none_iff {k : α} {map : KeyedList α β} :
    map.get? k = none ↔ k ∉ map.map Prod.fst := by
  induction map with
  | nil => simp [get?]
  | cons entry rest ih =>
    obtain ⟨key, value⟩ := entry
    by_cases here : k = key <;> simp [get?, here, ih]

theorem First.unique {k : α} {v w : β} {map : KeyedList α β} (first : First k v map)
    (rival : First k w map) : v = w := by
  rw [← get?_eq_some_iff] at first rival
  exact Option.some.inj (first.symm.trans rival)

theorem mem_of_get? {k : α} {v : β} {map : KeyedList α β} (found : map.get? k = some v) :
    (k, v) ∈ map := (get?_eq_some_iff.mp found).mem

theorem putNew_known {k : α} {map : KeyedList α β} (known : k ∈ map.map Prod.fst) (v : β) :
    putNew k v map = map := by
  induction map with
  | nil => cases known
  | cons entry rest ih =>
    obtain ⟨key, value⟩ := entry
    by_cases here : k = key
    · simp [putNew, here]
    · have later : k ∈ rest.map Prod.fst := by simpa [here] using known
      simp [putNew, here, ih later]

theorem putNew_fresh {k : α} {map : KeyedList α β} (fresh : k ∉ map.map Prod.fst) (v : β) :
    putNew k v map = map ++ [(k, v)] := by
  induction map with
  | nil => rfl
  | cons entry rest ih =>
    obtain ⟨key, value⟩ := entry
    rw [List.map_cons, List.mem_cons, not_or] at fresh
    obtain ⟨other, fresh⟩ := fresh
    have next := ih fresh
    simp [putNew, other, next]

theorem firsts_concat (pairs : List (α × β)) (pair : α × β) :
    firsts (pairs ++ [pair]) = putNew pair.1 pair.2 (firsts pairs) := by
  simp [firsts]

theorem mem_keys_firsts {k : α} {pairs : List (α × β)} :
    k ∈ (firsts pairs).map Prod.fst ↔ k ∈ pairs.map Prod.fst := by
  -- What is kept grows with every pair behind, so the induction is on the last one.
  induction pairs using List.reverseRecOn with
  | nil => exact Iff.rfl
  | append_singleton pairs pair ih =>
    rw [firsts_concat, List.map_append, List.mem_append, ← ih]
    by_cases known : pair.1 ∈ (firsts pairs).map Prod.fst
    · rw [putNew_known known]
      refine ⟨.inl, Or.rec id fun last => ?_⟩
      rw [List.map_singleton, List.mem_singleton] at last
      exact last ▸ known
    · rw [putNew_fresh known, List.map_append, List.mem_append]

theorem firsts_insert {k : α} {before : List (α × β)} (known : k ∈ before.map Prod.fst)
    (v : β) (after : List (α × β)) :
    firsts (before ++ (k, v) :: after) = firsts (before ++ after) := by
  have kept : putNew k v (firsts before) = firsts before :=
    putNew_known (mem_keys_firsts.mpr known) v
  unfold firsts at kept ⊢
  rw [List.foldl_append, List.foldl_cons, kept, ← List.foldl_append]

theorem filter_putNew (p : α → Bool) (k : α) (v : β) (map : KeyedList α β) :
    (putNew k v map).filter (fun entry => p entry.1) =
      if p k then putNew k v (map.filter fun entry => p entry.1)
      else map.filter fun entry => p entry.1 := by
  induction map with
  | nil => cases kept : p k <;> simp [putNew, kept]
  | cons entry rest ih =>
    obtain ⟨key, value⟩ := entry
    by_cases here : k = key
    · subst here
      cases kept : p k <;> simp [putNew, kept]
    · simp only [putNew, here, if_false, List.filter_cons, ih]
      cases p k <;> cases p key <;> simp [putNew, here]

/-- What is first of some keys is so among all. -/
theorem filter_firsts (p : α → Bool) (pairs : List (α × β)) :
    (firsts pairs).filter (fun entry => p entry.1) =
      firsts (pairs.filter fun entry => p entry.1) := by
  induction pairs using List.reverseRecOn with
  | nil => rfl
  | append_singleton pairs pair ih =>
    rw [firsts_concat, filter_putNew, ih, List.filter_append, List.filter_singleton]
    cases p pair.1 with
    | true => exact (firsts_concat _ _).symm
    | false => simp

theorem firsts_of_nodup {pairs : List (α × β)} (distinct : (pairs.map Prod.fst).Nodup) :
    firsts pairs = pairs := by
  induction pairs using List.reverseRecOn with
  | nil => rfl
  | append_singleton pairs pair ih =>
    rw [List.map_append, List.nodup_append] at distinct
    obtain ⟨distinct, _, apart⟩ := distinct
    have fresh : pair.1 ∉ pairs.map Prod.fst := fun known => apart _ known _ (by simp) rfl
    rw [firsts_concat, ih distinct, putNew_fresh fresh]

end RequestFilter.KeyedList
