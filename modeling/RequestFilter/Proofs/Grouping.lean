import Mathlib.Data.List.Permutation
import RequestFilter.Report
import RequestFilter.Proofs.Distinct
import RequestFilter.Proofs.FirstValues

namespace RequestFilter

namespace KeyedList

variable {α β : Type} [DecidableEq α]

theorem add_new {k : α} {keys : List α} (fresh : k ∉ keys) (v : β) (values : α → List β) :
    add k v (keys.map fun key => (key, values key)) =
      (keys.map fun key => (key, values key)) ++ [(k, [v])] := by
  induction keys with
  | nil => rfl
  | cons key keys ih =>
    rw [List.mem_cons, not_or] at fresh
    obtain ⟨other, rest⟩ := fresh
    have next := ih rest
    simp [add, other, next]

theorem add_known {k : α} {keys : List α} (distinct : keys.Nodup) (known : k ∈ keys) (v : β)
    (values : α → List β) :
    add k v (keys.map fun key => (key, values key)) =
      keys.map fun key => (key, values key ++ if key = k then [v] else []) := by
  induction keys with
  | nil => cases known
  | cons key keys ih =>
    obtain ⟨fresh, distinct⟩ := List.nodup_cons.mp distinct
    by_cases here : k = key
    · subst here
      have others : ∀ key ∈ keys, (key, values key) =
          (key, values key ++ if key = k then [v] else []) := by
        intro key member
        have other : key ≠ k := fun same => fresh (same ▸ member)
        simp [other]
      simp only [List.map_cons, add, if_true]
      rw [List.map_congr_left others]
    · have later : k ∈ keys := by simpa [here] using known
      have other : key ≠ k := Ne.symm here
      simp [add, here, other, ih distinct later]

theorem group_concat (pairs : List (α × β)) (k : α) (v : β) :
    group (pairs ++ [(k, v)]) = add k v (group pairs) := by
  simp [group]

theorem group_eq (pairs : List (α × β)) :
    group pairs = (pairs.map Prod.fst).eraseDups.map fun key =>
      (key, (pairs.filter fun pair => pair.1 = key).map Prod.snd) := by
  -- From the last pair on, since grouping folds from the first.
  induction pairs using List.reverseRecOn with
  | nil => rfl
  | append_singleton pairs pair ih =>
    obtain ⟨k, v⟩ := pair
    have values : ∀ key, ((pairs ++ [(k, v)]).filter fun pair => pair.1 = key).map Prod.snd =
        (pairs.filter fun pair => pair.1 = key).map Prod.snd ++ if key = k then [v] else [] := by
      intro key
      by_cases same : key = k
      · simp [same]
      · simp [same, Ne.symm same]
    rw [group_concat, ih, List.map_append]
    simp only [values, List.map_cons, List.map_nil]
    by_cases known : k ∈ pairs.map Prod.fst
    · have again : [k] ⊆ pairs.map Prod.fst := by simpa using known
      rw [Distinct.eraseDups_append_subset again]
      exact add_known (Distinct.nodup_eraseDups _) (List.mem_eraseDups.mpr known) v _
    · have unmentioned : k ∉ (pairs.map Prod.fst).eraseDups := by
        rw [List.mem_eraseDups]
        exact known
      rw [Distinct.eraseDups_concat known, add_new unmentioned, List.map_append]
      congr 1
      · refine List.map_congr_left fun key member => ?_
        have other : key ≠ k := fun same => unmentioned (same ▸ member)
        simp [other]
      · have none : (pairs.filter fun pair => pair.1 = k) = [] := by
          rw [List.filter_eq_nil_iff]
          intro pair member
          have other : pair.1 ≠ k := fun same => known (same ▸ List.mem_map_of_mem member)
          simpa using other
        simp [none]

theorem get?_map_mem {k : α} {keys : List α} (values : α → β) (known : k ∈ keys) :
    get? k (keys.map fun key => (key, values key)) = some (values k) := by
  induction keys with
  | nil => cases known
  | cons key keys ih =>
    by_cases here : k = key
    · subst here
      simp [get?]
    · have later : k ∈ keys := by simpa [here] using known
      simp [get?, here, ih later]

def pairs (map : KeyedList α (List β)) : List (α × β) :=
  map.flatMap fun (k, vs) => vs.map (k, ·)

theorem pairs_add_perm (k : α) (v : β) (map : KeyedList α (List β)) :
    (pairs (add k v map)).Perm (pairs map ++ [(k, v)]) := by
  induction map with
  | nil => exact List.Perm.refl _
  | cons entry rest ih =>
    obtain ⟨key, vs⟩ := entry
    by_cases same : k = key
    · subst same
      simp only [add, if_true, pairs, List.flatMap_cons, List.map_append, List.append_assoc]
      exact List.Perm.append_left _ List.perm_append_comm
    · have below := ih.append_left (vs.map (key, ·))
      simpa [add, same, pairs] using below

theorem pairs_group_perm (entries : List (α × β)) : (pairs (group entries)).Perm entries := by
  induction entries using List.reverseRecOn with
  | nil => exact List.Perm.refl _
  | append_singleton entries entry ih =>
    rw [group_concat]
    exact (pairs_add_perm _ _ _).trans (ih.append_right _)

end KeyedList

theorem Failure.count_eq_length (errors : FieldMessages) :
    count errors = (KeyedList.pairs errors).length := by
  simp [count, KeyedList.pairs, List.length_flatMap]

namespace Report

def ofBlame (report : Report) (blame : Blame) : Report :=
  report.filter fun entry => entry.problem.blame == blame

def grouped (report : Report) : FieldMessages :=
  (report.map FieldProblem.label).eraseDups.map fun label =>
    (label, (report.filter fun entry => entry.label = label).map (·.problem.message))

def entry (found : FieldProblem) : String × String := (found.label, found.problem.message)

theorem messages_eq_grouped (report : Report) (blame : Blame) :
    report.messages blame = (report.ofBlame blame).grouped := by
  unfold messages grouped ofBlame
  rw [KeyedList.group_eq]
  simp only [List.map_map, List.filter_map]
  rfl

theorem pairs_messages_perm (report : Report) (blame : Blame) :
    (KeyedList.pairs (report.messages blame)).Perm ((report.ofBlame blame).map entry) :=
  KeyedList.pairs_group_perm _

theorem count_messages (report : Report) (blame : Blame) :
    Failure.count (report.messages blame) = (report.ofBlame blame).length := by
  rw [Failure.count_eq_length, (pairs_messages_perm report blame).length_eq, List.length_map]

theorem messages_get? (report : Report) (label : String) :
    (report.grouped.get? label).getD [] =
      (report.filter fun entry => entry.label = label).map (·.problem.message) := by
  by_cases known : label ∈ (report.map FieldProblem.label).eraseDups
  · rw [grouped, KeyedList.get?_map_mem _ known, Option.getD_some]
  · have unlabelled : report.filter (fun entry => entry.label = label) = [] := by
      rw [List.filter_eq_nil_iff]
      intro entry member same
      apply known
      rw [← of_decide_eq_true same]
      exact List.mem_eraseDups.mpr (List.mem_map_of_mem member)
    have missing : report.grouped.get? label = none := by
      rw [KeyedList.get?_eq_none_iff]
      simpa [grouped] using known
    rw [missing, unlabelled]
    rfl

theorem blames_iff (report : Report) (blame : Blame) :
    report.blames blame = true ↔ report.ofBlame blame ≠ [] := by
  simp [blames, ofBlame]

theorem eq_nil_of_ofBlame {report : Report} (client : report.ofBlame .client = [])
    (server : report.ofBlame .server = []) : report = [] := by
  cases report with
  | nil => rfl
  | cons found rest =>
    cases blame : found.problem.blame with
    | client => simp [ofBlame, blame] at client
    | server => simp [ofBlame, blame] at server

theorem result_cases {α : Type} (report : Report) (root : String) (value : α) :
    (report = [] ∧ report.result root value = .ok value) ∨
    (report.ofBlame .client ≠ [] ∧ report.result root value =
      .error ((Failure.validation (report.messages .client)).withEntity root)) ∨
    (report.ofBlame .client = [] ∧ report.ofBlame .server ≠ [] ∧ report.result root value =
      .error ((Failure.misconfigured (report.messages .server)).withEntity root)) := by
  unfold result failure?
  by_cases client : report.blames .client = true
  · right; left
    simp only [client, if_true]
    exact ⟨(report.blames_iff .client).mp client, trivial⟩
  · have noClient : report.ofBlame .client = [] := by
      by_contra found
      exact client ((report.blames_iff .client).mpr found)
    by_cases server : report.blames .server = true
    · right; right
      simp only [client, server, if_true]
      exact ⟨noClient, (report.blames_iff .server).mp server, rfl⟩
    · left
      have noServer : report.ofBlame .server = [] := by
        by_contra found
        exact server ((report.blames_iff .server).mpr found)
      simp only [client, server]
      exact ⟨eq_nil_of_ofBlame noClient noServer, rfl⟩

end Report

/-- The failure tells of exactly these problems, which are problems of one side. -/
structure Failure.TellsOf (failure : Failure) (blame : Blame) (found : Report) : Prop where
  code : failure.code = match blame with
    | .client => .validation
    | .server => .misconfigured
  status : failure.blame.status = match blame with
    | .client => 400
    | .server => 500
  errors : failure.errors = found.grouped
  message : failure.message = match blame with
    | .client => "Filter validation failed with " ++ Digits.text found.length ++ " error(s)"
    | .server => "Filter configuration is invalid (" ++ Digits.text found.length ++ " error(s))"

namespace Failure

theorem validation_tellsOf (report : Report) (root : String) :
    ((validation (report.messages .client)).withEntity root).TellsOf .client
      (report.ofBlame .client) where
  code := rfl
  status := rfl
  errors := report.messages_eq_grouped .client
  message := by
    rw [← report.count_messages]
    rfl

theorem misconfigured_tellsOf (report : Report) (root : String) :
    ((misconfigured (report.messages .server)).withEntity root).TellsOf .server
      (report.ofBlame .server) where
  code := rfl
  status := rfl
  errors := report.messages_eq_grouped .server
  message := by
    rw [← report.count_messages]
    rfl

end Failure

namespace Report

variable {α : Type} {report : Report} (root : String) (value : α)

theorem eq_of_result_ok {result : α} (ok : report.result root value = .ok result) :
    report = [] ∧ result = value := by
  rcases report.result_cases root value with ⟨none, same⟩ | ⟨_, failed⟩ | ⟨_, _, failed⟩
  · exact ⟨none, Except.ok.inj (ok.symm.trans same)⟩
  · cases failed.symm.trans ok
  · cases failed.symm.trans ok

theorem result_ok_iff : (∃ result, report.result root value = .ok result) ↔ report = [] := by
  constructor
  · rintro ⟨_, ok⟩
    exact (eq_of_result_ok root value ok).1
  · rintro rfl
    exact ⟨value, rfl⟩

theorem result_client (client : report.ofBlame .client ≠ []) :
    ∃ failure, report.result root value = .error failure ∧
      failure.TellsOf .client (report.ofBlame .client) := by
  rcases report.result_cases root value with ⟨none, _⟩ | ⟨_, failed⟩ | ⟨noClient, _⟩
  · rw [none] at client
    cases client rfl
  · exact ⟨_, failed, Failure.validation_tellsOf report root⟩
  · exact absurd noClient client

theorem result_server (some : report ≠ []) (noClient : report.ofBlame .client = []) :
    ∃ failure, report.result root value = .error failure ∧
      failure.TellsOf .server (report.ofBlame .server) := by
  rcases report.result_cases root value with ⟨none, _⟩ | ⟨client, _⟩ | ⟨_, _, failed⟩
  · exact absurd none some
  · exact absurd noClient client
  · exact ⟨_, failed, Failure.misconfigured_tellsOf report root⟩

/-- Problems of the application alone are all told, each under its label. -/
theorem mem_messagesOf (server : ∀ entry ∈ report, entry.problem.blame = .server) {failure : Failure}
    (failed : report.result root value = .error failure) {label message : String} :
    message ∈ failure.messagesOf label ↔
      ∃ problem, ⟨label, problem⟩ ∈ report ∧ problem.message = message := by
  have noClient : report.ofBlame .client = [] := by
    simp only [ofBlame, List.filter_eq_nil_iff]
    intro entry member
    simp [server entry member]
  have all : report.ofBlame .server = report := by
    simp only [ofBlame, List.filter_eq_self]
    intro entry member
    simp [server entry member]
  have some : report ≠ [] := by
    rintro rfl
    cases failed
  obtain ⟨found, failed', tells⟩ := result_server root value some noClient
  obtain rfl : found = failure := Except.error.inj (failed'.symm.trans failed)
  rw [Failure.messagesOf, tells.errors, all, messages_get?]
  simp only [List.mem_map, List.mem_filter, decide_eq_true_eq]
  constructor
  · rintro ⟨⟨_, problem⟩, ⟨member, rfl⟩, told⟩
    exact ⟨problem, member, told⟩
  · rintro ⟨problem, member, told⟩
    exact ⟨_, ⟨member, rfl⟩, told⟩

theorem result_blame (client : ∀ entry ∈ report, entry.problem.blame = .client) :
    report.result root value = .ok value ∨
      ∃ failure, report.result root value = .error failure ∧ failure.blame = .client := by
  rcases report.result_cases root value with ⟨_, ok⟩ | ⟨_, failed⟩ | ⟨_, server, _⟩
  · exact .inl ok
  · exact .inr ⟨_, failed, rfl⟩
  · obtain ⟨entry, member⟩ := List.exists_mem_of_ne_nil _ server
    obtain ⟨among, blame⟩ := List.mem_filter.mp member
    rw [client entry among] at blame
    cases blame

theorem blames_perm {report' : Report} (reordered : report.Perm report') (blame : Blame) :
    report.blames blame = report'.blames blame :=
  reordered.any_eq

theorem pairs_perm {report' : Report} (reordered : report.Perm report') (blame : Blame) :
    (KeyedList.pairs (report.messages blame)).Perm (KeyedList.pairs (report'.messages blame)) := by
  have found : (report.ofBlame blame).Perm (report'.ofBlame blame) := reordered.filter _
  exact (pairs_messages_perm report blame).trans
    ((found.map entry).trans (pairs_messages_perm report' blame).symm)

/-- Two reports that blame the same sides have one fate. -/
theorem result_related {report' : Report} (related : FieldMessages → FieldMessages → Prop)
    (sides : ∀ blame, report.blames blame = report'.blames blame)
    (told : ∀ blame, related (report.messages blame) (report'.messages blame)) (value value' : α) :
    (report.result root value = .ok value ∧ report'.result root value' = .ok value') ∨
    ∃ failure failure', report.result root value = .error failure ∧
      report'.result root value' = .error failure' ∧ failure.code = failure'.code ∧
      related failure.errors failure'.errors := by
  unfold result failure?
  rw [sides .client, sides .server]
  by_cases client : report'.blames .client = true
  · right
    simp only [client, if_true]
    exact ⟨_, _, rfl, rfl, rfl, told .client⟩
  · by_cases server : report'.blames .server = true
    · right
      simp only [client, server, if_true]
      exact ⟨_, _, rfl, rfl, rfl, told .server⟩
    · left
      simp only [client, server]
      exact ⟨rfl, rfl⟩

theorem result_perm {report' : Report} (reordered : report.Perm report') (value value' : α) :
    (report.result root value = .ok value ∧ report'.result root value' = .ok value') ∨
    ∃ failure failure', report.result root value = .error failure ∧
      report'.result root value' = .error failure' ∧ failure.code = failure'.code ∧
      (KeyedList.pairs failure.errors).Perm (KeyedList.pairs failure'.errors) :=
  result_related root (fun errors errors' => (KeyedList.pairs errors).Perm (KeyedList.pairs errors'))
    (blames_perm reordered) (pairs_perm reordered) value value'

theorem messages_perm (report : Report) (blame : Blame) :
    ((report.messages blame).flatMap Prod.snd).Perm
      ((report.ofBlame blame).map (·.problem.message)) := by
  have told := (pairs_messages_perm report blame).map Prod.snd
  rw [KeyedList.pairs, List.map_flatMap, List.map_map] at told
  simpa [Function.comp_def, entry] using told

/-- Labels move messages, and change none of them. -/
theorem result_relabelled {report' : Report}
    (same : report.map FieldProblem.problem = report'.map FieldProblem.problem) (value : α) :
    (report.result root value = .ok value ∧ report'.result root value = .ok value) ∨
    ∃ failure failure', report.result root value = .error failure ∧
      report'.result root value = .error failure' ∧ failure.code = failure'.code ∧
      (failure.errors.flatMap Prod.snd).Perm (failure'.errors.flatMap Prod.snd) := by
  have sides : ∀ blame, report.blames blame = report'.blames blame := by
    intro blame
    have found := congrArg (·.any fun problem => problem.blame == blame) same
    simp only [List.any_map] at found
    exact found
  have told : ∀ blame, ((report.messages blame).flatMap Prod.snd).Perm
      ((report'.messages blame).flatMap Prod.snd) := by
    intro blame
    have found := congrArg
      (fun problems => (problems.filter fun problem => problem.blame == blame).map Problem.message)
      same
    simp only [List.filter_map, List.map_map] at found
    have texts : (report.ofBlame blame).map (·.problem.message) =
        (report'.ofBlame blame).map (·.problem.message) := found
    exact (messages_perm report blame).trans (texts ▸ (messages_perm report' blame).symm)
  exact result_related root
    (fun errors errors' => (errors.flatMap Prod.snd).Perm (errors'.flatMap Prod.snd)) sides told
    value value

end Report

end RequestFilter
