import RequestFilter.Proofs.Sql.Grammar

/-!
Every form of a predicate shows by its first tokens which one it is, and shows where it ends. The
only two that begin alike are a group and a column brought to UTC, and no group begins with a column
and a word behind it.
-/

namespace RequestFilter.Sql

variable {ts us rest rest' : List Token}

/-- A test goes on where its operand ends. -/
def Token.opensTest : Token → Bool
  | sign _ | keyword _ => true
  | _ => false

theorem reference_unique {source source' : Option String} {name name' : String}
    (same : reference source name ++ rest = reference source' name' ++ rest')
    (ends : rest.head? ≠ some .dot) (ends' : rest'.head? ≠ some .dot) :
    source = source' ∧ name = name' ∧ rest = rest' := by
  cases source with
  | none =>
    cases source' with
    | none => simpa [reference] using same
    | some source' =>
      simp only [reference, List.cons_append, List.nil_append, List.cons.injEq] at same
      rw [same.2] at ends
      exact absurd rfl ends
  | some source =>
    cases source' with
    | none =>
      simp only [reference, List.cons_append, List.nil_append, List.cons.injEq] at same
      rw [← same.2] at ends'
      exact absurd rfl ends'
    | some source' => simpa [reference, and_assoc] using same

theorem placeholders_unique {first first' : Nat} {more more' : List Nat}
    (same : placeholders first more ++ .closing :: rest = placeholders first' more' ++ .closing :: rest') :
    first = first' ∧ more = more' ∧ rest = rest' := by
  simp only [placeholders, List.cons_append, List.cons.injEq, Token.placeholder.injEq] at same
  obtain ⟨rfl, same⟩ := same
  refine ⟨rfl, ?_⟩
  induction more generalizing more' with
  | nil =>
    cases more' with
    | nil => simpa using same
    | cons i more' => simp at same
  | cons i more ih =>
    cases more' with
    | nil => simp at same
    | cons i' more' =>
      simp only [List.flatMap_cons, List.cons_append, List.nil_append, List.cons.injEq,
        Token.placeholder.injEq, true_and] at same
      obtain ⟨rfl, same⟩ := same
      obtain ⟨rfl, ends⟩ := ih same
      exact ⟨rfl, ends⟩

theorem Test.Spelled.unique {test test' : Test Nat} (spelled : test.Spelled ts)
    (spelled' : test'.Spelled us) (same : ts ++ rest = us ++ rest') : test = test' ∧ rest = rest' := by
  cases spelled with
  | compare comparison i =>
    cases spelled' with
    | compare comparison' i' => simpa [and_assoc] using same
    | member negated => cases negated <;> simp [negation] at same
    | _ => simp at same
  | between low high =>
    cases spelled' with
    | between low' high' => simpa [and_assoc] using same
    | member negated => cases negated <;> simp [negation] at same
    | _ => simp at same
  | member negated first more =>
    cases spelled' with
    | member negated' first' more' =>
      cases negated <;> cases negated' <;>
        simp only [negation, if_true, Bool.false_eq_true, if_false, List.nil_append, List.cons_append,
          List.append_assoc, List.cons.injEq, Token.keyword.injEq, reduceCtorEq, false_and,
          true_and] at same
      all_goals
        obtain ⟨rfl, rfl, ends⟩ := placeholders_unique same
        exact ⟨rfl, ends⟩
    | _ => cases negated <;> simp [negation] at same
  | like i =>
    cases spelled' with
    | like i' => simpa using same
    | member negated => cases negated <;> simp [negation] at same
    | _ => simp at same
  | likeUpper called i =>
    cases spelled' with
    | likeUpper called' i' =>
      simp only [List.cons_append, List.nil_append, List.cons.injEq, Token.placeholder.injEq,
        true_and] at same
      obtain ⟨_, rfl, rfl⟩ := same
      exact ⟨rfl, rfl⟩
    | member negated => cases negated <;> simp [negation] at same
    | _ => simp at same
  | nullCheck negated =>
    cases spelled' with
    | nullCheck negated' => cases negated <;> cases negated' <;> simp_all [negation]
    | member negated' => cases negated' <;> simp [negation] at same
    | _ => simp at same

theorem Test.Spelled.opens {test : Test Nat} (spelled : test.Spelled ts) (rest : List Token) :
    ∃ token more, ts ++ rest = token :: more ∧ token.opensTest = true := by
  cases spelled with
  | member negated => cases negated <;> exact ⟨_, _, rfl, rfl⟩
  | _ => exact ⟨_, _, rfl, rfl⟩

theorem Token.ne_dot_of_opensTest {token : Token} (opens : token.opensTest = true) (more : List Token) :
    (token :: more).head? ≠ some .dot := by
  rintro same
  cases Option.some.inj same
  cases opens

theorem Operand.Spelled.unique {operand operand' : Operand} (spelled : operand.Spelled ts)
    (spelled' : operand'.Spelled us) {token token' : Token} {more more' : List Token}
    (same : ts ++ token :: more = us ++ token' :: more') (opens : token.opensTest = true)
    (opens' : token'.opensTest = true) :
    operand = operand' ∧ token :: more = token' :: more' := by
  cases spelled with
  | plain source name =>
    cases spelled' with
    | plain source' name' =>
      obtain ⟨rfl, rfl, ends⟩ := reference_unique same (Token.ne_dot_of_opensTest opens more)
        (Token.ne_dot_of_opensTest opens' more')
      exact ⟨rfl, ends⟩
    | upper source' name' called =>
      cases source with
      | none =>
        simp only [reference, List.cons_append, List.nil_append, List.cons.injEq] at same
        rw [same.2.1] at opens
        cases opens
      | some source => simp [reference] at same
    | utc source' name' first second third => cases source <;> simp [reference] at same
  | upper source name called =>
    cases spelled' with
    | plain source' name' =>
      cases source' with
      | none =>
        simp only [reference, List.cons_append, List.nil_append, List.cons.injEq] at same
        rw [← same.2.1] at opens'
        cases opens'
      | some source' => simp [reference] at same
    | upper source' name' called' =>
      simp only [List.cons_append, List.append_assoc, List.cons.injEq, true_and,
        List.nil_append] at same
      obtain ⟨rfl, rfl, ends⟩ := reference_unique same.2 (by simp) (by simp)
      exact ⟨rfl, (List.cons.inj ends).2⟩
    | utc source' name' first second third => simp at same
  | utc source name first second third =>
    cases spelled' with
    | plain source' name' => cases source' <;> simp [reference] at same
    | upper source' name' called => simp at same
    | utc source' name' first' second' third' =>
      simp only [List.cons_append, List.append_assoc, List.cons.injEq, true_and,
        List.nil_append] at same
      obtain ⟨rfl, rfl, ends⟩ := reference_unique same (by simp) (by simp)
      simp only [List.cons.injEq, true_and] at ends
      exact ⟨rfl, by rw [List.cons.injEq]; exact ends.2.2.2⟩

/-- No predicate begins with a column and a word behind it. -/
theorem Derives.ne_reference {level : Level} {reading : Reading Nat} (derives : Derives level ts reading)
    {source : Option String} {name word : String} {more : List Token} :
    ts ++ rest ≠ reference source name ++ .name word :: more := by
  intro same
  induction derives generalizing rest with
  | constant value => cases source <;> simp [reference] at same
  | test tested spelled =>
    obtain ⟨token, after, begins, opens⟩ := spelled.opens rest
    rw [List.append_assoc, begins] at same
    cases tested with
    | plain source' name' =>
      obtain ⟨_, _, ends⟩ := reference_unique same (Token.ne_dot_of_opensTest opens after) (by simp)
      cases (List.cons.inj ends).1
      cases opens
    | upper source' name' called => cases source <;> simp [reference] at same
    | utc source' name' first second third => cases source <;> simp [reference] at same
  | group inner ih => cases source <;> simp [reference] at same
  | primary inner ih => exact ih same
  | not inner ih => cases source <;> simp [reference] at same
  | chain first each ih =>
    rw [List.append_assoc] at same
    exact ih same

/-- No further member of a chain can follow. -/
def Level.Ends (level : Level) (rest : List Token) : Prop :=
  match level with
  | .primary | .negation => True
  | .chain .and => rest.head? ≠ some (.keyword .and)
  | .chain .or => rest.head? ≠ some (.keyword .and) ∧ rest.head? ≠ some (.keyword .or)

variable {connective : Connective}

theorem Level.Ends.ne_word (ends : (Level.chain connective).Ends rest) :
    rest.head? ≠ some (.keyword connective.word) := by
  cases connective with
  | and => exact ends
  | or => exact ends.2

theorem Level.Ends.member (ends : (Level.chain connective).Ends rest)
    (more : List (List Token × Reading Nat)) :
    connective.member.Ends
      ((more.flatMap fun part => .keyword connective.word :: part.1) ++ rest) := by
  cases connective with
  | and => trivial
  | or =>
    cases more with
    | nil => exact ends.1
    | cons part more => simp [Connective.member, Connective.word, Level.Ends]

theorem Operand.Spelled.begins {operand : Operand} (spelled : operand.Spelled ts) :
    ∃ token more, ts = token :: more ∧ ∀ word, token ≠ .keyword word := by
  cases spelled with
  | plain source name => cases source <;> exact ⟨_, _, rfl, nofun⟩
  | upper source name called => exact ⟨_, _, rfl, nofun⟩
  | utc source name first second third => exact ⟨_, _, rfl, nofun⟩

theorem Operand.Spelled.ne_keyword {operand : Operand} (spelled : operand.Spelled ts) {word : Keyword}
    {more : List Token} : ts ++ rest ≠ .keyword word :: more := by
  obtain ⟨token, after, rfl, other⟩ := spelled.begins
  intro same
  exact other word (List.cons.inj same).1

theorem Operand.Spelled.ne_group {operand : Operand} (spelled : operand.Spelled ts)
    {reading : Reading Nat} (derives : Derives (.chain .or) us reading) :
    ts ++ rest ≠ .opening :: us ++ rest' := by
  intro same
  cases spelled with
  | plain source name => cases source <;> simp [reference] at same
  | upper source name called => simp at same
  | utc source name first second third =>
    simp only [List.cons_append, List.append_assoc, List.cons.injEq, true_and] at same
    exact derives.ne_reference same.symm

theorem Derives.ne_not {reading : Reading Nat} (derives : Derives .primary ts reading)
    {more : List Token} : ts ++ rest ≠ .keyword .not :: more := by
  cases derives with
  | constant value => cases value <;> simp
  | test tested spelled =>
    rw [List.append_assoc]
    exact tested.ne_keyword
  | group inner => simp

/-- The members of a chain behind its first, each of which can be read in one way only. -/
theorem chain_unique {more more' : List (List Token × Reading Nat)}
    (each : ∀ part ∈ more, ∀ {us reading rest rest'}, Derives connective.member us reading →
      part.1 ++ rest = us ++ rest' → connective.member.Ends rest → connective.member.Ends rest' →
      part.2 = reading ∧ rest = rest')
    (each' : ∀ part ∈ more', Derives connective.member part.1 part.2)
    (same : (more.flatMap fun part => .keyword connective.word :: part.1) ++ rest =
      (more'.flatMap fun part => .keyword connective.word :: part.1) ++ rest')
    (ends : (Level.chain connective).Ends rest) (ends' : (Level.chain connective).Ends rest') :
    more.map Prod.snd = more'.map Prod.snd ∧ rest = rest' := by
  induction more generalizing more' with
  | nil =>
    cases more' with
    | nil => exact ⟨rfl, same⟩
    | cons part more' =>
      rw [List.flatMap_nil, List.nil_append] at same
      exact absurd (congrArg List.head? same) ends.ne_word
  | cons part more ih =>
    cases more' with
    | nil =>
      rw [List.flatMap_nil, List.nil_append] at same
      exact absurd (congrArg List.head? same.symm) ends'.ne_word
    | cons part' more' =>
      simp only [List.flatMap_cons, List.cons_append, List.append_assoc, List.cons.injEq,
        true_and] at same
      obtain ⟨first, later⟩ := each part (by simp) (each' part' (by simp)) same
        (ends.member more) (ends'.member more')
      obtain ⟨others, last⟩ := ih (fun part member => each part (List.mem_cons_of_mem _ member))
        (fun part member => each' part (List.mem_cons_of_mem _ member)) later
      exact ⟨by rw [List.map_cons, List.map_cons, first, others], last⟩

/-- What is derived from the left end of a text is the only reading there. -/
theorem Derives.unique {level : Level} {reading : Reading Nat} (derives : Derives level ts reading) :
    ∀ {us : List Token} {reading' : Reading Nat} {rest rest' : List Token},
      Derives level us reading' → ts ++ rest = us ++ rest' → level.Ends rest → level.Ends rest' →
      reading = reading' ∧ rest = rest' := by
  -- On the one derivation; what the other can begin with leaves it no other rule.
  induction derives with
  | constant value =>
    intro us reading' rest rest' other same ends ends'
    cases other with
    | constant value' => cases value <;> cases value' <;> simp_all
    | test tested spelled =>
      rw [List.append_assoc] at same
      exact absurd same.symm tested.ne_keyword
    | group inner => simp at same
  | test tested spelled =>
    intro us reading' rest rest' other same ends ends'
    rw [List.append_assoc] at same
    cases other with
    | constant value => exact absurd same tested.ne_keyword
    | test tested' spelled' =>
      obtain ⟨token, more, begins, opens⟩ := spelled.opens rest
      obtain ⟨token', more', begins', opens'⟩ := spelled'.opens rest'
      rw [List.append_assoc, begins, begins'] at same
      obtain ⟨rfl, tests⟩ := tested.unique tested' same opens opens'
      rw [← begins, ← begins'] at tests
      obtain ⟨rfl, after⟩ := spelled.unique spelled' tests
      exact ⟨rfl, after⟩
    | group inner =>
      rw [List.append_assoc] at same
      exact absurd same (tested.ne_group inner)
  | group inner ih =>
    intro us reading' rest rest' other same ends ends'
    rw [List.append_assoc] at same
    cases other with
    | constant value => simp at same
    | test tested' spelled' =>
      rw [List.append_assoc] at same
      exact absurd same.symm (tested'.ne_group inner)
    | group inner' =>
      rw [List.append_assoc] at same
      obtain ⟨rfl, after⟩ := ih inner' (List.cons.inj same).2 (by simp [Level.Ends])
        (by simp [Level.Ends])
      exact ⟨rfl, (List.cons.inj after).2⟩
  | primary inner ih =>
    intro us reading' rest rest' other same ends ends'
    cases other with
    | primary inner' => exact ih inner' same trivial trivial
    | not inner' => exact absurd same inner.ne_not
  | not inner ih =>
    intro us reading' rest rest' other same ends ends'
    cases other with
    | primary inner' => exact absurd same.symm inner'.ne_not
    | not inner' =>
      obtain ⟨rfl, after⟩ := ih inner' (List.cons.inj same).2 trivial trivial
      exact ⟨rfl, after⟩
  | chain first each ih ihs =>
    intro us reading' rest rest' other same ends ends'
    cases other with
    | chain first' each' =>
      rw [List.append_assoc, List.append_assoc] at same
      obtain ⟨rfl, later⟩ := ih first' same (ends.member _) (ends'.member _)
      obtain ⟨others, after⟩ := chain_unique ihs each' later ends ends'
      exact ⟨by rw [others], after⟩

theorem Reads.unique {text : List Char} {reading reading' : Reading Nat} (reads : Reads text reading)
    (reads' : Reads text reading') : reading' = reading := by
  have ends : (Level.chain .or).Ends [] := by simp [Level.Ends]
  have same : tokens text ++ [] = tokens text ++ [] := rfl
  exact (Derives.unique reads' reads same ends ends).1

end RequestFilter.Sql
