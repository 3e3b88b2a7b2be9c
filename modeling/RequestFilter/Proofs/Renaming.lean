import Mathlib.Logic.Equiv.Defs
import RequestFilter.Proofs.Relocation

namespace RequestFilter

namespace Alias

def read? (text : String) : Option Alias :=
  let a : Alias := ⟨Digits.value (text.toList.drop 1)⟩
  if a.text = text then some a else none

theorem read?_text (a : Alias) : read? a.text = some a := by
  simp [read?, text]

/-- The text of the renamed alias; a text that spells none stays. -/
def renameText (rename : Equiv.Perm Alias) (source : String) : String :=
  match read? source with
  | some a => (rename a).text
  | none => source

@[simp] theorem renameText_text (rename : Equiv.Perm Alias) (a : Alias) :
    renameText rename a.text = (rename a).text := by
  rw [renameText, read?_text]

theorem dot_notMem_text (a : Alias) : '.' ∉ a.text.toList := by
  intro member
  simp only [text, String.toList_ofList, List.mem_cons] at member
  rcases member with same | digit
  · cases same
  · have isDigit := Digits.isDigit_ofNat digit
    cases isDigit

/-- The alias of a qualified name stands before its first dot. -/
theorem cutFirst?_qualified (a : Alias) (name : String) :
    Text.cutFirst? (· == '.') (a.text ++ "." ++ name).toList =
      some (a.text.toList, name.toList) := by
  have dotless : ∀ c ∈ a.text.toList, (c == '.') = false := by
    intro c member
    have other : c ≠ '.' := fun same => a.dot_notMem_text (same ▸ member)
    simpa using other
  have dot : (a.text ++ "." ++ name).toList = a.text.toList ++ '.' :: name.toList := by simp
  rw [dot]
  exact Text.cutFirst?_append dotless rfl name.toList

end Alias

def Join.rename (rename : Equiv.Perm Alias) (join : Join) : Join :=
  { join with own := rename join.own, parent := rename join.parent }

def Filter.rename (rename : Equiv.Perm Alias) : Filter → Filter :=
  Filter.relocate (Alias.renameText rename)

/-- The source of a column stands before the first dot. -/
def SortField.rename (rename : Equiv.Perm Alias) (field : SortField) : SortField :=
  match Text.cutFirst? (· == '.') field.key.toList with
  | some (source, name) =>
    { field with key := Alias.renameText rename (String.ofList source) ++ "." ++ String.ofList name }
  | none => field

theorem SortField.rename_columnOf (rename : Equiv.Perm Alias) (scalar : Scalar) (a : Alias)
    (direction : Direction) :
    SortField.rename rename ⟨String.ofList (scalar.columnOf a).sql, direction⟩ =
      ⟨String.ofList (scalar.columnOf (rename a)).sql, direction⟩ := by
  rw [SortField.rename, scalar.sql_columnOf, scalar.sql_columnOf, a.cutFirst?_qualified]
  simp

namespace Alias

/-- The alias that a table numbered by the one list has when numbered by the other. -/
def renumber (tables tables' : List Table) : Alias → Alias
  | ⟨0⟩ => ⟨0⟩
  | ⟨n + 1⟩ =>
    match tables[n]? with
    | some table => ⟨tables'.idxOf table + 1⟩
    | none => ⟨n + 1⟩

variable {tables tables' : List Table}

theorem renumber_idxOf (same : tables.Perm tables') (table : Table) :
    renumber tables tables' ⟨tables.idxOf table + 1⟩ = ⟨tables'.idxOf table + 1⟩ := by
  by_cases member : table ∈ tables
  · have found : tables[tables.idxOf table]? = some table := by
      rw [List.getElem?_eq_getElem (List.idxOf_lt_length_of_mem member), List.getElem_idxOf]
    simp only [renumber, found]
  · have missing : table ∉ tables' := fun found => member (same.mem_iff.mpr found)
    have outside : tables[tables.length]? = none := List.getElem?_eq_none (Nat.le_refl _)
    rw [List.idxOf_eq_length member, List.idxOf_eq_length missing, ← same.length_eq]
    simp only [renumber, outside]

theorem renumber_renumber (same : tables.Perm tables') (distinct : tables.Nodup) (a : Alias) :
    renumber tables' tables (renumber tables tables' a) = a := by
  obtain ⟨n⟩ := a
  cases n with
  | zero => rfl
  | succ n =>
    by_cases bound : n < tables.length
    · have here : tables.idxOf tables[n] = n := distinct.idxOf_getElem n bound
      have there := renumber_idxOf same tables[n]
      have back := renumber_idxOf same.symm tables[n]
      rw [here] at there back
      rw [there, back]
    · -- Both lists are of one length, so an alias beyond them stays either way.
      have outside : renumber tables tables' ⟨n + 1⟩ = ⟨n + 1⟩ := by
        simp [renumber, List.getElem?_eq_none (Nat.le_of_not_lt bound)]
      have outside' : renumber tables' tables ⟨n + 1⟩ = ⟨n + 1⟩ := by
        rw [same.length_eq] at bound
        simp [renumber, List.getElem?_eq_none (Nat.le_of_not_lt bound)]
      rw [outside, outside']

def renumbering (same : tables.Perm tables') (distinct : tables.Nodup) : Equiv.Perm Alias where
  toFun := renumber tables tables'
  invFun := renumber tables' tables
  left_inv := renumber_renumber same distinct
  right_inv := renumber_renumber same.symm (same.nodup_iff.mp distinct)

end Alias

end RequestFilter
