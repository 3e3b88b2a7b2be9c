import RequestFilter.Calendar.ZoneNames
import RequestFilter.Proofs.IntegerCasts
import RequestFilter.Proofs.Texts.Values
import RequestFilter.Proofs.ZoneClocks

namespace RequestFilter

namespace ValueReader

open Text

variable {zones : ZoneTable} {zone : Zone} {cs clock name : List Char}

theorem zoneSuffix?_none (plain : cs.getLast? ≠ some ']' ∨ '[' ∉ cs) : zoneSuffix? cs = none := by
  unfold zoneSuffix?
  split
  · rename_i closed
    have free : '[' ∉ cs := plain.resolve_left (· closed)
    refine cutFirst?_none fun c member => ?_
    have other : c ≠ '[' := fun bracket => free (bracket ▸ List.dropLast_subset cs member)
    simpa using other
  · rfl

theorem zoneSuffix?_some (free : '[' ∉ clock) (name : List Char) :
    zoneSuffix? (clock ++ '[' :: (name ++ [']'])) = some (clock, name) := by
  have whole : clock ++ '[' :: (name ++ [']']) = clock ++ '[' :: name ++ [']'] := by simp
  have before : ∀ c ∈ clock, (c == '[') = false := by
    intro c member
    have other : c ≠ '[' := fun bracket => free (bracket ▸ member)
    simpa using other
  rw [zoneSuffix?, whole, List.getLast?_concat, if_pos rfl, List.dropLast_concat,
    cutFirst?_append before rfl]

theorem zoned_plain (plain : zoneSuffix? cs = none) :
    zoned zones cs = ofOption "zoned date-time" .offsetDateTime Calendar.readRfc3339? cs := by
  simp only [zoned, plain]

variable (suffix : zoneSuffix? cs = some (clock, name))

include suffix

theorem zoned_unknown (unknown : zones name = none) :
    zoned zones cs = .error (.ofText cs "zoned date-time") := by
  simp only [zoned, suffix, unknown]

variable (known : zones name = some zone)

include known

theorem zoned_fixed {x : OffsetDateTime} (read : Calendar.readRfc3339? clock = some x) :
    zoned zones cs = .ok (.offsetDateTime (zone.ofInstant x.instant)) := by
  simp only [zoned, suffix, known, read]

variable (floating : Calendar.readRfc3339? clock = none)

include floating

theorem zoned_resolved {x : LocalDateTime} (read : Calendar.readLocal? clock = some x)
    {y : OffsetDateTime} (resolved : zone.resolve? x = some y) :
    zoned zones cs = .ok (.offsetDateTime y) := by
  simp only [zoned, suffix, known, floating, read, resolved]

theorem zoned_nonexistent {x : LocalDateTime} (read : Calendar.readLocal? clock = some x)
    (gap : zone.resolve? x = none) :
    zoned zones cs = .error (.nonexistent (String.ofList cs) (String.ofList name)) := by
  simp only [zoned, suffix, known, floating, read, gap]

theorem zoned_other (unread : Calendar.readLocal? clock = none) :
    zoned zones cs = .error (.ofText cs "zoned date-time") := by
  simp only [zoned, suffix, known, floating, unread]

end ValueReader

namespace FieldTypes

variable {zones : ZoneTable} {raw : List Char}

def invalidZoned (text : List Char) : Option (Except CastFault Value) :=
  some (.error (.invalid (String.ofList text) "zoned date-time"))

/-- The text is read as one value with or without a zone, or as none either way. -/
def ReadsAlike (types : FieldTypes) (raw : List Char) : Prop :=
  (∃ value, types.cast? .zonedDateTime raw = some (.ok value) ∧
    types.cast? .offsetDateTime raw = some (.ok value)) ∨
  types.cast? .zonedDateTime raw = invalidZoned (Text.trim raw) ∧
    types.cast? .offsetDateTime raw = some (.error (.invalid (String.ofList (Text.trim raw))
      "offset date-time (RFC 3339)"))

/-- What the text `clock[name]` is read as, where `name` is the name of the zone. -/
structure ReadsAt (zone : Zone) (text clock name : List Char)
    (cast : Option (Except CastFault Value)) : Prop where
  fixed : ∀ x, Calendar.readRfc3339? clock = some x →
    ∃ y, cast = some (.ok (.offsetDateTime y)) ∧ y.instant = x.instant ∧
      y.offset = zone.offsetAt x.instant
  floating : ∀ x, Calendar.readRfc3339? clock = none → Calendar.readLocal? clock = some x →
    (∃ y, cast = some (.ok (.offsetDateTime y)) ∧ y.clock = x ∧ zone.ofInstant y.instant = y) ∨
      cast = some (.error (.nonexistent (String.ofList text) (String.ofList name)))
  gap : ∀ x, Calendar.readRfc3339? clock = none → Calendar.readLocal? clock = some x →
    zone.ChangesOnce x → x.IsInner →
    (cast = some (.error (.nonexistent (String.ofList text) (String.ofList name))) ↔
      ∀ i, (zone.ofInstant i).clock ≠ x)
  other : Calendar.readRfc3339? clock = none → Calendar.readLocal? clock = none →
    cast = invalidZoned text

/-- White space around a text aside, it has a zone from its first bracket on, or it has none. -/
structure ReadsZoned (types : FieldTypes) (zones : ZoneTable) (raw : List Char) : Prop where
  plain : (Text.trim raw).getLast? ≠ some ']' ∨ '[' ∉ Text.trim raw → types.ReadsAlike raw
  unknown : ∀ clock name, Text.trim raw = clock ++ '[' :: (name ++ [']']) → '[' ∉ clock →
    zones name = none → types.cast? .zonedDateTime raw = invalidZoned (Text.trim raw)
  known : ∀ clock name zone, Text.trim raw = clock ++ '[' :: (name ++ [']']) → '[' ∉ clock →
    zones name = some zone →
    ReadsAt zone (Text.trim raw) clock name (types.cast? .zonedDateTime raw)

theorem cast?_eq_read {types : FieldTypes} {type : DataType} {operators : OperatorSet}
    {read : ValueReader} (described : types.describe? type = some ⟨type, operators, read⟩)
    (plain : type ≠ .string) (nonempty : Text.trim raw ≠ []) :
    types.cast? type raw = some (read (Text.trim raw)) := by
  have same : (String.ofList raw).toList = raw := String.toList_ofList
  rw [cast?, described, Option.map_some, FieldType.cast_eq_read plain (same.symm ▸ nonempty), same]

theorem cast?_zoned (zones : ZoneTable) (nonempty : Text.trim raw ≠ []) :
    (builtin zones).cast? .zonedDateTime raw = some (ValueReader.zoned zones (Text.trim raw)) :=
  cast?_eq_read rfl (by decide) nonempty

theorem cast?_blank {types : FieldTypes} {type : DataType} {operators : OperatorSet}
    {read : ValueReader} (described : types.describe? type = some ⟨type, operators, read⟩)
    (plain : type ≠ .string) (blank : Text.trim raw = []) :
    types.cast? type raw = some (.ok .null) := by
  rw [cast?, described, Option.map_some, FieldType.cast, if_neg plain, String.toList_ofList, blank]
  rfl

theorem readsAlike (plain : ValueReader.zoneSuffix? (Text.trim raw) = none) :
    (builtin zones).ReadsAlike raw := by
  by_cases blank : Text.trim raw = []
  · exact .inl ⟨.null, cast?_blank rfl (by decide) blank, cast?_blank rfl (by decide) blank⟩
  · have zoned := cast?_zoned zones blank
    have offset : (builtin zones).cast? .offsetDateTime raw = _ :=
      cast?_eq_read rfl (by decide) blank
    rw [ValueReader.zoned_plain plain] at zoned
    unfold ReadsAlike
    rw [zoned, offset]
    unfold ValueReader.offsetDateTime ValueReader.ofOption
    cases Calendar.readRfc3339? (Text.trim raw) with
    | none => exact .inr ⟨rfl, rfl⟩
    | some x => exact .inl ⟨_, rfl, rfl⟩

theorem readsAt {zone : Zone} {cs clock name : List Char}
    (suffix : ValueReader.zoneSuffix? cs = some (clock, name)) (known : zones name = some zone) :
    ReadsAt zone cs clock name (some (ValueReader.zoned zones cs)) where
  fixed x read := by
    refine ⟨zone.ofInstant x.instant, ?_, OffsetDateTime.instant_ofInstant x.instant _, rfl⟩
    rw [ValueReader.zoned_fixed suffix known read]
  floating x floating read := by
    cases resolved : zone.resolve? x with
    | none => exact .inr (by rw [ValueReader.zoned_nonexistent suffix known floating read resolved])
    | some y =>
      obtain ⟨same, shown⟩ := Zone.resolve?_some resolved
      refine .inl ⟨y, ?_, same, shown⟩
      rw [ValueReader.zoned_resolved suffix known floating read resolved]
  gap x floating read once inner := by
    rw [← Zone.resolve?_eq_none_iff once inner]
    cases resolved : zone.resolve? x with
    | none => simp [ValueReader.zoned_nonexistent suffix known floating read resolved]
    | some y => simp [ValueReader.zoned_resolved suffix known floating read resolved]
  other floating unread := by
    rw [ValueReader.zoned_other suffix known floating unread]
    rfl

theorem readsZoned_builtin (zones : ZoneTable) (raw : List Char) :
    (builtin zones).ReadsZoned zones raw := by
  have nonempty {clock name : List Char}
      (whole : Text.trim raw = clock ++ '[' :: (name ++ [']'])) : Text.trim raw ≠ [] := by
    simp [whole]
  constructor
  · intro plain
    exact readsAlike (ValueReader.zoneSuffix?_none plain)
  · intro clock name whole free unknown
    have suffix := ValueReader.zoneSuffix?_some free name
    rw [← whole] at suffix
    rw [cast?_zoned zones (nonempty whole), ValueReader.zoned_unknown suffix unknown]
    rfl
  · intro clock name zone whole free known
    have suffix := ValueReader.zoneSuffix?_some free name
    rw [← whole] at suffix
    rw [cast?_zoned zones (nonempty whole)]
    exact readsAt suffix known

/-- Clocks are set forward from two to three. -/
example : (builtin .standard).cast? .zonedDateTime "2024-03-31T02:30:00[Europe/Paris]".toList =
    some (.error (.nonexistent "2024-03-31T02:30:00[Europe/Paris]" "Europe/Paris")) := by
  decide +kernel

end FieldTypes

end RequestFilter
