import RequestFilter.Calendar.Zone
import RequestFilter.Proofs.Instants

namespace RequestFilter

namespace Date

theorem year_next (d : Date) : d.next.year = d.year ∨ d.next.year = d.year + 1 := by
  unfold next
  split
  · exact .inl rfl
  · split
    · exact .inl rfl
    · exact .inr rfl

theorem year_previous (d : Date) : d.previous.year = d.year ∨ d.previous.year = d.year - 1 := by
  unfold previous
  split
  · exact .inl rfl
  · split
    · exact .inl rfl
    · exact .inr rfl

end Date

namespace LocalDateTime

theorem shift_back (x : LocalDateTime) {seconds : Int} (back : -86400 < seconds)
    (forward : seconds < 86400) : (x.shift seconds).shift (-seconds) = x := by
  apply eq_of_epochSecond
  · rw [epochSecond_shift _ (by omega) (by omega), epochSecond_shift _ back forward]
    omega
  · rfl

theorem year_shift (x : LocalDateTime) (seconds : Int) :
    x.date.year - 1 ≤ (x.shift seconds).date.year ∧
      (x.shift seconds).date.year ≤ x.date.year + 1 := by
  have next := x.date.year_next
  have previous := x.date.year_previous
  unfold shift
  dsimp only
  split
  · omega
  · split <;> omega

/-- A day away from the first and the last year. -/
def IsInner (clock : LocalDateTime) : Prop :=
  Calendar.firstYear < clock.date.year ∧ clock.date.year < Calendar.lastYear

end LocalDateTime

namespace OffsetDateTime

theorem instant_ofInstant (i : Instant) (offset : Offset) : (ofInstant i offset).instant = i :=
  congrArg Instant.mk (i.utc.shift_back offset.gt offset.lt)

theorem ofInstant_instant (x : OffsetDateTime) : ofInstant x.instant x.offset = x := by
  have gt := x.offset.gt
  have lt := x.offset.lt
  have clock : (x.clock.shift (-x.offset.seconds)).shift (- -x.offset.seconds) = x.clock :=
    x.clock.shift_back (by omega) (by omega)
  rw [neg_neg] at clock
  unfold ofInstant Instant.localAt instant
  rw [clock]

theorem epochSecond_instant (x : OffsetDateTime) :
    x.instant.utc.epochSecond = x.clock.epochSecond - x.offset.seconds :=
  congrArg Prod.fst x.moment_instant

end OffsetDateTime

namespace Zone

variable {zone : Zone} {clock : LocalDateTime} {x : OffsetDateTime}

/-- Within a day of a local date-time, the zone has no offset but the two that are in force a day
before and a day after it. -/
def ChangesOnce (zone : Zone) (clock : LocalDateTime) : Prop :=
  ∀ i : Instant, clock.epochSecond - 86400 < i.utc.epochSecond →
    i.utc.epochSecond < clock.epochSecond + 86400 →
    zone.offsetAt i = zone.offsetAt ⟨clock.dayBefore⟩ ∨
      zone.offsetAt i = zone.offsetAt ⟨clock.dayAfter⟩

theorem shows_iff : zone.shows x = true ↔ zone.ofInstant x.instant = x := by
  rw [shows, beq_iff_eq]
  constructor
  · intro offset
    rw [ofInstant, offset, x.ofInstant_instant]
  · intro same
    exact congrArg OffsetDateTime.offset same

theorem ofLocal?_some (found : zone.ofLocal? clock = some x) :
    x.clock = clock ∧ zone.shows x = true := by
  unfold ofLocal? at found
  dsimp only at found
  split at found
  · rename_i shown
    cases found
    exact ⟨rfl, shown⟩
  · split at found
    · rename_i shown
      cases found
      exact ⟨rfl, shown⟩
    · cases found

theorem resolve?_some (found : zone.resolve? clock = some x) :
    x.clock = clock ∧ zone.ofInstant x.instant = x := by
  obtain ⟨resolved, _⟩ := Option.filter_eq_some_iff.mp found
  obtain ⟨same, shown⟩ := ofLocal?_some resolved
  exact ⟨same, shows_iff.mp shown⟩

theorem isSupported_of_inner (inner : x.clock.IsInner) : isSupported x = true := by
  obtain ⟨first, last⟩ := inner
  have near := x.clock.year_shift (-x.offset.seconds)
  have year : x.instant.utc.date.year = (x.clock.shift (-x.offset.seconds)).date.year := rfl
  simp only [isSupported, Bool.and_eq_true, decide_eq_true_eq, year]
  omega

theorem resolve?_of_inner (inner : clock.IsInner) : zone.resolve? clock = zone.ofLocal? clock := by
  unfold resolve?
  cases found : zone.ofLocal? clock with
  | none => rfl
  | some x =>
    have same := (ofLocal?_some found).1
    have supported : isSupported x = true := isSupported_of_inner (same ▸ inner)
    rw [Option.filter_some, if_pos supported]

theorem ofLocal?_isSome {offset : Offset} (shown : zone.shows ⟨clock, offset⟩ = true)
    (known : offset = zone.offsetAt ⟨clock.dayBefore⟩ ∨ offset = zone.offsetAt ⟨clock.dayAfter⟩) :
    zone.ofLocal? clock ≠ none := by
  unfold ofLocal?
  dsimp only
  rcases known with rfl | rfl
  · rw [if_pos shown]
    exact Option.some_ne_none _
  · by_cases earlier : zone.shows ⟨clock, zone.offsetAt ⟨clock.dayBefore⟩⟩ = true
    · rw [if_pos earlier]
      exact Option.some_ne_none _
    · rw [if_neg earlier, if_pos shown]
      exact Option.some_ne_none _

/-- Only a clock that the zone never shows is at no instant. -/
theorem resolve?_eq_none_iff (once : zone.ChangesOnce clock) (inner : clock.IsInner) :
    zone.resolve? clock = none ↔ ∀ i, (zone.ofInstant i).clock ≠ clock := by
  rw [resolve?_of_inner inner]
  constructor
  · rintro none i rfl
    have gt := (zone.offsetAt i).gt
    have lt := (zone.offsetAt i).lt
    have instant : (zone.ofInstant i).instant = i := OffsetDateTime.instant_ofInstant i _
    have second := (zone.ofInstant i).epochSecond_instant
    have offset : (zone.ofInstant i).offset = zone.offsetAt i := rfl
    rw [instant, offset] at second
    -- An instant that shows the clock is less than a day off, so its offset is one of those tried.
    have shown : zone.shows (zone.ofInstant i) = true := shows_iff.mpr (by rw [instant])
    exact ofLocal?_isSome shown (once i (by omega) (by omega)) none
  · intro never
    cases found : zone.ofLocal? clock with
    | none => rfl
    | some x =>
      obtain ⟨same, shown⟩ := ofLocal?_some found
      exact absurd same (shows_iff.mp shown ▸ never x.instant)

end Zone

end RequestFilter
