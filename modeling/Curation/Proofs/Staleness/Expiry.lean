import Curation.Proofs.Staleness.Run
import Curation.Proofs.Time.LocalDay

/-!
# Expiry of results

A result expires once as many nanoseconds have passed as its rule set says, whatever number of
seconds that is. Longer times than spans can hold are cut down to the longest span, but no two
instants are that far apart: such a result never expires, and none expires early.

* `Instant.nanosecond`: instants counted in nanoseconds; outside leap seconds, their order and the
  time between them are those of the counts.
* `Instant.elapsed_lt_maxSpan`: between two instants, less time passes than the longest span.
* `RuleSet.refreshNanos_le_elapsed_iff`: expiry, in numbers without bounds.
* `RuleSet.isStale_refreshNanos`: when a result is evaluated again, and that it stays so.
-/

namespace Curation

namespace Instant

/-- The instant is one that records can hold and lies outside leap seconds. -/
structure IsRegular (t : Instant) : Prop where
  inRange : t.inRange = true
  not_leap : t.isLeap = false

/-- The number of nanoseconds from 1970-01-01T00:00:00 UTC to an instant outside leap seconds. -/
def nanosecond (t : Instant) : Int := t.second * 1000000000 + t.nano

variable {a b : Instant}

/-- A regular instant has less than 10⁹ nanoseconds. -/
theorem IsRegular.nano_lt (h : a.IsRegular) : a.nano < 1000000000 :=
  Nat.not_le.mp (of_decide_eq_false h.not_leap)

/-- Regular instants are ordered by their nanoseconds since 1970. -/
theorem IsRegular.le_iff (ha : a.IsRegular) (hb : b.IsRegular) :
    a ≤ b ↔ a.nanosecond ≤ b.nanosecond := by
  have := ha.nano_lt
  have := hb.nano_lt
  rw [le_def, nanosecond, nanosecond]
  omega

/-- Between regular instants, the nanoseconds that elapse are those of their difference. -/
theorem IsRegular.elapsed_eq (ha : a.IsRegular) (hb : b.IsRegular) :
    a.elapsed b = a.nanosecond - b.nanosecond :=
  Instant.elapsed_eq ha.not_leap hb.not_leap

/-- Time holds fewer nanoseconds than the longest span. -/
theorem elapsed_lt_maxSpan (ha : a.IsRegular) (hb : b.IsRegular) :
    a.elapsed b < maxSpanMillis * 1000000 := by
  have hfirst : Date.firstDayNumber = -96465292 := by rfl
  have hend : Date.endDayNumber = 95026237 := by rfl
  have hnano := ha.nano_lt
  have ha' := inRange_iff.mp ha.inRange
  have hb' := inRange_iff.mp hb.inRange
  rw [hfirst, hend] at ha' hb'
  rw [ha.elapsed_eq hb, nanosecond, nanosecond, maxSpanMillis]
  omega

end Instant

/-- Below the longest span, cutting spans down to it does not change which ones are over. -/
theorem spanMillis_le_iff {elapsed : Int} (h : elapsed < maxSpanMillis * 1000000) (secs : Int) :
    spanMillis secs * 1000000 ≤ elapsed ↔ secs * 1000000000 ≤ elapsed := by
  unfold spanMillis
  split
  · omega
  · -- the span is cut down, and neither side holds
    rw [maxSpanMillis] at *
    omega

namespace RuleSet

variable {set : RuleSet} {last now later : Instant}

/-- Between two instants, a result expires exactly if the seconds of its rule set have passed. -/
theorem refreshNanos_le_elapsed_iff (hlast : last.IsRegular) (hnow : now.IsRegular) :
    set.refreshNanos ≤ now.elapsed last ↔
      (set.refreshIntervalSecs.toNat : Int) * 1000000000 ≤ now.nanosecond - last.nanosecond := by
  rw [refreshNanos, refreshMillis, spanMillis_le_iff (Instant.elapsed_lt_maxSpan hnow hlast),
    hnow.elapsed_eq hlast]

/-- A result that has expired stays expired. -/
theorem refreshNanos_le_elapsed_of_le (hlast : last.IsRegular) (hnow : now.IsRegular)
    (hlater : later.IsRegular) (hle : now ≤ later) (h : set.refreshNanos ≤ now.elapsed last) :
    set.refreshNanos ≤ later.elapsed last := by
  rw [hnow.le_iff hlater] at hle
  rw [refreshNanos_le_elapsed_iff hlast hnow] at h
  rw [refreshNanos_le_elapsed_iff hlast hlater]
  omega

/-- A result that was evaluated is evaluated again exactly if that was later than now, if the
seconds of its rule set have passed since, or if it was invalidated after it. Unless the evaluation
was later, the result stays expired once it is, and is evaluated again from then on. -/
theorem isStale_refreshNanos (set : RuleSet) {last now : Instant} (hlast : last.IsRegular)
    (hnow : now.IsRegular) (invalidated : Option Instant) :
    let state : StalenessState := ⟨some last, invalidated⟩
    (state.isStale set.refreshNanos now = true ↔
      now < last ∨
      (set.refreshIntervalSecs.toNat : Int) * 1000000000 ≤ now.nanosecond - last.nanosecond ∨
      ∃ since, invalidated = some since ∧ last < since) ∧
    (last ≤ now → ∀ later : Instant, later.IsRegular → now ≤ later →
      (set.refreshNanos ≤ now.elapsed last → set.refreshNanos ≤ later.elapsed last) ∧
      (state.isStale set.refreshNanos now = true →
        state.isStale set.refreshNanos later = true)) := by
  intro state
  have hstale (t : Instant) : state.isStale set.refreshNanos t = true ↔
      t < last ∨ set.refreshNanos ≤ t.elapsed last ∨ state.isInvalidatedAfter last = true :=
    StalenessState.isStale_of_lastEvaluated rfl
  have hinvalidated : state.isInvalidatedAfter last = true ↔
      ∃ since, invalidated = some since ∧ last < since := by
    cases invalidated <;> simp [state, StalenessState.isInvalidatedAfter]
  refine ⟨?_, fun hle later hlater hnext => ⟨?_, fun h => ?_⟩⟩
  · rw [hstale, refreshNanos_le_elapsed_iff hlast hnow, hinvalidated]
  · exact refreshNanos_le_elapsed_of_le hlast hnow hlater hnext
  · -- the evaluation is not later than now, so one of the other two causes remains
    rw [hstale] at h ⊢
    rcases h with hlt | hexpired | hinvalid
    · exact absurd hle (Instant.not_le.mpr hlt)
    · exact .inr (.inl (refreshNanos_le_elapsed_of_le hlast hnow hlater hnext hexpired))
    · exact .inr (.inr hinvalid)

/-- An hour is over after 3600 seconds and not a nanosecond earlier, and stays over until the end of
time; the greatest number of seconds is never over. -/
theorem isStale_refreshNanos_hour :
    let hour : RuleSet := { id := "hour", logic := .and }
    let longest : RuleSet := { hour with refreshIntervalSecs := 18446744073709551615 }
    let state : StalenessState := ⟨some ⟨0, 0⟩, none⟩
    state.isStale hour.refreshNanos ⟨3599, 999999999⟩ = false ∧
      state.isStale hour.refreshNanos ⟨3600, 0⟩ = true ∧
      state.isStale hour.refreshNanos Instant.latest = true ∧
      StalenessState.isStale ⟨some Instant.earliest, none⟩ longest.refreshNanos Instant.latest =
        false := by
  intro hour longest state
  have hstart : Instant.IsRegular ⟨0, 0⟩ := ⟨by decide, by decide⟩
  have hbefore : Instant.IsRegular ⟨3599, 999999999⟩ := ⟨by decide, by decide⟩
  have hafter : Instant.IsRegular ⟨3600, 0⟩ := ⟨by decide, by decide⟩
  have hearliest : Instant.earliest.IsRegular := ⟨by decide, by decide⟩
  have hlatest : Instant.latest.IsRegular := ⟨by decide, by decide⟩
  -- an hour has passed to the nanosecond
  obtain ⟨hiff, hstays⟩ := isStale_refreshNanos hour hstart hafter none
  have hover : state.isStale hour.refreshNanos ⟨3600, 0⟩ = true := hiff.mpr (by decide)
  refine ⟨?_, hover, (hstays (by decide) _ hlatest (by decide)).2 hover, ?_⟩
  · exact Bool.eq_false_iff.mpr
      (mt (isStale_refreshNanos hour hstart hbefore none).1.mp (by simp; decide))
  -- 2⁶⁴ - 1 seconds do not pass between any two instants
  · exact Bool.eq_false_iff.mpr
      (mt (isStale_refreshNanos longest hearliest hlatest none).1.mp (by simp; decide))

end RuleSet

end Curation
