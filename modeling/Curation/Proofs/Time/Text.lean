import Curation.Proofs.Number.Digits
import Curation.Proofs.Time.LocalDay
import Curation.Time.Text

/-!
# Reading written instants

An instant is read back from its text, whatever its year and its fraction of a second, and also in
a leap second that ends a minute. A leap second anywhere else is told as the second after it.

* `Date.readWritten?_write`: a date is read back.
* `Instant.written`: the instant that the text of an instant tells.
* `Instant.ofText?_text`: that instant is read from the text.
-/

namespace Curation

namespace Text

theorem trimStart_cons {c : Char} (h : isBlank c = false) (s : List Char) :
    trimStart (c :: s) = c :: s :=
  List.dropWhile_cons_of_neg (by rw [h]; decide)

/-- No digit is blank. -/
theorem isBlank_of_isDigit {c : Char} (h : c.isDigit) : isBlank c = false := by
  rw [Char.isDigit_iff_toNat] at h
  have hbounds : 48 ≤ c.toNat ∧ c.toNat ≤ 57 := h
  simp only [isBlank, Bool.or_eq_false_iff, Bool.and_eq_false_iff, decide_eq_false_iff_not,
    beq_eq_false_iff_ne]
  omega

end Text

section Numbers

variable {width n : Nat}

/-- A text that starts with a written number does not start with a blank. -/
theorem trimStart_padded (hwidth : 0 < width) (h : n < Nat.pow 10 width) (rest : List Char) :
    Text.trimStart (Digits.padded width n ++ rest) = Digits.padded width n ++ rest := by
  have hlength := Digits.length_padded hwidth h
  obtain ⟨c, digits, hdigits⟩ :=
    List.exists_cons_of_ne_nil (List.ne_nil_of_length_pos (hlength ▸ hwidth))
  have hc : c.isDigit := Digits.isDigit_of_mem_padded (by rw [hdigits]; exact List.mem_cons_self)
  rw [hdigits, List.cons_append, Text.trimStart_cons (Text.isBlank_of_isDigit hc)]

/-- A number is read back from as many digits as may be read. -/
theorem readNumber?_padded (hwidth : 0 < width) (h : n < Nat.pow 10 width) (rest : List Char) :
    readNumber? width (Digits.padded width n ++ rest) = some (n, rest) := by
  have hlength := Digits.length_padded hwidth h
  have hdigits : ∀ c ∈ Digits.padded width n, c.isDigit := fun c => Digits.isDigit_of_mem_padded
  -- the field takes all of the digits and no more
  have htake : (Digits.padded width n ++ rest).take width = Digits.padded width n :=
    List.take_left' hlength
  have hne : ¬ (Digits.padded width n).isEmpty := by
    rw [List.isEmpty_iff_length_eq_zero, hlength]
    omega
  have hwhile : (Digits.padded width n ++ []).takeWhile Char.isDigit = Digits.padded width n :=
    Digits.takeWhile_isDigit_append hdigits nofun
  rw [List.append_nil] at hwhile
  simp only [readNumber?, trimStart_padded hwidth h, htake, hwhile, if_neg hne, Digits.value_padded,
    List.drop_left]

/-- A number below 100 is read back. -/
theorem readNumber?_two (h : n < 100) (rest : List Char) :
    readNumber? 2 (Digits.padded 2 n ++ rest) = some (n, rest) :=
  readNumber?_padded (by decide : 0 < 2) h rest

end Numbers

theorem padded_ne_nil (width n : Nat) : Digits.padded width n ≠ [] :=
  List.append_ne_nil_of_right_ne_nil _ (Digits.ofNat_ne_nil n)

/-- A year is read back if no digit follows it. -/
theorem readYear?_yearText (year : Int) {rest : List Char} (hrest : ∀ c ∈ rest.head?, ¬ c.isDigit) :
    readYear? (yearText year ++ rest) = some (year, rest) := by
  rw [yearText]
  split
  · next hyear =>
    have hlt : year.toNat < 10000 := by omega
    have htrim := trimStart_padded (by decide : 0 < 4) hlt rest
    have hread := readNumber?_padded (by decide : 0 < 4) hlt rest
    obtain ⟨c, digits, hdigits⟩ := List.exists_cons_of_ne_nil (padded_ne_nil 4 year.toNat)
    have hc : c.isDigit := Digits.isDigit_of_mem_padded (by rw [hdigits]; exact List.mem_cons_self)
    rw [readYear?, htrim]
    -- the first digit is no sign
    split
    · next heq =>
      rw [hdigits, List.cons_append, List.cons.injEq] at heq
      rw [heq.1] at hc
      cases hc
    · next heq =>
      rw [hdigits, List.cons_append, List.cons.injEq] at heq
      rw [heq.1] at hc
      cases hc
    · rw [hread, Option.map_some]
      simp only [Int.toNat_of_nonneg hyear.1]
  · next hyear =>
    have hdigits : ∀ c ∈ Digits.padded 4 year.natAbs, c.isDigit :=
      fun c => Digits.isDigit_of_mem_padded
    have hne : (Digits.padded 4 year.natAbs).isEmpty = false :=
      List.isEmpty_eq_false_iff.mpr (padded_ne_nil 4 year.natAbs)
    split
    · next hneg =>
      rw [List.cons_append, readYear?, Text.trimStart_cons (by decide)]
      simp only [Digits.takeWhile_isDigit_append hdigits hrest,
        Digits.dropWhile_isDigit_append hdigits hrest, hne, Digits.value_padded, Bool.false_eq_true,
        if_false, Option.map_some]
      rw [Int.ofNat_natAbs_of_nonpos (Int.le_of_lt hneg), Int.neg_neg]
    · next hneg =>
      rw [List.cons_append, readYear?, Text.trimStart_cons (by decide)]
      simp only [Digits.takeWhile_isDigit_append hdigits hrest,
        Digits.dropWhile_isDigit_append hdigits hrest, hne, Digits.value_padded, Bool.false_eq_true,
        if_false, Option.map_some]
      rw [Int.natAbs_of_nonneg (Int.not_lt.mp hneg)]

theorem Date.month_lt_hundred (d : Date) : d.month < 100 := by
  have := d.month_le
  omega

theorem Date.day_lt_hundred (d : Date) : d.day < 100 := by
  have := d.day_le
  have := (daysInMonth_bounds d.year d.month).2
  omega

/-- A date is read back, whatever follows it. -/
theorem Date.readWritten?_write {d : Date} (h : d.inRange) (rest : List Char) :
    readWritten? (d.write '-' ++ rest) = some (d, rest) := by
  have hdash : ∀ s : List Char, afterChar? '-' (Text.trimStart ('-' :: s)) = some s := fun s => by
    rw [Text.trimStart_cons (by decide), afterChar?, if_pos rfl]
  rw [write, List.append_assoc, List.cons_append, List.append_assoc, List.cons_append, readWritten?,
    readYear?_yearText d.year (by simp)]
  simp only [Option.bind_eq_bind, Option.bind_some, hdash, readNumber?_two d.month_lt_hundred,
    readNumber?_two d.day_lt_hundred, checked?, ofFields?_fields, Option.filter_some, h, if_true]

/-- The digits of a fraction tell nanoseconds, with zeros behind them. -/
theorem fractionNanos_padded {width n : Nat} (hwidth : 0 < width) (hle : width ≤ 9)
    (h : n < Nat.pow 10 width) :
    fractionNanos (Digits.padded width n) = n * Nat.pow 10 (9 - width) := by
  have hlength := Digits.length_padded hwidth h
  rw [fractionNanos, List.take_of_length_le (by omega), Digits.value_padded, hlength]

/-- A written fraction is read back if no digit follows. -/
theorem readFraction?_padded {width n : Nat} (hwidth : 0 < width) (hle : width ≤ 9)
    (h : n < Nat.pow 10 width) {rest : List Char} (hrest : ∀ c ∈ rest.head?, ¬ c.isDigit) :
    readFraction? ('.' :: Digits.padded width n ++ rest) =
      some (n * Nat.pow 10 (9 - width), rest) := by
  have hdigits : ∀ c ∈ Digits.padded width n, c.isDigit := fun c => Digits.isDigit_of_mem_padded
  rw [List.cons_append, readFraction?]
  simp only [Digits.takeWhile_isDigit_append hdigits hrest,
    Digits.dropWhile_isDigit_append hdigits hrest, fractionNanos_padded hwidth hle h,
    List.isEmpty_eq_false_iff.mpr (padded_ne_nil width n), Bool.false_eq_true, if_false]

/-- The nanoseconds of a second are read back in front of an offset. -/
theorem readFraction?_fractionText {nano : Nat} (h : nano < Instant.nanos) :
    readFraction? (fractionText nano ++ ['Z']) = some (nano, ['Z']) := by
  have hlt : nano < 1000000000 := h
  have hrest : ∀ c ∈ ['Z'].head?, ¬ c.isDigit := fun c hc => by cases hc; decide
  -- none, three, six or nine digits are written
  rw [fractionText]
  split
  · next hzero => rw [hzero, List.nil_append, readFraction?]; nofun
  · split
    · have hdigits : nano / 1000000 < 1000 := by omega
      have hnano : nano / 1000000 * 1000000 = nano := by omega
      exact (readFraction?_padded (by decide) (by decide) hdigits hrest).trans (by rw [hnano])
    · split
      · have hdigits : nano / 1000 < 1000000 := by omega
        have hnano : nano / 1000 * 1000 = nano := by omega
        exact (readFraction?_padded (by decide) (by decide) hdigits hrest).trans (by rw [hnano])
      · exact (readFraction?_padded (by decide) (by decide) hlt hrest).trans (by simp)

namespace Instant

/-- The instants that have a text: records can hold their second, and a leap second lasts for one
second. -/
def IsWritable (t : Instant) : Prop := t.inRange ∧ t.nano < 2 * nanos

instance (t : Instant) : Decidable t.IsWritable := inferInstanceAs (Decidable (_ ∧ _))

/-- The instant that the text of an instant tells: a leap second within a minute is told as the
second after it. -/
def written (t : Instant) : Instant :=
  if t.isLeap ∧ t.second % 60 ≠ 59 then ⟨t.second + 1, t.nano - nanos⟩ else t

/-- The date of an instant that records can hold is a date that they can hold. -/
theorem inRange_date {t : Instant} (h : t.inRange) : t.date.inRange := by
  have hnumber : t.date.dayNumber = t.second / 86400 := Date.dayNumber_ofDayNumber _
  rw [inRange_iff] at h
  rw [Date.inRange_iff]
  omega

/-- The instant that a text tells is one that records can hold. -/
theorem inRange_written {t : Instant} (h : t.inRange) : t.written.inRange := by
  rw [written]
  split
  · next hleap =>
    -- the last second that records can hold ends a minute
    have hlast : latest.second % 60 = 59 := rfl
    simp only [inRange, Bool.and_eq_true, decide_eq_true_eq] at h ⊢
    omega
  · exact h

/-- An instant is put together from its date and the fields of its time, second 60 being a leap
second. -/
theorem ofFields?_fields {t : Instant} (h : t.IsWritable) :
    ofFields? t.date (t.secondOfDay.toNat / 3600) (t.secondOfDay.toNat / 60 % 60)
      (t.secondOfDay.toNat % 60 + t.nano / nanos) (t.nano % nanos) 0 = some t.written := by
  obtain ⟨hrange, hnano⟩ := h
  have hchecked : checked? t.written = some t.written := if_pos (inRange_written hrange)
  have hdate : t.date.dayNumber = t.second / 86400 := Date.dayNumber_ofDayNumber _
  have hday : t.secondOfDay = t.second % 86400 := rfl
  have hnanos : nanos = 1000000000 := rfl
  rw [hnanos] at hnano
  rw [ofFields?, hnanos, daySeconds, hdate, if_pos (by omega)]
  rw [← hchecked, written, isLeap, hnanos]
  simp only [decide_eq_true_eq]
  split
  -- a leap second is told by the second sixty, which is kept in the part of a second
  · next hsixty =>
    rw [if_neg (by omega)]
    congr 1
    simp only [ext_iff]
    omega
  · congr 1
    split
    · simp only [Instant.mk.injEq]
      omega
    · simp only [ext_iff]
      omega

/-- What is told of an instant is read from its text. -/
theorem ofText?_text {t : Instant} (h : t.IsWritable) : ofText? t.text = some t.written := by
  have hfields := ofFields?_fields h
  have hnanos : nanos = 1000000000 := rfl
  have hday : t.secondOfDay = t.second % 86400 := rfl
  have hnano := h.2
  rw [hnanos] at hnano
  -- the fields have two digits each
  have hhour : t.secondOfDay.toNat / 3600 < 100 := by omega
  have hminute : t.secondOfDay.toNat / 60 % 60 < 100 := by omega
  have hsecond : t.secondOfDay.toNat % 60 + t.nano / nanos < 100 := by rw [hnanos]; omega
  have hfraction : t.nano % nanos < nanos := Nat.mod_lt _ (by decide)
  -- blanks are skipped before the colons and the zone, and none is written there
  have hcolon : ∀ s : List Char, afterChar? ':' (Text.trimStart (':' :: s)) = some s := fun s => by
    rw [Text.trimStart_cons (by decide), afterChar?, if_pos rfl]
  have hzone : readOffset? (Text.trimStart ['Z']) = some (0, []) := by decide
  rw [ofText?, text, String.toList_ofList, Date.readWritten?_write (inRange_date h.1)]
  simp only [Option.bind_eq_bind, Option.bind_some, true_or, if_true, readNumber?_two hhour,
    readNumber?_two hminute, readNumber?_two hsecond, hcolon, readFraction?_fractionText hfraction,
    hzone]
  exact hfields

end Instant

end Curation
