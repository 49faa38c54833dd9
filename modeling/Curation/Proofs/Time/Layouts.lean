import Curation.Proofs.Text.Collapsing
import Curation.Proofs.Time.Text

/-!
# Dates in the supported layouts

A date with a year of four digits is read back in three layouts with three separators. Where the
year comes last, day and month are told apart by their order alone: points and dashes are taken to
put the day first, slashes the month. A date in the other order is read back if its day cannot be a
month, and with day and month exchanged if it can.

* `DateLayout.text`: the fields of a date in a layout.
* `DateLayout.read?_text`: a layout reads the fields that are written in it.
* `Date.ofText?_append_text_append`: the layouts that are tried on a text, and in which order.
* `Date.ofText?_between_blanks`: what is read of a date in each layout.
-/

namespace Curation

/-- The fields of a date in a layout, with a separator between each two. -/
def DateLayout.text (layout : DateLayout) (separator : Char) (year : Int) (month day : Nat) :
    List Char :=
  match layout with
  | yearMonthDay =>
    yearText year ++ separator :: (Digits.padded 2 month ++ separator :: Digits.padded 2 day)
  | dayMonthYear =>
    Digits.padded 2 day ++ separator :: (Digits.padded 2 month ++ separator :: yearText year)
  | monthDayYear =>
    Digits.padded 2 month ++ separator :: (Digits.padded 2 day ++ separator :: yearText year)

/-- The date with day and month exchanged, which there is if the day can be a month. -/
def Date.exchanged (d : Date) (h : d.day ≤ 12) : Date where
  year := d.year
  month := d.day
  day := d.month
  month_pos := d.day_pos
  month_le := h
  day_pos := d.month_pos
  day_le :=
    Nat.le_trans (Nat.le_trans d.month_le (by decide)) (daysInMonth_bounds d.year d.day).1

section Fields

variable {separator : Char} (hseparator : separator ∈ ['-', '/', '.']) {year : Int}
  {month day : Nat} (hmonth : month < 100) (hday : day < 100)

include hseparator in
theorem isDigit_separator : separator.isDigit = false := by
  simp only [List.mem_cons, List.not_mem_nil, or_false] at hseparator
  rcases hseparator with rfl | rfl | rfl <;> rfl

include hseparator in
theorem isBlank_separator : Text.isBlank separator = false := by
  simp only [List.mem_cons, List.not_mem_nil, or_false] at hseparator
  rcases hseparator with rfl | rfl | rfl <;> rfl

include hseparator hmonth hday in
/-- A layout reads the fields that are written in it. -/
theorem DateLayout.read?_text (layout : DateLayout) :
    layout.read? separator (layout.text separator year month day) =
      Date.checked? year month day := by
  have hdigit := isDigit_separator hseparator
  have hafter : ∀ s : List Char, afterChar? separator (separator :: s) = some s := fun s => by
    rw [afterChar?, if_pos rfl]
  -- the day, month or year that comes last has nothing behind it
  have hlast : readNumber? 2 (Digits.padded 2 day) = some (day, []) := by
    simpa using readNumber?_two hday []
  have hyear : readYear? (yearText year ++ []) = some (year, []) :=
    readYear?_yearText year (by simp)
  rw [List.append_nil] at hyear
  -- a year that comes first stops at the separator, which is no digit
  have hfirst : ∀ s : List Char,
      readYear? (yearText year ++ separator :: s) = some (year, separator :: s) :=
    fun s => readYear?_yearText year (by simpa using hdigit)
  cases layout <;>
    simp only [read?, text, Option.bind_eq_bind, Option.bind_some, hafter, hlast, hyear, hfirst,
      readNumber?_two hmonth, readNumber?_two hday, List.isEmpty_nil, if_true]

include hseparator in
/-- No blank stands in the text of a layout. -/
theorem DateLayout.isBlank_eq_false_of_mem_text {layout : DateLayout}
    (hyear : 0 ≤ year ∧ year ≤ 9999) {c : Char} (hc : c ∈ layout.text separator year month day) :
    Text.isBlank c = false := by
  have hblank := isBlank_separator hseparator
  have hdigits : ∀ {width n : Nat}, c ∈ Digits.padded width n → Text.isBlank c = false := fun h =>
    Text.isBlank_of_isDigit (Digits.isDigit_of_mem_padded h)
  cases layout <;>
    · simp only [text, yearText, if_pos hyear, List.mem_append, List.mem_cons] at hc
      rcases hc with h | rfl | h | rfl | h <;> first | exact hblank | exact hdigits h

/-- The first separator in the text of a layout stands after its first digits. -/
theorem DateLayout.exists_text_eq_append (layout : DateLayout) (separator : Char)
    (hyear : 0 ≤ year ∧ year ≤ 9999) (hmonth : month < 100) (hday : day < 100) :
    ∃ digits rest : List Char, layout.text separator year month day = digits ++ separator :: rest ∧
      (∀ c ∈ digits, c.isDigit) ∧ digits.length = if layout = yearMonthDay then 4 else 2 := by
  have hdigits : ∀ width n, ∀ c ∈ Digits.padded width n, c.isDigit := fun width n c =>
    Digits.isDigit_of_mem_padded
  cases layout with
  | yearMonthDay =>
    have hlt : year.toNat < 10000 := by omega
    rw [text, yearText, if_pos hyear]
    exact ⟨_, _, rfl, hdigits 4 _, Digits.length_padded (by decide) hlt⟩
  | dayMonthYear => exact ⟨_, _, rfl, hdigits 2 day, Digits.length_padded (by decide) hday⟩
  | monthDayYear => exact ⟨_, _, rfl, hdigits 2 month, Digits.length_padded (by decide) hmonth⟩

include hseparator hmonth hday in
/-- The separator of a layout is the first one that its text has. -/
theorem DateLayout.find?_text (layout : DateLayout) (hyear : 0 ≤ year ∧ year ≤ 9999) :
    (layout.text separator year month day).find? (fun c => c == '-' || c == '/' || c == '.') =
      some separator := by
  obtain ⟨digits, rest, htext, hdigits, -⟩ :=
    layout.exists_text_eq_append separator hyear hmonth hday
  -- a digit is no separator
  have hnone : digits.find? (fun c => c == '-' || c == '/' || c == '.') = none := by
    refine List.find?_eq_none.mpr fun c hc hfound => ?_
    have hmem : c ∈ ['-', '/', '.'] := by simpa [or_assoc] using hfound
    exact Bool.eq_false_iff.mp (isDigit_separator hmem) (hdigits c hc)
  have hfound : (separator == '-' || separator == '/' || separator == '.') = true := by
    simpa [or_assoc] using hseparator
  rw [htext, List.find?_append, hnone, Option.none_or]
  exact List.find?_cons_of_pos hfound

include hseparator hmonth hday in
/-- A text starts with a year of four digits just if its layout does. -/
theorem DateLayout.startsWithYear_text (layout : DateLayout) (hyear : 0 ≤ year ∧ year ≤ 9999) :
    startsWithYear (layout.text separator year month day) = decide (layout = yearMonthDay) := by
  obtain ⟨digits, rest, htext, hdigits, hlength⟩ :=
    layout.exists_text_eq_append separator hyear hmonth hday
  have hdigit := isDigit_separator hseparator
  rw [startsWithYear, htext]
  by_cases hlayout : layout = yearMonthDay
  · rw [if_pos hlayout] at hlength
    rw [List.take_left' hlength, decide_eq_true hlayout, hlength, List.all_eq_true.mpr hdigits]
    rfl
  · -- the separator is among the first four characters
    rw [if_neg hlayout] at hlength
    have htake : (digits ++ separator :: rest).take 4 = digits ++ separator :: rest.take 1 := by
      rw [List.take_append, hlength, List.take_of_length_le (by omega)]
      rfl
    rw [htake, decide_eq_false hlayout, List.all_append, List.all_cons, hdigit, Bool.false_and,
      Bool.and_false, Bool.and_false]

include hseparator hmonth hday in
/-- Which layouts are tried on the text of a layout, and in which order, is told by the separator
and by whether the year comes first. -/
theorem Date.ofText?_append_text_append (layout : DateLayout) (hyear : 0 ≤ year ∧ year ≤ 9999)
    {before after : List Char} (hbefore : ∀ c ∈ before, Text.isBlank c)
    (hafter : ∀ c ∈ after, Text.isBlank c) :
    ofText? (String.ofList (before ++ layout.text separator year month day ++ after)) =
      (DateLayout.candidates separator (layout = .yearMonthDay)).findSome?
        (·.read? separator (layout.text separator year month day)) := by
  have hblank : ∀ o : Option Char, (∀ c ∈ o, c ∈ layout.text separator year month day) →
      o.any Text.isBlank = false := by
    intro o hmem
    cases o with
    | none => rfl
    | some c => exact DateLayout.isBlank_eq_false_of_mem_text hseparator hyear (hmem c rfl)
  -- only the blanks around the text are trimmed off
  have htrim : Text.trim (before ++ layout.text separator year month day ++ after) =
      layout.text separator year month day := by
    rw [Text.trim_append_append hbefore hafter]
    exact Text.trim_eq_self (hblank _ fun c => List.mem_of_mem_head?)
      (hblank _ fun c => List.mem_of_mem_getLast?)
  rw [ofText?, String.toList_ofList, htrim]
  simp only [layout.find?_text hseparator hmonth hday hyear,
    layout.startsWithYear_text hseparator hmonth hday hyear, Option.bind_eq_bind, Option.bind_some]

end Fields

namespace Date

variable {d : Date}

/-- The fields of a date with a year of four digits tell that date. -/
theorem checked?_fields (hyear : 0 ≤ d.year ∧ d.year ≤ 9999) :
    checked? d.year d.month d.day = some d := by
  have hrange : d.inRange := by
    rw [inRange, Bool.and_eq_true, decide_eq_true_eq, decide_eq_true_eq, firstYear, lastYear]
    omega
  rw [checked?, ofFields?_fields, Option.filter_some, if_pos hrange]

/-- No date has a month after the twelfth. -/
theorem checked?_of_twelve_lt {year : Int} {month day : Nat} (h : 12 < month) :
    checked? year month day = none := by
  rw [checked?, ofFields?, dif_neg (by omega), Option.filter_none]

/-- A layout that is tried after the one with day and month exchanged is read if the day cannot be
a month. -/
theorem findSome?_read?_text {separator : Char} (hseparator : separator ∈ ['-', '/', '.'])
    (hyear : 0 ≤ d.year ∧ d.year ≤ 9999) (first second : DateLayout)
    (hexchanged : second.text separator d.year d.month d.day =
      first.text separator d.year d.day d.month) :
    let found := [first, second].findSome?
      (·.read? separator (second.text separator d.year d.month d.day))
    (12 < d.day → found = some d) ∧ ∀ h : d.day ≤ 12, found = some (d.exchanged h) := by
  -- the earlier layout takes the day for the month
  have hfirst : first.read? separator (second.text separator d.year d.month d.day) =
      checked? d.year d.day d.month := by
    rw [hexchanged, first.read?_text hseparator d.day_lt_hundred d.month_lt_hundred]
  have hsecond : second.read? separator (second.text separator d.year d.month d.day) = some d := by
    rw [second.read?_text hseparator d.month_lt_hundred d.day_lt_hundred, checked?_fields hyear]
  constructor
  -- there is no such month, so the second layout has the say
  · intro hday
    rw [checked?_of_twelve_lt hday] at hfirst
    simp only [List.findSome?_cons, hfirst, hsecond]
  · intro hday
    have hfields : checked? d.year d.day d.month = some (d.exchanged hday) :=
      checked?_fields (d := d.exchanged hday) hyear
    rw [hfields] at hfirst
    simp only [List.findSome?_cons, hfirst]

/-- Dates with a year of four digits are read in nine layouts, with any blanks around them: as they
are in the layouts that are tried first, and in the others with day and month exchanged if there is
such a date. -/
theorem ofText?_between_blanks (hyear : 0 ≤ d.year ∧ d.year ≤ 9999) (before after : List Char)
    (hbefore : ∀ c ∈ before, Text.isBlank c) (hafter : ∀ c ∈ after, Text.isBlank c) :
    let reads (layout : DateLayout) (separator : Char) (e : Date) : Prop :=
      ofText? (String.ofList
        (before ++ layout.text separator d.year d.month d.day ++ after)) = some e
    (∀ layout separator,
      (layout, separator) ∈ [(.yearMonthDay, '-'), (.yearMonthDay, '/'), (.yearMonthDay, '.'),
        (.dayMonthYear, '-'), (.dayMonthYear, '.'), (.monthDayYear, '/')] →
      reads layout separator d) ∧
    ∀ layout separator,
      (layout, separator) ∈ [(.monthDayYear, '-'), (.monthDayYear, '.'), (.dayMonthYear, '/')] →
      (12 < d.day → reads layout separator d) ∧
        ∀ h : d.day ≤ 12, reads layout separator (d.exchanged h) := by
  intro reads
  have htried : ∀ (layout : DateLayout) {separator : Char}, separator ∈ ['-', '/', '.'] →
      ofText? (String.ofList
          (before ++ layout.text separator d.year d.month d.day ++ after)) =
        (DateLayout.candidates separator (layout = .yearMonthDay)).findSome?
          (·.read? separator (layout.text separator d.year d.month d.day)) :=
    fun layout _ hseparator => ofText?_append_text_append hseparator d.month_lt_hundred
      d.day_lt_hundred layout hyear hbefore hafter
  constructor
  · -- the separator has the layout tried first
    intro layout separator hmem
    have hall : ∀ entry ∈ [(DateLayout.yearMonthDay, '-'), (.yearMonthDay, '/'),
        (.yearMonthDay, '.'), (.dayMonthYear, '-'), (.dayMonthYear, '.'), (.monthDayYear, '/')],
        entry.2 ∈ ['-', '/', '.'] ∧
          (DateLayout.candidates entry.2 (entry.1 = .yearMonthDay)).head? = some entry.1 := by
      decide
    obtain ⟨hseparator, hhead⟩ := hall _ hmem
    obtain ⟨rest, hcandidates⟩ := List.head?_eq_some_iff.mp hhead
    have hread : layout.read? separator (layout.text separator d.year d.month d.day) = some d := by
      rw [layout.read?_text hseparator d.month_lt_hundred d.day_lt_hundred, checked?_fields hyear]
    unfold reads
    rw [htried layout hseparator, hcandidates]
    simp only [List.findSome?_cons, hread]
  · -- the separator has the same text tried with day and month exchanged before
    intro layout separator hmem
    simp only [List.mem_cons, Prod.mk.injEq, List.not_mem_nil, or_false] at hmem
    unfold reads
    rcases hmem with ⟨rfl, rfl⟩ | ⟨rfl, rfl⟩ | ⟨rfl, rfl⟩
    · rw [htried .monthDayYear (by decide)]
      exact findSome?_read?_text (by decide) hyear .dayMonthYear .monthDayYear rfl
    · rw [htried .monthDayYear (by decide)]
      exact findSome?_read?_text (by decide) hyear .dayMonthYear .monthDayYear rfl
    · rw [htried .dayMonthYear (by decide)]
      exact findSome?_read?_text (by decide) hyear .monthDayYear .dayMonthYear rfl

/-- In American order with dashes or points, 15 March is read as it is and 4 March as 3 April. -/
theorem ofText?_american :
    ofText? " 03-15-2024\n" = some ⟨2024, 3, 15, by decide, by decide, by decide, by decide⟩ ∧
      ofText? "\t03.04.2024" = some ⟨2024, 4, 3, by decide, by decide, by decide, by decide⟩ := by
  have hfifteenth : String.ofList
      ([' '] ++ DateLayout.monthDayYear.text '-' 2024 3 15 ++ ['\n']) = " 03-15-2024\n" := by decide
  have hfourth : String.ofList (['\t'] ++ DateLayout.monthDayYear.text '.' 2024 3 4 ++ []) =
      "\t03.04.2024" := by decide
  let fifteenth : Date := ⟨2024, 3, 15, by decide, by decide, by decide, by decide⟩
  let fourth : Date := ⟨2024, 3, 4, by decide, by decide, by decide, by decide⟩
  rw [← hfifteenth, ← hfourth]
  constructor
  -- no month is numbered fifteen
  · have hreads := ofText?_between_blanks (d := fifteenth) (by decide) [' '] ['\n']
      (List.forall_mem_singleton.mpr rfl) (List.forall_mem_singleton.mpr rfl)
    exact (hreads.2 .monthDayYear '-' (by decide)).1 (by decide)
  -- the fourth of March is read as the third of April
  · have hreads := ofText?_between_blanks (d := fourth) (by decide) ['\t'] []
      (List.forall_mem_singleton.mpr rfl) nofun
    exact (hreads.2 .monthDayYear '.' (by decide)).2 (by decide)

end Date

end Curation
