import StepFlow.Proofs.Text.Bytes
import StepFlow.Proofs.Time.Instant

/-!
# Sortable texts sort as time does

What is kept of the start of a run is its sortable text, and whatever sorts or compares starts sees
only the bytes of these texts.  `sortableText_sorts_as_time` says that nothing is lost by it: within
the years 0 to 9999 the bytes compare as the instants do, all texts have the same number of bytes,
and the instant can be read back from its text.

That texts compare field by field, and that days and dates come in the same order, is shown in
`sortableText_lt_iff`; here characters become bytes, and the date in a text is found by counting
from date to date, which knows of leap years and the lengths of months only.
-/

namespace StepFlow.Instant

open Text

variable {t u : Instant}

/-- The date and the time of day are shown in ASCII. -/
theorem Shown.ascii_dateTimeChars {r : ClockReading} (h : Shown r) :
    Ascii (dateTimeChars 'T' r) := by
  have hpadded (width n : ℕ) : Ascii (padded width n) := (allDigits_padded width n).ascii
  have hchars := h.dateTimeChars_append []
  rw [List.append_nil, List.append_nil] at hchars
  rw [hchars]
  simp only [ascii_append_iff, ascii_cons_iff, hpadded, true_and, and_true]
  decide

/-- A sortable text has thirty characters, and each of them takes a single byte. -/
theorem HasPlainYear.length_bytes_sortableText (h : t.HasPlainYear) :
    (bytes t.sortableText).length = 30 := by
  have hshown := h.shown
  have hfraction : Ascii (fullFraction t.toReading.nanosecond) :=
    ascii_cons_iff.2 ⟨by decide, (allDigits_padded 9 _).ascii⟩
  have hmark : Ascii ['Z'] := ascii_cons_iff.2 ⟨by decide, fun _ hc => by cases hc⟩
  have hascii :
      Ascii (dateTimeChars 'T' t.toReading ++ fullFraction t.toReading.nanosecond ++ ['Z']) :=
    ascii_append_iff.2 ⟨ascii_append_iff.2 ⟨hshown.ascii_dateTimeChars, hfraction⟩, hmark⟩
  have hnano : (padded 9 t.toReading.nanosecond).length = 9 :=
    length_padded (by decide) hshown.nanosecond_lt
  rw [sortableText, length_bytes_ofList hascii, List.length_append, List.length_append,
    hshown.length_dateTimeChars, fullFraction, List.length_cons, hnano]
  rfl

/-- The date of an instant is reached from the first of January of the year 0 by going from date to
date, once for each day since then. -/
theorem HasPlainYear.date_eq_iterate_next (h : t.HasPlainYear) :
    t.toReading.date = Date.next^[(t.day + 719528).toNat] ⟨0, 1, 1⟩ := by
  obtain ⟨hlow, -⟩ := hasPlainYear_iff.1 h
  obtain ⟨hsecond, hsum, -⟩ := t.secondOfDay_bounds
  have hday : t.day = -719528 + ((t.day + 719528).toNat : ℕ) := by omega
  calc t.toReading.date
    _ = Date.ofDays t.day := by rw [toReading_eq]
    _ = Date.ofDays (-719528 + ((t.day + 719528).toNat : ℕ)) := congrArg _ hday
    _ = Date.next^[(t.day + 719528).toNat] (Date.ofDays (-719528)) := Date.ofDays_add _ _
    _ = Date.next^[(t.day + 719528).toNat] ⟨0, 1, 1⟩ := rfl

/-- Of two instants in the years 0 to 9999 the earlier one is the one whose sortable text has the
smaller bytes.  All these texts have thirty bytes, and the instant is read back from its text.  The
date in a text is that of the proleptic Gregorian calendar. -/
theorem sortableText_sorts_as_time (ht : t.HasPlainYear) (hu : u.HasPlainYear) :
    (bytes t.sortableText < bytes u.sortableText ↔ t.Earlier u) ∧
      (bytes t.sortableText).length = 30 ∧ (bytes u.sortableText).length = 30 ∧
      readStrict t.sortableText = .ok t ∧
      t.toReading.date = Date.next^[(t.day + 719528).toNat] ⟨0, 1, 1⟩ := by
  refine ⟨?_, ht.length_bytes_sortableText, hu.length_bytes_sortableText,
    readStrict_sortableText ht, ht.date_eq_iterate_next⟩
  rw [bytes_lt_bytes_iff]
  exact sortableText_lt_iff ht hu

/-- The middle of the leap second at the end of 2016. -/
def leapSecond2016 : Instant := ⟨1483228799, 1500000000, by decide, by decide⟩

/-- The start of 2017. -/
def start2017 : Instant :=
  { epoch with second := 1483228800, leap_at_minute := fun h => absurd h (by decide) }

/-- A leap second is shown as second sixty and sorts in front of the next year. -/
theorem sortableText_sorts_as_time_leap_second :
    leapSecond2016.HasPlainYear ∧ start2017.HasPlainYear ∧
      leapSecond2016.sortableText = "2016-12-31T23:59:60.500000000Z" ∧
      start2017.sortableText = "2017-01-01T00:00:00.000000000Z" ∧
      bytes "2016-12-31T23:59:60.500000000Z" < bytes "2017-01-01T00:00:00.000000000Z" ∧
      (bytes "2016-12-31T23:59:60.500000000Z").length = 30 ∧
      (bytes "2017-01-01T00:00:00.000000000Z").length = 30 ∧
      readStrict "2016-12-31T23:59:60.500000000Z" = .ok leapSecond2016 ∧
      Date.mk 2016 12 31 = Date.next^[736694] ⟨0, 1, 1⟩ := by
  have hleap : leapSecond2016.HasPlainYear := hasPlainYear_iff.2 (by decide)
  have hstart : start2017.HasPlainYear := hasPlainYear_iff.2 (by decide)
  have hleapText : leapSecond2016.sortableText = "2016-12-31T23:59:60.500000000Z" := by cbv
  have hstartText : start2017.sortableText = "2017-01-01T00:00:00.000000000Z" := by cbv
  have hearlier : leapSecond2016.Earlier start2017 := .inl (by decide)
  have hdate : leapSecond2016.toReading.date = ⟨2016, 12, 31⟩ := by decide
  have hdays : (leapSecond2016.day + 719528).toNat = 736694 := by decide
  obtain ⟨horder, hlengthLeap, hlengthStart, hread, hcalendar⟩ :=
    sortableText_sorts_as_time hleap hstart
  rw [hleapText, hstartText] at horder
  rw [hleapText] at hlengthLeap hread
  rw [hstartText] at hlengthStart
  rw [hdate, hdays] at hcalendar
  exact ⟨hleap, hstart, hleapText, hstartText, horder.2 hearlier, hlengthLeap, hlengthStart, hread,
    hcalendar⟩

end StepFlow.Instant
