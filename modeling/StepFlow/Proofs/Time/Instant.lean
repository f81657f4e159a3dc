import StepFlow.Proofs.Text.Digits
import StepFlow.Proofs.Time.Calendar
import StepFlow.Time.Reader

/-!
# Written instants

The texts of instants in the years 0 to 9999, which `hasPlainYear_iff` gives as a range of seconds.
`sortableText_lt_iff` says that sortable texts compare as the instants do, `readStrict_sortableText`
and `readLenient_text` that each reader gives back the instant whose text it is given, to the
nanosecond and within leap seconds.
-/

namespace StepFlow.Instant

open Text

/-! ## What a calendar and a clock show -/

/-- A reading of a calendar and a clock whose year has four digits at most. -/
structure Shown (r : ClockReading) : Prop where
  year_nonneg : 0 ≤ r.date.year
  year_le : r.date.year ≤ 9999
  date_isValid : r.date.isValid = true
  hour_le : r.hour ≤ 23
  minute_le : r.minute ≤ 59
  second_le : r.second ≤ 60
  nanosecond_lt : r.nanosecond < 1000000000

/-- The instant lies in one of the years 0 to 9999. -/
def HasPlainYear (t : Instant) : Prop := 0 ≤ t.toReading.date.year ∧ t.toReading.date.year ≤ 9999

/-- The day of an instant, counted from the start of 1970. -/
def day (t : Instant) : Int := t.second / 86400

/-- The second of an instant within its day. -/
def secondOfDay (t : Instant) : Nat := (t.second % 86400).toNat

/-- What is shown at an instant, in terms of its day and the second of the day. -/
theorem toReading_eq (t : Instant) :
    t.toReading =
      { date := Date.ofDays t.day
        hour := t.secondOfDay / 3600
        minute := t.secondOfDay / 60 % 60
        second := t.secondOfDay % 60 + t.nanosecond / 1000000000
        nanosecond := t.nanosecond % 1000000000 } := by
  have hday : t.second.fdiv 86400 = t.day := Int.fdiv_eq_ediv_of_nonneg _ (by decide)
  have hsecond : (t.second - t.day * 86400).toNat = t.secondOfDay := by
    unfold day secondOfDay
    congr 1
    omega
  simp only [toReading, hday, hsecond]

/-- The second of a day is one of its seconds, and a leap second follows the last second of a
minute. -/
theorem secondOfDay_bounds (t : Instant) :
    t.secondOfDay < 86400 ∧ (t.secondOfDay : Int) + t.day * 86400 = t.second ∧
      (1000000000 ≤ t.nanosecond → t.secondOfDay % 60 = 59) := by
  have hleap := t.leap_at_minute
  unfold secondOfDay day
  omega

/-- The years 0 to 9999 as a range of seconds. -/
theorem hasPlainYear_iff {t : Instant} :
    t.HasPlainYear ↔ -62167219200 ≤ t.second ∧ t.second < 253402300800 := by
  have hfirst : t.toReading.date.year < 0 ↔ t.day < -719528 := by
    rw [toReading_eq]
    exact Date.year_ofDays_lt_iff
  have hlast : t.toReading.date.year < 10000 ↔ t.day < 2932897 := by
    rw [toReading_eq]
    exact Date.year_ofDays_lt_iff
  obtain ⟨hsecond, hsum, -⟩ := t.secondOfDay_bounds
  unfold HasPlainYear
  omega

/-- A calendar and a clock show existing dates and times. -/
theorem HasPlainYear.shown {t : Instant} (h : t.HasPlainYear) : Shown t.toReading := by
  obtain ⟨hlow, hhigh⟩ := h
  obtain ⟨hsecond, -, hleap⟩ := t.secondOfDay_bounds
  have hnano := t.nanosecond_lt
  rw [toReading_eq] at hlow hhigh ⊢
  exact
    { year_nonneg := hlow
      year_le := hhigh
      date_isValid := Date.isValid_ofDays _
      hour_le := by show t.secondOfDay / 3600 ≤ 23; omega
      minute_le := by show t.secondOfDay / 60 % 60 ≤ 59; omega
      second_le := by show t.secondOfDay % 60 + t.nanosecond / 1000000000 ≤ 60; omega
      nanosecond_lt := Nat.mod_lt _ (by decide) }

/-- A month is one of twelve and a day one of thirty-one. -/
theorem Shown.date_bounds {r : ClockReading} (h : Shown r) :
    (1 ≤ r.date.month ∧ r.date.month ≤ 12) ∧ 1 ≤ r.date.day ∧ r.date.day ≤ 31 := by
  obtain ⟨hmonthLow, hmonthHigh, hdayLow, hdayHigh⟩ := Date.isValid_iff.1 h.date_isValid
  have hdays := (Date.daysInMonth_bounds r.date.year r.date.month).2
  omega

/-- The parts of a date and a time in front of something else. -/
theorem Shown.dateTimeChars_append {r : ClockReading} (h : Shown r) (rest : List Char) :
    dateTimeChars 'T' r ++ rest =
      padded 4 r.date.year.toNat ++ ('-' :: (padded 2 r.date.month ++
        ('-' :: (padded 2 r.date.day ++ ('T' :: (padded 2 r.hour ++
          (':' :: (padded 2 r.minute ++ (':' :: (padded 2 r.second ++ rest)))))))))) := by
  have hyear : yearChars r.date.year = padded 4 r.date.year.toNat :=
    if_pos ⟨h.year_nonneg, h.year_le⟩
  simp only [dateTimeChars, hyear, List.append_assoc, List.cons_append]

/-- What a clock in universal time shows is shown at one instant only. -/
theorem HasPlainYear.ofReading_toReading {t : Instant} (h : t.HasPlainYear) :
    ofReading t.toReading 0 = .ok t := by
  obtain ⟨hlow, hhigh⟩ := h
  obtain ⟨second, nanosecond, hnano, hleapAt⟩ := t
  have hbounds := secondOfDay_bounds ⟨second, nanosecond, hnano, hleapAt⟩
  rw [toReading_eq] at hlow hhigh ⊢
  obtain ⟨ofDay, hofDay⟩ : ∃ n, n = secondOfDay ⟨second, nanosecond, hnano, hleapAt⟩ := ⟨_, rfl⟩
  obtain ⟨day', hday'⟩ : ∃ d, d = day ⟨second, nanosecond, hnano, hleapAt⟩ := ⟨_, rfl⟩
  rw [← hofDay, ← hday'] at hbounds
  obtain ⟨hofDay86400, hsum, hleap⟩ := hbounds
  simp only [← hofDay, ← hday'] at hlow hhigh hsum hleap ⊢
  have hknown : yearIsKnown (Date.ofDays day').year = true := by
    simp only [yearIsKnown, Bool.and_eq_true, decide_eq_true_eq]
    omega
  have hsecond : (Date.ofDays day').toDays * 86400 +
      (((ofDay / 3600 : Nat) : Int) * 3600 + ((ofDay / 60 % 60 : Nat) : Int) * 60 +
        ((ofDay % 60 + nanosecond / 1000000000 : Nat) : Int) -
          ((if ofDay % 60 + nanosecond / 1000000000 = 60 then 1 else 0 : Nat) : Int)) - 0 =
      second := by
    rw [Date.toDays_ofDays]
    split <;> omega
  have hnanosecond : nanosecond % 1000000000 +
      (if ofDay % 60 + nanosecond / 1000000000 = 60 then 1 else 0) * 1000000000 = nanosecond := by
    split <;> omega
  have hfdiv : second.fdiv 86400 = day' := by
    rw [Int.fdiv_eq_ediv_of_nonneg _ (by decide)]
    omega
  unfold ofReading
  simp only [hsecond, hnanosecond, hfdiv, hknown, Date.isValid_ofDays]
  simp only [hnano, true_and, Bool.and_self, Bool.not_true, Bool.false_or, Int.natAbs_zero,
    ge_iff_le, Nat.reduceLeDiff, decide_false, Bool.false_eq_true, ↓reduceIte]
  exact dif_pos hleapAt

/-! ## Order -/

/-- An instant comes before another one. -/
def Earlier (t u : Instant) : Prop :=
  t.second < u.second ∨ t.second = u.second ∧ t.nanosecond < u.nanosecond

/-- What is shown comes earlier on the calendar, or on the clock of the same day. -/
def ShownEarlier (r s : ClockReading) : Prop :=
  r.date.Before s.date ∨ r.date = s.date ∧
    (r.hour < s.hour ∨ r.hour = s.hour ∧
      (r.minute < s.minute ∨ r.minute = s.minute ∧
        (r.second < s.second ∨ r.second = s.second ∧ r.nanosecond < s.nanosecond)))

/-- Earlier instants are shown earlier, also within a leap second. -/
theorem shownEarlier_toReading_iff {t u : Instant} :
    ShownEarlier t.toReading u.toReading ↔ t.Earlier u := by
  obtain ⟨htSecond, htSum, htLeap⟩ := t.secondOfDay_bounds
  obtain ⟨huSecond, huSum, huLeap⟩ := u.secondOfDay_bounds
  have htNano := t.nanosecond_lt
  have huNano := u.nanosecond_lt
  rw [toReading_eq, toReading_eq]
  simp only [ShownEarlier, Date.before_ofDays_iff]
  have hdate : Date.ofDays t.day = Date.ofDays u.day ↔ t.day = u.day := by
    refine ⟨fun h => ?_, fun h => by rw [h]⟩
    have := congrArg Date.toDays h
    rwa [Date.toDays_ofDays, Date.toDays_ofDays] at this
  rw [hdate]
  unfold Earlier
  rcases Int.lt_trichotomy t.day u.day with hlt | heq | hgt
  · omega
  · simp only [heq, Int.lt_irrefl, false_or, true_and]
    omega
  · omega

/-- Texts of what is shown compare by what is shown. -/
theorem shownChars_lt_iff {r s : ClockReading} (hr : Shown r) (hs : Shown s) :
    dateTimeChars 'T' r ++ fullFraction r.nanosecond ++ ['Z'] <
      dateTimeChars 'T' s ++ fullFraction s.nanosecond ++ ['Z'] ↔ ShownEarlier r s := by
  obtain ⟨hrMonth, hrDay⟩ := hr.date_bounds
  obtain ⟨hsMonth, hsDay⟩ := hs.date_bounds
  have hrTime := And.intro hr.hour_le (And.intro hr.minute_le hr.second_le)
  have hsTime := And.intro hs.hour_le (And.intro hs.minute_le hs.second_le)
  have hrNano := hr.nanosecond_lt
  have hsNano := hs.nanosecond_lt
  have hrYear := And.intro hr.year_nonneg hr.year_le
  have hsYear := And.intro hs.year_nonneg hs.year_le
  have hdate : r.date = s.date ↔
      r.date.year = s.date.year ∧ r.date.month = s.date.month ∧ r.date.day = s.date.day := by
    constructor
    · intro h
      rw [h]
      exact ⟨rfl, rfl, rfl⟩
    · rintro ⟨hyear, hmonth, hday⟩
      cases hr' : r.date
      cases hs' : s.date
      simp_all
  rw [List.append_assoc, List.append_assoc, hr.dateTimeChars_append, hs.dateTimeChars_append,
    fullFraction, fullFraction]
  simp (disch := omega) only [padded_append_lt_iff, List.cons_append, List.cons_lt_cons_iff,
    Char.lt_irrefl, List.lt_irrefl, false_or, true_and, and_false, or_false]
  unfold ShownEarlier Date.Before
  rw [hdate]
  omega

/-- Sortable texts compare as instants do. -/
theorem sortableText_lt_iff {t u : Instant} (ht : t.HasPlainYear) (hu : u.HasPlainYear) :
    t.sortableText < u.sortableText ↔ t.Earlier u := by
  rw [← shownEarlier_toReading_iff, ← shownChars_lt_iff ht.shown hu.shown, String.lt_iff]
  simp only [sortableText, String.toList_ofList]

/-! ## Reading -/

/-- A run of digits is read as the number it denotes, up to where it ends or as far as it is
wanted. -/
theorem readNumber_append (least most : Nat) {ds rest : List Char} (hdigits : AllDigits ds)
    (hleast : least ≤ ds.length) (hmost : ds.length ≤ most)
    (hend : ds.length = most ∨ NoDigit rest)
    (hvalue : Nat.ofDigitChars 10 ds 0 < 0x8000000000000000) :
    readNumber least most (ds ++ rest) = .ok (Nat.ofDigitChars 10 ds 0, rest) := by
  have hbytes := length_le_utf8ByteSize (ds ++ rest)
  rw [List.length_append] at hbytes
  have hnext : NoDigit (rest.take (most - ds.length)) := by
    rcases hend with hend | hend
    · simp [hend, NoDigit]
    · intro c hc
      rw [List.head?_take] at hc
      split at hc
      · cases hc
      · exact hend c hc
  have hfound : ((ds ++ rest).take most).takeWhile Char.isDigit = ds := by
    rw [List.take_append, List.take_of_length_le hmost, takeWhile_isDigit hdigits hnext]
  unfold readNumber
  rw [if_neg (by omega)]
  simp only [hfound]
  rw [if_neg (by omega), if_pos hvalue, List.drop_left]

/-- A padded number is read in its width. -/
theorem readNumber_padded (least width : Nat) {n : Nat} (hleast : least ≤ width)
    (hwidth : 0 < width) (hn : n < 10 ^ width) (hbound : n < 0x8000000000000000) (rest : List Char) :
    readNumber least width (padded width n ++ rest) = .ok (n, rest) := by
  have hlength := length_padded hwidth hn
  have hend : (padded width n).length = width ∨ NoDigit rest := .inl hlength
  have hread := readNumber_append least width (allDigits_padded width n) (hleast.trans hlength.ge)
    hlength.le hend (by rwa [ofDigitChars_padded])
  rwa [ofDigitChars_padded] at hread

/-- Digits after a point are read as nanoseconds. -/
theorem readFraction_padded (width : Nat) {n : Nat} {rest : List Char} (hwidth : 0 < width ∧ width ≤ 9)
    (hn : n < 10 ^ width) (hrest : NoDigit rest) :
    readFraction ('.' :: padded width n ++ rest) = .ok (n * 10 ^ (9 - width), rest) := by
  have hlength := length_padded hwidth.1 hn
  have hbound : n < 10 ^ 9 := hn.trans_le (Nat.pow_le_pow_right (by decide) hwidth.2)
  have hread : readNumber 1 9 (padded width n ++ rest) = .ok (n, rest) := by
    have := readNumber_append 1 9 (allDigits_padded width n)
      (by omega) (by omega) (.inr hrest) (by rw [ofDigitChars_padded]; omega)
    rwa [ofDigitChars_padded] at this
  have hskip : rest.dropWhile Char.isDigit = rest := by
    have hnone : AllDigits [] := fun _ hc => by cases hc
    have := dropWhile_isDigit hnone hrest
    rwa [List.nil_append] at this
  have hused : (padded width n ++ rest).length - rest.length = width := by
    rw [List.length_append]
    omega
  simp only [List.cons_append, readFraction, hread, hskip, hused, bind, Except.bind]
  rfl

/-- A fraction in nine digits is read back. -/
theorem readFraction_fullFraction {n : Nat} {rest : List Char} (hn : n < 1000000000)
    (hrest : NoDigit rest) : readFraction (fullFraction n ++ rest) = .ok (n, rest) := by
  have hread := readFraction_padded 9 (by decide) (by omega) hrest
  rwa [Nat.sub_self, Nat.pow_zero, Nat.mul_one] at hread

/-- A fraction in the fewest digits is read back in front of a mark. -/
theorem readFraction_shortFraction {n : Nat} (c : Char) (rest : List Char) (hn : n < 1000000000)
    (hdigit : c.isDigit = false) (hpoint : c ≠ '.') :
    readFraction (shortFraction n ++ c :: rest) = .ok (n, c :: rest) := by
  have hrest : NoDigit (c :: rest) := by
    intro d hd
    cases hd
    exact hdigit
  unfold shortFraction
  split
  · subst n
    rw [List.nil_append, readFraction]
    intro cs hcs
    exact hpoint (List.cons.inj hcs).1
  · split
    · rw [readFraction_padded _ (by decide) (by omega) hrest]
      congr 2
      omega
    · split
      · rw [readFraction_padded _ (by decide) (by omega) hrest]
        congr 2
        omega
      · exact readFraction_fullFraction hn hrest

/-- A date is read back in front of a time. -/
theorem readStrictDate_append {r : ClockReading} (h : Shown r) (rest : List Char) :
    readStrictDate (padded 4 r.date.year.toNat ++ ('-' :: (padded 2 r.date.month ++
      ('-' :: (padded 2 r.date.day ++ rest))))) = .ok (r.date, rest) := by
  obtain ⟨hmonth, hday⟩ := h.date_bounds
  have hnonneg := h.year_nonneg
  have hle := h.year_le
  have hyear : ((r.date.year.toNat : Nat) : Int) = r.date.year := Int.toNat_of_nonneg hnonneg
  simp (disch := omega) only [readStrictDate, readNumber_padded, readMark, bind, Except.bind,
    ↓reduceIte, hyear]
  exact if_pos h.date_isValid

/-- A time with nine digits for its nanoseconds is read back in front of the offset. -/
theorem readStrictTime_append {r : ClockReading} (h : Shown r) {rest : List Char}
    (hrest : NoDigit rest) :
    readStrictTime r.date (padded 2 r.hour ++ (':' :: (padded 2 r.minute ++
      (':' :: (padded 2 r.second ++ (fullFraction r.nanosecond ++ rest)))))) = .ok (r, rest) := by
  have hhour := h.hour_le
  have hminute := h.minute_le
  have hsecond := h.second_le
  simp (disch := omega) only [readStrictTime, readNumber_padded, readMark, bind, Except.bind,
    ↓reduceIte, readFraction_fullFraction h.nanosecond_lt hrest]
  exact if_pos ⟨hhour, hminute, hsecond⟩

/-- Nothing is read after the mark of universal time. -/
theorem readOffset_universal (readColon : Reader Unit) : readOffset readColon ['Z'] = .ok (0, []) :=
  rfl

/-- No number goes on with the mark of universal time. -/
theorem noDigit_universal : NoDigit ['Z'] := by
  intro c hc
  cases hc
  rfl

/-- A date and a time have nineteen characters. -/
theorem Shown.length_dateTimeChars {r : ClockReading} (h : Shown r) :
    (dateTimeChars 'T' r).length = shortestStrict := by
  obtain ⟨hmonth, hday⟩ := h.date_bounds
  have hyear := And.intro h.year_nonneg h.year_le
  have htime := And.intro h.hour_le (And.intro h.minute_le h.second_le)
  have hchars := h.dateTimeChars_append []
  rw [List.append_nil] at hchars
  rw [hchars]
  simp (disch := omega) only [List.length_append, List.length_cons, length_padded, List.append_nil]
  rfl

/-- The strict reader gives back the instant of a sortable text. -/
theorem readStrict_sortableText {t : Instant} (h : t.HasPlainYear) :
    readStrict t.sortableText = .ok t := by
  have hshown := h.shown
  have hlong : shortestStrict ≤ t.sortableText.utf8ByteSize := by
    refine le_trans ?_ (length_le_utf8ByteSize _)
    rw [List.length_append, List.length_append, hshown.length_dateTimeChars]
    omega
  have hparts : readStrictParts t.sortableText.toList = .ok ((t.toReading, 0), []) := by
    rw [sortableText, String.toList_ofList, List.append_assoc, hshown.dateTimeChars_append]
    simp only [readStrictParts, readStrictDate_append hshown, readSeparator, true_or, or_true,
      ↓reduceIte, readStrictTime_append hshown noDigit_universal, readOffset_universal, bind,
      Except.bind]
  rw [readStrict, if_neg (by omega), hparts]
  exact h.ofReading_toReading

/-- Nothing is dropped in front of a character that is no blank. -/
theorem trimFront_cons {c : Char} (h : isBlank c = false) (cs : List Char) :
    trimFront (c :: cs) = c :: cs :=
  List.dropWhile_cons_of_neg (by simp [h])

/-- No blanks stand in front of a number. -/
theorem trimFront_padded (width n : Nat) (rest : List Char) :
    trimFront (padded width n ++ rest) = padded width n ++ rest := by
  obtain ⟨d, ds, hd, heq⟩ := exists_padded_eq_cons width n
  rw [heq, List.cons_append, trimFront_cons (isBlank_of_isDigit hd)]

/-- A year in four digits is read without a sign. -/
theorem readYear_padded {n : Nat} (hn : n < 10000) (rest : List Char) :
    readYear (padded 4 n ++ rest) = .ok ((n : Int), rest) := by
  have hread := readNumber_padded 1 4 (by decide) (by decide) hn (by omega) rest
  obtain ⟨d, ds, hd, heq⟩ := exists_padded_eq_cons 4 n
  rw [heq, List.cons_append] at hread ⊢
  unfold readYear
  split
  · rename_i h
    cases (List.cons.inj h).1
    cases hd
  · rename_i h
    cases (List.cons.inj h).1
    cases hd
  · rw [hread]
    rfl

/-- A number of two digits within bounds is read. -/
theorem within_padded {least most n : Nat} (hleast : least ≤ n) (hmost : n ≤ most)
    (hn : n < 100) (rest : List Char) :
    within least most (readNumber 1 2) (padded 2 n ++ rest) = .ok (n, rest) := by
  have hread := readNumber_padded 1 2 (by decide) (by decide) hn (by omega) rest
  simp only [within, hread, bind, Except.bind]
  exact if_pos ⟨hleast, hmost⟩

/-- The lenient reader gives back the instant of a text. -/
theorem readLenient_text {t : Instant} (h : t.HasPlainYear) : readLenient t.text = .ok t := by
  have hshown := h.shown
  obtain ⟨hmonth, hday⟩ := hshown.date_bounds
  have hnonneg := hshown.year_nonneg
  have hle := hshown.year_le
  have hhour := hshown.hour_le
  have hminute := hshown.minute_le
  have hsecond := hshown.second_le
  have hyear : ((t.toReading.date.year.toNat : Nat) : Int) = t.toReading.date.year :=
    Int.toNat_of_nonneg hnonneg
  have hfraction := readFraction_shortFraction 'Z' [] hshown.nanosecond_lt rfl (by decide)
  have hdash : isBlank '-' = false := by decide
  have hcolon : isBlank ':' = false := by decide
  have hparts : readLooseParts t.text.toList = .ok ((t.toReading, 0), []) := by
    rw [text, String.toList_ofList, List.append_assoc, hshown.dateTimeChars_append]
    simp (disch := omega) only [readLooseParts, afterBlanks, trimFront_padded, readYear_padded,
      trimFront_cons hdash, trimFront_cons hcolon, readMark, within_padded, readSeparator,
      true_or, or_true, ↓reduceIte, bind, Except.bind, hfraction, hyear]
    rfl
  rw [readLenient, hparts]
  exact h.ofReading_toReading

end StepFlow.Instant
