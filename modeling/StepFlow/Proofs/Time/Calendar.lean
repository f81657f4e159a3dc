import Mathlib.Logic.Function.Iterate
import Mathlib.Tactic.Common
import Mathlib.Tactic.IntervalCases
import StepFlow.Time.Calendar

/-!
# Days and dates

Counting days and naming dates are inverse to each other and keep order.  Both functions work in
years that begin in March and in eras of four hundred such years, so the facts are first stated
there: `dayOfEra_bounds` says that the year found for a day of an era begins no later than that
day and ends after it, and `toDays_eq` rewrites the count of days without eras.

The main statements are `isValid_ofDays` (the date of a day exists), `toDays_ofDays` (it has the
day it was made from), `before_ofDays_iff` (later days have later dates) and `ofDays_add` (the
dates of later days are reached from date to date, by the lengths of the months alone).
-/

namespace StepFlow.Date

/-! ## Years that begin in March -/

/-- The year that a date belongs to if years begin in March. -/
def marchYear (d : Date) : Int := if d.month ≤ 2 then d.year - 1 else d.year

/-- The month of a date, counted from March as zero. -/
def marchMonth (d : Date) : Int := (d.month + 9) % 12

/-- The number of days before the first of March of a year, counted from that of the year 0. -/
def daysBeforeYear (year : Int) : Int := 365 * year + year / 4 - year / 100 + year / 400

/-- The number of days in the months before one that is counted from March. -/
def daysBeforeMonth (month : Int) : Int := (153 * month + 2) / 5

/-- The number of days of a date, without eras. -/
theorem toDays_eq (d : Date) :
    d.toDays = daysBeforeYear d.marchYear + daysBeforeMonth d.marchMonth + d.day - 719469 := by
  unfold toDays daysBeforeYear daysBeforeMonth marchYear marchMonth
  simp only [Int.fdiv_eq_ediv_of_nonneg _ (by decide : (0 : Int) ≤ 400),
    Int.fdiv_eq_ediv_of_nonneg _ (by decide : (0 : Int) ≤ 100),
    Int.fdiv_eq_ediv_of_nonneg _ (by decide : (0 : Int) ≤ 5),
    Int.fdiv_eq_ediv_of_nonneg _ (by decide : (0 : Int) ≤ 4)]
  omega

/-- Every era has the same number of days. -/
theorem daysBeforeYear_add_eras (year era : Int) :
    daysBeforeYear (year + era * 400) = daysBeforeYear year + era * 146097 := by
  have hfour : (year + era * 400) / 4 = year / 4 + 100 * era := by omega
  have hhundred : (year + era * 400) / 100 = year / 100 + 4 * era := by omega
  have hera : (year + era * 400) / 400 = year / 400 + era := by omega
  unfold daysBeforeYear
  rw [hfour, hhundred, hera]
  omega

/-! ## The date of a day -/

/-- The year of an era that a day of the era lies in. -/
def yearOfDay (day : Int) : Int := (day - day / 1460 + day / 36524 - day / 146096) / 365

/-- The year of a day is one of the era; it begins no later than the day, and the day comes
before the next year. -/
theorem dayOfEra_bounds {day : Int} (hlow : 0 ≤ day) (hhigh : day < 146097) :
    0 ≤ yearOfDay day ∧ yearOfDay day ≤ 399 ∧
      365 * yearOfDay day + yearOfDay day / 4 - yearOfDay day / 100 ≤ day ∧
      (yearOfDay day = 399 ∨ day < 365 * (yearOfDay day + 1) + (yearOfDay day + 1) / 4 -
        (yearOfDay day + 1) / 100) := by
  -- The last day of an era is the leap day that makes its last century longer.
  by_cases hlast : day = 146096
  · subst hlast
    decide
  obtain ⟨century, hcentury⟩ : ∃ c, c = day / 36524 := ⟨_, rfl⟩
  obtain ⟨year, hyear⟩ : ∃ y, y = yearOfDay day := ⟨_, rfl⟩
  have hdiv : year = (day - day / 1460 + century) / 365 := by
    have hnever : day / 146096 = 0 := by omega
    rw [hyear, yearOfDay, hnever, ← hcentury, Int.sub_zero]
  have hnonneg : 0 ≤ century := by omega
  have hmost : century ≤ 3 := by omega
  have hin : 100 * century ≤ year ∧ year ≤ 100 * century + 99 := by
    interval_cases century <;> omega
  have hhundred : year / 100 = century := by omega
  have hnext : (year + 1) / 100 = century ∨
      (year + 1) / 100 = century + 1 ∧ year = 100 * century + 99 := by omega
  rw [← hyear]
  refine ⟨by omega, by omega, by omega, ?_⟩
  rcases hnext with hnext | ⟨hnext, hyear⟩
  · rw [hnext]
    right
    interval_cases century <;> omega
  · interval_cases century <;> omega

/-- A year of an era has a day 365 only if its leap day belongs to a leap year. -/
theorem isLeapYear_of_last_day {day year : Int}
    (hend : year = 399 ∨ day < 365 * (year + 1) + (year + 1) / 4 - (year + 1) / 100)
    (hlast : 365 * year + year / 4 - year / 100 + 365 ≤ day) (era : Int) :
    isLeapYear (year + era * 400 + 1) = true := by
  have hfour : (year + era * 400 + 1) % 4 = (year + 1) % 4 := by omega
  have hhundred : (year + era * 400 + 1) % 100 = (year + 1) % 100 := by omega
  have hera : (year + era * 400 + 1) % 400 = (year + 1) % 400 := by omega
  simp only [isLeapYear, Bool.and_eq_true, Bool.or_eq_true, beq_iff_eq, bne_iff_ne, hfour, hhundred,
    hera]
  have hquarter : (year + 1) / 4 = year / 4 ∧ (year + 1) % 4 ≠ 0 ∨
      (year + 1) / 4 = year / 4 + 1 ∧ (year + 1) % 4 = 0 := by omega
  have hcentury : (year + 1) / 100 = year / 100 ∧ (year + 1) % 100 ≠ 0 ∨
      (year + 1) / 100 = year / 100 + 1 ∧ (year + 1) % 100 = 0 := by omega
  rcases hend with rfl | hend
  · decide
  · rcases hquarter with hquarter | hquarter <;> rcases hcentury with hcentury | hcentury <;> omega

/-- The parts of a date in the order in which they are found, each from those before it. -/
theorem ofDays_eq {days era dayOfEra year day month : Int} (hera : era = (days + 719468) / 146097)
    (hdayOfEra : dayOfEra = days + 719468 - era * 146097) (hyear : year = yearOfDay dayOfEra)
    (hday : day = dayOfEra - (365 * year + year / 4 - year / 100))
    (hmonth : month = (5 * day + 2) / 153) :
    ofDays days =
      ⟨if (if month < 10 then month + 3 else month - 9) ≤ 2 then year + era * 400 + 1
        else year + era * 400,
        (if month < 10 then month + 3 else month - 9).toNat,
        (day - daysBeforeMonth month + 1).toNat⟩ := by
  subst hmonth hday hyear hdayOfEra hera
  unfold ofDays yearOfDay daysBeforeMonth
  simp only [Int.fdiv_eq_ediv_of_nonneg _ (by decide : (0 : Int) ≤ 146097),
    Int.fdiv_eq_ediv_of_nonneg _ (by decide : (0 : Int) ≤ 146096),
    Int.fdiv_eq_ediv_of_nonneg _ (by decide : (0 : Int) ≤ 36524),
    Int.fdiv_eq_ediv_of_nonneg _ (by decide : (0 : Int) ≤ 1460),
    Int.fdiv_eq_ediv_of_nonneg _ (by decide : (0 : Int) ≤ 365),
    Int.fdiv_eq_ediv_of_nonneg _ (by decide : (0 : Int) ≤ 153),
    Int.fdiv_eq_ediv_of_nonneg _ (by decide : (0 : Int) ≤ 100),
    Int.fdiv_eq_ediv_of_nonneg _ (by decide : (0 : Int) ≤ 5),
    Int.fdiv_eq_ediv_of_nonneg _ (by decide : (0 : Int) ≤ 4)]

/-- The date of a day, taken apart: the year that begins in March, the month counted from March,
and the day of that year.  A year has a day 365 only if its leap day belongs to a leap year. -/
theorem exists_ofDays_eq (days : Int) :
    ∃ year month day : Int, 0 ≤ month ∧ month ≤ 11 ∧
      daysBeforeMonth month ≤ day ∧ day < daysBeforeMonth (month + 1) ∧
      (day ≤ 364 ∨ day = 365 ∧ isLeapYear (year + 1) = true) ∧
      daysBeforeYear year + day = days + 719468 ∧
      ofDays days = ⟨if month < 10 then year else year + 1,
        (if month < 10 then month + 3 else month - 9).toNat,
        (day - daysBeforeMonth month + 1).toNat⟩ := by
  obtain ⟨era, hera⟩ : ∃ e, e = (days + 719468) / 146097 := ⟨_, rfl⟩
  obtain ⟨dayOfEra, hdayOfEra⟩ : ∃ d, d = days + 719468 - era * 146097 := ⟨_, rfl⟩
  obtain ⟨year, hyear⟩ : ∃ y, y = yearOfDay dayOfEra := ⟨_, rfl⟩
  obtain ⟨day, hday⟩ : ∃ r, r = dayOfEra - (365 * year + year / 4 - year / 100) := ⟨_, rfl⟩
  obtain ⟨month, hmonth⟩ : ∃ m, m = (5 * day + 2) / 153 := ⟨_, rfl⟩
  have hofDays := ofDays_eq hera hdayOfEra hyear hday hmonth
  obtain ⟨hyear0, hyear399, hbegin, hend⟩ := @dayOfEra_bounds dayOfEra (by omega) (by omega)
  rw [← hyear] at hyear0 hyear399 hbegin hend
  have hday0 : 0 ≤ day := by omega
  have hleap : day ≤ 364 ∨ day = 365 ∧ isLeapYear (year + era * 400 + 1) = true := by
    by_cases h : day ≤ 364
    · exact .inl h
    · exact .inr ⟨by omega, isLeapYear_of_last_day hend (by omega) era⟩
  have hmonth11 : month ≤ 11 := by omega
  refine ⟨year + era * 400, month, day, by omega, hmonth11, ?_, ?_, hleap, ?_, ?_⟩
  · unfold daysBeforeMonth
    omega
  · unfold daysBeforeMonth
    omega
  · have hfirst : daysBeforeYear year = 365 * year + year / 4 - year / 100 := by
      have hnever : year / 400 = 0 := by omega
      rw [daysBeforeYear, hnever, Int.add_zero]
    rw [daysBeforeYear_add_eras, hfirst]
    omega
  · rw [hofDays]
    congr 1
    split <;> split <;> omega

/-- The date of a day exists. -/
theorem isValid_ofDays (days : Int) : (ofDays days).isValid = true := by
  obtain ⟨year, month, day, h0, h11, hlow, hhigh, hleap, -, heq⟩ := exists_ofDays_eq days
  rw [heq]
  unfold daysBeforeMonth at hlow hhigh ⊢
  unfold isValid daysInMonth
  simp only [Bool.and_eq_true, decide_eq_true_eq]
  interval_cases month <;> simp <;> grind

/-- The date of a day has that day. -/
theorem toDays_ofDays (days : Int) : (ofDays days).toDays = days := by
  obtain ⟨year, month, day, h0, h11, hlow, hhigh, -, hdays, heq⟩ := exists_ofDays_eq days
  have hyear : (ofDays days).marchYear = year := by
    rw [heq]
    simp only [marchYear]
    split <;> split <;> omega
  have hmonth : (ofDays days).marchMonth = month := by
    rw [heq]
    simp only [marchMonth]
    split <;> omega
  have hday : ((ofDays days).day : Int) = day - daysBeforeMonth month + 1 := by
    rw [heq]
    exact Int.toNat_of_nonneg (by omega)
  rw [toDays_eq, hyear, hmonth, hday]
  omega

/-! ## Order -/

/-- A date comes before another one. -/
def Before (a b : Date) : Prop :=
  a.year < b.year ∨ a.year = b.year ∧ (a.month < b.month ∨ a.month = b.month ∧ a.day < b.day)

/-- What it takes for a date to exist. -/
theorem isValid_iff {d : Date} :
    d.isValid = true ↔
      1 ≤ d.month ∧ d.month ≤ 12 ∧ 1 ≤ d.day ∧ d.day ≤ daysInMonth d.year d.month := by
  simp [isValid, and_assoc]

/-- Months have from twenty-eight to thirty-one days. -/
theorem daysInMonth_bounds (year : Int) (month : Nat) :
    28 ≤ daysInMonth year month ∧ daysInMonth year month ≤ 31 := by
  unfold daysInMonth
  split <;> (try split) <;> omega

/-- A date lies within its month, and within its year that begins in March. -/
theorem day_bounds {d : Date} (h : d.isValid = true) :
    0 ≤ d.marchMonth ∧ d.marchMonth ≤ 11 ∧ 1 ≤ d.day ∧
      (d.marchMonth < 11 →
        daysBeforeMonth d.marchMonth + d.day ≤ daysBeforeMonth (d.marchMonth + 1)) ∧
      daysBeforeYear d.marchYear + daysBeforeMonth d.marchMonth + d.day ≤
        daysBeforeYear (d.marchYear + 1) := by
  obtain ⟨year, month, day⟩ := d
  obtain ⟨hmonth1, hmonth12, hday1, hday⟩ := isValid_iff.1 h
  simp only at hmonth1 hmonth12 hday1 hday
  simp only [marchMonth, marchYear, daysBeforeMonth, daysBeforeYear]
  have hleap : isLeapYear year = true → year % 4 = 0 ∧ (year % 100 ≠ 0 ∨ year % 400 = 0) := by
    simp [isLeapYear]
  unfold daysInMonth at hday
  interval_cases month <;> simp at hday ⊢ <;> grind

/-- Later years have no fewer days before them. -/
theorem daysBeforeYear_mono {a b : Int} (h : a ≤ b) : daysBeforeYear a ≤ daysBeforeYear b := by
  unfold daysBeforeYear
  omega

/-- Later months have no fewer days before them. -/
theorem daysBeforeMonth_mono {a b : Int} (h : a ≤ b) : daysBeforeMonth a ≤ daysBeforeMonth b := by
  unfold daysBeforeMonth
  omega

/-- Of two dates one comes before the other one, or they are the same. -/
theorem before_trichotomy (a b : Date) : a.Before b ∨ a = b ∨ b.Before a := by
  obtain ⟨year, month, day⟩ := a
  obtain ⟨year', month', day'⟩ := b
  simp only [Before, Date.mk.injEq]
  omega

/-- Dates that exist have more days the later they come. -/
theorem toDays_lt_of_before {a b : Date} (ha : a.isValid = true) (hb : b.isValid = true)
    (h : a.Before b) : a.toDays < b.toDays := by
  obtain ⟨ha0, ha11, haday, hamonth, hayear⟩ := day_bounds ha
  obtain ⟨hb0, hb11, hbday, hbmonth, hbyear⟩ := day_bounds hb
  rw [toDays_eq, toDays_eq]
  -- In terms of March the order of years and months is that of one number.
  have hmarch : 12 * a.marchYear + a.marchMonth ≤ 12 * b.marchYear + b.marchMonth ∧
      (12 * a.marchYear + a.marchMonth = 12 * b.marchYear + b.marchMonth → a.day < b.day) := by
    obtain ⟨ha1, ha12, -, -⟩ := isValid_iff.1 ha
    obtain ⟨hb1, hb12, -, -⟩ := isValid_iff.1 hb
    unfold Before at h
    unfold marchYear marchMonth
    split <;> split <;> omega
  rcases Int.lt_trichotomy a.marchYear b.marchYear with hyear | hyear | hyear
  · have hyears := daysBeforeYear_mono (Int.add_one_le_of_lt hyear)
    have hmonths := daysBeforeMonth_mono hb0
    have hzero : daysBeforeMonth 0 = 0 := rfl
    omega
  · rw [hyear]
    rcases Int.lt_trichotomy a.marchMonth b.marchMonth with hmonth | hmonth | hmonth
    · have hmonths := daysBeforeMonth_mono (Int.add_one_le_of_lt hmonth)
      have hwithin := hamonth (by omega)
      omega
    · have hday := hmarch.2 (by omega)
      rw [hmonth]
      omega
    · omega
  · omega

/-- Later days have later dates. -/
theorem before_ofDays_iff {a b : Int} : (ofDays a).Before (ofDays b) ↔ a < b := by
  constructor
  · intro h
    have := toDays_lt_of_before (isValid_ofDays a) (isValid_ofDays b) h
    rwa [toDays_ofDays, toDays_ofDays] at this
  · intro h
    by_contra hnot
    rcases before_trichotomy (ofDays a) (ofDays b) with hbefore | heq | hafter
    · exact hnot hbefore
    · have := congrArg toDays heq
      rw [toDays_ofDays, toDays_ofDays] at this
      omega
    · have := toDays_lt_of_before (isValid_ofDays b) (isValid_ofDays a) hafter
      rw [toDays_ofDays, toDays_ofDays] at this
      omega

/-! ## Date after date -/

/-- A date that exists is the date of its day. -/
theorem ofDays_toDays {d : Date} (h : d.isValid = true) : ofDays d.toDays = d := by
  rcases before_trichotomy (ofDays d.toDays) d with hbefore | heq | hafter
  · have := toDays_lt_of_before (isValid_ofDays _) h hbefore
    rw [toDays_ofDays] at this
    omega
  · exact heq
  · have := toDays_lt_of_before h (isValid_ofDays _) hafter
    rw [toDays_ofDays] at this
    omega

/-- The date after a date: the next day of the month, or the first day of the next month. -/
def next (d : Date) : Date :=
  if d.day < daysInMonth d.year d.month then { d with day := d.day + 1 }
  else if d.month < 12 then ⟨d.year, d.month + 1, 1⟩
  else ⟨d.year + 1, 1, 1⟩

/-- The first day of a month exists. -/
theorem isValid_first {year : Int} {month : Nat} (hlow : 1 ≤ month) (hhigh : month ≤ 12) :
    isValid ⟨year, month, 1⟩ = true := by
  have hdays : 1 ≤ daysInMonth year month := le_trans (by decide) (daysInMonth_bounds year month).1
  exact isValid_iff.2 ⟨hlow, hhigh, Nat.le_refl 1, hdays⟩

/-- The date after one that exists does so too. -/
theorem isValid_next {d : Date} (h : d.isValid = true) : d.next.isValid = true := by
  obtain ⟨hmonth1, hmonth12, -, -⟩ := isValid_iff.1 h
  unfold next
  split
  · rename_i hwithin
    exact isValid_iff.2 ⟨hmonth1, hmonth12, Nat.succ_pos _, hwithin⟩
  · split
    · exact isValid_first (Nat.succ_pos _) (by omega)
    · exact isValid_first (Nat.le_refl 1) (by decide)

/-- The date after one that exists has one day more. -/
theorem toDays_next {d : Date} (h : d.isValid = true) : d.next.toDays = d.toDays + 1 := by
  obtain ⟨year, month, day⟩ := d
  obtain ⟨hmonth1, hmonth12, hday1, hday⟩ := isValid_iff.1 h
  simp only at hmonth1 hmonth12 hday1 hday
  rw [toDays_eq, toDays_eq]
  unfold next
  split
  · simp only [marchYear, marchMonth]
    push_cast
    omega
  · rename_i hend
    -- Leap years matter only where the month that ends is February.
    have hleap : isLeapYear year = true ↔ year % 4 = 0 ∧ (year % 100 ≠ 0 ∨ year % 400 = 0) := by
      simp [isLeapYear]
    simp only [marchYear, marchMonth, daysBeforeMonth, daysBeforeYear]
    unfold daysInMonth at hday hend
    interval_cases month <;> simp at hday hend ⊢ <;> grind

/-- The day after has the date after. -/
theorem ofDays_add_one (days : Int) : ofDays (days + 1) = (ofDays days).next := by
  have hvalid := isValid_ofDays days
  have hdays := toDays_next hvalid
  rw [toDays_ofDays] at hdays
  rw [← hdays, ofDays_toDays (isValid_next hvalid)]

/-- The date of a later day is reached by as many steps from date to date as there are days in
between. -/
theorem ofDays_add (days : Int) (n : Nat) : ofDays (days + n) = next^[n] (ofDays days) := by
  induction n with
  | zero => simp
  | succ n ih =>
    have hlast : days + ((n + 1 : Nat) : Int) = days + n + 1 := by omega
    rw [hlast, ofDays_add_one, ih, Function.iterate_succ_apply']

/-- A day lies before a year if it lies before the first of January of that year. -/
theorem year_ofDays_lt_iff {days year : Int} :
    (ofDays days).year < year ↔ days < toDays ⟨year, 1, 1⟩ := by
  have hfirst : isValid ⟨year, 1, 1⟩ = true := isValid_first (Nat.le_refl 1) (by decide)
  have hbefore := @before_ofDays_iff days (toDays ⟨year, 1, 1⟩)
  rw [ofDays_toDays hfirst] at hbefore
  rw [← hbefore]
  obtain ⟨hmonth, -, hday, -⟩ := isValid_iff.1 (isValid_ofDays days)
  simp only [Before]
  omega

end StepFlow.Date
