import StepFlow.Time.Calendar

/-!
# Instants

A moment in universal time, to the nanosecond, and the texts that show it. A leap second is
shown as second sixty: its nanoseconds run on past a thousand million.
-/

namespace StepFlow

/-- A moment: whole seconds since the start of 1970, and nanoseconds, which reach beyond a
second only within a leap second. Leap seconds in the middle of a minute are left out: they come
about only where the nanoseconds of a moment are set by hand, and no clock and no text has them. -/
structure Instant where
  second : Int
  nanosecond : Nat
  nanosecond_lt : nanosecond < 2000000000
  /-- A leap second follows the last second of a minute. -/
  leap_at_minute : 1000000000 ≤ nanosecond → second % 60 = 59
deriving DecidableEq

/-- A moment as it is read from a calendar and a clock. -/
structure ClockReading where
  date : Date
  hour : Nat
  minute : Nat
  second : Nat
  nanosecond : Nat
deriving DecidableEq, Repr

namespace Instant

/-- The start of 1970. -/
def epoch : Instant := ⟨0, 0, by decide, by decide⟩

instance : Inhabited Instant := ⟨epoch⟩

/-- The instant a number of nanoseconds after the start of 1970. -/
def ofNanoseconds (n : Int) : Instant where
  second := n.fdiv 1000000000
  nanosecond := (n.fmod 1000000000).toNat
  nanosecond_lt := by
    have := Int.fmod_lt_of_pos n (b := 1000000000) (by decide)
    omega
  leap_at_minute := by
    have := Int.fmod_lt_of_pos n (b := 1000000000) (by decide)
    omega

/-- What a calendar and a clock show at an instant. -/
def toReading (t : Instant) : ClockReading :=
  let days := t.second.fdiv 86400
  let ofDay := (t.second - days * 86400).toNat
  let leap := t.nanosecond / 1000000000
  { date := Date.ofDays days
    hour := ofDay / 3600
    minute := ofDay / 60 % 60
    second := ofDay % 60 + leap
    nanosecond := t.nanosecond % 1000000000 }

/-! ### Texts -/

/-- A natural number in at least `width` decimal digits. -/
def padded (width n : Nat) : List Char :=
  let ds := Nat.toDigits 10 n
  List.replicate (width - ds.length) '0' ++ ds

/-- A year in four digits; one outside of `0` to `9999` carries its sign. -/
def yearChars (year : Int) : List Char :=
  if 0 ≤ year ∧ year ≤ 9999 then padded 4 year.toNat
  else (if year < 0 then '-' else '+') :: padded 4 year.natAbs

/-- The date and the time of day, with a given mark between them. -/
def dateTimeChars (mark : Char) (r : ClockReading) : List Char :=
  yearChars r.date.year ++ '-' :: padded 2 r.date.month ++ '-' :: padded 2 r.date.day ++
    mark :: padded 2 r.hour ++ ':' :: padded 2 r.minute ++ ':' :: padded 2 r.second

/-- A fraction of a second in nine digits. -/
def fullFraction (nanosecond : Nat) : List Char := '.' :: padded 9 nanosecond

/-- A fraction of a second in none, three, six or nine digits, the fewest that lose
nothing. -/
def shortFraction (nanosecond : Nat) : List Char :=
  if nanosecond = 0 then []
  else if nanosecond % 1000000 = 0 then '.' :: padded 3 (nanosecond / 1000000)
  else if nanosecond % 1000 = 0 then '.' :: padded 6 (nanosecond / 1000)
  else fullFraction nanosecond

/-- The instant as data shows it, such as `2026-03-01T08:00:00.5Z` with three digits. -/
def text (t : Instant) : String :=
  let r := t.toReading
  String.ofList (dateTimeChars 'T' r ++ shortFraction r.nanosecond ++ ['Z'])

/-- The instant as `text` shows it, with the offset from universal time in digits. -/
def offsetText (t : Instant) : String :=
  let r := t.toReading
  String.ofList (dateTimeChars 'T' r ++ shortFraction r.nanosecond ++ "+00:00".toList)

/-- The instant with nine digits after the second, so that all texts of four-digit years have
one width and sort as the instants do. -/
def sortableText (t : Instant) : String :=
  let r := t.toReading
  String.ofList (dateTimeChars 'T' r ++ fullFraction r.nanosecond ++ ['Z'])

/-- The instant to the second, as a listing shows it. -/
def listingText (t : Instant) : String :=
  String.ofList (dateTimeChars ' ' t.toReading)

end Instant

end StepFlow
