/-!
# Instants and their text

An instant is a moment of civil time: whole seconds since the beginning of 1970 and nanoseconds
after them. Nanoseconds of a thousand million and more are those of a leap second, which has the
number 60 and may only follow the last second of a minute.

* `Instant.ofUnix?` – admits what lies between the years -262143 and 262142;
* `Instant.text` – date and time with `Z`; the fraction has no, three, six or nine digits, the
  fewest that are exact; years beyond 9999 have a sign.
* `Instant.micros` and `Instant.ofMicros` – whole microseconds, the unit of the database.
-/

namespace KeyLifecycle

/-- Seconds since the beginning of 1970, and nanoseconds after them. -/
structure Instant where
  seconds : Int
  nanos : Nat
  deriving DecidableEq, Repr, Inhabited

namespace Instant

/-- The first second that is admitted. -/
def firstSecond : Int := -8334601228800

/-- The last second that is admitted. -/
def lastSecond : Int := 8210266876799

/-- The instant of a Unix time, where there is one. -/
def ofUnix? (seconds : Int) (nanos : Nat) : Option Instant :=
  if seconds < firstSecond ∨ lastSecond < seconds then none
  else if nanos < 1000000000 then some ⟨seconds, nanos⟩
  else if nanos < 2000000000 ∧ seconds % 60 = 59 then some ⟨seconds, nanos⟩
  else none

/-! ### The calendar -/

/-- The year, month and day of a number of days since the beginning of 1970. The years are counted
from March, in eras of four hundred years. -/
def civil (days : Int) : Int × Nat × Nat :=
  let z := days + 719468
  let era := z / 146097
  let dayOfEra := (z % 146097).toNat
  let yearOfEra :=
    (dayOfEra - dayOfEra / 1460 + dayOfEra / 36524 - dayOfEra / 146096) / 365
  let dayOfYear := dayOfEra - (365 * yearOfEra + yearOfEra / 4 - yearOfEra / 100)
  let monthFromMarch := (5 * dayOfYear + 2) / 153
  let day := dayOfYear - (153 * monthFromMarch + 2) / 5 + 1
  let month := if monthFromMarch < 10 then monthFromMarch + 3 else monthFromMarch - 9
  let year := (yearOfEra : Int) + era * 400
  (if month ≤ 2 then year + 1 else year, month, day)

/-! ### Text -/

/-- A number with zeros in front of it up to a width. -/
def padded (width n : Nat) : String :=
  let digits := Nat.toDigits 10 n
  String.ofList (List.replicate (width - digits.length) '0' ++ digits)

/-- A year of four digits; with a sign where it is negative or longer. -/
def yearText (year : Int) : String :=
  if year < 0 then "-" ++ padded 4 year.natAbs
  else if year ≤ 9999 then padded 4 year.toNat
  else "+" ++ padded 4 year.toNat

/-- The fraction of a second in the fewest groups of three digits. -/
def fractionText (nanos : Nat) : String :=
  if nanos = 0 then ""
  else if nanos % 1000000 = 0 then "." ++ padded 3 (nanos / 1000000)
  else if nanos % 1000 = 0 then "." ++ padded 6 (nanos / 1000)
  else "." ++ padded 9 nanos

/-- Date and time of an instant. -/
def text (t : Instant) : String :=
  let (year, month, day) := civil (t.seconds / 86400)
  let second := (t.seconds % 86400).toNat
  let leap := 1000000000 ≤ t.nanos
  let nanos := if leap then t.nanos - 1000000000 else t.nanos
  yearText year ++ "-" ++ padded 2 month ++ "-" ++ padded 2 day ++ "T" ++
    padded 2 (second / 3600) ++ ":" ++ padded 2 (second / 60 % 60) ++ ":" ++
    padded 2 (second % 60 + if leap then 1 else 0) ++ fractionText nanos ++ "Z"

/-! ### Microseconds -/

/-- The instant of a number of microseconds since the beginning of 1970. -/
def ofMicros (micros : Int) : Instant :=
  ⟨micros / 1000000, (micros % 1000000).toNat * 1000⟩

/-- Seconds from the beginning of 1970 to the beginning of 2000, the database's own zero. -/
def epochShift : Int := 946684800

/-- The microseconds since the beginning of 1970 at which the database keeps an instant. What is
finer is cut off towards the database's zero. -/
def micros (t : Instant) : Int :=
  ((t.seconds - epochShift) * 1000000000 + t.nanos).tdiv 1000 + epochShift * 1000000

end Instant

end KeyLifecycle
