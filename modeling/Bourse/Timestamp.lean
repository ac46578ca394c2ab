/-!
# Timestamps

A `Timestamp` counts milliseconds since the start of 1970 in universal time. `Timestamp.rfc3339`
writes it as a date of the proleptic Gregorian calendar and a time of day, with milliseconds only
where there are some.

The calendar reaches from year -262143 to year 262142; a moment outside has no text. Years of more
or less than four digits, and those before year 0, carry a sign.
-/

namespace Bourse

/-- A moment, in milliseconds since 1970 began. -/
structure Timestamp where
  millis : Int64
deriving DecidableEq

namespace Timestamp

instance : LE Timestamp := ⟨fun a b => a.millis ≤ b.millis⟩

instance : LT Timestamp := ⟨fun a b => a.millis < b.millis⟩

instance (a b : Timestamp) : Decidable (a ≤ b) := inferInstanceAs (Decidable (a.millis ≤ b.millis))

instance (a b : Timestamp) : Decidable (a < b) := inferInstanceAs (Decidable (a.millis < b.millis))

instance : Ord Timestamp := ⟨fun a b => compare a.millis.toInt b.millis.toInt⟩

theorem compare_def (a b : Timestamp) : compare a b = compare a.millis.toInt b.millis.toInt := rfl

/-- The moment that many milliseconds after 1970 began, wrapped to 64 bits. -/
def ofNat (n : Nat) : Timestamp := ⟨Int64.ofNat n⟩

/-- A day of the calendar. -/
structure Date where
  year : Int
  month : Nat
  day : Nat
deriving DecidableEq

/-- The date of a day, counted from the first of January 1970. A year is taken to begin with March,
so that a leap day ends it; 400 such years have 146097 days. -/
def dateOfDay (day : Int) : Date :=
  let shifted := day + 719468
  let era := shifted / 146097
  let dayOfEra := (shifted % 146097).toNat
  let yearOfEra := (dayOfEra - dayOfEra / 1460 + dayOfEra / 36524 - dayOfEra / 146096) / 365
  let dayOfYear := dayOfEra - (365 * yearOfEra + yearOfEra / 4 - yearOfEra / 100)
  let monthFromMarch := (5 * dayOfYear + 2) / 153
  let month := if monthFromMarch < 10 then monthFromMarch + 3 else monthFromMarch - 9
  { year := era * 400 + yearOfEra + (if month ≤ 2 then 1 else 0)
    month := month
    day := dayOfYear - (153 * monthFromMarch + 2) / 5 + 1 }

/-- The digits of a number, padded with zeros to a width. -/
def padded (width n : Nat) : String :=
  let ds := Nat.toDigits 10 n
  String.ofList (List.replicate (width - ds.length) '0' ++ ds)

/-- Four digits for the years 0 to 9999, else a sign and at least four digits. -/
def yearText (year : Int) : String :=
  if year < 0 then "-" ++ padded 4 year.natAbs
  else if year ≤ 9999 then padded 4 year.natAbs
  else "+" ++ padded 4 year.natAbs

/-- The milliseconds of a day. -/
def millisPerDay : Int := 86400000

/-- Date and time of day with the offset of universal time; empty outside the calendar. -/
def rfc3339 (t : Timestamp) : String :=
  let millis := t.millis.toInt
  let date := dateOfDay (millis / millisPerDay)
  let time := (millis % millisPerDay).toNat
  if date.year < -262143 ∨ 262142 < date.year then
    ""
  else
    let fraction := if time % 1000 = 0 then "" else "." ++ padded 3 (time % 1000)
    yearText date.year ++ "-" ++ padded 2 date.month ++ "-" ++ padded 2 date.day
      ++ "T" ++ padded 2 (time / 3600000) ++ ":" ++ padded 2 (time / 60000 % 60)
      ++ ":" ++ padded 2 (time / 1000 % 60) ++ fraction ++ "+00:00"

end Timestamp

end Bourse
