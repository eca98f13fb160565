/-!
Instants in milliseconds since 1970-01-01T00:00:00Z, and their written form: the calendar date and
the time of day in UTC, with three more digits where the second is not whole.
-/

namespace LongTermMemory

structure Instant where
  millis : Int
deriving DecidableEq, Inhabited

namespace Instant

instance : LT Instant := ⟨fun a b => a.millis < b.millis⟩
instance : LE Instant := ⟨fun a b => a.millis ≤ b.millis⟩
instance (a b : Instant) : Decidable (a < b) := inferInstanceAs (Decidable (a.millis < b.millis))
instance (a b : Instant) : Decidable (a ≤ b) := inferInstanceAs (Decidable (a.millis ≤ b.millis))

/-- The time from `a` to `b`, in milliseconds. -/
def since (b a : Instant) : Int := b.millis - a.millis

def millisPerDay : Int := 86400000

structure Date where
  year : Int
  month : Nat
  day : Nat
deriving DecidableEq

/-- The date of a day counted from 1970-01-01. Years are taken to begin in March, so that a leap
day is the last of its year, and to come in cycles of 400. -/
def dateOfDay (dayNumber : Int) : Date :=
  let z := dayNumber + 719468
  let cycle := z.fdiv 146097
  let dayOfCycle := (z - cycle * 146097).toNat
  let yearOfCycle :=
    (dayOfCycle - dayOfCycle / 1460 + dayOfCycle / 36524 - dayOfCycle / 146096) / 365
  let dayOfYear := dayOfCycle - (365 * yearOfCycle + yearOfCycle / 4 - yearOfCycle / 100)
  let monthFromMarch := (5 * dayOfYear + 2) / 153
  let month := if monthFromMarch < 10 then monthFromMarch + 3 else monthFromMarch - 9
  { year := (yearOfCycle : Int) + cycle * 400 + if month ≤ 2 then 1 else 0
    month
    day := dayOfYear - (153 * monthFromMarch + 2) / 5 + 1 }

def date (t : Instant) : Date := dateOfDay (t.millis.fdiv millisPerDay)

def millisOfDay (t : Instant) : Nat := (t.millis.fmod millisPerDay).toNat

/-- At least `width` digits, with zeros in front. -/
def padded (width n : Nat) : String :=
  let ds := Nat.toDigits 10 n
  String.ofList (List.replicate (width - ds.length) '0' ++ ds)

/-- A year of other than four digits carries its sign. -/
def yearText (year : Int) : String :=
  if 0 ≤ year ∧ year ≤ 9999 then padded 4 year.toNat
  else (if year < 0 then "-" else "+") ++ padded 4 year.natAbs

def text (offset : String) (t : Instant) : String :=
  let d := t.date
  let ms := t.millisOfDay
  let fraction := if ms % 1000 = 0 then "" else "." ++ padded 3 (ms % 1000)
  yearText d.year ++ "-" ++ padded 2 d.month ++ "-" ++ padded 2 d.day ++ "T" ++
    padded 2 (ms / 3600000) ++ ":" ++ padded 2 (ms / 60000 % 60) ++ ":" ++
    padded 2 (ms / 1000 % 60) ++ fraction ++ offset

/-- As the database keeps it; the database orders instants by this text. -/
def stamp (t : Instant) : String := t.text "+00:00"

/-- As it is printed. -/
def printed (t : Instant) : String := t.text "Z"

/-- Only stamps with a year of four digits can be read back. -/
def readable (t : Instant) : Bool := 0 ≤ t.date.year ∧ t.date.year ≤ 9999

/-- The longest time span, in days, that can be told in milliseconds. -/
def maxDays : Int := 106751991167

/-- A number of days in milliseconds, none if that is out of range. -/
def days? (n : Int) : Option Int :=
  if -maxDays ≤ n ∧ n ≤ maxDays then some (n * millisPerDay) else none

end Instant

end LongTermMemory
