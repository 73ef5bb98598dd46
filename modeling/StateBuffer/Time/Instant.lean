import StateBuffer.Time.Duration

/-!
Instants in nanoseconds since the beginning of 1970, and their text in the calendar of universal
time. Whole seconds are counted in 64 bits: those before the first day that the calendar knows are
taken for as many after its last.
-/

namespace StateBuffer

/-- An instant: nanoseconds since the beginning of 1970. -/
abbrev Instant := Int

namespace Instant

def ofSeconds (seconds nanoseconds : Int) : Instant :=
  Duration.wrap (seconds + nanoseconds.fdiv Duration.second) * Duration.second
    + nanoseconds.fmod Duration.second

structure Date where
  year : Int
  month : Nat
  day : Nat
  deriving DecidableEq, Repr

/-- The day that lies a number of days after the first of January 1970. Years are counted from
March, so that the day that some years have more is the last of its year; 400 years have 146097
days. -/
def Date.ofDays (days : Int) : Date :=
  let shifted := days + 719468
  let era := shifted.fdiv 146097
  let inEra := (shifted.fmod 146097).toNat
  let yearOfEra := (inEra - inEra / 1460 + inEra / 36524 - inEra / 146096) / 365
  let dayOfYear := inEra - (365 * yearOfEra + yearOfEra / 4 - yearOfEra / 100)
  let fromMarch := (5 * dayOfYear + 2) / 153
  let day := dayOfYear - (153 * fromMarch + 2) / 5 + 1
  let month := if fromMarch < 10 then fromMarch + 3 else fromMarch - 9
  ⟨era * 400 + yearOfEra + (if month ≤ 2 then 1 else 0), month, day⟩

/-- The first day of the calendar, the first of March of the year -292277022400, as days from the
beginning of 1970. -/
def firstDay : Int := -730692556 * 146097 - 719468

/-- The seconds from the first day of the calendar to a second counted from 1970. -/
def sinceFirst (seconds : Int) : Nat := ((seconds - firstDay * 86400) % Duration.modulus).toNat

/-- A number with at least a number of digits. -/
def padded (width n : Nat) : Bytes :=
  let digits := Bytes.ofNat n
  List.replicate (width - digits.length) (Bytes.byte '0') ++ digits

def Date.text (d : Date) : Bytes :=
  Duration.sign d.year ++ padded 4 d.year.natAbs ++ "-" ++ padded 2 d.month ++ "-"
    ++ padded 2 d.day

def text (t : Instant) : Bytes :=
  let seconds := sinceFirst (t.fdiv Duration.second)
  let micros := (t.fmod Duration.second).toNat / Duration.microsecond
  let inDay := seconds % 86400
  (Date.ofDays (firstDay + (seconds / 86400 : Nat))).text ++ "T" ++ padded 2 (inDay / 3600) ++ ":"
    ++ padded 2 (inDay % 3600 / 60) ++ ":" ++ padded 2 (inDay % 60) ++ "." ++ padded 6 micros ++ "Z"

end Instant

end StateBuffer
