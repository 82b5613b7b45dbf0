/-!
# Instants and their texts

An instant is a number of nanoseconds since 1970-01-01T00:00:00Z. The calendar
is the proleptic Gregorian one. Three formats are written: RFC 3339 with as many
fraction digits as the instant needs (`formatRFC3339Nano`) or with none
(`formatRFC3339`), and the format of `Date.prototype.toISOString`, always with
three.
-/

namespace Encoding

/-! ## Instants and dates -/

/-- Nanoseconds since 1970-01-01T00:00:00Z. -/
abbrev Instant := Int

def nanosPerSecond : Int := 1000000000

def secondsPerDay : Int := 86400

/-- Whole seconds since 1970, rounded down. -/
def unixSeconds (t : Instant) : Int := t / nanosPerSecond

/-- An instant seen in a zone that is `offset` seconds ahead of UTC. -/
structure ZonedTime where
  instant : Instant
  offset : Int
deriving DecidableEq, Repr

def ZonedTime.utc (t : Instant) : ZonedTime := ⟨t, 0⟩

structure Date where
  year : Int
  month : Int
  day : Int
deriving DecidableEq, Repr

/-- The date `days` days after 1970-01-01. Years are counted from March, in eras
of 400 years. -/
def Date.ofDays (days : Int) : Date :=
  let z := days + 719468
  let era := z / 146097
  let dayOfEra := z % 146097
  let yearOfEra :=
    (dayOfEra - dayOfEra / 1460 + dayOfEra / 36524 - dayOfEra / 146096) / 365
  let dayOfYear := dayOfEra - (365 * yearOfEra + yearOfEra / 4 - yearOfEra / 100)
  let m := (5 * dayOfYear + 2) / 153
  let month := if m < 10 then m + 3 else m - 9
  { year := yearOfEra + era * 400 + if month ≤ 2 then 1 else 0
    month := month
    day := dayOfYear - (153 * m + 2) / 5 + 1 }

/-! ## Texts -/

def digitsOf (n : Nat) : List Char := Nat.toDigits 10 n

/-- At least `width` digits, with zeros in front. -/
def padded (width n : Nat) : List Char :=
  List.replicate (width - (digitsOf n).length) '0' ++ digitsOf n

/-- A number with its sign when it is negative, padded. -/
def appendInt (width : Nat) (x : Int) : List Char :=
  if x < 0 then '-' :: padded width x.natAbs else padded width x.natAbs

def dateText (d : Date) : List Char :=
  appendInt 4 d.year ++ '-' :: appendInt 2 d.month ++ '-' :: appendInt 2 d.day

/-- The time of day, from the seconds since midnight. -/
def clockText (s : Int) : List Char :=
  appendInt 2 (s / 3600) ++ ':' :: appendInt 2 (s / 60 % 60) ++ ':' :: appendInt 2 (s % 60)

/-- The fraction of the second, without trailing zeros; nothing when it is zero. -/
def fractionText (nanos : Nat) : List Char :=
  if nanos = 0 then []
  else '.' :: ((padded 9 nanos).reverse.dropWhile (· == '0')).reverse

/-- `Z`, or the offset in hours and minutes. -/
def zoneText (offset : Int) : List Char :=
  if offset = 0 then ['Z']
  else
    let zone := (offset.natAbs / 60 : Nat)
    (if offset < 0 ∧ zone ≠ 0 then '-' else '+') :: padded 2 (zone / 60) ++ ':' :: padded 2 (zone % 60)

/-- RFC 3339 with up to nine fraction digits. -/
def formatRFC3339Nano (t : ZonedTime) : String :=
  let s := unixSeconds t.instant + t.offset
  String.ofList (dateText (Date.ofDays (s / secondsPerDay)) ++
    'T' :: clockText (s % secondsPerDay) ++
    fractionText (t.instant % nanosPerSecond).toNat ++ zoneText t.offset)

/-- RFC 3339 without a fraction. -/
def formatRFC3339 (t : ZonedTime) : String :=
  let s := unixSeconds t.instant + t.offset
  String.ofList (dateText (Date.ofDays (s / secondsPerDay)) ++
    'T' :: clockText (s % secondsPerDay) ++ zoneText t.offset)

/-- The year of an ISO text: four digits, or a sign and six. -/
def isoYear (year : Int) : List Char :=
  if 0 ≤ year ∧ year ≤ 9999 then padded 4 year.natAbs
  else (if year < 0 then '-' else '+') :: padded 6 year.natAbs

/-- `toISOString` of the date at `t`, which is read to the millisecond. -/
def toISOString (t : Instant) : String :=
  let s := unixSeconds t
  let d := Date.ofDays (s / secondsPerDay)
  String.ofList (isoYear d.year ++ '-' :: padded 2 d.month.natAbs ++ '-' :: padded 2 d.day.natAbs ++
    'T' :: clockText (s % secondsPerDay) ++
    '.' :: padded 3 ((t % nanosPerSecond).toNat / 1000000) ++ ['Z'])

theorem formatRFC3339Nano_ne_empty (t : ZonedTime) : formatRFC3339Nano t ≠ "" := by
  intro h
  have hnil := congrArg String.toList h
  simp [formatRFC3339Nano, String.toList_ofList] at hnil

example : formatRFC3339Nano (.utc 1781519400000000000) = "2026-06-15T10:30:00Z" := by decide
example : formatRFC3339Nano ⟨1781519400120000000, 7200⟩ = "2026-06-15T12:30:00.12+02:00" := by decide
example : toISOString 1781519400120999999 = "2026-06-15T10:30:00.120Z" := by decide

end Encoding
