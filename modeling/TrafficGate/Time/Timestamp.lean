import TrafficGate.Time.Civil
import TrafficGate.Text.Blank
import TrafficGate.Text.Seq
/-!
  # Points in time

  A point in time of the zone UTC, to the nanosecond, and its texts.

  1. `Timestamp` -- a second and the nanoseconds in it; in a leap second these are a billion and
     more;
  2. writing: the date and time with a fraction of fixed length, or of the shortest of four;
  3. reading: the strict form with an offset, a relaxed one, and the form with a blank and no
     offset;
  4. `daysBefore?` -- going back by whole days, as far as dates are handled.

  Main fact: **`natAbs_le_of_daysBefore?`** (no span is longer than the longest one).
-/

namespace TrafficGate.Time

/-! ## 1. Timestamps -/

/-- The nanoseconds of a second. -/
def second : Nat := 1000000000

/-- The seconds of a day. -/
def daySeconds : Int := 86400

/-- A point in time: seconds since 1970-01-01, and nanoseconds. -/
structure Timestamp where
  seconds : Int
  nanos : Nat
  deriving DecidableEq, Repr

/-- When something happens: the time of day by the wall clock, and the nanoseconds of a clock that
    only goes forward. -/
structure Moment where
  wall : Timestamp
  tick : Nat
  deriving DecidableEq, Repr

namespace Timestamp

/-! ## 2. Writing -/

/-- A year: four digits, and a sign when that is not enough. -/
def yearText (y : Int) : Text :=
  if 0 ≤ y ∧ y ≤ 9999 then Numeral.padded 4 y.toNat
  else (if y < 0 then '-' else '+') :: Numeral.padded 4 y.natAbs

/-- A date: year, month and day with hyphens. -/
def dateText (d : Date) : Text :=
  yearText d.year ++ '-' :: Numeral.padded 2 d.month ++ '-' :: Numeral.padded 2 d.day

/-- A number below 100000 as the time of the day: hours, minutes and seconds with colons. A leap
    second is one more than 59. -/
def clockText (secondOfDay : Nat) (isLeap : Bool) : Text :=
  Numeral.padded 2 (secondOfDay / 3600) ++ ':' :: Numeral.padded 2 (secondOfDay / 60 % 60) ++
    ':' :: Numeral.padded 2 (secondOfDay % 60 + (if isLeap then 1 else 0))

/-- The first `places` of the nine digits of the nanoseconds, behind a point. -/
def fraction (places nanos : Nat) : Text := '.' :: (Numeral.padded 9 nanos).take places

/-- The date and the time of day with a given blank between them and text behind. -/
def render (separator : Char) (fractionText : Text) (t : Timestamp) : Text :=
  dateText (Date.ofDays (t.seconds / daySeconds)) ++
    separator :: clockText (t.seconds % daySeconds).toNat (decide (second ≤ t.nanos)) ++
    fractionText

/-- The nanoseconds of the second that is shown. -/
def shownNanos (t : Timestamp) : Nat := t.nanos % second

/-- With six digits of the second, cut off, and the zone. -/
def micros (t : Timestamp) : Text := t.render 'T' (fraction 6 t.shownNanos ++ ['Z'])

/-- How many digits of the second are needed: none, three, six or nine. -/
def places (nanos : Nat) : Nat :=
  if nanos = 0 then 0
  else if nanos % 1000000 = 0 then 3
  else if nanos % 1000 = 0 then 6
  else 9

/-- With as many digits of the second as are needed, and the zone. -/
def shortest (t : Timestamp) : Text :=
  let n := t.shownNanos
  t.render 'T' ((if n = 0 then [] else fraction (places n) n) ++ ['Z'])

/-- With a blank in the middle, and nothing below the second. -/
def plain (t : Timestamp) : Text := t.render ' ' []

/-! ## 3. Reading -/

/-- A date and a time of day as they are read, with the text behind them. -/
structure Fields where
  year : Int
  month : Nat
  day : Nat
  hour : Nat
  minute : Nat
  secondOfMinute : Nat
  nanos : Nat
  deriving DecidableEq, Repr

/-- The timestamp of the fields in a zone that is `offset` seconds ahead; none when there is no such
    date or time. The second 60 is a leap second. -/
def ofFields? (f : Fields) (offset : Int) : Option Timestamp :=
  let date : Date := { year := f.year, month := f.month, day := f.day }
  if date.isValid && decide (f.hour < 24) && decide (f.minute < 60) &&
      decide (f.secondOfMinute ≤ 60) && decide (-daySeconds < offset) &&
      decide (offset < daySeconds) then
    let clock := f.hour * 3600 + f.minute * 60 + min f.secondOfMinute 59
    some { seconds := date.toDays * daySeconds + (clock : Int) - offset,
           nanos := f.nanos + (if f.secondOfMinute = 60 then second else 0) }
  else none

/-- Between `least` and `most` digits as a number, and the text behind them. -/
def number? (least most : Nat) (t : Text) : Option (Nat × Text) :=
  let ds := (t.takeWhile Ascii.isDigit).take most
  if ds.length < least then none
  else (Numeral.readDigits? 10 0 ds).map fun n => (n, t.drop ds.length)

/-- The text behind a character that must stand in front. -/
def expect? (c : Char) : Text → Option Text
  | d :: rest => if d = c then some rest else none
  | [] => none

/-- The digits of a fraction as nanoseconds, if a point stands in front. Digits beyond the ninth are
    dropped. -/
def nanos? (t : Text) : Option (Nat × Text) :=
  match t with
  | '.' :: rest =>
    match number? 1 9 rest with
    | none => none
    | some (n, behind) =>
      let read := rest.length - behind.length
      some (n * Nat.pow 10 (9 - read), behind.dropWhile Ascii.isDigit)
  | _ => some (0, t)

/-- The text behind the blank between date and time: a letter T or a space. -/
def dateTimeBreak? : Text → Option Text
  | c :: rest => if c = 'T' ∨ c = 't' ∨ c = ' ' then some rest else none
  | [] => none

/-- The sign of an offset: true for one behind UTC. -/
def offsetSign? : Text → Option (Bool × Text)
  | c :: rest =>
    if c = '+' then some (false, rest)
    else if c = '-' ∨ c.toNat = 0x2212 then some (true, rest)
    else none
  | [] => none

/-- Two digits as a number. -/
def twoDigits? (t : Text) : Option (Nat × Text) := number? 2 2 t

/-- An offset: the letter Z, or a sign, hours and minutes; `skip` reads what stands between the
    hours and the minutes. -/
def offset? (skip : Text → Option Text) (t : Text) : Option (Int × Text) :=
  match t with
  | [] => none
  | c :: rest =>
    if c = 'Z' ∨ c = 'z' then some (0, rest)
    else do
      let (behind, t) ← offsetSign? t
      let (hours, t) ← twoDigits? t
      let t ← skip t
      let (minutes, t) ← twoDigits? t
      if 60 ≤ minutes then none
      else
        let size : Int := (hours * 3600 + minutes * 60 : Nat)
        some (if behind then -size else size, t)

/-- Reads the strict form: `2024-01-02T03:04:05.678+09:00`. -/
def read? (t : Text) : Option Timestamp := do
  let (year, t) ← number? 4 4 t
  let t ← expect? '-' t
  let (month, t) ← twoDigits? t
  let t ← expect? '-' t
  let (day, t) ← twoDigits? t
  let t ← dateTimeBreak? t
  let (hour, t) ← twoDigits? t
  let t ← expect? ':' t
  let (minute, t) ← twoDigits? t
  let t ← expect? ':' t
  let (secondOfMinute, t) ← twoDigits? t
  let (nanos, t) ← nanos? t
  let (offset, t) ← offset? (expect? ':') t
  if t.isEmpty then
    ofFields? { year := year, month, day, hour, minute, secondOfMinute, nanos } offset
  else none

/-- A year with white space in front: up to four digits, or any number of them behind a sign. -/
def looseYear? (t : Text) : Option (Int × Text) :=
  match Text.trimStart t with
  | '-' :: rest => (number? 1 rest.length rest).map fun p => (-(p.1 : Int), p.2)
  | '+' :: rest => (number? 1 rest.length rest).map fun p => ((p.1 : Int), p.2)
  | t => (number? 1 4 t).map fun p => ((p.1 : Int), p.2)

/-- One or two digits with white space in front. -/
def looseNumber? (t : Text) : Option (Nat × Text) := number? 1 2 (Text.trimStart t)

/-- A character that must come next, white space aside if that is allowed. -/
def looseExpect? (blanks : Bool) (c : Char) (t : Text) : Option Text :=
  expect? c (if blanks then Text.trimStart t else t)

/-- A date with loose numbers. -/
def looseDate? (blanks : Bool) (t : Text) : Option ((Int × Nat × Nat) × Text) := do
  let (year, t) ← looseYear? t
  let t ← looseExpect? blanks '-' t
  let (month, t) ← looseNumber? t
  let t ← looseExpect? blanks '-' t
  let (day, t) ← looseNumber? t
  some ((year, month, day), t)

/-- A time of day with loose numbers. -/
def looseClock? (blanks : Bool) (t : Text) : Option ((Nat × Nat × Nat) × Text) := do
  let (hour, t) ← looseNumber? t
  let t ← looseExpect? blanks ':' t
  let (minute, t) ← looseNumber? t
  let t ← looseExpect? blanks ':' t
  let (secondOfMinute, t) ← looseNumber? t
  some ((hour, minute, secondOfMinute), t)

/-- Reads the form with white space in the middle and no offset: `2024-01-02 03:04:05`. -/
def readPlain? (t : Text) : Option Timestamp := do
  let ((year, month, day), t) ← looseDate? false t
  let ((hour, minute, secondOfMinute), t) ← looseClock? false (Text.trimStart t)
  if t.isEmpty then
    ofFields? { year, month, day, hour, minute, secondOfMinute, nanos := 0 } 0
  else none

/-- What may stand between the hours and the minutes of a loose offset. -/
def skipColons (t : Text) : Option Text := some (t.dropWhile fun c => c == ':' || Blank.isBlank c)

/-- An offset, or the name of the zone in any case. -/
def looseOffset? (t : Text) : Option (Int × Text) :=
  if Ascii.sameWord (t.take 3) "UTC".toList then some (0, t.drop 3) else offset? skipColons t

/-- Reads the relaxed form: like the strict one, with loose numbers and white space. -/
def readRelaxed? (t : Text) : Option Timestamp := do
  let ((year, month, day), t) ← looseDate? true t
  let t ← dateTimeBreak? t
  let ((hour, minute, secondOfMinute), t) ← looseClock? true t
  let (nanos, t) ← nanos? t
  let (offset, t) ← looseOffset? (Text.trimStart t)
  if (Text.trimStart t).isEmpty then
    ofFields? { year, month, day, hour, minute, secondOfMinute, nanos } offset
  else none

/-! ## 4. Days -/

/-- The longest span in days that is handled. -/
def maxDays : Nat := 106751991167

/-- The time a number of days earlier; none when the span or the date is not handled. -/
def daysBefore? (days : Int) (t : Timestamp) : Option Timestamp :=
  if days.natAbs ≤ maxDays then
    let moved : Timestamp := { t with seconds := t.seconds - days * daySeconds }
    if isHandledYear (Date.ofDays (moved.seconds / daySeconds)).year then some moved else none
  else none

/-- Whether two times are at most a day apart. -/
def isWithinDay (a b : Timestamp) : Bool := decide ((a.seconds - b.seconds).natAbs ≤ 86400)

/-- **No span is longer than the longest one.** -/
theorem natAbs_le_of_daysBefore? {days : Int} {t u : Timestamp} (h : t.daysBefore? days = some u) :
    days.natAbs ≤ maxDays := by
  unfold daysBefore? at h
  split at h
  · assumption
  · cases h

end Timestamp

end TrafficGate.Time
