import Entitlement.Number.Decimal

/-!
# Times in conditions

Two sorts of time, with their notations. A *duration* is a number of
nanoseconds and is written as numbers with units, such as `1h30m`. A
`Timestamp` is a date and time of day somewhere, and is written as
RFC 3339 has it, such as `2020-01-01T12:00:00+01:00`.

The numbers of a duration are doubles, so a part of it is as exact as a
product of doubles is. A timestamp keeps the date and time as they were
written, and `Timestamp.instant` is what two of them compare by, wherever
they were written.
-/

namespace Entitlement.Condition

/-! ## Numbers with units -/

/-- **What a text begins with**: something of a kind and what follows it,
nothing of that kind, or something that was begun and not ended. -/
inductive Front (α : Type)
  | found (value : α) (rest : List Char)
  | absent
  | broken

/-- The exponent at the front of a text, zero if there is none. An `e`
without digits behind it is broken. -/
def exponentFront (cs : List Char) : Front Int :=
  match scanExponent? cs with
  | some (e, rest) => .found e rest
  | none =>
    if cs.head? = some 'e' ∨ cs.head? = some 'E' then .broken
    else .found 0 cs

/-- The digits of a number at the front of a text, those before its point
and those behind it, and the text that follows. One of the two may be
empty, but a point has to stand next to a digit. -/
def digitsFront? (cs : List Char) :
    Option (List Char × List Char × List Char) :=
  let whole := cs.takeWhile isDigit
  let (fraction, rest) := match cs.dropWhile isDigit with
    | '.' :: rest => (rest.takeWhile isDigit, rest.dropWhile isDigit)
    | rest => ([], rest)
  if whole.isEmpty && fraction.isEmpty then none
  else some (whole, fraction, rest)

/-- The words for doubles that are no digits; letters of either case do. -/
def wordFront (cs : List Char) : Front Double :=
  let word := (cs.take 3).map Char.toLower
  if word = "nan".toList then
    .found (.ofMagnitude false Double.nanBits) (cs.drop 3)
  else if word = "inf".toList then
    .found (.ofMagnitude false Double.infinityBits) (cs.drop 3)
  else .absent

/-- **The double at the front of a text.** -/
def doubleFront (cs : List Char) : Front Double :=
  let (negative, unsigned) := match cs with
    | '-' :: cs => (true, cs)
    | '+' :: cs => (false, cs)
    | cs => (false, cs)
  match digitsFront? unsigned with
  | none => wordFront cs
  | some (whole, fraction, rest) =>
    match exponentFront rest with
    | .found e rest =>
      .found (.ofDecimal negative (decimalValue (whole ++ fraction))
        (e - fraction.length)) rest
    | .absent => .absent
    | .broken => .broken

/-- The nanoseconds of a microsecond. -/
def microsecondLength : Nat := 1000

/-- The nanoseconds of a millisecond. -/
def millisecondLength : Nat := 1000000

/-- The nanoseconds of a second. -/
def secondLength : Nat := 1000000000

/-- The nanoseconds of a unit of time at the front of a text, and the text
behind it. -/
def timeUnit? : List Char → Option (Nat × List Char)
  | 'm' :: 's' :: cs => some (millisecondLength, cs)
  | 'u' :: 's' :: cs => some (microsecondLength, cs)
  | 'n' :: 's' :: cs => some (1, cs)
  | 'h' :: cs => some (3600 * secondLength, cs)
  | 'm' :: cs => some (60 * secondLength, cs)
  | 's' :: cs => some (secondLength, cs)
  | _ => none

/-- A double without its fraction, within the whole numbers of 64 bits;
what is no number becomes zero. -/
def nearestWord (d : Double) : Int :=
  let low : Int := -0x8000000000000000
  let high : Int := 0x7FFFFFFFFFFFFFFF
  if d.isNaN then 0
  else if d.isFinite then max low (min high d.wholePart)
  else if d.isNegative then low
  else high

/-- The nanoseconds of one number with its unit at the front of a text. -/
def timePart (cs : List Char) : Front Int :=
  match doubleFront cs with
  | .absent => .absent
  | .broken => .broken
  | .found number rest =>
    match timeUnit? rest with
    | none => .absent
    | some (unit, rest) => .found (nearestWord (number * .ofInt unit)) rest

/-- The nanoseconds of the numbers with units at the front of a text, at
most `count` of them; none if one of them is broken. What follows them
does not matter. -/
def timeParts? : Nat → List Char → Option (List Int)
  | 0, _ => some []
  | count + 1, cs =>
    match timePart cs with
    | .found n rest => (timeParts? count rest).map (n :: ·)
    | .absent => some []
    | .broken => none

/-! ## Durations -/

/-- **The duration that a text begins with**, in nanoseconds: numbers with
the units `h`, `m`, `s`, `ms`, `us` and `ns`, or a zero alone, perhaps
behind a minus. -/
def durationOfText? (cs : List Char) : Option Int :=
  let (negative, cs) := match cs with
    | '-' :: cs => (true, cs)
    | cs => (false, cs)
  if cs = ['0'] then some 0
  else
    match timeParts? cs.length cs with
    | none | some [] => none
    | some parts =>
      let total := parts.foldr (· + ·) 0
      some (if negative then -total else total)

/-- The digits of a fraction of `places` places without the zeros at its
end, behind a point if there are any. -/
def fractionText (places fraction : Nat) : String :=
  let ds := Nat.toDigits 10 fraction
  let padded := List.replicate (places - ds.length) '0' ++ ds
  let kept := (padded.reverse.dropWhile (· == '0')).reverse
  if fraction = 0 then "" else "." ++ String.ofList kept

/-- A number of nanoseconds in a greater unit. -/
def inUnit (nanoseconds places : Nat) (unit : String) : String :=
  let size := Nat.pow 10 places
  toString (nanoseconds / size) ++
    fractionText places (nanoseconds % size) ++ unit

/-- The text of a duration without its sign: hours, minutes and seconds
from the first that is not zero, and a smaller unit below a second. -/
def magnitudeText (n : Nat) : String :=
  if n = 0 then "0s"
  else if n < microsecondLength then inUnit n 0 "ns"
  else if n < millisecondLength then inUnit n 3 "µs"
  else if n < secondLength then inUnit n 6 "ms"
  else
    let minute := 60 * secondLength
    let minutes := n / minute
    let seconds := inUnit (n % minute) 9 "s"
    if minutes = 0 then seconds
    else if minutes < 60 then s!"{minutes}m{seconds}"
    else s!"{minutes / 60}h{minutes % 60}m{seconds}"

/-- The nanoseconds that are written for a duration of `n`. One that has
too many for 64 bits is cut to whole seconds, and what is written is the
residue of that as a word without a sign. -/
def writtenNanoseconds (n : Int) : Nat :=
  let whole := if fitsInt64 n then n else n.tdiv secondLength * secondLength
  (whole % 0x10000000000000000).toNat

/-- **The text of a duration.** -/
def durationText (n : Int) : String :=
  (if n < 0 then "-" else "") ++ magnitudeText (writtenNanoseconds n)

/-! ## Timestamps -/

/-- **A date and time of day**, with the seconds that its place is ahead
of UTC. Second sixty is a leap second. -/
structure Timestamp where
  year : Nat
  month : Nat
  day : Nat
  hour : Nat
  minute : Nat
  second : Nat
  nanosecond : Nat
  ahead : Int
  deriving DecidableEq, Repr, Inhabited

/-- Whether a year has a day more. -/
def isLeapYear (y : Nat) : Bool :=
  y % 4 = 0 && (y % 100 ≠ 0 || y % 400 = 0)

/-- The number of days of a month. -/
def daysInMonth (y m : Nat) : Nat :=
  match m with
  | 4 | 6 | 9 | 11 => 30
  | 2 => if isLeapYear y then 29 else 28
  | _ => 31

/-- The number of days from the first of March of year zero, in the
calendar whose year begins there, to 1970. -/
def daysBefore1970 : Int := 719468

/-- The number of days from 1970 to a date. -/
def daysSince1970 (y m d : Nat) : Int :=
  let y' : Int := if m ≤ 2 then (y : Int) - 1 else y
  let m' : Int := (m + 9) % 12
  365 * y' + y'.fdiv 4 - y'.fdiv 100 + y'.fdiv 400 + (153 * m' + 2) / 5 +
    (d - 1) - daysBefore1970

example : daysSince1970 1970 1 1 = 0 := by decide

namespace Timestamp

/-- The seconds since 1970 of the second that a timestamp lies in; a leap
second belongs to the one before it. -/
def seconds (t : Timestamp) : Int :=
  daysSince1970 t.year t.month t.day * 86400 + 3600 * t.hour +
    60 * t.minute + min t.second 59 - t.ahead

/-- The nanoseconds since the beginning of that second. -/
def fraction (t : Timestamp) : Nat :=
  (if t.second = 60 then secondLength else 0) + t.nanosecond

/-- The nanoseconds since 1970. -/
def nanoseconds (t : Timestamp) : Int :=
  t.seconds * secondLength + t.fraction

/-- **What timestamps compare by**: the second and the part of it. -/
def instant (t : Timestamp) : Int × Nat := (t.seconds, t.fraction)

/-- The order of timestamps in time. A leap second comes between the
second before and the second after it. -/
def order (a b : Timestamp) : Ordering :=
  (compare a.seconds b.seconds).then (compare a.fraction b.fraction)

/-- Whether the fields of a timestamp are those of a date and time. -/
def isValid (t : Timestamp) : Bool :=
  1 ≤ t.month && t.month ≤ 12 && 1 ≤ t.day &&
    t.day ≤ daysInMonth t.year t.month && t.hour ≤ 23 && t.minute ≤ 59 &&
    t.second ≤ 60

/-- **The numbers that a timestamp is asked for by name.** Months, the days
of a year and those of a month are counted from zero, only `getDate` counts
from one, and a week begins on Sunday. -/
def part? (t : Timestamp) : String → Option Int
  | "getFullYear" => some t.year
  | "getMonth" => some (t.month - 1)
  | "getDayOfYear" =>
    some (daysSince1970 t.year t.month t.day - daysSince1970 t.year 1 1)
  | "getDayOfMonth" => some (t.day - 1)
  | "getDate" => some t.day
  | "getDayOfWeek" => some ((daysSince1970 t.year t.month t.day + 4) % 7)
  | "getHours" => some t.hour
  | "getMinutes" => some t.minute
  | "getSeconds" => some (min t.second 59)
  | "getMilliseconds" => some (t.fraction / millisecondLength)
  | _ => none

end Timestamp

/-- The number of `count` digits at the front of a text, and the text
behind. -/
def fixedDigits? (count : Nat) (cs : List Char) : Option (Nat × List Char) :=
  if cs.length < count then none
  else (digitsValue? (cs.take count)).map fun n => (n, cs.drop count)

/-- The text behind one of some characters. -/
def expect? (allowed : List Char) : List Char → Option (List Char)
  | c :: cs => if allowed.contains c then some cs else none
  | [] => none

/-- The seconds that a time zone is ahead, and the text behind it. -/
def zoneOffset? : List Char → Option (Int × List Char)
  | c :: cs =>
    if c = 'Z' ∨ c = 'z' then some (0, cs)
    else if c = '+' ∨ c = '-' ∨ c = '\u2212' then do
      let (h, cs) ← fixedDigits? 2 cs
      let cs ← expect? [':'] cs
      let (m, cs) ← fixedDigits? 2 cs
      if 23 < h || 59 < m then none
      let s : Int := 3600 * h + 60 * m
      some (if c = '+' then s else -s, cs)
    else none
  | [] => none

/-- **The timestamp that a text spells.** -/
def Timestamp.ofText? (cs : List Char) : Option Timestamp := do
  let (year, cs) ← fixedDigits? 4 cs
  let cs ← expect? ['-'] cs
  let (month, cs) ← fixedDigits? 2 cs
  let cs ← expect? ['-'] cs
  let (day, cs) ← fixedDigits? 2 cs
  let cs ← expect? ['T', 't', ' '] cs
  let (hour, cs) ← fixedDigits? 2 cs
  let cs ← expect? [':'] cs
  let (minute, cs) ← fixedDigits? 2 cs
  let cs ← expect? [':'] cs
  let (second, cs) ← fixedDigits? 2 cs
  let (fraction, cs) := (scanFraction? cs).getD ([], cs)
  let nanosecond := decimalValue ((fraction ++ List.replicate 9 '0').take 9)
  let (ahead, cs) ← zoneOffset? cs
  let t : Timestamp :=
    { year, month, day, hour, minute, second, nanosecond, ahead }
  if cs.isEmpty && t.isValid then some t else none

/-- A number with zeros in front, so that it has `width` digits. -/
def padded (width n : Nat) : String :=
  let ds := Nat.toDigits 10 n
  String.ofList (List.replicate (width - ds.length) '0' ++ ds)

/-- **The text of a timestamp**; a fraction has three, six or nine
places. -/
def Timestamp.render (t : Timestamp) : String :=
  let fraction :=
    if t.nanosecond = 0 then ""
    else if t.nanosecond % millisecondLength = 0 then
      "." ++ padded 3 (t.nanosecond / millisecondLength)
    else if t.nanosecond % microsecondLength = 0 then
      "." ++ padded 6 (t.nanosecond / microsecondLength)
    else "." ++ padded 9 t.nanosecond
  let minutes := t.ahead.natAbs / 60
  padded 4 t.year ++ "-" ++ padded 2 t.month ++ "-" ++ padded 2 t.day ++
    "T" ++ padded 2 t.hour ++ ":" ++ padded 2 t.minute ++ ":" ++
    padded 2 t.second ++ fraction ++ (if t.ahead < 0 then "-" else "+") ++
    padded 2 (minutes / 60) ++ ":" ++ padded 2 (minutes % 60)

end Entitlement.Condition
