/-!
# Double-precision numbers

A `Double` is a 64-bit pattern of IEEE 754, so two of them are equal when
their bits are, and a stored number comes back as it was. Calculation goes
through the machine's own arithmetic.

Reading and writing are exact and stay in natural numbers. `ofRatio` is
the double nearest to a quotient, a tie going to the even neighbour;
`ofDecimal` applies it to a decimal. `digits` finds the fewest decimal
digits that read back as the same double: for one digit, then two, and so
on, it tries the two neighbours of the value on that decimal grid.
-/

namespace Entitlement

/-- **A double-precision number**, by its bits: the sign, eleven bits of
exponent and fifty-two of fraction. -/
structure Double where
  bits : UInt64
  deriving DecidableEq, Repr, Inhabited

namespace Double

/-! ## Machine arithmetic -/

/-- The double of a machine number. -/
def ofFloat (x : Float) : Double := ⟨x.toBits⟩

/-- The machine number of a double. -/
def toFloat (d : Double) : Float := Float.ofBits d.bits

instance : Add Double := ⟨fun a b => ofFloat (a.toFloat + b.toFloat)⟩
instance : Sub Double := ⟨fun a b => ofFloat (a.toFloat - b.toFloat)⟩
instance : Mul Double := ⟨fun a b => ofFloat (a.toFloat * b.toFloat)⟩
instance : Div Double := ⟨fun a b => ofFloat (a.toFloat / b.toFloat)⟩

/-- The same number with the other sign. -/
instance : Neg Double := ⟨fun a => ⟨a.bits ^^^ 0x8000000000000000⟩⟩

/-- Equality as numbers: the two zeros are equal, and a pattern that is no
number equals nothing. -/
def numEq (a b : Double) : Bool := a.toFloat == b.toFloat

/-- The order of two numbers; none if one is not a number. -/
def compare? (a b : Double) : Option Ordering :=
  if a.toFloat < b.toFloat then some .lt
  else if a.toFloat == b.toFloat then some .eq
  else if b.toFloat < a.toFloat then some .gt
  else none

/-! ## The parts of a double -/

/-- The bit of the sign. -/
def signBit : Nat := 0x8000000000000000

/-- How many fractions there are: they have fifty-two bits. -/
def fractionCount : Nat := 0x10000000000000

/-- Whether the sign bit is set. -/
def isNegative (d : Double) : Bool := d.bits.toNat / signBit = 1

/-- The eleven bits of the exponent. -/
def exponentBits (d : Double) : Nat := d.bits.toNat / fractionCount % 2048

/-- The fifty-two bits of the fraction. -/
def fractionBits (d : Double) : Nat := d.bits.toNat % fractionCount

/-- Whether the pattern is a number and not an infinity. -/
def isFinite (d : Double) : Bool := d.exponentBits ≠ 2047

/-- Whether the pattern is no number. -/
def isNaN (d : Double) : Bool :=
  d.exponentBits = 2047 && d.fractionBits ≠ 0

/-- The whole number `m` and the exponent `q` of a finite double
`m · 2 ^ q`, without the sign. -/
def parts (d : Double) : Nat × Int :=
  if d.exponentBits = 0 then (d.fractionBits, -1074)
  else (fractionCount + d.fractionBits, (d.exponentBits : Int) - 1075)

/-- A finite double without its sign as a quotient. -/
def ratio (d : Double) : Nat × Nat :=
  let (m, q) := d.parts
  if 0 ≤ q then (m <<< q.toNat, 1) else (m, 1 <<< (-q).toNat)

/-- The whole number that a finite double is cut to, toward zero. -/
def wholePart (d : Double) : Int :=
  let n : Int := (d.ratio.1 / d.ratio.2 : Nat)
  if d.isNegative then -n else n

/-! ## Reading -/

/-- A quotient rounded to a whole number, a tie to the even one. -/
def roundHalfEven (num den : Nat) : Nat :=
  let q := num / den
  let r := num % den
  if 2 * r < den then q
  else if den < 2 * r then q + 1
  else if q % 2 = 0 then q else q + 1

/-- The bits of a sign and a magnitude. -/
def ofMagnitude (negative : Bool) (magnitude : Nat) : Double :=
  ⟨UInt64.ofNat ((if negative then signBit else 0) + magnitude)⟩

/-- The bits of infinity, without a sign. -/
def infinityBits : Nat := 2047 * fractionCount

/-- The bits of what is no number, without a sign. -/
def nanBits : Nat := infinityBits + 0x8000000000000

/-- The bits of `m · 2 ^ q`, where `m` has 53 bits or `q` is the least
exponent. One bit more in `m` carries into the exponent. -/
def magnitudeOfParts (m : Nat) (q : Int) : Nat :=
  if m < fractionCount then m
  else min infinityBits ((q + 1074).toNat * fractionCount + m)

/-- **The double nearest to a quotient.** -/
def ofRatio (negative : Bool) (num den : Nat) : Double :=
  if num = 0 then ofMagnitude negative 0
  else
    let guess : Int := (num.log2 : Int) - den.log2 - 53
    let scaled (q : Int) : Nat × Nat :=
      if 0 ≤ q then (num, den <<< q.toNat) else (num <<< (-q).toNat, den)
    let (n, d) := scaled guess
    let q := max (-1074) (if d <<< 53 ≤ n then guess + 1 else guess)
    let (n, d) := scaled q
    ofMagnitude negative (magnitudeOfParts (roundHalfEven n d) q)

/-- The double nearest to a whole number. -/
def ofInt (n : Int) : Double :=
  ofRatio (n < 0) n.natAbs 1

/-- The number of decimal digits of a natural number. -/
def digitCount (n : Nat) : Nat :=
  (Nat.toDigits 10 n).length

/-- **The double nearest to the decimal** `m · 10 ^ e`. Decimals far
outside the range of doubles are answered without their powers of ten. -/
def ofDecimal (negative : Bool) (m : Nat) (e : Int) : Double :=
  let size := e + digitCount m
  if m = 0 then ofMagnitude negative 0
  else if 400 < size then ofMagnitude negative infinityBits
  else if size < -400 then ofMagnitude negative 0
  else if 0 ≤ e then ofRatio negative (m * Nat.pow 10 e.toNat) 1
  else ofRatio negative m (Nat.pow 10 (-e).toNat)

/-! ## Writing -/

/-- The least power of ten above a positive quotient below one, negated
and counted up from `count`; `fuel` bounds the count. -/
def leadingZeros (num den : Nat) : Nat → Nat
  | 0 => 0
  | fuel + 1 =>
    if den ≤ 10 * num then 0 else leadingZeros (10 * num) den fuel + 1

/-- The exponent `p` of a positive quotient between `10 ^ (p - 1)` and
`10 ^ p`. -/
def decimalSize (num den : Nat) : Int :=
  if den ≤ num then digitCount (num / den)
  else -(leadingZeros num den 400 : Int)

/-- The decimal with `count` digits that reads back as `d` and is nearest
to it, of the two grid points around the value `num / den`; the upper one
if both are as near. -/
def shortDecimal? (d : Double) (num den : Nat) (count : Nat) :
    Option (Nat × Int) :=
  let e := decimalSize num den - count
  let (n, k) :=
    if 0 ≤ e then (num, den * Nat.pow 10 e.toNat)
    else (num * Nat.pow 10 (-e).toNat, den)
  let below := n / k
  let readsBack (m : Nat) : Bool := ofDecimal d.isNegative m e = d
  match readsBack below, readsBack (below + 1) with
  | true, false => some (below, e)
  | false, true => some (below + 1, e)
  | true, true =>
    if k ≤ 2 * (n % k) then some (below + 1, e) else some (below, e)
  | false, false => none

/-- **The fewest decimal digits of a finite double**: `m` and `e` with the
value `m · 10 ^ e`, without the sign. -/
def digits (d : Double) : Nat × Int :=
  let (num, den) := d.ratio
  if num = 0 then (0, 0)
  else
    ((List.range 17).findSome? fun i => shortDecimal? d num den (i + 1)).getD
      (num / den, 0)

/-- A decimal in positional notation: no exponent, and a point only in
front of a fraction. -/
def positional (m : Nat) (e : Int) : String :=
  let text := Nat.toDigits 10 m
  if 0 ≤ e then String.ofList (text ++ List.replicate e.toNat '0')
  else
    let places := (-e).toNat
    let padded := List.replicate (places + 1 - text.length) '0' ++ text
    let whole := padded.take (padded.length - places)
    let fraction := padded.drop (padded.length - places)
    let kept := (fraction.reverse.dropWhile (· == '0')).reverse
    if kept.isEmpty then String.ofList whole
    else String.ofList (whole ++ '.' :: kept)

/-- **The text of a double**: its fewest digits in positional notation. -/
def render (d : Double) : String :=
  if d.isNaN then "NaN"
  else
    let sign := if d.isNegative then "-" else ""
    if d.isFinite then
      let (m, e) := d.digits
      sign ++ positional m e
    else sign ++ "inf"

end Double

end Entitlement
