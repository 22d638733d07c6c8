import Entitlement.Number.Double

/-!
# Numbers in decimal notation

How numbers are read wherever they occur: in schemas, in conditions, in
settings and in attribute values. The scanners take a fraction or an
exponent from the front of a text and return what follows; `intOfText?`,
`natOfText?` and `doubleOfText?` read a text as a whole and refuse one
that holds anything else.
-/

namespace Entitlement

/-! ## Digits, fractions and exponents -/

/-- An ASCII decimal digit. -/
def isDigit (c : Char) : Bool := '0' ≤ c && c ≤ '9'

/-- The value of a hexadecimal digit. -/
def hexDigitValue? (c : Char) : Option Nat :=
  if isDigit c then some (c.toNat - '0'.toNat)
  else if 'a' ≤ c && c ≤ 'f' then some (c.toNat - 'a'.toNat + 10)
  else if 'A' ≤ c && c ≤ 'F' then some (c.toNat - 'A'.toNat + 10)
  else none

/-- The number that decimal digits spell. -/
def decimalValue (ds : List Char) : Nat :=
  ds.foldl (fun n d => 10 * n + (d.toNat - '0'.toNat)) 0

/-- The digits of a fraction at the front of a text, if there are any, and
the text behind them. -/
def scanFraction? : List Char → Option (List Char × List Char)
  | '.' :: cs =>
    let ds := cs.takeWhile isDigit
    if ds.isEmpty then none else some (ds, cs.dropWhile isDigit)
  | _ => none

/-- The exponent at the front of a text, if there is one: its value, and
the text behind it. -/
def scanExponent? : List Char → Option (Int × List Char)
  | e :: cs =>
    if e = 'e' ∨ e = 'E' then
      let (negative, cs) := match cs with
        | '-' :: cs => (true, cs)
        | '+' :: cs => (false, cs)
        | cs => (false, cs)
      let ds := cs.takeWhile isDigit
      if ds.isEmpty then none
      else
        let n : Int := decimalValue ds
        some (if negative then -n else n, cs.dropWhile isDigit)
    else none
  | [] => none

/-! ## Whole texts -/

/-- The number that a text of digits spells. -/
def digitsValue? (ds : List Char) : Option Nat :=
  if ds.isEmpty || !ds.all isDigit then none else some (decimalValue ds)

/-- The whole number that a text spells, with or without a sign. -/
def intOfText? : List Char → Option Int
  | '-' :: ds => (digitsValue? ds).map fun n => -(n : Int)
  | '+' :: ds => (digitsValue? ds).map Int.ofNat
  | ds => (digitsValue? ds).map Int.ofNat

/-- Whether a whole number fits in 64 bits with a sign. -/
def fitsInt64 (n : Int) : Bool :=
  -0x8000000000000000 ≤ n && n < 0x8000000000000000

/-- The natural number that a text spells, with or without a plus. -/
def natOfText? : List Char → Option Nat
  | '+' :: ds => digitsValue? ds
  | ds => digitsValue? ds

/-- The exponent that ends a text; an empty text has exponent zero. -/
def exponentOfText? (cs : List Char) : Option Int :=
  if cs.isEmpty then some 0
  else
    match scanExponent? cs with
    | some (e, []) => some e
    | _ => none

/-- The double that a text without a sign spells. -/
def magnitudeOfText? (negative : Bool) (cs : List Char) : Option Double :=
  let word := cs.map Char.toLower
  if word = "inf".toList ∨ word = "infinity".toList then
    some (.ofMagnitude negative Double.infinityBits)
  else if word = "nan".toList then
    some (.ofMagnitude negative Double.nanBits)
  else
    let whole := cs.takeWhile isDigit
    let rest := cs.dropWhile isDigit
    let (fraction, rest) := match rest with
      | '.' :: rest => (rest.takeWhile isDigit, rest.dropWhile isDigit)
      | rest => ([], rest)
    if whole.isEmpty && fraction.isEmpty then none
    else
      (exponentOfText? rest).map fun e =>
        .ofDecimal negative (decimalValue (whole ++ fraction))
          (e - fraction.length)

/-- **The double that a text spells**: a decimal, an infinity or `nan`. -/
def doubleOfText? : List Char → Option Double
  | '-' :: cs => magnitudeOfText? true cs
  | '+' :: cs => magnitudeOfText? false cs
  | cs => magnitudeOfText? false cs

end Entitlement
