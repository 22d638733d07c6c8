import Entitlement.Condition.Token

/-!
# Conversions in conditions

The built-in functions `int`, `uint`, `double`, `string`, `bytes`,
`duration` and `timestamp` make values of one sort from values of another.
A text must spell the number as a whole, a number must fit the sort it is
turned into, and a fraction is cut off toward zero.
-/

namespace Entitlement.Condition

/-! ## Text from bytes -/

/-- The number of bytes that follow the first byte of a character, and the
range of the second. -/
def utf8Lead? (b : Nat) : Option (Nat × Nat × Nat) :=
  if 0xC2 ≤ b && b ≤ 0xDF then some (1, 0x80, 0xBF)
  else if b = 0xE0 then some (2, 0xA0, 0xBF)
  else if b = 0xED then some (2, 0x80, 0x9F)
  else if 0xE1 ≤ b && b ≤ 0xEF then some (2, 0x80, 0xBF)
  else if b = 0xF0 then some (3, 0x90, 0xBF)
  else if 0xF1 ≤ b && b ≤ 0xF3 then some (3, 0x80, 0xBF)
  else if b = 0xF4 then some (3, 0x80, 0x8F)
  else none

/-- The leading bytes of a list that continue a character: at most `more`,
the first of them between `low` and `high`. -/
def continuation (more low high : Nat) : List Nat → List Nat
  | [] => []
  | b :: bs =>
    match more with
    | 0 => []
    | more + 1 =>
      if low ≤ b && b ≤ high then b :: continuation more 0x80 0xBF bs else []

/-- The character of the lead and continuation bytes of an encoding. -/
def charOfUtf8 (lead : Nat) (more : List Nat) : Char :=
  let head := match more.length with
    | 1 => lead % 32
    | 2 => lead % 16
    | _ => lead % 8
  Char.ofNat (more.foldl (fun n b => 64 * n + b % 64) head)

/-- The characters of UTF-8 bytes; what is no encoding becomes the
replacement character, once for each beginning of a character. -/
def charsOfUtf8 : Nat → List Nat → List Char
  | 0, _ => []
  | _, [] => []
  | count + 1, b :: bs =>
    if b < 0x80 then Char.ofNat b :: charsOfUtf8 count bs
    else
      match utf8Lead? b with
      | none => '\ufffd' :: charsOfUtf8 count bs
      | some (need, low, high) =>
        let more := continuation need low high bs
        let char := if more.length = need then charOfUtf8 b more else '\ufffd'
        char :: charsOfUtf8 count (bs.drop more.length)

/-- The text of UTF-8 bytes. -/
def textOfBytes (bs : List UInt8) : String :=
  String.ofList (charsOfUtf8 bs.length (bs.map UInt8.toNat))

/-- The UTF-8 bytes of a text. -/
def bytesOfText (s : String) : List UInt8 :=
  s.toUTF8.toList

/-! ## Conversions of values -/

/-- A result that is there, or the fault of an argument that does not
convert. -/
def converted (v : Option Value) : Result Value :=
  match v with
  | some v => .ok v
  | none => .error .invalidArgument

/-- The whole number that a double is cut to, between two limits that it
must not pass; what is no number becomes zero. -/
def cutDouble? (low high : Int) (d : Double) : Option Int :=
  if d.isNaN then some 0
  else if d.isFinite then
    let n := d.wholePart
    let exact := d.ratio.1 % d.ratio.2 = 0
    if n < low || (n = low && d.isNegative && !exact) then none
    else if high < n || (n = high && !exact) then none
    else some (min n (high - 1))
  else none

namespace Value

/-- The conversion `int`. -/
def toInt : Value → Result Value
  | string s =>
    match intOfText? s.toList with
    | some n => checkedInt n
    | none => .error .invalidArgument
  | double d => converted <|
    (cutDouble? (-0x8000000000000000) 0x8000000000000000 d).map fun n =>
      int (Int64.ofInt n)
  | int n => .ok (int n)
  | uint n => checkedInt n.toNat
  | _ => .error .invalidArgument

/-- The conversion `uint`. -/
def toUInt : Value → Result Value
  | string s =>
    match natOfText? s.toList with
    | some n => checkedUInt n
    | none => .error .invalidArgument
  | double d => converted <|
    (cutDouble? 0 0x10000000000000000 d).map fun n =>
      uint (UInt64.ofNat n.toNat)
  | int n => checkedUInt n.toInt
  | uint n => .ok (uint n)
  | _ => .error .invalidArgument

/-- The conversion `double`. -/
def toDouble : Value → Result Value
  | string s => converted <| (doubleOfText? s.toList).map double
  | double d => .ok (double d)
  | int n => .ok (double (doubleOfInt n))
  | uint n => .ok (double (doubleOfUInt n))
  | _ => .error .invalidArgument

/-- The conversion `string`. -/
def toText : Value → Result Value
  | string s => .ok (string s)
  | int n => .ok (string (toString n.toInt))
  | uint n => .ok (string (toString n.toNat))
  | double d => .ok (string d.render)
  | bytes bs => .ok (string (textOfBytes bs))
  | duration n => .ok (string (durationText n))
  | timestamp t => .ok (string t.render)
  | _ => .error .invalidArgument

/-- The conversion `bytes`. -/
def toBytes : Value → Result Value
  | string s => .ok (bytes (bytesOfText s))
  | _ => .error .invalidArgument

/-- The conversion `duration`. -/
def toDuration : Value → Result Value
  | string s => converted <| (durationOfText? s.toList).map duration
  | _ => .error .invalidArgument

/-- The conversion `timestamp`. -/
def toTimestamp : Value → Result Value
  | string s => converted <| (Timestamp.ofText? s.toList).map timestamp
  | _ => .error .invalidArgument

end Value

end Entitlement.Condition
