import Entitlement.Attribute
import Entitlement.Condition.Time

/-!
# Values of conditions

A condition is an expression in CEL, the Common Expression Language, over
the attributes of the entity, the subject and the request. This module
holds the values that such expressions calculate with, how two of them
compare, which of them count as true, and their arithmetic.

Numbers of the three sorts compare with each other by value, but
arithmetic takes two of the same sort, and whole numbers that leave their
64 bits are an error rather than a wrong answer.

A double that is no number differs from itself, and so does a list that
holds one from a list of the same items. A list nevertheless equals
itself: a list or map that an expression makes remembers the `Place` where
it was made, and two of one place are equal whatever they hold.
-/

namespace Entitlement.Condition

/-- The keys of maps. -/
inductive Key
  | int (n : Int64)
  | uint (n : UInt64)
  | bool (b : Bool)
  | string (s : String)
  deriving DecidableEq, Repr

/-- **Where in an evaluation a list or map was made**: the way to a part of
the expression, innermost step first, with the rounds of the quantifiers
that it stands in. An evaluation makes one value at most at each place. -/
abbrev Place := List Nat

/-- **The values of conditions.** A list or map that was not made in the
evaluation has no place of origin, and a built-in function that is named
but not called is a value too. -/
inductive Value
  | null
  | bool (b : Bool)
  | int (n : Int64)
  | uint (n : UInt64)
  | double (d : Double)
  | string (s : String)
  | bytes (bs : List UInt8)
  | list (origin : Option Place) (items : List Value)
  | map (origin : Option Place) (entries : List (Key × Value))
  | function (name : String) (receiver : Value)
  | duration (nanoseconds : Int)
  | timestamp (t : Timestamp)
  deriving Repr, Inhabited

/-- **Why a condition has no value.** -/
inductive Fault
  | unknownVariable (name : String)
  | unknownFunction (name : String)
  | noSuchMember (name : String)
  | notComparable
  | unsupportedOperands
  | unsupportedIndex
  | unsupportedKey
  | invalidArgument
  | missingArgument
  | overflow
  | divisionByZero
  | notIterable
  deriving DecidableEq, Repr

/-- A value, or why there is none. -/
abbrev Result (α : Type) := Except Fault α

/-! ## Whole numbers of 64 bits -/

/-- A whole number as a signed one, if it fits. -/
def checkedInt (n : Int) : Result Value :=
  if fitsInt64 n then .ok (.int (Int64.ofInt n)) else .error .overflow

/-- A whole number as an unsigned one, if it fits. -/
def checkedUInt (n : Int) : Result Value :=
  if 0 ≤ n && n < 0x10000000000000000 then
    .ok (.uint (UInt64.ofNat n.toNat))
  else .error .overflow

/-- The double nearest to an unsigned number. -/
def doubleOfUInt (n : UInt64) : Double := .ofInt n.toNat

/-- The double nearest to a signed number. -/
def doubleOfInt (n : Int64) : Double := .ofInt n.toInt

namespace Value

/-- The short name of the type of a value. -/
def typeName : Value → String
  | null => "null"
  | bool _ => "bool"
  | int _ => "int"
  | uint _ => "uint"
  | double _ => "double"
  | string _ => "string"
  | bytes _ => "bytes"
  | list .. => "list"
  | map .. => "map"
  | function .. | duration _ | timestamp _ => "other"

/-- **Which values count as true**: all but false, the zeros, null, what
is empty and what is no data. A time counts as true if its nanoseconds
have a number of 64 bits, which for a duration must not be zero and for a
timestamp must be greater. -/
def isTruthy : Value → Bool
  | null => false
  | bool b => b
  | int n => n != 0
  | uint n => n != 0
  | double d => !d.numEq (.ofInt 0)
  | string s => !s.isEmpty
  | bytes bs => !bs.isEmpty
  | list _ items => !items.isEmpty
  | map _ entries => !entries.isEmpty
  | function .. => false
  | duration n => fitsInt64 n && n != 0
  | timestamp t => fitsInt64 t.nanoseconds && 0 < t.nanoseconds

/-- The key that a value makes, if it can be one. -/
def toKey? : Value → Option Key
  | int n => some (.int n)
  | uint n => some (.uint n)
  | bool b => some (.bool b)
  | string s => some (.string s)
  | _ => none

end Value

/-- The value that a key is. -/
def Key.toValue : Key → Value
  | int n => .int n
  | uint n => .uint n
  | bool b => .bool b
  | string s => .string s

namespace Value

/-- A key is the key of its value. -/
@[simp] theorem toKey?_toValue (k : Key) : k.toValue.toKey? = some k := by
  cases k <;> rfl

/-! ## Values of attributes -/

mutual

/-- The value of an attribute. -/
def ofAttribute : AttributeValue → Value
  | .bool b => bool b
  | .int n => int n
  | .float d => double d
  | .string s => string s
  | .list items => list none (ofItems items)
  | .map fields => map none (ofFields fields)

/-- The values of a list. -/
def ofItems : List AttributeValue → List Value
  | [] => []
  | v :: rest => ofAttribute v :: ofItems rest

/-- The entries of a map of attributes. -/
def ofFields : List (String × AttributeValue) → List (Key × Value)
  | [] => []
  | (name, v) :: rest => (.string name, ofAttribute v) :: ofFields rest

end

/-! ## Comparison -/

/-- The first entry of a key that satisfies a test. -/
def valueOf? (entries : List (Key × Value)) (key : Key) : Option Value :=
  entries.lookup key

/-- Whether two places of origin are known and the same. -/
def sameOrigin : Option Place → Option Place → Bool
  | some p, some q => p == q
  | _, _ => false

mutual

/-- **Equality.** Numbers are compared by value whatever their sort; lists
item by item; maps by their entries in any order; values of different
sorts differ. A list or map equals itself without a look at its items. -/
def equals : Value → Value → Bool
  | null, null => true
  | bool a, bool b => a == b
  | int a, int b => a == b
  | uint a, uint b => a == b
  | double a, double b => a.numEq b
  | int a, uint b => a.toInt == b.toNat
  | uint a, int b => (a.toNat : Int) == b.toInt
  | int a, double b => (doubleOfInt a).numEq b
  | double a, int b => a.numEq (doubleOfInt b)
  | uint a, double b => (doubleOfUInt a).numEq b
  | double a, uint b => a.numEq (doubleOfUInt b)
  | string a, string b => a == b
  | bytes a, bytes b => a == b
  | list o a, list p b => sameOrigin o p || equalItems a b
  | map o a, map p b =>
    sameOrigin o p || (a.length == b.length && entriesWithin a b)
  | function f a, function g b => f == g && equals a b
  | duration a, duration b => a == b
  | timestamp a, timestamp b => a.instant == b.instant
  | _, _ => false

/-- Equality of lists. -/
def equalItems : List Value → List Value → Bool
  | [], [] => true
  | a :: as, b :: bs => equals a b && equalItems as bs
  | _, _ => false

/-- Whether every entry of the first map is an entry of the second. -/
def entriesWithin : List (Key × Value) → List (Key × Value) → Bool
  | [], _ => true
  | (k, v) :: rest, entries =>
    (match entries.lookup k with
      | some w => equals v w
      | none => false) && entriesWithin rest entries

end

/-- **The order of two values**, where they have one: numbers by value,
texts by code point, false before true. -/
def compare? : Value → Value → Option Ordering
  | null, null => some .eq
  | bool a, bool b => some (compare a b)
  | int a, int b => some (compare a.toInt b.toInt)
  | uint a, uint b => some (compare a.toNat b.toNat)
  | double a, double b => a.compare? b
  | int a, uint b => some (compare a.toInt b.toNat)
  | uint a, int b => some (compare (a.toNat : Int) b.toInt)
  | int a, double b => (doubleOfInt a).compare? b
  | double a, int b => a.compare? (doubleOfInt b)
  | uint a, double b => (doubleOfUInt a).compare? b
  | double a, uint b => a.compare? (doubleOfUInt b)
  | string a, string b => some (compare a b)
  | duration a, duration b => some (compare a b)
  | timestamp a, timestamp b => some (a.order b)
  | _, _ => none

/-! ## Arithmetic -/

/-- The greatest number of nanoseconds of a duration, and less a sign the
least. -/
def durationLimit : Int := 0x7FFFFFFFFFFFFFFF * 1000000

/-- A number of nanoseconds as a duration, if it is one. -/
def checkedDuration (n : Int) : Result Value :=
  if -durationLimit ≤ n ∧ n ≤ durationLimit then .ok (duration n)
  else .error .overflow

/-- The sum of two numbers or durations of one sort; texts and lists are
joined, and a joined list has its origin at `place`. -/
def add (place : Place) : Value → Value → Result Value
  | int a, int b => checkedInt (a.toInt + b.toInt)
  | uint a, uint b => checkedUInt (a.toNat + b.toNat)
  | double a, double b => .ok (double (a + b))
  | string a, string b => .ok (string (a ++ b))
  | list _ a, list _ b => .ok (list (some place) (a ++ b))
  | duration a, duration b => checkedDuration (a + b)
  | _, _ => .error .unsupportedOperands

/-- The difference of two numbers or durations of one sort. -/
def subtract : Value → Value → Result Value
  | int a, int b => checkedInt (a.toInt - b.toInt)
  | uint a, uint b => checkedUInt (a.toNat - b.toNat)
  | double a, double b => .ok (double (a - b))
  | duration a, duration b => checkedDuration (a - b)
  | _, _ => .error .unsupportedOperands

/-- The product of two numbers of one sort. -/
def multiply : Value → Value → Result Value
  | int a, int b => checkedInt (a.toInt * b.toInt)
  | uint a, uint b => checkedUInt (a.toNat * b.toNat)
  | double a, double b => .ok (double (a * b))
  | _, _ => .error .unsupportedOperands

/-- The quotient of two numbers of one sort; that of whole numbers is cut
toward zero. -/
def divide : Value → Value → Result Value
  | int a, int b =>
    if b = 0 then .error .divisionByZero
    else checkedInt (a.toInt.tdiv b.toInt)
  | uint a, uint b =>
    if b = 0 then .error .divisionByZero
    else checkedUInt (a.toNat / b.toNat)
  | double a, double b => .ok (double (a / b))
  | _, _ => .error .unsupportedOperands

/-- The remainder of two whole numbers of one sort, with the sign of the
first; the quotient must fit too. -/
def remainder : Value → Value → Result Value
  | int a, int b =>
    if b = 0 then .error .divisionByZero
    else do
      let _ ← checkedInt (a.toInt.tdiv b.toInt)
      checkedInt (a.toInt.tmod b.toInt)
  | uint a, uint b =>
    if b = 0 then .error .divisionByZero
    else checkedUInt (a.toNat % b.toNat)
  | _, _ => .error .unsupportedOperands

/-- A signed number or a double with the other sign; the least of the
signed numbers has none and stays as it is. -/
def negate : Value → Result Value
  | int a => .ok (int (-a))
  | double a => .ok (double (-a))
  | _ => .error .unsupportedOperands

end Value

end Entitlement.Condition
