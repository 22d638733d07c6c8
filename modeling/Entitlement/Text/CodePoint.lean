import Entitlement.Number.Decimal

/-!
# Characters by their codes

Escapes name a character by the hexadecimal digits of its code point. Not
every code is one of a character: the surrogates and what lies beyond the
last plane are none.
-/

namespace Entitlement

/-- The number that hexadecimal digits spell. -/
def hexNumber (ds : List Char) : Nat :=
  ds.foldl (fun n d => 16 * n + (hexDigitValue? d).getD 0) 0

/-- The number that `count` hexadecimal digits at the front of a text
spell. -/
def leadingHex? (count : Nat) (cs : List Char) : Option Nat :=
  let ds := cs.take count
  if ds.length = count ∧ ds.all (fun d => (hexDigitValue? d).isSome) then
    some (hexNumber ds)
  else none

/-- The character of a code point, if there is one. -/
def charOfCode? (n : Nat) : Option Char :=
  if n.isValidChar then some (Char.ofNat n) else none

/-- **The character whose code `count` hexadecimal digits spell** at the
front of a text. -/
def leadingChar? (count : Nat) (cs : List Char) : Option Char :=
  (leadingHex? count cs).bind charOfCode?

example : leadingChar? 4 "00e9x".toList = some 'é' := by decide
example : leadingChar? 4 "d800".toList = none := by decide

end Entitlement
