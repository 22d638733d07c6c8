/-!
# Blank text

Which characters count as blank, and the text with the blanks at its two
ends removed. The set is the Unicode property *White_Space*, so a field
of no-break or ideographic spaces is as empty as one of spaces.
-/

namespace Entitlement

/-- **The blank characters**: the code points of the Unicode property
*White_Space*. -/
def isBlank (c : Char) : Bool :=
  let n := c.toNat
  (0x09 ≤ n && n ≤ 0x0D) || n == 0x20 || n == 0x85 || n == 0xA0 ||
    n == 0x1680 || (0x2000 ≤ n && n ≤ 0x200A) || n == 0x2028 ||
    n == 0x2029 || n == 0x202F || n == 0x205F || n == 0x3000

/-- The characters without the blanks at either end. -/
def trimBlanks (cs : List Char) : List Char :=
  ((cs.dropWhile isBlank).reverse.dropWhile isBlank).reverse

/-- Whether a text has no character that is not blank. -/
def isBlankText (s : String) : Bool :=
  s.toList.all isBlank

example : isBlankText "" = true := by decide
example : isBlank '\x0c' = true ∧ isBlank '\u200b' = false := by decide
example : trimBlanks [' ', 'a', ' ', 'b', '\n'] = ['a', ' ', 'b'] := by decide

end Entitlement
