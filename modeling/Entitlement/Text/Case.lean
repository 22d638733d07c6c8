/-!
# Letters of either case

Names of settings and their values are compared in small letters. All the
names are spelled in ASCII, so only the characters count whose small
letter is ASCII: the capitals of ASCII, and the Kelvin sign.
-/

namespace Entitlement

/-- **The small letter of a character**, if that is an ASCII letter, or
else the character itself. -/
def smallLetter (c : Char) : Char :=
  if c = '\u212a' then 'k' else c.toLower

/-- A text in small letters. -/
def smallLetters (s : String) : String :=
  String.ofList (s.toList.map smallLetter)

end Entitlement
