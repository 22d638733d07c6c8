import Entitlement.Yaml.Placed

/-!
# Folded lines

A scalar may go on over several lines. A line break within it counts as a
space, and with empty lines behind it as one line feed for each of them;
the blanks around it do not count. A `Gap` is what was read since the last
word of a scalar.
-/

namespace Entitlement.Yaml

/-- **What stands between two words of a scalar.** -/
inductive Gap
  | none
  /-- Blanks within a line. -/
  | blanks (cs : List Char)
  /-- The end of a line that an escape takes away, and nothing behind it. -/
  | escaped
  /-- The end of a line and a number of empty lines; it folds unless an
  escape has taken it away. -/
  | lines (folds : Bool) (empty : Nat)
  deriving DecidableEq, Repr

namespace Gap

/-- Whether a gap ends a line. -/
def endsLine : Gap → Bool
  | none | blanks _ => false
  | escaped | lines .. => true

/-- The gap with one more blank. -/
def addBlank (gap : Gap) (c : Char) : Gap :=
  match gap with
  | none => blanks [c]
  | blanks cs => blanks (cs ++ [c])
  | escaped => lines false 0
  | lines folds empty => lines folds empty

/-- The gap with one more end of a line. -/
def addBreak : Gap → Gap
  | none | blanks _ => lines true 0
  | escaped => lines false 1
  | lines folds empty => lines folds (empty + 1)

/-- **What a gap counts as.** -/
def text : Gap → List Char
  | none | escaped => []
  | blanks cs => cs
  | lines true 0 => [' ']
  | lines _ empty => List.replicate empty '\n'

/-- The blanks in front of the end of a line do not count. -/
@[simp] theorem addBreak_blanks (cs : List Char) :
    (blanks cs).addBreak = none.addBreak := rfl

/-- The blanks behind the end of a line do not count. -/
@[simp] theorem text_addBlank_lines (folds : Bool) (empty : Nat) (c : Char) :
    ((lines folds empty).addBlank c).text = (lines folds empty).text := rfl

end Gap

end Entitlement.Yaml
