import Entitlement.Yaml.Scalar.Fold

/-!
# Plain scalars

A scalar without quotes ends in front of a comment, of a colon that ends a
word, or of a line that stands left of the column that its surroundings
ask for; within brackets, in front of the marks of a collection. Its lines
fold.
-/

namespace Entitlement.Yaml

/-- Whether a character belongs to a plain scalar, by what comes behind
it. -/
def isPlainChar (inFlow : Bool) (c : Char) (next : Option Char) : Bool :=
  if c = ':' then !(endsWord next || inFlow && next.any isFlowMark)
  else !(inFlow && isFlowMark c)

/-- What a line of a plain scalar may go on with: anything, nothing but a
comment, or the rest of a comment. -/
inductive PlainMode
  | free | silent | comment
  deriving DecidableEq

/-- Whether a plain scalar ends in front of a word. -/
def endsPlain (inFlow : Bool) (limit : Int) (t : Placed) : Bool :=
  !inFlow && t.place.column < limit || t.atDocumentMark ||
    t.head? = some '#'

/-- **The content of a plain scalar** and the text behind it. The gap was
read last. A tab left of the column `limit` is on a line that says
nothing; if that line has a comment, it is no empty line. -/
def plain? (inFlow : Bool) (limit : Int) :
    Gap → PlainMode → Placed → Option (List Char × Placed)
  | _, _, .done p => some ([], .done p)
  | gap, .comment, .char c _ rest =>
    if isBreak c then plain? inFlow limit gap .free rest
    else plain? inFlow limit gap .comment rest
  | gap, .silent, .char c _ rest =>
    if isBreak c then plain? inFlow limit gap.addBreak .free rest
    else if isBlank c then plain? inFlow limit gap .silent rest
    else if c = '#' then plain? inFlow limit gap .comment rest
    else none
  | gap, .free, .char c p rest =>
    if isBreak c then plain? inFlow limit gap.addBreak .free rest
    else if isBlank c then
      if gap.endsLine ∧ c = '\t' ∧ p.column < limit then
        plain? inFlow limit gap .silent rest
      else plain? inFlow limit (gap.addBlank c) .free rest
    else if gap ≠ .none ∧ endsPlain inFlow limit (.char c p rest) then
      some ([], .char c p rest)
    else if gap ≠ .none ∧ inFlow ∧ c = '-' ∧ rest.head?.any isFlowMark then
      none
    else if isPlainChar inFlow c rest.head? then
      (plain? inFlow limit .none .free rest).map fun (s, rest) =>
        (gap.text ++ c :: s, rest)
    else some ([], .char c p rest)

end Entitlement.Yaml
