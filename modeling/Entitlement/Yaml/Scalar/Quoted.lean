import Entitlement.Text.CodePoint
import Entitlement.Yaml.Scalar.Fold

/-!
# Quoted scalars

Double quotes hold escapes, single quotes only the doubled quote. The
lines of a quoted scalar fold; in double quotes a backslash at the end of
a line takes the line break away. No line of the scalar stands left of the
column that its surroundings ask for.
-/

namespace Entitlement.Yaml

/-! ## Escapes -/

/-- The character that an escape of one letter stands for. -/
def letterEscape? : Char → Option Char
  | '0' => some '\x00'
  | 'a' => some '\x07'
  | 'b' => some '\x08'
  | 't' | '\t' => some '\t'
  | 'n' => some '\n'
  | 'v' => some '\x0b'
  | 'f' => some '\x0c'
  | 'r' => some '\r'
  | 'e' => some '\x1b'
  | 'N' => some '\u0085'
  | '_' => some '\u00a0'
  | 'L' => some '\u2028'
  | 'P' => some '\u2029'
  | ' ' => some ' '
  | '"' => some '"'
  | '/' => some '/'
  | '\\' => some '\\'
  | _ => none

/-- **The character that an escape stands for**, and the number of
characters that it takes behind its backslash. -/
def escape? : List Char → Option (Char × Nat)
  | 'x' :: cs => (leadingChar? 2 cs).map fun c => (c, 3)
  | 'u' :: cs => (leadingChar? 4 cs).map fun c => (c, 5)
  | 'U' :: cs => (leadingChar? 8 cs).map fun c => (c, 9)
  | c :: _ => (letterEscape? c).map fun c => (c, 1)
  | [] => none

/-- The number of characters of the longest escape. -/
def longestEscape : Nat := 9

/-! ## Quotes -/

/-- Whether a scalar in quotes can go on behind the end of a line. -/
def goesOn (indent : Int) (t : Placed) : Bool :=
  indent ≤ t.place.column && !t.atDocumentMark

/-- **The content of quotes** and the text behind the closing quote. The
gap was read last, and the first `taken` characters belong to an escape in
front of them. -/
def quoted? (quote : Char) (indent : Int) :
    Gap → Nat → Placed → Option (List Char × Placed)
  | _, _, .done _ => none
  | gap, taken + 1, .char _ _ rest => quoted? quote indent gap taken rest
  | gap, 0, .char c p rest =>
    if isBlank c then
      if gap.endsLine ∧ c = '\t' ∧ p.column < indent then none
      else quoted? quote indent (gap.addBlank c) 0 rest
    else if isBreak c then quoted? quote indent gap.addBreak 0 rest
    else if c = quote ∧ quote = '"' ∧ gap = .escaped then some ([], rest)
    else if gap.endsLine ∧ !goesOn indent (.char c p rest) then none
    else if c = quote then
      if quote = '\'' ∧ rest.head? = some quote then
        (quoted? quote indent .none 1 rest).map fun (s, rest) =>
          (gap.text ++ quote :: s, rest)
      else some (gap.text, rest)
    else if c = '\\' ∧ quote = '"' then
      if rest.head?.any isBreak then
        (quoted? quote indent .escaped 1 rest).map fun (s, rest) =>
          (gap.text ++ s, rest)
      else do
        let (escaped, taken) ← escape? (rest.take longestEscape)
        let (s, rest) ← quoted? quote indent .none taken rest
        some (gap.text ++ escaped :: s, rest)
    else
      (quoted? quote indent .none 0 rest).map fun (s, rest) =>
        (gap.text ++ c :: s, rest)

end Entitlement.Yaml
