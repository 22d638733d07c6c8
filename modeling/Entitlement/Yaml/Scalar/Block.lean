import Entitlement.Number.Decimal
import Entitlement.Yaml.Placed

/-!
# Block scalars

The lines behind a `|` or a `>` are a text as they stand, without their
indentation. Behind a `>` they fold, but not at a line that begins with a
blank. The indentation is that of the first line unless a digit says it,
and a `+` or `-` says whether all ends of lines behind the last one count
or none.
-/

namespace Entitlement.Yaml

/-- Which ends of lines count behind the last line: the first, none or
all. -/
inductive Chomping
  | clip | strip | keep
  deriving DecidableEq, Repr

/-! ## Headers -/

/-- The chomping that a character asks for. -/
def Chomping.ofChar? : Char → Option Chomping
  | '+' => some keep
  | '-' => some strip
  | _ => none

/-- A digit of a header, zero if there is none; a zero is not allowed. -/
def headerDigit? (t : Placed) : Option (Nat × Placed) :=
  match t.head? with
  | some c =>
    if c = '0' then none
    else if isDigit c then some (decimalValue [c], t.tail)
    else some (0, t)
  | none => some (0, t)

/-- The chomping at the front of a text. -/
def headerChomping? (t : Placed) : Option Chomping :=
  t.head?.bind Chomping.ofChar?

/-- **The header of a block scalar** behind its mark: the chomping and the
digit, in either order, and the text from the end of its line on. -/
def blockHeader? (t : Placed) : Option (Chomping × Nat × Placed) := do
  let (chomping, digit, t) ← match headerChomping? t with
    | some chomping => do
      let (digit, t) ← headerDigit? t.tail
      some (chomping, digit, t)
    | none => do
      let (digit, t) ← headerDigit? t
      match headerChomping? t with
      | some chomping => some (chomping, digit, t.tail)
      | none => some (.clip, digit, t)
  let t ← t.afterLineGap?
  if endsLine t.head? then some (chomping, digit, t) else none

/-! ## Lines -/

/-- The column of the first line that is not empty, or the length of an
empty line in front of it that is longer. -/
def firstColumn (longest : Nat) : Placed → Nat
  | .done p => max longest p.column
  | .char c p rest =>
    if c = ' ' then firstColumn longest rest
    else if isBreak c then firstColumn (max longest p.column) rest
    else max longest p.column

/-- The number of empty lines at the front of a text, and the text of the
line behind them from its indentation on. -/
def emptyLines (indent empty : Nat) : Placed → Nat × Placed
  | .done p => (empty, .done p)
  | .char c p rest =>
    if isBreak c then emptyLines indent (empty + 1) rest
    else if c = ' ' ∧ p.column < indent then emptyLines indent empty rest
    else (empty, .char c p rest)

/-- Where the lines of a block scalar have come to: within a line, or
behind one and a number of empty lines. A line may begin with a blank. -/
inductive BlockState
  | first (empty : Nat)
  | inLine (blank : Bool)
  | behind (blank : Bool) (empty : Nat)
  deriving Repr

/-- The state behind one more end of a line. -/
def BlockState.addBreak : BlockState → BlockState
  | first empty => first (empty + 1)
  | inLine blank => behind blank 0
  | behind blank empty => behind blank (empty + 1)

/-- The characters in front of a line that begins with `c`. -/
def BlockState.text (folded : Bool) (c : Char) : BlockState → List Char
  | first empty => List.replicate empty '\n'
  | inLine _ => []
  | behind blank empty =>
    if folded && !blank && !isBlank c then
      if empty = 0 then [' '] else List.replicate empty '\n'
    else List.replicate (empty + 1) '\n'

/-- **The lines of a block scalar** from a state on, the state behind them
and the text that follows. -/
def blockLines (folded : Bool) (indent : Nat) :
    BlockState → Placed → List Char × BlockState × Placed
  | state, .done p => ([], state, .done p)
  | .inLine blank, .char c _ rest =>
    if isBreak c then
      blockLines folded indent (BlockState.inLine blank).addBreak rest
    else
      let (s, state, rest) := blockLines folded indent (.inLine blank) rest
      (c :: s, state, rest)
  | state, .char c p rest =>
    if isBreak c then blockLines folded indent state.addBreak rest
    else if c = ' ' ∧ p.column < indent then blockLines folded indent state rest
    else if p.column ≠ indent ∨ (Placed.char c p rest).hasMarks '.' then
      ([], state, .char c p rest)
    else
      let (s, state', rest) :=
        blockLines folded indent (.inLine (isBlank c)) rest
      (state.text folded c ++ c :: s, state', rest)

/-- The ends of lines that count behind the last line. The end of the text
counts as one behind a line as deep as the others. -/
def lastBreaks (chomping : Chomping) (indent : Nat) (state : BlockState)
    (rest : Placed) : List Char :=
  let (own, empty) := match state with
    | .first empty => (0, empty)
    | .inLine _ => (0, 0)
    | .behind _ empty => (1, empty)
  let final := if rest.size = 0 ∧ max indent 1 ≤ rest.place.column then 1 else 0
  match chomping with
  | .strip => []
  | .clip => List.replicate (own + final) '\n'
  | .keep => List.replicate (own + final + empty) '\n'

/-! ## Scalars -/

/-- **The content of a block scalar** from behind its mark, within a block
of a column, and the text behind it. -/
def blockScalar? (folded : Bool) (outer : Int) (t : Placed) :
    Option (List Char × Placed) := do
  let (chomping, digit, t) ← blockHeader? t
  let hasLines := t.head?.isSome
  let t := t.tail
  if t.head? = some '\t' then none
  let indent :=
    if digit = 0 then max (firstColumn 0 t) (outer + 1).toNat
    else (max outer 0).toNat + digit
  let (empty, t) := emptyLines indent 0 t
  match t with
  | .done _ =>
    let breaks := match chomping with
      | .strip => 0
      | .clip => 1
      | .keep => max 1 empty
    some (List.replicate (if hasLines then breaks else 0) '\n', t)
  | .char .. =>
    if t.place.column < indent ∧ outer < t.place.column then none
    let (s, state, rest) := blockLines folded indent (.first empty) t
    some (s ++ lastBreaks chomping indent state rest, rest)

end Entitlement.Yaml
