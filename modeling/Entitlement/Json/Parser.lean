import Entitlement.Json.Basic
import Entitlement.Number.Decimal

/-!
# Reading JSON texts

`Json.parse?` reads a text that is one JSON value, with blanks around it.
Values are nested at most `Json.maxNesting` deep, a number lies within the
doubles, and a whole number is kept as such as long as it fits in 64 bits,
with a sign or without.
-/

namespace Entitlement

namespace Json

/-- How deep values are nested at most. -/
def maxNesting : Nat := 127

/-- The text behind the blanks at its front. -/
def skipBlanks (cs : List Char) : List Char :=
  cs.dropWhile fun c => c == ' ' || c == '\n' || c == '\t' || c == '\r'

/-! ## Texts -/

/-- One piece of a text: a character, or a unit of sixteen bits, of which
two may make one character. -/
inductive Piece
  | char (c : Char)
  | unit (n : Nat)
  deriving DecidableEq, Repr

/-- The unit that four hexadecimal digits spell. -/
def unit? (digits : List Char) : Option Nat :=
  (digits.mapM hexDigitValue?).map fun ns =>
    ns.foldl (fun n d => 16 * n + d) 0

/-- The character that an escape of one character stands for. -/
def escaped? : Char → Option Char
  | '"' => some '"'
  | '\\' => some '\\'
  | '/' => some '/'
  | 'b' => some '\x08'
  | 'f' => some '\x0c'
  | 'n' => some '\n'
  | 'r' => some '\r'
  | 't' => some '\t'
  | _ => none

/-- The pieces up to the closing quote, and the text behind it. -/
def readPieces : List Char → Option (List Piece × List Char)
  | '"' :: cs => some ([], cs)
  | '\\' :: 'u' :: a :: b :: c :: d :: cs => do
    let n ← unit? [a, b, c, d]
    let (ps, rest) ← readPieces cs
    some (.unit n :: ps, rest)
  | '\\' :: e :: cs => do
    let c ← escaped? e
    let (ps, rest) ← readPieces cs
    some (.char c :: ps, rest)
  | c :: cs =>
    if c.toNat < 0x20 then none
    else (readPieces cs).map fun (ps, rest) => (.char c :: ps, rest)
  | [] => none

/-- Whether a unit is the first half of a character. -/
def isHighHalf (n : Nat) : Bool := 0xD800 ≤ n && n < 0xDC00

/-- Whether a unit is the second half of a character. -/
def isLowHalf (n : Nat) : Bool := 0xDC00 ≤ n && n < 0xE000

/-- **The characters of some pieces**; no half of a character stands
alone. -/
def charsOf? : List Piece → Option (List Char)
  | [] => some []
  | .char c :: ps => (charsOf? ps).map (c :: ·)
  | .unit h :: .unit l :: ps =>
    if isHighHalf h then
      if isLowHalf l then
        (charsOf? ps).map
          (Char.ofNat (0x10000 + (h - 0xD800) * 0x400 + (l - 0xDC00)) :: ·)
      else none
    else if isLowHalf h then none
    else (charsOf? (.unit l :: ps)).map (Char.ofNat h :: ·)
  | .unit n :: ps =>
    if isHighHalf n || isLowHalf n then none
    else (charsOf? ps).map (Char.ofNat n :: ·)

/-- The text behind an opening quote, and what follows it. -/
def readText (cs : List Char) : Option (String × List Char) := do
  let (ps, rest) ← readPieces cs
  let s ← charsOf? ps
  some (String.ofList s, rest)

/-! ## Numbers -/

/-- A double, if it is a number that JSON can write. -/
def finite? (d : Double) : Option Json :=
  if d.isFinite then some (.double d) else none

/-- The whole number with a sign, or the double nearest to it. -/
def wholeNumber? (negative : Bool) (n : Nat) : Option Json :=
  if negative then
    if n = 0 then some (.double (.ofDecimal true 0 0))
    else if n ≤ 0x8000000000000000 then some (.int (-n))
    else finite? (.ofDecimal true n 0)
  else if n < 0x10000000000000000 then some (.int n)
  else finite? (.ofDecimal false n 0)

/-- **A number** and the text behind it. -/
def readNumber (cs : List Char) : Option (Json × List Char) := do
  let (negative, cs) := match cs with
    | '-' :: cs => (true, cs)
    | cs => (false, cs)
  let whole := cs.takeWhile isDigit
  let rest := cs.dropWhile isDigit
  if whole.isEmpty || (1 < whole.length && whole.head? == some '0') then none
  match scanFraction? rest, scanExponent? rest with
  | none, none =>
    let j ← wholeNumber? negative (decimalValue whole)
    some (j, rest)
  | fraction, _ =>
    let (fraction, rest) := fraction.getD ([], rest)
    let (e, rest) := (scanExponent? rest).getD (0, rest)
    let j ← finite? (.ofDecimal negative (decimalValue (whole ++ fraction))
      (e - fraction.length))
    some (j, rest)

/-! ## Values -/

mutual

/-- A value nested in `depth` more at most, and the text behind it. -/
def readValue : Nat → Nat → List Char → Option (Json × List Char)
  | 0, _, _ => none
  | fuel + 1, depth, cs =>
    match skipBlanks cs with
    | 'n' :: 'u' :: 'l' :: 'l' :: cs => some (.null, cs)
    | 't' :: 'r' :: 'u' :: 'e' :: cs => some (.bool true, cs)
    | 'f' :: 'a' :: 'l' :: 's' :: 'e' :: cs => some (.bool false, cs)
    | '"' :: cs => (readText cs).map fun (s, cs) => (.string s, cs)
    | '[' :: cs =>
      if depth = 0 then none
      else
        match skipBlanks cs with
        | ']' :: cs => some (.array [], cs)
        | cs => (readItems fuel (depth - 1) cs).map fun (items, cs) =>
            (.array items, cs)
    | '{' :: cs =>
      if depth = 0 then none
      else
        match skipBlanks cs with
        | '}' :: cs => some (.object [], cs)
        | cs => (readFields fuel (depth - 1) cs).map fun (fields, cs) =>
            (ofFields fields, cs)
    | cs => readNumber cs

/-- The items up to the closing bracket, and the text behind it. -/
def readItems : Nat → Nat → List Char → Option (List Json × List Char)
  | 0, _, _ => none
  | fuel + 1, depth, cs => do
    let (j, cs) ← readValue fuel depth cs
    match skipBlanks cs with
    | ',' :: cs => (readItems fuel depth cs).map fun (js, cs) => (j :: js, cs)
    | ']' :: cs => some ([j], cs)
    | _ => none

/-- The fields up to the closing brace, and the text behind it. -/
def readFields :
    Nat → Nat → List Char → Option (List (String × Json) × List Char)
  | 0, _, _ => none
  | fuel + 1, depth, cs =>
    match skipBlanks cs with
    | '"' :: cs => do
      let (name, cs) ← readText cs
      match skipBlanks cs with
      | ':' :: cs =>
        let (j, cs) ← readValue fuel depth cs
        match skipBlanks cs with
        | ',' :: cs =>
          (readFields fuel depth cs).map fun (fs, cs) => ((name, j) :: fs, cs)
        | '}' :: cs => some ([(name, j)], cs)
        | _ => none
      | _ => none
    | _ => none

end

/-- **The value that a text says.** -/
def parse? (text : String) : Option Json := do
  let cs := text.toList
  let (j, rest) ← readValue (2 * cs.length + 2) maxNesting cs
  if (skipBlanks rest).isEmpty then some j else none

end Json

end Entitlement
