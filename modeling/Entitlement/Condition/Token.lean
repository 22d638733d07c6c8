import Entitlement.Condition.Value
import Entitlement.Text.CodePoint

/-!
# Tokens of conditions

`tokenize?` cuts the text of a condition into names, literals and symbols.
Blanks are spaces, tabs, carriage returns, line feeds and form feeds, and
a comment runs from `//` to the end of its line. A text with anything else
in it, or with a literal that no number or text can be, has no tokens; nor
has one that a comment begins, without a blank before it.
-/

namespace Entitlement.Condition

/-- **The tokens of conditions.** A sign is not part of a number; `hex` is
a whole number in hexadecimal digits, which takes none. -/
inductive Token
  | name (s : String)
  | int (n : Nat)
  | hex (n : Nat)
  | uint (n : Nat)
  | double (d : Double)
  | string (s : String)
  | bytes (bs : List UInt8)
  | symbol (s : String)
  deriving DecidableEq, Repr

/-! ## Characters -/

/-- An ASCII letter or an underscore. -/
def isNameStart (c : Char) : Bool :=
  ('a' ≤ c && c ≤ 'z') || ('A' ≤ c && c ≤ 'Z') || c == '_'

/-- An ASCII letter or digit or an underscore. -/
def isNamePart (c : Char) : Bool := isNameStart c || isDigit c

/-- The blanks between tokens. -/
def isSpace (c : Char) : Bool :=
  c == ' ' || c == '\t' || c == '\r' || c == '\n' || c == '\x0c'

/-! ## Escapes -/

/-- The character that a one-letter escape stands for. -/
def simpleEscape? : Char → Option Char
  | 'a' => some '\x07'
  | 'b' => some '\x08'
  | 'f' => some '\x0c'
  | 'n' => some '\n'
  | 'r' => some '\r'
  | 't' => some '\t'
  | 'v' => some '\x0b'
  | '"' => some '"'
  | '\'' => some '\''
  | '\\' => some '\\'
  | '?' => some '?'
  | '\x60' => some '\x60'
  | _ => none

/-- The byte that three octal digits at the front of a text spell. -/
def leadingOctal? : List Char → Option Nat
  | a :: b :: c :: _ =>
    if isOctal '3' a && isOctal '7' b && isOctal '7' c then
      some (decimalValue [a] * 64 + decimalValue [b] * 8 + decimalValue [c])
    else none
  | _ => none
where
  /-- Whether a character is an octal digit of at most a given value. -/
  isOctal (last c : Char) : Bool := '0' ≤ c && c ≤ last

/-- The byte that the escape behind a backslash spells in digits, and the
number of characters that the escape takes. -/
def byteEscape? : List Char → Option (Nat × Nat)
  | 'x' :: cs => (leadingHex? 2 cs).map fun n => (n, 3)
  | cs => (leadingOctal? cs).map fun n => (n, 3)

/-- **The character of the escape behind a backslash**, and the number of
characters that the escape takes. A byte stands for the character of that
code. -/
def escape? : List Char → Option (Char × Nat)
  | 'u' :: cs => (leadingChar? 4 cs).map fun c => (c, 5)
  | 'U' :: cs => (leadingChar? 8 cs).map fun c => (c, 9)
  | cs =>
    match cs.head?.bind simpleEscape? with
    | some c => some (c, 1)
    | none => (byteEscape? cs).map fun (n, taken) => (Char.ofNat n, taken)

/-! ## Texts -/

/-- The quotes of literals. -/
def isQuote (c : Char) : Bool := c == '"' || c == '\''

/-- **A literal from behind its opening quotes** up to its closing ones,
these included, and the text behind it. The first `taken` characters belong
to an escape in front of them. In a raw literal a backslash is a character
like any other; lines end only within three quotes. -/
def literalRest? (isRaw : Bool) (closing : List Char) :
    Nat → List Char → Option (List Char × List Char)
  | _, [] => none
  | taken + 1, c :: cs => do
    let (s, rest) ← literalRest? isRaw closing taken cs
    some (c :: s, rest)
  | 0, c :: cs =>
    if closing.isPrefixOf (c :: cs) then
      some (closing, (c :: cs).drop closing.length)
    else if (c = '\n' ∨ c = '\r') ∧ closing.length = 1 then none
    else do
      let taken ← if c = '\\' ∧ !isRaw then (escape? cs).map Prod.snd else some 0
      let (s, rest) ← literalRest? isRaw closing taken cs
      some (c :: s, rest)

/-- The literal at an opening quote, with its quotes, and the text behind
it. Three quotes open a literal that ends with three. -/
def literal? (isRaw : Bool) : List Char → Option (List Char × List Char)
  | [] => none
  | quote :: cs => do
    let quotes := List.replicate (if [quote, quote].isPrefixOf cs then 3 else 1) quote
    let (s, rest) ←
      literalRest? isRaw quotes 0 (cs.drop (quotes.length - 1))
    some (quotes ++ s, rest)

/-- What a backslash within a quote stands for, and the number of characters
that it takes behind it. It stays in front of the other quote, and in a raw
literal in front of all but the same quote. -/
def backslash? (isRaw : Bool) (quote : Char) (cs : List Char) :
    Option (List Char × Nat) :=
  if isRaw then
    match cs with
    | c :: _ => some (if c = quote then [c] else ['\\', c], 1)
    | [] => some (['\\'], 0)
  else do
    let (c, taken) ← escape? cs
    if taken = 1 ∧ isQuote c ∧ c ≠ quote then some (['\\', c], taken)
    else some ([c], taken)

/-- **The content of a literal** with its quotes, of which one may be open
at the front. A quote closes what is open and opens it again, and nothing
stands outside of quotes. The first `taken` characters belong to an escape
in front of them. -/
def content? (isRaw : Bool) :
    Option Char → Nat → List Char → Option (List Char)
  | _, _, [] => some []
  | opened, taken + 1, _ :: cs => content? isRaw opened taken cs
  | none, 0, c :: cs =>
    if isQuote c then content? isRaw (some c) 0 cs else none
  | some quote, 0, c :: cs =>
    if c = quote then content? isRaw none 0 cs
    else if c = '\\' then do
      let (s, taken) ← backslash? isRaw quote cs
      (content? isRaw (some quote) taken cs).map (s ++ ·)
    else (content? isRaw (some quote) 0 cs).map (c :: ·)

/-- The bytes of a content: an escape stands for its byte, and a character
for its UTF-8 bytes. The first `taken` characters belong to an escape in
front of them. -/
def bytes? : Nat → List Char → Option (List UInt8)
  | _, [] => some []
  | taken + 1, _ :: cs => bytes? taken cs
  | 0, c :: cs =>
    if c = '\\' then do
      let (n, taken) ← byteEscape? cs
      (bytes? taken cs).map (UInt8.ofNat n :: ·)
    else
      (bytes? 0 cs).map ((String.singleton c).toUTF8.toList ++ ·)

example : content? false none 0 "'a\\'b\\\"'".toList =
    some "a'b\\\"".toList := by decide

example : content? true none 0 "'\\d\\''".toList = some "\\d'".toList := by
  decide

/-- **The text or the bytes at an opening quote**, and what stands behind
them. Bytes lie between the first and the last mark of the literal. -/
def scanLiteral? (isBytes isRaw : Bool) (cs : List Char) :
    Option (Token × List Char) := do
  let (s, rest) ← literal? isRaw cs
  if isBytes then
    let inner := (if isRaw then s else s.tail).dropLast
    some (.bytes (← bytes? 0 inner), rest)
  else
    some (.string (String.ofList (← content? isRaw none 0 s)), rest)

/-- Whether a text begins with a letter of either case, and the text behind
that. -/
def afterLetter (small capital : Char) : List Char → Bool × List Char
  | c :: cs => if c = small ∨ c = capital then (true, cs) else (false, c :: cs)
  | [] => (false, [])

/-! ## Numbers -/

/-- A number with a fraction, an exponent or both, and the text behind
it. -/
def scanDouble (whole fraction cs : List Char) : Token × List Char :=
  let (exponent, rest) := (scanExponent? cs).getD (0, cs)
  let m := decimalValue (whole ++ fraction)
  (.double (.ofDecimal false m (exponent - fraction.length)), rest)

/-- A whole number, the token `signed` unless there is a `u` behind it. -/
def wholeNumber (signed : Nat → Token) (n : Nat) :
    List Char → Token × List Char
  | c :: cs => if c = 'u' ∨ c = 'U' then (.uint n, cs) else (signed n, c :: cs)
  | [] => (signed n, [])

/-- The number at a digit, and the text behind it. -/
def scanNumber (cs : List Char) : Token × List Char :=
  let hex := match cs with
    | '0' :: 'x' :: rest => rest.takeWhile fun c => (hexDigitValue? c).isSome
    | _ => []
  if hex.isEmpty then
    let whole := cs.takeWhile isDigit
    let rest := cs.dropWhile isDigit
    match scanFraction? rest with
    | some (fraction, rest) => scanDouble whole fraction rest
    | none =>
      match scanExponent? rest with
      | some _ => scanDouble whole [] rest
      | none => wholeNumber .int (decimalValue whole) rest
  else wholeNumber .hex (hexNumber hex) (cs.drop (2 + hex.length))

/-! ## Tokens -/

/-- The symbols of two characters. -/
def pairSymbols : List String := ["==", "!=", "<=", ">=", "&&", "||"]

/-- The symbols of one character. -/
def singleSymbols : List Char :=
  ['<', '>', '+', '-', '*', '/', '%', '!', '?', ':', '.', ',', '(', ')', '[',
    ']', '{', '}']

/-- The symbol at the front of a text, and the text behind it. -/
def scanSymbol? : List Char → Option (Token × List Char)
  | a :: b :: cs =>
    if pairSymbols.contains (String.ofList [a, b]) then
      some (.symbol (String.ofList [a, b]), cs)
    else if singleSymbols.contains a then
      some (.symbol (String.singleton a), b :: cs)
    else none
  | [a] =>
    if singleSymbols.contains a then some (.symbol (String.singleton a), [])
    else none
  | [] => none

/-- **The token at the front of a text**, and the text behind it. In front
of a quote a `b` marks bytes and an `r` behind it a raw literal. -/
def scanToken? : List Char → Option (Token × List Char)
  | [] => none
  | c :: cs =>
    let (isBytes, marked) := afterLetter 'b' 'B' (c :: cs)
    let (isRaw, quoted) := afterLetter 'r' 'R' marked
    if quoted.head?.any isQuote then scanLiteral? isBytes isRaw quoted
    else if isDigit c then some (scanNumber (c :: cs))
    else if c = '.' ∧ cs.head?.any isDigit then
      (scanFraction? (c :: cs)).map fun (fraction, rest) =>
        scanDouble [] fraction rest
    else if isNameStart c then
      some (.name (String.ofList (c :: cs.takeWhile isNamePart)),
        cs.dropWhile isNamePart)
    else scanSymbol? (c :: cs)

/-- A text without the blanks and comments in front. -/
def skipBlank (inComment : Bool) : List Char → List Char
  | [] => []
  | '\n' :: cs => skipBlank false cs
  | '/' :: '/' :: cs => skipBlank true cs
  | c :: cs => if inComment || isSpace c then skipBlank inComment cs else c :: cs

/-- The tokens of a text of at most `count` of them. -/
def tokensOf : Nat → List Char → Option (List Token)
  | 0, cs => if (skipBlank false cs).isEmpty then some [] else none
  | count + 1, cs =>
    match skipBlank false cs with
    | [] => some []
    | cs => do
      let (token, rest) ← scanToken? cs
      let tokens ← tokensOf count rest
      some (token :: tokens)

/-- **The tokens of a condition.** A token takes a character at least, so
the length of the text bounds their number. -/
def tokenize? (text : String) : Option (List Token) :=
  if "//".toList.isPrefixOf text.toList then none
  else tokensOf text.length text.toList

end Entitlement.Condition
