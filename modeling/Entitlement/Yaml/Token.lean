import Entitlement.Text.CodePoint
import Entitlement.Yaml.Placed

/-!
# Tokens of YAML

What a YAML text is made of: the marks of documents and directives, the
beginnings and ends of collections, and scalars with their properties. The
beginnings and ends of collections that are written by indentation are
tokens too, although no character stands for them.

This module reads the tokens that mean the same wherever they stand:
directives, anchors and tags.
-/

namespace Entitlement.Yaml

/-- **The tokens of YAML.** -/
inductive Token
  /-- A directive with the version of YAML. -/
  | version
  /-- A directive that lets a handle stand for the start of tags. -/
  | shorthand (handle start : String)
  | documentStart
  | documentEnd
  /-- The beginning of a list by indentation. -/
  | listStart
  /-- The beginning of a mapping by indentation. -/
  | mappingStart
  /-- The end of either. -/
  | blockEnd
  | openBracket
  | closeBracket
  | openBrace
  | closeBrace
  /-- The hyphen in front of an item. -/
  | item
  | comma
  | key
  | value
  | reference (name : String)
  | anchor (name : String)
  | tag (handle suffix : String)
  | scalar (isPlain : Bool) (text : String)
  deriving DecidableEq, Repr

/-! ## Names -/

/-- A character of the name of an anchor. -/
def isAnchorChar (c : Char) : Bool :=
  !isBlank c && !isBreak c && !isFlowMark c && c != '\ufeff'

/-- The name behind the mark of an anchor or of a reference to one. -/
def anchorName? (t : Placed) : Option (String × Placed) :=
  let name := t.takeWhile isAnchorChar
  if name.isEmpty then none
  else some (String.ofList name, t.dropWhile isAnchorChar)

/-! ## Tags -/

/-- A character of an address. -/
def isAddressChar (c : Char) : Bool :=
  c.isAlphanum || c == '-' || "#;/?:@&=+$,_.!~*'()[]%".toList.contains c

/-- A character of a tag behind its handle. -/
def isTagChar (c : Char) : Bool :=
  isAddressChar c && !isFlowMark c && c != '!'

/-- The number of bytes of a character by its first byte in UTF-8. -/
def byteCount? (byte : Nat) : Option Nat :=
  if byte < 0x80 then some 1
  else if byte < 0xc0 then none
  else if byte < 0xe0 then some 2
  else if byte < 0xf0 then some 3
  else if byte < 0xf8 then some 4
  else none

/-- The bytes that escapes at the front of a text spell, one after the
other. -/
def escapedBytes? : Nat → List Char → Option (List Nat)
  | 0, _ => some []
  | count + 1, '%' :: cs => do
    let byte ← leadingHex? 2 cs
    let bytes ← escapedBytes? count (cs.drop 2)
    some (byte :: bytes)
  | _, _ => none

/-- **The character that escaped bytes stand for**, and the number of
bytes. The bytes make up the digits of its code, in the base 256. -/
def escapedChar? (cs : List Char) : Option (Char × Nat) := do
  let first ← (escapedBytes? 1 cs).bind List.head?
  let count ← byteCount? first
  let bytes ← escapedBytes? count cs
  if bytes.tail.any fun b => b / 0x40 ≠ 2 then none
  let c ← charOfCode? (bytes.foldl (fun n b => 256 * n + b) 0)
  some (c, count)

/-- The number of characters of the escapes of one character at most. -/
def longestTagEscape : Nat := 12

/-- **A text of some characters**, in which a percent sign starts an
escape, and the text behind it. The first `taken` characters belong to
escapes in front of them. -/
def address? (allowed : Char → Bool) :
    Nat → Placed → Option (List Char × Placed)
  | _, .done p => some ([], .done p)
  | taken + 1, .char _ _ rest => address? allowed taken rest
  | 0, .char c p rest =>
    if !allowed c then some ([], .char c p rest)
    else if c = '%' then do
      let (c, count) ← escapedChar? (c :: rest.take longestTagEscape)
      let (s, rest) ← address? allowed (3 * count - 1) rest
      some (c :: s, rest)
    else (address? allowed 0 rest).map fun (s, rest) => (c :: s, rest)

/-- The handle of a tag: an exclamation mark, or a name between two of
them. Without the second one there is none but the first, and the name
belongs to what follows. -/
def tagHandle? (t : Placed) : Option (List Char × Placed) :=
  if t.head? = some '!' then
    let name := t.tail.takeWhile isWordChar
    let rest := t.tail.dropWhile isWordChar
    if rest.head? = some '!' then some ('!' :: name ++ ['!'], rest.tail)
    else some ('!' :: name, rest)
  else none

/-- A tag with its handle: a full address has an empty one, and a mark
that stands alone is all of the suffix. -/
def handledTag? (t : Placed) : Option (Token × Placed) := do
  if t.take 2 = ['!', '<'] then
    let (suffix, rest) ← address? isAddressChar 0 (t.drop 2)
    if rest.head? = some '>' then
      some (.tag "" (String.ofList suffix), rest.tail)
    else none
  else
    let (handle, rest) ← tagHandle? t
    let (suffix, rest) ← address? isTagChar 0 rest
    if 2 ≤ handle.length ∧ handle.getLast? = some '!' then
      if suffix.isEmpty then none
      else some (.tag (String.ofList handle) (String.ofList suffix), rest)
    else
      let suffix := handle.tail ++ suffix
      some (if suffix.isEmpty then .tag "" "!"
        else .tag "!" (String.ofList suffix), rest)

/-- **The tag at the front of a text.** It is a word of its own. -/
def tag? (inFlow : Bool) (t : Placed) : Option (Token × Placed) := do
  let (token, rest) ← handledTag? t
  if endsWord rest.head? || inFlow && rest.head?.any isFlowMark then
    some (token, rest)
  else none

/-! ## Directives -/

/-- A number of a version. -/
def versionNumber? (t : Placed) : Option Placed :=
  let digits := t.takeWhile Char.isDigit
  if digits.isEmpty ∨ 9 < digits.length then none
  else some (t.dropWhile Char.isDigit)

/-- The content of a directive with a version. -/
def versionDirective? (t : Placed) : Option (Token × Placed) := do
  let t ← versionNumber? (t.dropWhile isBlank)
  if t.head? = some '.' then
    (versionNumber? t.tail).map fun rest => (.version, rest)
  else none

/-- The start of tags that a handle stands for. -/
def tagStart? (t : Placed) : Option (List Char × Placed) :=
  if t.head? = some '!' then
    (address? isAddressChar 0 t.tail).map fun (s, rest) => ('!' :: s, rest)
  else if t.head?.any isTagChar then address? isAddressChar 0 t
  else none

/-- The content of a directive with a shorthand. -/
def shorthandDirective? (t : Placed) : Option (Token × Placed) := do
  let (handle, t) ← tagHandle? (t.dropWhile isBlank)
  if handle ≠ ['!'] ∧ (handle.length < 2 ∨ handle.getLast? ≠ some '!') then none
  let (start, rest) ← tagStart? (t.dropWhile isBlank)
  if endsWord rest.head? then
    some (.shorthand (String.ofList handle) (String.ofList start), rest)
  else none

/-- **The directive behind its percent sign**, up to the end of its line.
One of an unknown name says nothing, as a shorthand without a handle. -/
def directive? (t : Placed) : Option (Token × Placed) := do
  let name := t.takeWhile isWordChar
  let t := t.dropWhile isWordChar
  if name.isEmpty ∨ !endsWord t.head? then none
  let (token, t) ←
    if name = "YAML".toList then versionDirective? t
    else if name = "TAG".toList then shorthandDirective? t
    else some (.shorthand "" "", t.dropWhile fun c => !isBreak c)
  let t ← t.afterLineGap?
  if endsLine t.head? then some (token, t.tail) else none

end Entitlement.Yaml
