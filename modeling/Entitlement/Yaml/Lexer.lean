import Entitlement.Yaml.Layout
import Entitlement.Yaml.Scalar.Block
import Entitlement.Yaml.Scalar.Plain
import Entitlement.Yaml.Scalar.Quoted

/-!
# Reading tokens

`tokenize?` cuts a YAML text into tokens. Each of them is known by its
first characters, and what it may be hangs on the layout so far. A text
that has no tokens is no YAML.
-/

namespace Entitlement.Yaml

/-- A step of reading: the layout behind a token and the text that
follows. -/
abbrev Reading := Option (Layout × Placed)

namespace Layout

/-! ## Directives and documents -/

/-- The directive behind a percent sign. -/
def readDirective (l : Layout) (t : Placed) : Reading := do
  let l ← (l.unroll (-1)).dropCandidate?
  let (token, rest) ← directive? t
  some ((l.allowKey false).push token, rest)

/-- The marks at the beginning or end of a document. A comment at most
stands behind those of the end. -/
def readDocumentMark (l : Layout) (mark : Token) (t : Placed) : Reading := do
  let l ← (l.unroll (-1)).dropCandidate?
  let l := (l.allowKey false).push mark
  if mark = .documentStart then some (l, t.drop 3)
  else
    let rest ← (t.drop 3).afterLineGap?
    if endsLine rest.head? then some (l, rest) else none

/-! ## Brackets -/

/-- An opening bracket. -/
def readOpening (l : Layout) (bracket : Token) (p : Place) (rest : Placed) :
    Reading := do
  let l ← (l.saveCandidate p).deepen.enter?
  let l := { l.allowKey true with
    mappingBegun := l.mappingBegun || bracket = Token.openBrace }
  let rest ← rest.afterLineGap?
  some (l.push bracket, rest)

/-- A closing bracket. -/
def readClosing (l : Layout) (bracket : Token) (rest : Placed) : Reading := do
  let l ← l.dropCandidate?
  let l := (l.leave.allowKey false).endPair
  let rest ← rest.afterLineGap?
  let l := if l.inFlow then { l with adjacent := some rest.place.offset } else l
  some (l.push bracket, rest)

/-- A comma. -/
def readComma (l : Layout) (rest : Placed) : Reading := do
  let l ← l.dropCandidate?
  let rest ← rest.afterLineGap?
  some ((l.allowKey true).endPair.push .comma, rest)

/-! ## Items, keys and values -/

/-- The hyphen of an item. -/
def readItem (l : Layout) (p : Place) (rest : Placed) : Reading := do
  if l.inFlow || !l.keyAllowed then none
  if l.propertyFirst && p.column = 0 && -1 < l.column then none
  let l := l.openBlock p.column none .listStart
  let (gap, rest) ← rest.lineGap? {}
  if gap.hasTab && rest.head? = some '-' && endsWord rest.tail.head? then none
  let l := if rest.head?.any fun c => isBreak c || isFlowMark c then l.deepen
    else l
  let l ← l.dropCandidate?
  some ((l.allowKey true).push .item, rest)

/-- The mark of a key. -/
def readKey (l : Layout) (p : Place) (rest : Placed) : Reading := do
  if !l.inFlow && !l.keyAllowed then none
  let l := if l.inFlow then { l with mappingBegun := true }
    else l.openBlock p.column none .mappingStart
  let l ← l.dropCandidate?
  if !rest.head?.any fun c => c = ' ' || isBreak c then none
  let rest := rest.skipSpaces false
  if rest.head? = some '\t' then none
  some ((l.allowKey !l.inFlow).push .key, rest)

/-- The text behind a colon. Behind tabs alone no word may follow. -/
def afterColon? (rest : Placed) : Option Placed :=
  if rest.head? = some '\t' then do
    let (gap, rest) ← rest.lineGap? {}
    if !gap.hasSpace && rest.head?.any isWordChar then none
    some rest
  else some rest

/-- The layout in which a token is a key, of which the colon stands on a
line. -/
def resolve? (l : Layout) (key : Candidate) (line : Nat) : Option Layout := do
  let l := l.insert key.position .key
  if l.pairBegun && key.place.line < line then none
  let l := if l.pairBegun then l.insert key.position .openBrace else l
  let l := (l.openBlock key.place.column (some key.position)
    .mappingStart).deepen
  some { l.allowKey false with candidate := none }

/-- The layout in which a value belongs to no token in front of it. -/
def beginValue? (l : Layout) (p : Place) : Option Layout := do
  let l := if l.pairBegun then l.push .openBrace else l
  if l.inFlow then some (l.allowKey false)
  else if !l.keyAllowed then none
  else some ((l.openBlock p.column none .mappingStart).deepen.allowKey true)

/-- The colon in front of a value. -/
def readValue (l : Layout) (p : Place) (rest : Placed) : Reading := do
  let l := { l with pairBegun := l.inFlow && !l.mappingBegun }
  let rest ← afterColon? rest
  let l ← match l.candidate with
    | some key => l.resolve? key p.line
    | none => l.beginValue? p
  some (l.push .value, rest)

/-! ## Properties -/

/-- An anchor. -/
def readAnchor (l : Layout) (p : Place) (rest : Placed) : Reading := do
  let l := (l.saveCandidate p).allowKey false
  let (name, rest) ← anchorName? rest
  some (l.pushProperty (.anchor name) p, rest)

/-- A reference to an anchor. -/
def readReference (l : Layout) (p : Place) (rest : Placed) : Reading := do
  let l := (l.saveCandidate p).allowKey false
  let (name, rest) ← anchorName? rest
  some (l.push (.reference name), rest)

/-- A tag. -/
def readTag (l : Layout) (t : Placed) : Reading := do
  let l := (l.saveCandidate t.place).allowKey false
  let (token, rest) ← tag? l.inFlow t
  some (l.pushProperty token t.place, rest)

/-! ## Scalars -/

/-- A block scalar behind its mark. -/
def readBlockScalar (l : Layout) (folded : Bool) (p : Place)
    (rest : Placed) : Reading := do
  let l := ((l.saveCandidate p).allowKey true).dropPlainLevels
  let (s, rest) ← blockScalar? folded l.column rest
  some (l.push (.scalar false (String.ofList s)), rest)

/-- The text from the next token on, and whether that may be a key: behind
the end of a line outside of brackets it may. -/
def skipGap? (l : Layout) (t : Placed) : Reading := do
  let indent := if l.levels.isEmpty then none else some l.column
  let rest ← t.skipGap? indent .free
  let l := if !l.inFlow && t.place.line < rest.place.line then l.allowKey true
    else l
  some (l, rest)

/-- Whether what follows the quotes that begin in a line may follow
them. -/
def followsQuotes (inFlow : Bool) (line : Nat) (t : Placed) : Bool :=
  match t.head? with
  | none => true
  | some ':' => inFlow || line = t.place.line
  | some c => isBreak c || inFlow && (c == ',' || c == ']' || c == '}')

/-- A scalar in quotes, of which the opening one is at a place. -/
def readQuoted (l : Layout) (quote : Char) (p : Place) (rest : Placed) :
    Reading := do
  let l := (l.saveCandidate p).allowKey false
  let (s, rest) ← quoted? quote l.column .none 0 rest
  let rest ← rest.afterLineGap?
  if !followsQuotes l.inFlow p.line rest then none
  let (l, rest) ← l.skipGap? rest
  let l := { l with adjacent := some rest.place.offset }
  some (l.push (.scalar false (String.ofList s)), rest)

/-- A plain scalar. -/
def readPlain (l : Layout) (t : Placed) : Reading := do
  let l := ((l.saveCandidate t.place).allowKey false).dropPlainLevels
  let limit := l.column + 1
  if l.inFlow && t.place.column < limit then none
  if l.inFlow && t.head? = some '-' && t.tail.head?.any isFlowMark then none
  let (s, rest) ← plain? l.inFlow limit .none .free t
  if s.isEmpty then none
  let l := if rest.place.startsLine then l.allowKey true else l
  some (l.push (.scalar true (String.ofList s)), rest)

/-! ## All tokens -/

/-- Whether a colon is the mark of a value. -/
def isValueMark (l : Layout) (p : Place) (next : Option Char) : Bool :=
  endsWord next ||
    l.inFlow && (next.any isFlowMark || l.adjacent = some p.offset)

/-- **The token that begins with a character** at a place. -/
def readToken (l : Layout) (c : Char) (p : Place) (rest : Placed) : Reading :=
  let t := Placed.char c p rest
  let alone := endsWord rest.head?
  if c = '%' ∧ p.column = 0 then l.readDirective rest
  else if t.hasMarks '-' then l.readDocumentMark .documentStart t
  else if t.hasMarks '.' then l.readDocumentMark .documentEnd t
  else if p.column < l.column then none
  else
    match c with
    | '[' => l.readOpening .openBracket p rest
    | '{' => l.readOpening .openBrace p rest
    | ']' => l.readClosing .closeBracket rest
    | '}' => l.readClosing .closeBrace rest
    | ',' => l.readComma rest
    | '*' => l.readReference p rest
    | '&' => l.readAnchor p rest
    | '!' => l.readTag t
    | '\'' | '"' => l.readQuoted c p rest
    | '%' | '@' | '\x60' => none
    | '-' => if alone then l.readItem p rest else l.readPlain t
    | '?' => if alone then l.readKey p rest else l.readPlain t
    | ':' => if l.isValueMark p rest.head? then l.readValue p rest
      else l.readPlain t
    | '|' => if l.inFlow then l.readPlain t else l.readBlockScalar false p rest
    | '>' => if l.inFlow then l.readPlain t else l.readBlockScalar true p rest
    | _ => l.readPlain t

/-- The tokens at the end of a text. -/
def finish? (l : Layout) : Option (List Token) := do
  let l ← l.dropCandidate?
  some (l.unroll (-1)).tokens.toList

/-- The tokens of a text, of which the first stand already in a layout; at
most `count` are to come. -/
def readAll : Nat → Layout → Placed → Option (List Token)
  | 0, _, _ => none
  | count + 1, l, t => do
    let (l, t) ← l.skipGap? t
    let l ← l.expireCandidate? t.place
    let l := l.unroll t.place.column
    match t with
    | .done _ => l.finish?
    | .char c p rest => do
      let (l, rest) ← l.readToken c p rest
      readAll count l rest

end Layout

/-- **The tokens of a YAML text.** A token takes a character at least, so
the length of the text bounds their number. -/
def tokenize? (text : String) : Option (List Token) :=
  let t := Placed.ofChars {} text.toList
  Layout.readAll (t.size + 1) {} t

end Entitlement.Yaml
