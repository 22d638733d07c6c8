/-!
# Placed texts

What a YAML text means hangs on where its characters stand. A `Placed`
text knows the `Place` of each of its characters and of its end. A line
ends with a line feed, a carriage return or both, which count as one
character here, the line feed; a NUL is the end of the text.
-/

namespace Entitlement.Yaml

/-! ## Characters -/

/-- The blanks within a line. -/
def isBlank (c : Char) : Bool := c == ' ' || c == '\t'

/-- The end of a line. -/
def isBreak (c : Char) : Bool := c == '\n'

/-- The characters that mark the parts of a collection in brackets. -/
def isFlowMark (c : Char) : Bool :=
  c == ',' || c == '[' || c == ']' || c == '{' || c == '}'

/-- An ASCII letter or digit, a hyphen or an underscore. -/
def isWordChar (c : Char) : Bool := c.isAlphanum || c == '-' || c == '_'

/-- Whether what comes next ends a line. -/
def endsLine (next : Option Char) : Bool := next.all isBreak

/-- Whether what comes next ends a word. -/
def endsWord (next : Option Char) : Bool :=
  next.all fun c => isBlank c || isBreak c

/-! ## Places -/

/-- **Where a character stands.** -/
structure Place where
  /-- The number of characters before it. -/
  offset : Nat := 0
  line : Nat := 0
  column : Nat := 0
  /-- Whether only blanks stand before it on its line. -/
  startsLine : Bool := true
  deriving DecidableEq, Repr

namespace Place

/-- The place behind a character of the same line. -/
def behind (p : Place) (c : Char) : Place :=
  { p with
    offset := p.offset + 1, column := p.column + 1,
    startsLine := p.startsLine && isBlank c }

/-- The place behind the end of a line, which has `size` characters. -/
def nextLine (p : Place) (size : Nat) : Place :=
  { offset := p.offset + size, line := p.line + 1 }

end Place

/-! ## Texts -/

/-- **A text that knows where its characters stand.** -/
inductive Placed
  | done (place : Place)
  | char (c : Char) (place : Place) (rest : Placed)
  deriving Repr

namespace Placed

/-- The text of some characters that begins at a place. -/
def ofChars (p : Place) : List Char → Placed
  | [] => done p
  | '\x00' :: _ => done p
  | '\r' :: '\n' :: cs => char '\n' p (ofChars (p.nextLine 2) cs)
  | '\r' :: cs => char '\n' p (ofChars (p.nextLine 1) cs)
  | '\n' :: cs => char '\n' p (ofChars (p.nextLine 1) cs)
  | c :: cs => char c p (ofChars (p.behind c) cs)

/-- The place of the first character, or of the end. -/
def place : Placed → Place
  | done p => p
  | char _ p _ => p

/-- The number of characters. -/
def size : Placed → Nat
  | done _ => 0
  | char _ _ rest => rest.size + 1

/-- The first character. -/
def head? : Placed → Option Char
  | done _ => none
  | char c _ _ => some c

/-- The text behind the first character. -/
def tail : Placed → Placed
  | done p => done p
  | char _ _ rest => rest

/-- The first `count` characters. -/
def take : Nat → Placed → List Char
  | count + 1, char c _ rest => c :: rest.take count
  | _, _ => []

/-- The text behind the first `count` characters. -/
def drop : Nat → Placed → Placed
  | count + 1, char _ _ rest => rest.drop count
  | _, t => t

/-- The characters at the front that have a property. -/
def takeWhile (p : Char → Bool) : Placed → List Char
  | char c _ rest => if p c then c :: rest.takeWhile p else []
  | done _ => []

/-- The text behind the characters at the front that have a property. -/
def dropWhile (p : Char → Bool) : Placed → Placed
  | char c here rest => if p c then rest.dropWhile p else char c here rest
  | done here => done here

/-- Whether a line begins with three marks that stand alone. -/
def hasMarks (mark : Char) (t : Placed) : Bool :=
  t.place.column = 0 && t.take 3 == List.replicate 3 mark &&
    endsWord (t.drop 3).head?

/-- Whether a document begins or ends at the front of a text. -/
def atDocumentMark (t : Placed) : Bool := t.hasMarks '-' || t.hasMarks '.'

/-! ## Gaps -/

/-- **What stands between a token and the next thing on its line**, besides
a comment. -/
structure LineGap where
  hasTab : Bool := false
  hasSpace : Bool := false

/-- The blanks and the comment at the front of a text, and the text behind
them. There has to be a blank in front of a comment. -/
def lineGap? (gap : LineGap) : Placed → Option (LineGap × Placed)
  | done p => some (gap, done p)
  | char c p rest =>
    if c = ' ' then rest.lineGap? { gap with hasSpace := true }
    else if c = '\t' then rest.lineGap? { gap with hasTab := true }
    else if c = '#' then
      if gap.hasTab || gap.hasSpace then
        some (gap, rest.dropWhile fun c => !isBreak c)
      else none
    else some (gap, char c p rest)

/-- The text behind the blanks and the comment at its front. -/
def afterLineGap? (t : Placed) : Option Placed :=
  (t.lineGap? {}).map Prod.snd

/-- What the gap between two tokens may go on with: anything, nothing but a
comment on this line, or the rest of a comment. -/
inductive GapMode
  | free | silent | comment
  deriving DecidableEq

/-- **The text from the next token on**, without blanks, comments and empty
lines. With an indentation, a tab in front of its column is on a line that
says nothing. -/
def skipGap? (indent : Option Int) : GapMode → Placed → Option Placed
  | _, done p => some (done p)
  | mode, char c p rest =>
    if isBreak c then rest.skipGap? indent .free
    else if mode = .comment ∨ c = '#' then rest.skipGap? indent .comment
    else if c = ' ' then rest.skipGap? indent mode
    else if c = '\t' then
      if p.startsLine && indent.any ((p.column : Int) < ·) then
        rest.skipGap? indent .silent
      else rest.skipGap? indent mode
    else if mode = .silent then none
    else some (char c p rest)

/-- The text behind spaces, line breaks and comments. -/
def skipSpaces (inComment : Bool) : Placed → Placed
  | done p => done p
  | char c p rest =>
    if isBreak c then rest.skipSpaces false
    else if inComment || c = '#' then rest.skipSpaces true
    else if c = ' ' then rest.skipSpaces false
    else char c p rest

end Placed

end Entitlement.Yaml
