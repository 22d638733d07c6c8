import Entitlement.Yaml.Token

/-!
# Layout

Collections are written in brackets or by indentation, and a key is known
only by the colon behind it. A `Layout` is what the tokens so far have
settled: the levels of indentation, and for each open bracket the token
that would be a key if a colon followed. A colon then puts the tokens of a
key, and of the beginning of its mapping, in front of that token.
-/

namespace Entitlement.Yaml

/-- **A level of indentation.** A level that is no block only keeps what
stands behind a mark to the right of it. -/
structure Level where
  column : Nat
  isBlock : Bool
  deriving DecidableEq, Repr

/-- **A token that may be a key**: where it stands, in the text and among
the tokens. One that is required stands where nothing but a key may. -/
structure Candidate where
  place : Place
  isRequired : Bool
  position : Nat
  deriving DecidableEq, Repr

/-- **What the tokens so far have settled.** -/
structure Layout where
  tokens : Array Token := #[]
  /-- The levels of indentation, the innermost first. -/
  levels : List Level := []
  candidate : Option Candidate := none
  /-- The candidates outside each open bracket, the innermost first. -/
  outer : List (Option Candidate) := []
  /-- Whether the next token may be a key. -/
  keyAllowed : Bool := true
  /-- Whether a brace or the mark of a key began a mapping in brackets. -/
  mappingBegun : Bool := false
  /-- Whether a colon began a mapping of one pair in brackets. -/
  pairBegun : Bool := false
  /-- Where in brackets a colon needs nothing behind it. -/
  adjacent : Option Nat := none
  /-- Whether the last token is an anchor or a tag in the first column. -/
  propertyFirst : Bool := false
  deriving Repr

namespace Layout

/-! ## Tokens -/

/-- Whether a bracket is open. -/
def inFlow (l : Layout) : Bool := !l.outer.isEmpty

/-- One more token. -/
def push (l : Layout) (t : Token) : Layout :=
  { l with tokens := l.tokens.push t, propertyFirst := false }

/-- One more token in front of the others from a position on. -/
def insert (l : Layout) (position : Nat) (t : Token) : Layout :=
  { l with
    tokens := l.tokens.extract 0 position ++ #[t] ++
      l.tokens.extract position l.tokens.size }

/-- An anchor or a tag that stands at a place. -/
def pushProperty (l : Layout) (t : Token) (p : Place) : Layout :=
  { l.push t with propertyFirst := p.column = 0 }

/-! ## Levels -/

/-- The column of the innermost level; outside of all levels it is left of
the first. -/
def column (l : Layout) : Int :=
  match l.levels with
  | [] => -1
  | level :: _ => level.column

/-- Whether the innermost level is a block. -/
def inBlock (l : Layout) : Bool := l.levels.head?.any Level.isBlock

/-- The levels that are not right of a column, and the number of blocks
among those that are. -/
def levelsUpTo (column : Int) : List Level → List Level × Nat
  | [] => ([], 0)
  | level :: levels =>
    if column < level.column then
      let (kept, closed) := levelsUpTo column levels
      (kept, if level.isBlock then closed + 1 else closed)
    else (level :: levels, 0)

/-- **The layout at a column** outside of brackets, where the blocks right
of it end. -/
def unroll (l : Layout) (column : Int) : Layout :=
  if l.inFlow then l
  else
    let (kept, closed) := levelsUpTo column l.levels
    (List.replicate closed Token.blockEnd).foldl push { l with levels := kept }

/-- The layout without the innermost levels that are no blocks. -/
def dropPlainLevels (l : Layout) : Layout :=
  { l with levels := l.levels.dropWhile fun level => !level.isBlock }

/-- The layout without its innermost level, if that is no block and not
right of a column. -/
def dropLevelAt (l : Layout) (column : Nat) : Layout :=
  match l.levels with
  | level :: levels =>
    if l.column ≤ column ∧ !level.isBlock then { l with levels } else l
  | [] => l

/-- **The layout in which a block is open at a column** outside of
brackets: a deeper one begins with a token, at a position or as the
last. -/
def openBlock (l : Layout) (column : Nat) (position : Option Nat)
    (t : Token) : Layout :=
  if l.inFlow then l
  else
    let l := l.dropLevelAt column
    if l.column < column then
      let l := { l with levels := ⟨column, true⟩ :: l.levels }
      match position with
      | some position => l.insert position t
      | none => l.push t
    else l

/-- The layout in which what follows has to stand right of the block. -/
def deepen (l : Layout) : Layout :=
  if !l.inFlow && l.inBlock then
    { l with levels := ⟨(l.column + 1).toNat, false⟩ :: l.levels }
  else l

/-! ## Keys -/

/-- The layout in which the token at a place may be a key. -/
def saveCandidate (l : Layout) (p : Place) : Layout :=
  if l.keyAllowed then
    { l with
      candidate := some {
        place := p
        isRequired := !l.inFlow && l.column = p.column && l.inBlock
        position := l.tokens.size } }
  else l

/-- The layout without a candidate, if none is required. -/
def dropCandidate? (l : Layout) : Option Layout :=
  if l.candidate.any Candidate.isRequired then none
  else some { l with candidate := none }

/-- The number of characters between the beginning of a key and its
colon. -/
def longestKey : Nat := 1024

/-- The layout at a place: outside of brackets a key stands on one line
and is not too long. -/
def expireCandidate? (l : Layout) (p : Place) : Option Layout :=
  let expired := !l.inFlow && l.candidate.any fun c =>
    c.place.line < p.line || c.place.offset + longestKey < p.offset
  if expired then l.dropCandidate? else some l

/-- The layout in which the next token may or may not be a key. -/
def allowKey (l : Layout) (allowed : Bool) : Layout :=
  { l with keyAllowed := allowed }

/-! ## Brackets -/

/-- The number of brackets that may be open. -/
def deepestFlow : Nat := 255

/-- The layout in an open bracket. -/
def enter? (l : Layout) : Option Layout :=
  if l.outer.length < deepestFlow then
    some { l with candidate := none, outer := l.candidate :: l.outer }
  else none

/-- The layout behind the innermost bracket. -/
def leave (l : Layout) : Layout :=
  match l.outer with
  | candidate :: outer => { l with candidate, outer }
  | [] => l

/-- The layout without a mapping of one pair. -/
def endPair (l : Layout) : Layout :=
  if l.pairBegun then
    { l with pairBegun := false, mappingBegun := false }.push .closeBrace
  else l

end Layout

end Entitlement.Yaml
