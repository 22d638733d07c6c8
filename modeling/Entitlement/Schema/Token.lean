/-!
# Tokens of the schema language

A schema text is a sequence of words, literals and marks. A token keeps
what it is, the characters it is written with, the blank text and the
comments in front of it, and where it starts, so that a token list with
its end loses nothing of the text it was read from.
-/

namespace Entitlement

/-- The reserved words of the schema language. -/
inductive Keyword
  | entity | relation | attr | permission | action | rule | or | and | not
  deriving DecidableEq, Repr

/-- The punctuation marks and operators of the schema language. Only some
of them mean something to it; the others occur in expressions, which it
carries along unread. -/
inductive Mark
  | assign | colon | lBrace | rBrace | lParen | rParen | lBracket | rBracket
  | dot | comma | atSign | hash | question
  | bang | amp | pipe | equal | notEqual | less | lessEqual | greater
  | greaterEqual | andAnd | orOr | plus | minus | star | slash | percent
  deriving DecidableEq, Repr

/-- **The kinds of tokens.** -/
inductive TokenKind
  | keyword (word : Keyword)
  | identifier
  | string
  | number
  | mark (mark : Mark)
  | endOfText
  deriving DecidableEq, Repr

/-! ## Spelling -/

namespace Keyword

/-- Every reserved word. -/
def all : List Keyword :=
  [entity, relation, attr, permission, action, rule, or, and, not]

/-- How a reserved word is written. -/
def spelling : Keyword → String
  | entity => "entity"
  | relation => "relation"
  | attr => "attribute"
  | permission => "permission"
  | action => "action"
  | rule => "rule"
  | or => "or"
  | and => "and"
  | not => "not"

/-- The reserved word with a given spelling. -/
def ofSpelling? (word : String) : Option Keyword :=
  all.find? fun k => k.spelling == word

end Keyword

namespace Mark

/-- How a mark is written. -/
def spelling : Mark → String
  | assign => "="
  | colon => ":"
  | lBrace => "\x7b"
  | rBrace => "\x7d"
  | lParen => "("
  | rParen => ")"
  | lBracket => "["
  | rBracket => "]"
  | dot => "."
  | comma => ","
  | atSign => "@"
  | hash => "#"
  | question => "?"
  | bang => "!"
  | amp => "&"
  | pipe => "|"
  | equal => "=="
  | notEqual => "!="
  | less => "<"
  | lessEqual => "<="
  | greater => ">"
  | greaterEqual => ">="
  | andAnd => "&&"
  | orOr => "||"
  | plus => "+"
  | minus => "-"
  | star => "*"
  | slash => "/"
  | percent => "%"

/-- The mark written with one character. -/
def ofChar? : Char → Option Mark
  | '=' => some assign
  | ':' => some colon
  | '{' => some lBrace
  | '}' => some rBrace
  | '(' => some lParen
  | ')' => some rParen
  | '[' => some lBracket
  | ']' => some rBracket
  | '.' => some dot
  | ',' => some comma
  | '@' => some atSign
  | '#' => some hash
  | '?' => some question
  | '!' => some bang
  | '&' => some amp
  | '|' => some pipe
  | '<' => some less
  | '>' => some greater
  | '+' => some plus
  | '-' => some minus
  | '*' => some star
  | '/' => some slash
  | '%' => some percent
  | _ => none

/-- The mark written with two characters. -/
def ofPair? : Char → Char → Option Mark
  | '=', '=' => some equal
  | '!', '=' => some notEqual
  | '<', '=' => some lessEqual
  | '>', '=' => some greaterEqual
  | '&', '&' => some andAnd
  | '|', '|' => some orOr
  | _, _ => none

/-- The spelling of a mark of one character is that character. -/
theorem toList_spelling_of_ofChar? {c : Char} {m : Mark}
    (h : ofChar? c = some m) : m.spelling.toList = [c] := by
  unfold ofChar? at h
  split at h <;> simp at h <;> subst h <;> rfl

/-- The spelling of a mark of two characters is those characters. -/
theorem toList_spelling_of_ofPair? {c d : Char} {m : Mark}
    (h : ofPair? c d = some m) : m.spelling.toList = [c, d] := by
  unfold ofPair? at h
  split at h <;> simp at h <;> subst h <;> rfl

end Mark

namespace TokenKind

/-- **How messages name a kind of token**: reserved words and marks in
quotes as they are written, the other kinds by a description. -/
def description : TokenKind → String
  | keyword word => s!"'{word.spelling}'"
  | identifier => "identifier"
  | string => "string literal"
  | number => "number"
  | mark m => s!"'{m.spelling}'"
  | endOfText => "end of input"

/-- Whether the kind is a reserved word. -/
def isKeyword : TokenKind → Bool
  | keyword _ => true
  | _ => false

/-- The kind of a word: reserved, or a plain identifier. -/
def ofWord (word : String) : TokenKind :=
  match Keyword.ofSpelling? word with
  | some k => keyword k
  | none => identifier

end TokenKind

/-! ## Positions -/

/-- A place in a text: line and column count from one, columns in
characters, and the offset counts the bytes in front. -/
structure Position where
  line : Nat
  column : Nat
  offset : Nat
  deriving DecidableEq, Repr

namespace Position

/-- The place before the first character. -/
def start : Position := ⟨1, 1, 0⟩

/-- The place behind one more character; a line feed ends its line. -/
def advance (p : Position) (c : Char) : Position :=
  if c = '\n' then ⟨p.line + 1, 1, p.offset + c.utf8Size⟩
  else ⟨p.line, p.column + 1, p.offset + c.utf8Size⟩

/-- The place behind some more characters. -/
def advanceAll (p : Position) (cs : List Char) : Position :=
  cs.foldl advance p

@[simp] theorem advanceAll_nil (p : Position) : p.advanceAll [] = p := rfl

@[simp] theorem advanceAll_cons (p : Position) (c : Char) (cs : List Char) :
    p.advanceAll (c :: cs) = (p.advance c).advanceAll cs := rfl

@[simp] theorem advanceAll_append (p : Position) (cs ds : List Char) :
    p.advanceAll (cs ++ ds) = (p.advanceAll cs).advanceAll ds :=
  List.foldl_append

end Position

/-! ## Tokens -/

/-- **A token**: its kind, the characters it is written with, the blank
text and comments between it and the token before it, and the place where
it starts. -/
structure Token where
  kind : TokenKind
  text : List Char
  leading : List Char
  position : Position
  deriving DecidableEq, Repr

namespace Token

/-- The content of a token: its characters, a string literal without its
quotes. -/
def value (t : Token) : String :=
  match t.kind with
  | .string => String.ofList (t.text.drop 1).dropLast
  | _ => String.ofList t.text

/-- The number of bytes a token is written with. -/
def size (t : Token) : Nat :=
  (String.ofList t.text).utf8ByteSize

/-- How messages name a token that stands in a wrong place. -/
def description (t : Token) : String :=
  match t.kind with
  | .identifier => s!"identifier '{t.value}'"
  | .number => s!"number {t.value}"
  | .string => s!"string \"{t.value}\""
  | kind => kind.description

end Token

end Entitlement
