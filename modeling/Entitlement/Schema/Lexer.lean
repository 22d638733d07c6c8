import Entitlement.Number.Decimal
import Entitlement.Schema.Token

/-!
# Splitting a schema text into tokens

`tokenize` cuts a text into tokens and ends with one token for the end of
the text. In front of each token it skips blanks (space, tab, carriage
return and line feed) and `//` comments, which run to the next carriage
return or line feed. At each place the first form that fits is taken:

* a string in single or double quotes on one line, a backslash
  protecting the character after it;
* a number of ASCII digits, with a fraction if digits follow the point;
* a word of ASCII letters, digits and underscores, reserved or not;
* a mark of two characters, then a mark of one.

A character that starts none of them, and a quote that is not closed on
its line, end the reading with a `LexError`.

`spanBlank_append` and `scanToken_append` say that no character is lost,
and `length_rest_lt_of_scanToken` that every token has at least one, which
is why the reading ends.
-/

namespace Entitlement

/-! ## Blanks and comments -/

/-- The characters that separate tokens. -/
def isSeparator (c : Char) : Bool :=
  c == ' ' || c == '\t' || c == '\r' || c == '\n'

/-- The characters that end a comment. -/
def isLineEnd (c : Char) : Bool :=
  c == '\r' || c == '\n'

/-- **The blanks and comments in front of a text**, and the rest of it;
`inComment` says whether a comment is open. -/
def spanBlank (inComment : Bool) : List Char → List Char × List Char
  | [] => ([], [])
  | '/' :: '/' :: cs =>
    let (blank, rest) := spanBlank true cs
    ('/' :: '/' :: blank, rest)
  | c :: cs =>
    if isSeparator c || inComment then
      let (blank, rest) := spanBlank (inComment && !isLineEnd c) cs
      (c :: blank, rest)
    else ([], c :: cs)

/-- Skipping blanks loses nothing. -/
theorem spanBlank_append (inComment : Bool) (cs : List Char) :
    (spanBlank inComment cs).1 ++ (spanBlank inComment cs).2 = cs := by
  fun_induction spanBlank inComment cs <;> simp_all

/-- What follows the blanks is no longer than the text. -/
theorem length_spanBlank_le (inComment : Bool) (cs : List Char) :
    (spanBlank inComment cs).2.length ≤ cs.length := by
  have h := congrArg List.length (spanBlank_append inComment cs)
  rw [List.length_append] at h
  omega

/-! ## One token -/

/-- An ASCII letter or an underscore. -/
def isWordStart (c : Char) : Bool :=
  ('a' ≤ c && c ≤ 'z') || ('A' ≤ c && c ≤ 'Z') || c == '_'

/-- An ASCII letter or digit or an underscore. -/
def isWordPart (c : Char) : Bool :=
  isWordStart c || isDigit c

/-- **The body of a string literal** up to its closing quote, and the text
behind the quote; nothing if the line ends first. `escaped` says whether
the next character is protected by a backslash; a line feed never is. -/
def scanString (quote : Char) (escaped : Bool) :
    List Char → Option (List Char × List Char)
  | [] => none
  | c :: cs =>
    if c = '\\' ∧ escaped = false then
      (scanString quote true cs).map fun (body, rest) => (c :: body, rest)
    else if c = quote ∧ escaped = false then some ([], cs)
    else if c = '\n' then none
    else (scanString quote false cs).map fun (body, rest) => (c :: body, rest)

/-- A string body, its quote and the rest make up the text. -/
theorem scanString_append {quote : Char} {escaped : Bool}
    {cs body rest : List Char}
    (h : scanString quote escaped cs = some (body, rest)) :
    body ++ quote :: rest = cs := by
  fun_induction scanString quote escaped cs generalizing body with
  | case1 => simp at h
  | case2 escaped c cs _ ih =>
    simp only [Option.map_eq_some_iff, Prod.mk.injEq, Prod.exists] at h
    obtain ⟨b, r, hb, rfl, rfl⟩ := h
    simp [ih hb]
  | case3 escaped c cs _ hc => simp_all
  | case4 => simp at h
  | case5 escaped c cs _ _ _ ih =>
    simp only [Option.map_eq_some_iff, Prod.mk.injEq, Prod.exists] at h
    obtain ⟨b, r, hb, rfl, rfl⟩ := h
    simp [ih hb]

/-- The digits of a number, and its fraction if digits follow the point;
then the rest of the text. -/
def scanNumber (cs : List Char) : List Char × List Char :=
  let whole := cs.takeWhile isDigit
  match cs.dropWhile isDigit with
  | '.' :: d :: rest =>
    if isDigit d then
      (whole ++ '.' :: (d :: rest).takeWhile isDigit,
        (d :: rest).dropWhile isDigit)
    else (whole, '.' :: d :: rest)
  | rest => (whole, rest)

/-- A number and the rest make up the text. -/
theorem scanNumber_append (cs : List Char) :
    (scanNumber cs).1 ++ (scanNumber cs).2 = cs := by
  have h := List.takeWhile_append_dropWhile (p := isDigit) (l := cs)
  unfold scanNumber
  split
  next d rest hd =>
    split
    · rw [hd] at h
      conv => rhs; rw [← h]
      simp only [List.append_assoc, List.cons_append]
      rw [List.takeWhile_append_dropWhile]
    · rw [hd] at h
      exact h
  next rest _ => exact h

/-- What keeps a place of a text from starting a token. -/
inductive LexFault
  | illegalCharacter (c : Char)
  | unterminatedString
  deriving DecidableEq, Repr

/-- **The token at the front of a text**: its kind, its characters and the
rest, or why there is none. The empty text has none and no fault. -/
def scanToken : List Char →
    Except LexFault (Option (TokenKind × List Char × List Char))
  | [] => .ok none
  | c :: cs =>
    if c = '"' ∨ c = '\'' then
      match scanString c false cs with
      | some (body, rest) => .ok (some (.string, c :: (body ++ [c]), rest))
      | none => .error .unterminatedString
    else if isDigit c then
      .ok (some (.number, (scanNumber (c :: cs)).1, (scanNumber (c :: cs)).2))
    else if isWordStart c then
      let word := c :: cs.takeWhile isWordPart
      .ok (some (.ofWord (String.ofList word), word, cs.dropWhile isWordPart))
    else
      match cs.head?.bind (Mark.ofPair? c), Mark.ofChar? c with
      | some m, _ => .ok (some (.mark m, c :: cs.take 1, cs.drop 1))
      | none, some m => .ok (some (.mark m, [c], cs))
      | none, none => .error (.illegalCharacter c)

/-- **A token and the rest make up the text.** -/
theorem scanToken_append {cs text rest : List Char} {kind : TokenKind}
    (h : scanToken cs = .ok (some (kind, text, rest))) : text ++ rest = cs := by
  cases cs with
  | nil => simp [scanToken] at h
  | cons c cs =>
    simp only [scanToken] at h
    split at h
    · split at h
      next body r hs =>
        simp only [Except.ok.injEq, Option.some.injEq, Prod.mk.injEq] at h
        obtain ⟨-, rfl, rfl⟩ := h
        have := scanString_append hs
        simp [this]
      next => simp at h
    · split at h
      · simp only [Except.ok.injEq, Option.some.injEq, Prod.mk.injEq] at h
        obtain ⟨-, rfl, rfl⟩ := h
        exact scanNumber_append _
      · split at h
        · simp only [Except.ok.injEq, Option.some.injEq, Prod.mk.injEq] at h
          obtain ⟨-, rfl, rfl⟩ := h
          simp [List.takeWhile_append_dropWhile]
        · split at h
          · simp only [Except.ok.injEq, Option.some.injEq, Prod.mk.injEq] at h
            obtain ⟨-, rfl, rfl⟩ := h
            exact congrArg (c :: ·) (List.take_append_drop 1 cs)
          · simp only [Except.ok.injEq, Option.some.injEq, Prod.mk.injEq] at h
            obtain ⟨-, rfl, rfl⟩ := h
            rfl
          · simp at h

/-- The number at a digit has at least that digit. -/
theorem scanNumber_ne_nil {c : Char} (cs : List Char) (h : isDigit c = true) :
    (scanNumber (c :: cs)).1 ≠ [] := by
  unfold scanNumber
  simp only [List.takeWhile_cons, h, if_true]
  split
  · split <;> simp
  · simp

/-- **A token has at least one character.** -/
theorem scanToken_ne_nil {cs text rest : List Char} {kind : TokenKind}
    (h : scanToken cs = .ok (some (kind, text, rest))) : text ≠ [] := by
  cases cs with
  | nil => simp [scanToken] at h
  | cons c cs =>
    simp only [scanToken] at h
    split at h
    · split at h
      next body r hs =>
        simp only [Except.ok.injEq, Option.some.injEq, Prod.mk.injEq] at h
        obtain ⟨-, rfl, rfl⟩ := h
        simp
      next => simp at h
    · split at h
      next hd =>
        simp only [Except.ok.injEq, Option.some.injEq, Prod.mk.injEq] at h
        obtain ⟨-, rfl, rfl⟩ := h
        exact scanNumber_ne_nil cs hd
      · split at h
        · simp only [Except.ok.injEq, Option.some.injEq, Prod.mk.injEq] at h
          obtain ⟨-, rfl, rfl⟩ := h
          simp
        · split at h
          · simp only [Except.ok.injEq, Option.some.injEq, Prod.mk.injEq] at h
            obtain ⟨-, rfl, rfl⟩ := h
            simp
          · simp only [Except.ok.injEq, Option.some.injEq, Prod.mk.injEq] at h
            obtain ⟨-, rfl, rfl⟩ := h
            simp
          · simp at h

/-- What follows a token is shorter than the text. -/
theorem length_rest_lt_of_scanToken {cs text rest : List Char}
    {kind : TokenKind}
    (h : scanToken cs = .ok (some (kind, text, rest))) :
    rest.length < cs.length := by
  have ha := congrArg List.length (scanToken_append h)
  have hn : 0 < text.length := List.length_pos_iff.mpr (scanToken_ne_nil h)
  rw [List.length_append] at ha
  omega

/-! ## All tokens -/

/-- **A text that is no token sequence**: what is wrong, and where. -/
structure LexError where
  fault : LexFault
  line : Nat
  column : Nat
  deriving DecidableEq, Repr

namespace LexError

/-- What is wrong, without the place. -/
def reason (e : LexError) : String :=
  match e.fault with
  | .illegalCharacter c => s!"illegal character '{c}'"
  | .unterminatedString => "unterminated string literal"

/-- The whole message. -/
def message (e : LexError) : String :=
  s!"{e.reason} at line {e.line}, column {e.column}"

end LexError

/-- The tokens of the text `cs` that starts at the place `p`. -/
def tokensFrom (p : Position) (cs : List Char) :
    Except LexError (List Token) :=
  let leading := (spanBlank false cs).1
  let place := p.advanceAll leading
  match _h : scanToken (spanBlank false cs).2 with
  | .error fault => .error ⟨fault, place.line, place.column⟩
  | .ok none => .ok [⟨.endOfText, [], leading, place⟩]
  | .ok (some (kind, text, rest)) =>
    match tokensFrom (place.advanceAll text) rest with
    | .error e => .error e
    | .ok tokens => .ok (⟨kind, text, leading, place⟩ :: tokens)
termination_by cs.length
decreasing_by
  have h₁ := length_spanBlank_le false cs
  have h₂ := length_rest_lt_of_scanToken _h
  omega

/-- **The tokens of a schema text**, the last of them the end of it. -/
def tokenize (source : String) : Except LexError (List Token) :=
  tokensFrom .start source.toList

end Entitlement
