import Entitlement.Proofs.Schema.Lexing

/-!
# How far the lexer looks ahead

Where a token ends depends on what follows it, but only on its first two
characters: a number looks behind a point for another digit, and everything
else looks at one character. `EndsAlike` says that two texts agree as far
as that, or that the second one begins with a character that joins with
nothing (`Breaks`). A token in front of the one is a token in front of the
other then (`TokenKind.EndsBefore.replace`). In particular it is one in a
longer text that goes on with such a character (`scanToken_extend`), so a
token can be read from its own text and then be put into a longer one.
-/

namespace Entitlement

/-! ## Texts that end a token -/

/-- **Whether a character joins with nothing in front of it**, so that a
token that could go on ends there. -/
def isBreak (c : Char) : Bool :=
  !(isWordPart c || ['.', '/', '=', '&', '|'].contains c)

/-- Whether a text ends a token in front of it, because it is empty or
goes on with a character that joins with nothing. -/
def Breaks (after : List Char) : Prop :=
  ∀ c ∈ after.head?, isBreak c = true

/-- What no word goes on with is no digit. -/
theorem isDigit_of_isWordPart {c : Char} (h : isWordPart c = false) :
    isDigit c = false := by
  rw [isWordPart, Bool.or_eq_false_iff] at h
  exact h.2

namespace Breaks

variable {after : List Char}

theorem ne (h : Breaks after) {d : Char} (hd : isBreak d = false) :
    ∀ c ∈ after.head?, c ≠ d := by
  rintro c hc rfl
  rw [h c hc] at hd
  cases hd

theorem isWordPart (h : Breaks after) :
    ∀ c ∈ after.head?, isWordPart c = false := by
  intro c hc
  have hbreak := h c hc
  rw [isBreak, Bool.not_eq_true', Bool.or_eq_false_iff] at hbreak
  exact hbreak.1

theorem isDigit (h : Breaks after) :
    ∀ c ∈ after.head?, isDigit c = false :=
  fun c hc => isDigit_of_isWordPart (h.isWordPart c hc)

/-- No mark of two characters goes on with the text. -/
theorem ofPair? (h : Breaks after) (c : Char) :
    ∀ d ∈ after.head?, Mark.ofPair? c d = none := by
  intro d hd
  have heq := h.ne (d := '=') rfl d hd
  have hamp := h.ne (d := '&') rfl d hd
  have hpipe := h.ne (d := '|') rfl d hd
  unfold Mark.ofPair?
  split <;> simp_all

end Breaks

/-- **Whether a token ends in front of the text `y` as it does in front of
`x`**: `y` joins with nothing, or both go on with the same character, and
behind it again `y` joins with nothing or both go on alike. -/
def EndsAlike (x y : List Char) : Prop :=
  Breaks y ∨ ∃ c x' y', x = c :: x' ∧ y = c :: y' ∧
    (Breaks y' ∨ x'.head? = y'.head?)

theorem breaks_singleton {c : Char} (h : isBreak c = true) : Breaks [c] := by
  intro d hd
  cases hd
  exact h

namespace EndsAlike

variable {x y : List Char}

/-- What the next character is not in the one text, it is not in the
other. -/
theorem head (h : EndsAlike x y) {p : Char → Bool}
    (hp : ∀ c, isBreak c = true → p c = false)
    (hx : ∀ c ∈ x.head?, p c = false) : ∀ c ∈ y.head?, p c = false := by
  rcases h with hy | ⟨c, x', y', rfl, rfl, -⟩
  · exact fun c hc => hp c (hy c hc)
  · exact hx

theorem isWordPart (h : EndsAlike x y)
    (hx : ∀ c ∈ x.head?, isWordPart c = false) :
    ∀ c ∈ y.head?, isWordPart c = false :=
  h.head (fun _ hc => (breaks_singleton hc).isWordPart _ rfl) hx

theorem isDigit (h : EndsAlike x y) (hx : ∀ c ∈ x.head?, isDigit c = false) :
    ∀ c ∈ y.head?, isDigit c = false :=
  h.head (fun _ hc => (breaks_singleton hc).isDigit _ rfl) hx

/-- So a mark of one character stays one. -/
theorem ofPair? (h : EndsAlike x y) {c : Char}
    (hx : ∀ d ∈ x.head?, Mark.ofPair? c d = none) :
    ∀ d ∈ y.head?, Mark.ofPair? c d = none := by
  rcases h with hy | ⟨d, x', y', rfl, rfl, -⟩
  · exact hy.ofPair? c
  · exact hx

/-- And a slash does not become the start of a comment. -/
theorem ne_slash (h : EndsAlike x y) (hx : ∀ cs, x ≠ '/' :: cs) :
    ∀ cs, y ≠ '/' :: cs := by
  rintro cs rfl
  rcases h with hy | ⟨c, x', y', rfl, heq, -⟩
  · exact hy.ne rfl '/' rfl rfl
  · cases heq
    exact hx x' rfl

end EndsAlike

variable {x y : List Char}

/-- A text that goes on with a character that joins with nothing ends a token
as it did. -/
theorem EndsAlike.append (hy : Breaks y) (x : List Char) :
    EndsAlike x (x ++ y) := by
  cases x with
  | nil => exact .inl hy
  | cons c x =>
    refine .inr ⟨c, x, x ++ y, rfl, rfl, ?_⟩
    cases x with
    | nil => exact .inl hy
    | cons d x => exact .inr rfl

/-! ## Numbers -/

/-- Digits are a number, unless a point and a digit follow. -/
theorem scanNumber_whole {whole : List Char}
    (hwhole : ∀ c ∈ whole, isDigit c = true)
    (hy : ∀ c ∈ y.head?, isDigit c = false)
    (hpoint : ∀ d ds, y = '.' :: d :: ds → isDigit d = false) :
    scanNumber (whole ++ y) = (whole, y) := by
  obtain ⟨htake, hdrop⟩ := takeWhile_append_of_head hwhole hy
  unfold scanNumber
  rw [htake, hdrop]
  split
  next d rest =>
    rw [hpoint d rest rfl]
    rfl
  next => rfl

/-- So are digits with a fraction. -/
theorem scanNumber_fraction {whole fraction : List Char}
    (hwhole : ∀ c ∈ whole, isDigit c = true)
    (hfraction : ∀ c ∈ fraction, isDigit c = true) (hne : fraction ≠ [])
    (hy : ∀ c ∈ y.head?, isDigit c = false) :
    scanNumber (whole ++ '.' :: (fraction ++ y))
      = (whole ++ '.' :: fraction, y) := by
  have hpoint : ∀ c ∈ ('.' :: (fraction ++ y)).head?, isDigit c = false := by
    intro c hc
    cases hc
    decide
  obtain ⟨htake, hdrop⟩ := takeWhile_append_of_head hwhole hpoint
  obtain ⟨htake', hdrop'⟩ := takeWhile_append_of_head hfraction hy
  obtain ⟨d, ds, rfl⟩ := List.exists_cons_of_ne_nil hne
  rw [List.cons_append] at *
  unfold scanNumber
  rw [htake, hdrop]
  simp only [hfraction d List.mem_cons_self, if_true, htake', hdrop']

/-- A number ends where it ended. -/
theorem scanNumber_of_endsAlike {text : List Char}
    (h : scanNumber (text ++ x) = (text, x)) (hxy : EndsAlike x y) :
    scanNumber (text ++ y) = (text, y) := by
  have hspec := scanNumber_spec (text ++ x)
  rw [h] at hspec
  obtain ⟨hx, ⟨hwhole, hpoint⟩ | ⟨whole, fraction, rfl, hwhole, hfraction,
    hne⟩⟩ := hspec
  · refine scanNumber_whole hwhole (hxy.isDigit hx) ?_
    rintro d ds rfl
    rcases hxy with hy | ⟨c, x', y', rfl, heq, hy⟩
    · exact absurd rfl (hy.ne rfl '.' rfl)
    · cases heq
      rcases hy with hy | hhead
      · exact hy.isDigit d rfl
      · obtain ⟨ds', rfl⟩ := List.head?_eq_some_iff.mp hhead
        exact hpoint d ds' rfl
  · rw [List.append_assoc, List.cons_append]
    exact scanNumber_fraction hwhole hfraction hne (hxy.isDigit hx)

/-! ## Tokens -/

/-- **A token ends where it ended**, if what follows is replaced by what ends
it alike. -/
theorem TokenKind.EndsBefore.replace {kind : TokenKind} {text : List Char}
    (h : kind.EndsBefore text x) (hxy : EndsAlike x y) :
    kind.EndsBefore text y := by
  cases h with
  | string hquote hs => exact .string hquote hs
  | number hdigit hn => exact .number hdigit (scanNumber_of_endsAlike hn hxy)
  | word hword hcs hx => exact .word hword hcs (hxy.isWordPart hx)
  | pair hm => exact .pair hm
  | char hm hx => exact .char hm (hxy.ofPair? hx)

/-- **A token is taken from a longer text too**, if the text goes on with a
character that joins with nothing. -/
theorem scanToken_extend {after : List Char} (ha : Breaks after)
    {text rest : List Char} {kind : TokenKind}
    (h : scanToken (text ++ rest) = .ok (some (kind, text, rest))) :
    scanToken (text ++ (rest ++ after))
      = .ok (some (kind, text, rest ++ after)) :=
  ((endsBefore_of_scanToken h).replace (.append ha rest)).scanToken_eq

end Entitlement
