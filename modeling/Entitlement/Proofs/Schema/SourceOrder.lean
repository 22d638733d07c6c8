import Mathlib.Data.Prod.Lex
import Entitlement.Proofs.Schema.Rounds
import Entitlement.Proofs.Schema.WellFormed

/-!
# Errors in the order of the text

The parser reports every broken declaration, and it reports them in the
order in which they stand in the text. An error may be recorded late: a
passage that does not end is taken to the end of the text before its bracket
is reported. It is still no earlier than the errors before it, since the way
from error to error only goes forward (`Trail`) and the lexer puts the
tokens one behind the other.
-/

namespace Entitlement

/-! ## Places -/

/-- **Where a position is in a text**: lines come first, then columns. -/
def Position.place (p : Position) : ℕ ×ₗ ℕ := toLex (p.line, p.column)

/-- Where an error is reported. -/
def SyntaxError.place (e : SyntaxError) : ℕ ×ₗ ℕ := toLex (e.line, e.column)

theorem SyntaxError.IsAt.place_eq {e : SyntaxError} {t : Token}
    (h : e.IsAt t) : e.place = t.position.place := by
  rw [place, Position.place, h.line, h.column]

namespace Position

/-- To read a character leads further. -/
theorem place_le_advance (p : Position) (c : Char) :
    p.place ≤ (p.advance c).place := by
  rw [Prod.Lex.le_iff]
  unfold advance
  split
  next => exact .inl (Nat.lt_succ_self p.line)
  next => exact .inr ⟨rfl, Nat.le_succ p.column⟩

theorem place_le_advanceAll (p : Position) (cs : List Char) :
    p.place ≤ (p.advanceAll cs).place := by
  induction cs generalizing p with
  | nil => exact le_refl _
  | cons c cs ih => exact (p.place_le_advance c).trans (ih _)

end Position

/-- **Whether tokens stand one behind the other.** -/
def InSourceOrder (ts : List Token) : Prop :=
  ts.Pairwise fun t u => t.position.place ≤ u.position.place

/-- The tokens of a run and the end behind them stand one behind the
other, and behind the place where the run starts. -/
theorem Spot.Scans.inSourceOrder {s s' : Spot} {ts : List Token}
    {last : Token} (h : s.Scans ts s') (hlast : s'.Ends last) :
    InSourceOrder (ts ++ [last]) ∧
      ∀ t ∈ ts ++ [last], s.place.place ≤ t.position.place := by
  induction h with
  | nil s =>
    refine ⟨List.pairwise_singleton _ _, fun t ht => ?_⟩
    rw [List.mem_singleton.mp ht, congrArg Token.position hlast.token]
    exact s.place.place_le_advanceAll _
  | @cons s s₁ _ t ts htake _ ih =>
    obtain ⟨horder, hbehind⟩ := ih hlast
    have hfirst : s.place.place ≤ t.position.place := by
      rw [htake.position]
      exact s.place.place_le_advanceAll _
    have hnext : t.position.place ≤ s₁.place.place := by
      rw [htake.place]
      exact t.position.place_le_advanceAll _
    refine ⟨?_, fun u hu => ?_⟩
    · exact List.pairwise_cons.mpr
        ⟨fun u hu => hnext.trans (hbehind u hu), horder⟩
    · rcases List.mem_cons.mp hu with rfl | hu
      · exact hfirst
      · exact (hfirst.trans hnext).trans (hbehind u hu)

/-! ## Errors on a way -/

/-- All the tokens that a cursor is in front of. -/
def Cursor.tokens (c : Cursor) : List Token := c.ahead ++ [c.stop]

theorem Cursor.tokens_before (c : Cursor) (ts : List Token) :
    (c.before ts).tokens = ts ++ c.tokens :=
  List.append_assoc ts c.ahead [c.stop]

theorem Cursor.tokens_eq_cons (c : Cursor) :
    ∃ ts, c.tokens = c.current :: ts := by
  obtain ⟨ahead, stop⟩ := c
  cases ahead with
  | nil => exact ⟨[], rfl⟩
  | cons t ahead => exact ⟨ahead ++ [stop], rfl⟩

namespace Trail

variable {c c' : Cursor} {errors : List SyntaxError}

/-- Every error is at a token. -/
theorem exists_isAt (h : Trail c errors c') :
    ∀ e ∈ errors, ∃ t ∈ c.tokens, e.IsAt t := by
  induction h with
  | clear => exact fun e he => absurd he List.not_mem_nil
  | @error c c₁ _ ts t e errors hc ht hat _ ih =>
    rw [hc, Cursor.tokens_before]
    intro f hf
    rcases List.mem_cons.mp hf with rfl | hf
    · obtain ⟨us, hus⟩ := c₁.tokens_eq_cons
      refine ⟨t, ?_, hat⟩
      rw [hus, List.append_cons]
      exact List.mem_append_left us ht
    · obtain ⟨u, hu, hfu⟩ := ih f hf
      exact ⟨u, List.mem_append_right ts hu, hfu⟩

/-- **The errors on a way are in the order of the tokens.** -/
theorem pairwise_place (h : Trail c errors c')
    (horder : InSourceOrder c.tokens) :
    errors.Pairwise fun e f => e.place ≤ f.place := by
  induction h with
  | clear => exact .nil
  | @error c c₁ _ ts t e errors hc ht hat htrail ih =>
    rw [hc, Cursor.tokens_before] at horder
    obtain ⟨-, hrest, hbefore⟩ := List.pairwise_append.mp horder
    refine List.pairwise_cons.mpr ⟨fun f hf => ?_, ih hrest⟩
    -- the error is at a token that was taken or at the first one ahead
    obtain ⟨u, hu, hfu⟩ := htrail.exists_isAt f hf
    rw [hat.place_eq, hfu.place_eq]
    rcases List.mem_append.mp ht with ht | ht
    · exact hbefore t ht u hu
    · obtain ⟨us, hus⟩ := c₁.tokens_eq_cons
      rw [List.mem_singleton.mp ht]
      rw [hus] at hrest hu
      rcases List.mem_cons.mp hu with rfl | hu
      · exact le_refl _
      · exact (List.pairwise_cons.mp hrest).1 u hu

end Trail

/-! ## Texts -/

/-- The tokens of a text are lexed, they stand one behind the other, and all
of them are in front of the parser when it starts. -/
theorem Cursor.ofTokens_of_tokenize {source : String} {tokens : List Token}
    (h : tokenize source = .ok tokens) :
    (ofTokens tokens).IsLexed ∧ (ofTokens tokens).tokens = tokens ∧
      InSourceOrder tokens := by
  obtain ⟨ts, s, last, hscans, hends, rfl⟩ :=
    (Spot.tokensFrom_eq_ok_iff (s := ⟨.start, source.toList⟩)).mp h
  refine ⟨?_, ?_, (hscans.inSourceOrder hends).1⟩
  · rw [ofTokens_concat]
    exact ⟨congrArg Token.kind hends.token,
      by simpa [before] using hscans.isLexed⟩
  · rw [ofTokens_concat, tokens_before]
    rfl

/-- The parser returns the errors that it found if there is one, and the
document if there is none. -/
theorem parse_of_tokenize {source : String} {tokens : List Token}
    (h : tokenize source = .ok tokens) :
    let found := readDeclarations (tokens.length + 1) (.ofTokens tokens)
    parse source = if found.errors = [] then
      .ok (.ofDeclarations found.items) else .error found.errors := by
  unfold parse
  rw [h]
  show parseTokens tokens = _
  unfold parseTokens
  dsimp only
  split
  next he => rw [if_pos he]
  next hne => rw [if_neg hne]

/-- **Reading always ends, and its errors are in the order of the text.**
A text that splits into tokens is read to its end: no loop is ended by its
count, and nothing changes with a larger one. What the parser returns is
what it found there. If that is errors, then there is one, each is reported
at a token, which may be the end of the text, and none is reported at an
earlier place than the one before it. -/
theorem syntax_errors_in_source_order (source : String) :
    match tokenize source with
    | .error e => parse source = .error [.ofLexError e]
    | .ok tokens =>
      let found := readDeclarations (tokens.length + 1) (.ofTokens tokens)
      (∀ more, readDeclarations (tokens.length + 1 + more) (.ofTokens tokens)
        = found) ∧
      found.rest.ahead = [] ∧
      match parse source with
      | .ok d => found.errors = [] ∧ d = .ofDeclarations found.items
      | .error errors => errors = found.errors ∧ errors ≠ [] ∧
        (∀ e ∈ errors, ∃ t ∈ tokens, e.IsAt t) ∧
        errors.Pairwise fun e f => e.place ≤ f.place := by
  match htokens : tokenize source with
  | .error e =>
    show parse source = _
    unfold parse
    rw [htokens]
  | .ok tokens =>
    obtain ⟨hlexed, hall, horder⟩ := Cursor.ofTokens_of_tokenize htokens
    have hlength : (Cursor.ofTokens tokens).ahead.length + 1
        < tokens.length + 1 := by
      have hlength := congrArg List.length hall
      rw [Cursor.tokens, List.length_append] at hlength
      exact Nat.lt_succ_of_le (Nat.le_of_eq hlength)
    have hread (more : ℕ) := readDeclarations_eq_and_ends hlexed.stop hlength
      (Nat.lt_add_right more hlength)
    have htrail := trail_readDeclarations (tokens.length + 1) (.ofTokens tokens)
    obtain ⟨ts, hts⟩ := htrail.exists_before
    refine ⟨fun more => (hread more).1.symm,
      (hlexed.behind hts).kind_eq_iff.mp (hread 0).2, ?_⟩
    rw [parse_of_tokenize htokens]
    by_cases he :
        (readDeclarations (tokens.length + 1) (.ofTokens tokens)).errors = []
    · rw [if_pos he]
      exact ⟨he, rfl⟩
    · rw [if_neg he]
      have hat := htrail.exists_isAt
      rw [hall] at hat
      exact ⟨rfl, he, hat, htrail.pairwise_place (hall.symm ▸ horder)⟩

-- all three declarations are broken, the last by a body that does not end
example : (parse "rule entity a rule b(x) \x7b y").mapError
    (·.map fun e => (e.line, e.column))
      = .error [(1, 6), (1, 15), (1, 25)] := by decide +kernel

end Entitlement
