import Entitlement.Proofs.Outcome
import Entitlement.Schema.Parser

/-!
# Passages kept as written

The body of a rule and an expression on the spot are passages: the tokens
between a bracket and the one that closes it. The parser keeps their text,
without the comments. `passage_eq_some_iff` says which tokens belong to a
passage, by the depth that the brackets among them lead to.
-/

namespace Entitlement

/-! ## Brackets -/

/-- **The brackets of a passage.** -/
inductive Bracket
  | braces | parens
  deriving DecidableEq, Repr

namespace Bracket

/-- The mark that opens. -/
def opening : Bracket → Mark
  | braces => .lBrace
  | parens => .lParen

/-- The mark that closes. -/
def closing : Bracket → Mark
  | braces => .rBrace
  | parens => .rParen

/-- **The depth behind some tokens**, from a depth in front of them;
nothing if one closes more than was opened. -/
def depthAfter (b : Bracket) : Nat → List TokenKind → Option Nat
  | depth, [] => some depth
  | depth, kind :: kinds =>
    if kind = .mark b.opening then b.depthAfter (depth + 1) kinds
    else if kind = .mark b.closing then
      match depth with
      | 0 => none
      | depth + 1 => b.depthAfter depth kinds
    else b.depthAfter depth kinds

variable {b : Bracket}

theorem opening_ne_closing :
    TokenKind.mark b.opening ≠ TokenKind.mark b.closing := by
  cases b <;> decide

/-- Token by token, the depth behind some is the depth in front of the
others. -/
theorem depthAfter_cons (depth : Nat) (kind : TokenKind)
    (kinds : List TokenKind) :
    b.depthAfter depth (kind :: kinds)
      = (b.depthAfter depth [kind]).bind fun d => b.depthAfter d kinds := by
  simp only [depthAfter]
  split
  · rfl
  · split
    · cases depth <;> rfl
    · rfl

theorem depthAfter_append (depth : Nat) (kinds others : List TokenKind) :
    b.depthAfter depth (kinds ++ others)
      = (b.depthAfter depth kinds).bind fun d => b.depthAfter d others := by
  induction kinds generalizing depth with
  | nil => rfl
  | cons kind kinds ih =>
    rw [List.cons_append, depthAfter_cons, depthAfter_cons depth kind kinds]
    cases b.depthAfter depth [kind] with
    | none => rfl
    | some d => exact ih d

end Bracket

/-! ## Tokens of a passage -/

/-- The characters of some tokens, without comments. -/
def passageText (tokens : List Token) : List Char :=
  tokens.flatMap fun t => dropComments false t.leading ++ t.text

theorem passageText_cons (t : Token) (ts : List Token) :
    passageText (t :: ts)
      = dropComments false t.leading ++ t.text ++ passageText ts :=
  List.flatMap_cons

variable {b : Bracket}

/-- A passage that goes on with a token goes on behind it, at the depth
that the token leads to. -/
theorem passage_cons {depth depth' : Nat} {t : Token} {tokens : List Token}
    (h : b.depthAfter depth [t.kind] = some depth') :
    passage (.mark b.opening) (.mark b.closing) depth (t :: tokens)
      = (passage (.mark b.opening) (.mark b.closing) depth' tokens).map
          fun (text, rest) =>
            (dropComments false t.leading ++ t.text ++ text, rest) := by
  unfold Bracket.depthAfter at h
  rw [passage.eq_def]
  simp only
  by_cases hopen : t.kind = .mark b.opening
  · rw [if_pos hopen] at h
    cases h
    rw [if_pos hopen]
  · rw [if_neg hopen] at h
    rw [if_neg hopen]
    by_cases hclose : t.kind = .mark b.closing
    · rw [if_pos hclose] at h
      rw [if_pos hclose]
      cases depth with
      | zero => cases h
      | succ depth =>
        cases h
        rfl
    · rw [if_neg hclose] at h
      cases h
      rw [if_neg hclose]

/-- A token leads to no depth only if it closes the passage. -/
theorem depthAfter_eq_none_iff {depth : Nat} {kind : TokenKind} :
    b.depthAfter depth [kind] = none ↔
      depth = 0 ∧ kind = .mark b.closing := by
  unfold Bracket.depthAfter
  by_cases hopen : kind = .mark b.opening
  · rw [if_pos hopen, hopen]
    simp [Bracket.depthAfter, b.opening_ne_closing]
  · rw [if_neg hopen]
    by_cases hclose : kind = .mark b.closing
    · rw [if_pos hclose]
      cases depth with
      | zero => simp [hclose]
      | succ depth => simp [Bracket.depthAfter]
    · rw [if_neg hclose]
      simp [Bracket.depthAfter, hclose]

/-- **A passage goes up to the token that closes it**: the brackets in
between lead back to where they began. -/
theorem passage_eq_some_iff {depth : Nat} {tokens rest : List Token}
    {text : List Char} :
    passage (.mark b.opening) (.mark b.closing) depth tokens
        = some (text, rest) ↔
      ∃ ts close, tokens = ts ++ close :: rest ∧
        close.kind = .mark b.closing ∧
        b.depthAfter depth (ts.map Token.kind) = some 0 ∧
        text = passageText ts ++ dropComments false close.leading := by
  induction tokens generalizing depth text with
  | nil => simp [passage]
  | cons t tokens ih =>
    cases hdepth : b.depthAfter depth [t.kind] with
    | none =>
      -- the token closes the passage, so nothing stands in between
      obtain ⟨rfl, hclose⟩ := depthAfter_eq_none_iff.mp hdepth
      have hopen : t.kind ≠ .mark b.opening := by
        rw [hclose]
        exact b.opening_ne_closing.symm
      rw [passage, if_neg hopen, if_pos hclose]
      constructor
      · intro h
        cases h
        exact ⟨[], t, rfl, hclose, rfl, rfl⟩
      · rintro ⟨ts, close, heq, -, hd, rfl⟩
        cases ts with
        | nil =>
          cases heq
          rfl
        | cons u ts =>
          cases heq
          rw [List.map_cons, Bracket.depthAfter_cons, hdepth] at hd
          cases hd
    | some depth' =>
      rw [passage_cons hdepth, Option.map_eq_some_iff]
      constructor
      · rintro ⟨⟨text', rest'⟩, hp, heq⟩
        cases heq
        obtain ⟨ts, close, rfl, hclose, hd, rfl⟩ := ih.mp hp
        refine ⟨t :: ts, close, rfl, hclose, ?_, ?_⟩
        · rw [List.map_cons, Bracket.depthAfter_cons, hdepth]
          exact hd
        · simp only [passageText_cons, List.append_assoc]
      · rintro ⟨ts, close, heq, hclose, hd, rfl⟩
        cases ts with
        | nil =>
          -- at depth zero the token would have closed the passage
          cases heq
          cases hd
          rw [depthAfter_eq_none_iff.mpr ⟨rfl, hclose⟩] at hdepth
          cases hdepth
        | cons u ts =>
          cases heq
          rw [List.map_cons, Bracket.depthAfter_cons, hdepth] at hd
          refine ⟨_, ih.mpr ⟨ts, close, rfl, hclose, hd, rfl⟩, ?_⟩
          rw [passageText_cons, List.append_assoc]

end Entitlement
