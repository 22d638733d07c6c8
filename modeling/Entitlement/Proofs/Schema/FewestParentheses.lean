import Entitlement.Proofs.Schema.ParserComplete
import Entitlement.Proofs.Schema.Written

/-!
# The canonical text has the fewest parentheses

An expression is written with a pair of parentheses around each part that
binds less tightly than its place demands, and each of these is forced: only
a group leads from a loose level of the grammar to a tighter one. So the
tokens of the canonical text open exactly as many as the expression needs
(`PermissionExpr.DerivesSparingly`), and the tokens of any text that has the
expression open at least as many (`PermissionExpr.Derives.openingsAt_le`).
-/

namespace Entitlement

namespace PermissionExpr

variable {ts : List Token} {e : PermissionExpr}

/-- **The canonical text of a well-formed expression splits into tokens that
derive it** and open no more parentheses than it needs. -/
theorem WellFormed.tokenize_render (h : e.WellFormed) :
    ∃ ts last, tokenize e.render = .ok (ts ++ [last]) ∧
      last.kind = .endOfText ∧ (∀ t ∈ ts, t.IsLexed) ∧
      DerivesSparingly 1 ts e := by
  have hread : e.IsReadAt 1 := h.isReadAt (by decide)
  obtain ⟨ts, p, hscans, hderives⟩ :=
    hread [] [] .start .nil fun c hc => by cases hc
  rw [List.nil_append, List.append_nil, ← renderAt_zero] at hscans
  have hends := Spot.ends_of_spanBlank (s := ⟨p, []⟩)
    (show spanBlank false [] = ([], []) from rfl)
  refine ⟨ts, _, ?_, congrArg Token.kind hends.token, hscans.isLexed, hderives⟩
  exact Spot.tokensFrom_eq_ok_iff.mpr ⟨ts, _, _, hscans, hends, rfl⟩

/-- A whole expression is read up to the end of the text. -/
theorem Derives.read_eq_ok (h : Derives 1 ts e) {last : Token}
    (hlast : last.kind = .endOfText) {count : ℕ} (hcount : ts.length < count) :
    read count ⟨ts, last⟩ = .ok (e, ⟨[], last⟩) := by
  obtain ⟨count, rfl⟩ := Nat.exists_eq_succ_of_ne_zero
    (Nat.ne_zero_of_lt hcount)
  have hends : TokenKind.Ends 1 (Cursor.mk [] last).kind := by
    rw [show (Cursor.mk [] last).kind = .endOfText from hlast]
    exact ⟨TokenKind.noConfusion, TokenKind.noConfusion,
      fun _ _ => TokenKind.noConfusion⟩
  have hread := h.parses_and_chains.1 count ⟨[], last⟩
    (Nat.le_of_lt_succ hcount) hends
  rwa [Cursor.before, List.append_nil] at hread

end PermissionExpr

/-- **No text of an expression has fewer parentheses than its canonical
text.** Wherever a text is read as an expression, the canonical text of the
expression is read as the same expression again, to its end, and opens at
most as many parentheses as the part of the text that was read. -/
theorem canonical_expression_opens_fewest {source : String}
    {front ts behind : List Token} {last : Token} {count : ℕ}
    {e : PermissionExpr}
    (hsource : tokenize source = .ok (front ++ (ts ++ behind) ++ [last]))
    (hread : PermissionExpr.read count ⟨ts ++ behind, last⟩
      = .ok (e, ⟨behind, last⟩)) :
    ∃ us stop, tokenize e.render = .ok (us ++ [stop]) ∧
      (∀ more, us.length < more →
        PermissionExpr.read more ⟨us, stop⟩ = .ok (e, ⟨[], stop⟩)) ∧
      openings us ≤ openings ts := by
  obtain ⟨all, last', heq, hlast, hrun⟩ := IsRun.exists_of_tokenize hsource
  obtain ⟨rfl, rfl⟩ : all = front ++ (ts ++ behind) ∧ last' = last := by
    obtain ⟨hall, hlast⟩ := List.append_inj' heq rfl
    exact ⟨hall.symm, (List.cons.inj hlast).1.symm⟩
  have hlexed : Cursor.IsLexed ⟨ts ++ behind, last'⟩ :=
    ⟨hlast, hrun.right.isLexed⟩
  obtain ⟨taken, hbefore, hderives⟩ :=
    PermissionExpr.isSound_read count hlexed hread
  obtain rfl : ts = taken :=
    List.append_cancel_right (congrArg Cursor.ahead hbefore)
  obtain ⟨us, stop, htokens, hstop, hus, hsparing⟩ :=
    (hderives.wellFormed hrun.right.left).tokenize_render
  refine ⟨us, stop, htokens,
    fun more hmore => hsparing.derives.read_eq_ok hstop hmore, ?_⟩
  exact Nat.le_trans (hsparing.openings_le hus)
    (hderives.openingsAt_le hrun.right.left.isLexed)

/-- An expression in more parentheses than it needs. -/
theorem canonical_expression_opens_fewest_of_grouped :
    ∃ us stop,
      tokenize "not owner or rule(1) and open(request)" = .ok (us ++ [stop]) ∧
      (∀ more, us.length < more →
        PermissionExpr.read more ⟨us, stop⟩
          = .ok (.binary .or (.not (.name "owner"))
              (.binary .and (.inline "1") (.call "open" ["request"])),
            ⟨[], stop⟩)) ∧
      openings us ≤ 5 := by
  let source := "((not owner)) or (rule( 1 ) and open(request))"
  let c := Cursor.ofTokens ((tokenize source).toOption.getD [])
  have hsource : tokenize source = .ok ([] ++ (c.ahead ++ []) ++ [c.stop]) := by
    decide +kernel
  have hread : PermissionExpr.read 20 ⟨c.ahead ++ [], c.stop⟩
      = .ok (.binary .or (.not (.name "owner"))
        (.binary .and (.inline "1") (.call "open" ["request"])),
          ⟨[], c.stop⟩) := by decide +kernel
  have hfewest := canonical_expression_opens_fewest hsource hread
  have hrender : PermissionExpr.render (.binary .or (.not (.name "owner"))
      (.binary .and (.inline "1") (.call "open" ["request"])))
        = "not owner or rule(1) and open(request)" := by decide
  have hopenings : openings c.ahead = 5 := by decide +kernel
  rwa [hrender, hopenings] at hfewest

end Entitlement
