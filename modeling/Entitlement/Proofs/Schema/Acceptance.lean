import Entitlement.Proofs.Schema.Unambiguous
import Entitlement.Proofs.Schema.WellFormed

/-!
# What the parser accepts

The parser accepts a text that splits into tokens exactly if these, up to the
end of the text, are those of a derivation tree. There is one such tree then,
and the document is what it says.
-/

namespace Entitlement

variable {source : String} {tokens : List Token}

/-- **The parser accepts exactly its grammar.** The tokens of a text are some
and the end of it behind them; the document of the text is what the derivation
tree of those in front says, and no two derivation trees have them. -/
theorem parse_accepts_exactly_the_grammar
    (h : tokenize source = .ok tokens) :
    ∃ ts last, tokens = ts ++ [last] ∧ last.kind = .endOfText ∧
      (∀ t ∈ ts, t.kind ≠ .endOfText) ∧
      (∀ d, parse source = .ok d ↔
        ∃ tree : DocumentTree, tree.tokens = ts ∧ tree.document = d) ∧
      ∀ tree tree' : DocumentTree, tree.tokens = ts → tree'.tokens = ts →
        tree = tree' := by
  obtain ⟨ts, last, rfl, hlast, hrun⟩ := IsRun.exists_of_tokenize h
  have hlexed := hrun.isLexed
  refine ⟨ts, last, rfl, hlast, fun t ht => (hlexed t ht).spells.ne_endOfText,
    fun d => ?_, fun tree tree' htree htree' =>
      DocumentTree.tokens_injective (htree.trans htree'.symm)⟩
  have hparse : parse source = parseTokens (ts ++ [last]) := by
    rw [parse, h]
  rw [hparse, ← DocumentTree.tells hlexed]
  exact ⟨derives_of_parseTokens hlast hlexed, parseTokens_of_derives hlast⟩

/-- A text with a chain of operands. -/
def chainSource : String :=
  "entity e { action p = a or b and not c or d(x) }"

/-- Its document, the chain grouped to the left. -/
def chainDocument : Document where
  rules := []
  entities := [{
    name := "e"
    permissions := [⟨"p",
      .binary .or
        (.binary .or (.name "a") (.binary .and (.name "b") (.not (.name "c"))))
        (.call "d" ["x"])⟩] }]

theorem parse_chainSource : parse chainSource = .ok chainDocument :=
  Outcome.eq_ok_of_toOption (by decide +kernel)

/-- Its tokens have a derivation tree, and no other. -/
theorem chain_derives_to_the_left :
    ∃ ts last, tokenize chainSource = .ok (ts ++ [last]) ∧
      ∃ tree : DocumentTree, tree.tokens = ts ∧
        tree.document = chainDocument ∧
        ∀ tree' : DocumentTree, tree'.tokens = ts → tree' = tree := by
  cases h : tokenize chainSource with
  | error e =>
    have hparse := parse_chainSource
    rw [parse, h] at hparse
    cases hparse
  | ok tokens =>
    obtain ⟨ts, last, rfl, -, -, hparse, hunique⟩ :=
      parse_accepts_exactly_the_grammar h
    obtain ⟨tree, htree, hdocument⟩ := (hparse _).mp parse_chainSource
    exact ⟨ts, last, rfl, tree, htree, hdocument, fun tree' htree' =>
      hunique tree' tree htree' htree⟩

end Entitlement
