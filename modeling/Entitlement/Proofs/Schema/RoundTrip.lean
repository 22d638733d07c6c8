import Entitlement.Proofs.Schema.ParserComplete
import Entitlement.Proofs.Schema.Written

/-!
# Reading and writing are inverse

A text has a document exactly if its tokens derive the document
(`parse_eq_ok_iff`). So what can be read is well-formed, what is well-formed
is read back from its canonical text, and a document is well-formed exactly
if reading its canonical text, or any text, yields it.
-/

namespace Entitlement

variable {source : String} {d : Document}

/-- **The document of a text is what its tokens derive.** -/
theorem parse_eq_ok_iff : parse source = .ok d ↔
    ∃ ts last, tokenize source = .ok (ts ++ [last]) ∧
      last.kind = .endOfText ∧ IsRun ts ∧ d.Derives ts := by
  constructor
  · intro h
    unfold parse at h
    split at h
    next => cases h
    next tokens htokens =>
      obtain ⟨ts, last, rfl, hlast, hrun⟩ := IsRun.exists_of_tokenize htokens
      exact ⟨ts, last, htokens, hlast, hrun,
        derives_of_parseTokens hlast hrun.isLexed h⟩
  · rintro ⟨ts, last, htokens, hlast, -, hderives⟩
    unfold parse
    rw [htokens]
    exact parseTokens_of_derives hlast hderives

namespace Document

/-- **What is read is well-formed.** -/
theorem wellFormed_of_parse (h : parse source = .ok d) : d.WellFormed := by
  obtain ⟨ts, last, -, -, hrun, hderives⟩ := parse_eq_ok_iff.mp h
  exact hderives.wellFormed hrun

/-- **A well-formed document is read back from its canonical text.** -/
theorem WellFormed.parse_render (h : d.WellFormed) :
    parse d.render = .ok d := by
  obtain ⟨ts, last, htokens, hlast, hderives⟩ := h.tokenize_render
  unfold parse
  rw [htokens]
  exact parseTokens_of_derives hlast hderives

/-- **A document is well-formed exactly if it is read back from what it is
written as, and exactly if it is read from any text.** -/
theorem wellFormed_iff_read (d : Document) :
    (d.WellFormed ↔ parse d.render = .ok d) ∧
      (d.WellFormed ↔ ∃ source, parse source = .ok d) := by
  refine ⟨⟨WellFormed.parse_render, wellFormed_of_parse⟩, ?_, ?_⟩
  · intro h
    exact ⟨d.render, h.parse_render⟩
  · rintro ⟨source, h⟩
    exact wellFormed_of_parse h

end Document

end Entitlement
