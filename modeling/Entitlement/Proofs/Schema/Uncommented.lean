import Entitlement.Proofs.Schema.Enclosed

/-!
# Tokens without their comments

What stands behind a token may be replaced by what ends it alike
(`Spot.Takes.replace`). In particular the comments between some tokens may be
dropped, as long as something is left between two tokens where something was
(`Token.StaysApart`): the lexer reads the same tokens again
(`Spot.Scans.withoutComments`).
-/

namespace Entitlement

variable {y : List Char}

/-! ## Another text behind a token -/

/-- At a text that is neither blank nor a comment nothing is skipped. -/
theorem spanBlank_eq_self {cs : List Char}
    (hblank : ∀ c ∈ cs.head?, isSeparator c = false)
    (hcomment : ∀ ds, cs ≠ '/' :: '/' :: ds) :
    spanBlank false cs = ([], cs) := by
  cases cs with
  | nil => rfl
  | cons c cs =>
    rw [spanBlank.eq_3 _ _ _ (by
      rintro ds rfl rfl
      exact hcomment ds rfl), hblank c rfl]
    rfl

namespace Spot

variable {s s' : Spot} {t : Token} {ts : List Token}

/-- **A step over a token goes over it elsewhere**, behind separators and in
front of what ends it alike. -/
theorem Takes.replace (h : s.Takes t s') {seps : List Char}
    (hs : AreSeparators seps) (hxy : EndsAlike s'.text y) (p : Position) :
    ∃ t' p', Takes ⟨p, seps ++ (t.text ++ y)⟩ t' ⟨p', y⟩ ∧
      t'.kind = t.kind ∧ t'.text = t.text := by
  obtain ⟨hblank, hcomment⟩ := rest_of_spanBlank h.blank
  have hself : spanBlank false (t.text ++ y) = ([], t.text ++ y) := by
    obtain ⟨c, cs, htext, -⟩ := h.isLexed.spells.head
    rw [htext] at hblank hcomment ⊢
    refine spanBlank_eq_self hblank ?_
    intro ds heq
    cases cs with
    | nil =>
      -- a slash alone, which stays alone
      have hslash : ∀ ds, s'.text ≠ '/' :: ds := by
        intro ds heq'
        refine hcomment ds ?_
        rw [heq', (List.cons.inj heq).1]
        rfl
      exact hxy.ne_slash hslash ds (List.cons.inj heq).2
    | cons d cs =>
      obtain ⟨hc, hrest⟩ := List.cons.inj heq
      refine hcomment (cs ++ s'.text) ?_
      rw [hc, (List.cons.inj hrest).1]
      rfl
  have htoken := (endsBefore_of_scanToken h.token).replace hxy
  have hskip := spanBlank_separators hs hself
  rw [List.append_nil] at hskip
  exact ⟨⟨t.kind, t.text, seps, p.advanceAll seps⟩, _,
    ⟨hskip, htoken.scanToken_eq, rfl, rfl⟩, rfl, rfl⟩

end Spot

/-! ## Comments dropped -/

/-- What a token says: its kind and its content. -/
def Token.content (t : Token) : TokenKind × String :=
  (t.kind, t.value)

theorem Token.content_eq {t u : Token} (hkind : t.kind = u.kind)
    (htext : t.text = u.text) : t.content = u.content := by
  unfold content value
  rw [hkind, htext]

/-- **Whether a token stays apart** from the one in front of it when comments
are dropped: if a comment begins right behind that one, a line feed comes
before the token. A comment is dropped up to a line feed, although the lexer
ends it at a carriage return too. -/
def Token.StaysApart (t : Token) : Prop :=
  ['/', '/'] <+: t.leading → '\n' ∈ t.leading

instance (t : Token) : Decidable t.StaysApart :=
  inferInstanceAs (Decidable (_ → _))

/-- Line feeds are not dropped. -/
theorem mem_dropComments_line {cs : List Char} (h : '\n' ∈ cs)
    (dropping : Bool) : '\n' ∈ dropComments dropping cs := by
  fun_induction dropComments dropping cs with
  | case1 => cases h
  | case2 => exact List.mem_cons_self
  | case3 dropping cs ih => exact ih (by simpa using h)
  | case4 c cs hline hstart ih =>
    exact ih ((List.mem_cons.mp h).resolve_left fun heq => hline heq.symm)
  | case5 dropping c cs hline hstart hdropping ih =>
    exact List.mem_cons_of_mem c
      (ih ((List.mem_cons.mp h).resolve_left fun heq => hline heq.symm))

/-- Between tokens that stay apart something is left if there was
something. -/
theorem Token.StaysApart.dropComments_ne_nil {t : Token} (h : t.StaysApart)
    (hne : t.leading ≠ []) : dropComments false t.leading ≠ [] := by
  intro hdrop
  by_cases hcomment : ['/', '/'] <+: t.leading
  · have hmem := mem_dropComments_line (h hcomment) false
    rw [hdrop] at hmem
    cases hmem
  · rcases hcs : t.leading with _ | ⟨c, cs⟩
    · exact hne hcs
    rw [hcs] at hdrop hcomment
    by_cases hline : c = '\n'
    · subst hline
      cases hdrop
    · rw [dropComments_cons false hline (by
        rintro ds rfl rfl
        exact hcomment ⟨ds, rfl⟩)] at hdrop
      cases hdrop

/-- What separators begin joins with nothing. -/
theorem breaks_of_separators {seps : List Char} (hs : AreSeparators seps)
    (hne : seps ≠ []) (cs : List Char) : Breaks (seps ++ cs) := by
  obtain ⟨c, seps, rfl⟩ := List.exists_cons_of_ne_nil hne
  intro d hd
  cases hd
  have hc := hs c List.mem_cons_self
  simp only [isSeparator, Bool.or_eq_true, beq_iff_eq] at hc
  rcases hc with ((rfl | rfl) | rfl) | rfl <;> decide

namespace Spot

variable {s s' : Spot} {ts : List Token}

/-- Without their comments, tokens that stay apart begin with a separator, or
with the first of them as they did before. -/
theorem Scans.breaks_or_begins (h : s.Scans ts s')
    (hapart : ∀ t ∈ ts, t.StaysApart) :
    Breaks (passageText ts) ∨ ∃ c cs, ∃ s₁ : Spot, ∃ us,
      s.text = c :: (cs ++ s₁.text) ∧
      passageText ts = c :: (cs ++ passageText us) ∧
      s₁.Scans us s' ∧ ∀ u ∈ us, u.StaysApart := by
  cases h with
  | nil => exact .inl fun c hc => by cases hc
  | @cons _ s₁ _ t us htake hrest =>
    rw [List.forall_mem_cons] at hapart
    by_cases hdrop : dropComments false t.leading = []
    · have hleading : t.leading = [] :=
        Decidable.byContradiction fun hne =>
          hapart.1.dropComments_ne_nil hne hdrop
      obtain ⟨c, cs, htext, -⟩ := htake.isLexed.spells.head
      refine .inr ⟨c, cs, s₁, us, ?_, ?_, hrest, hapart.2⟩
      · have happend := spanBlank_append false s.text
        rw [htake.blank, hleading, htext] at happend
        exact happend.symm
      · rw [passageText_cons, hdrop, htext]
        rfl
    · rw [passageText_cons, List.append_assoc]
      exact .inl (breaks_of_separators htake.isLexed.leading hdrop _)

/-- **So a token in front of them ends where it ended.** -/
theorem Scans.endsAlike (h : s.Scans ts s')
    (hapart : ∀ t ∈ ts, t.StaysApart) :
    EndsAlike s.text (passageText ts) := by
  rcases h.breaks_or_begins hapart with
    hbreaks | ⟨c, cs, s₁, us, htext, hpassage, hrest, hapart⟩
  · exact .inl hbreaks
  refine .inr ⟨c, _, _, htext, hpassage, ?_⟩
  cases cs with
  | cons d cs => exact .inr rfl
  | nil =>
    -- the token is one character, and the next is that of the next token
    rcases hrest.breaks_or_begins hapart with
      hbreaks | ⟨d, ds, s₂, vs, htext', hpassage', -⟩
    · exact .inl hbreaks
    · refine .inr ?_
      rw [htext', hpassage']
      rfl

/-- **Tokens that stay apart are read again without their comments**, and the
first of them even if nothing is left in front of it. -/
theorem Scans.withoutComments {t : Token} (h : s.Scans (t :: ts) s')
    (hapart : ∀ u ∈ ts, u.StaysApart) (p : Position) {seps : List Char}
    (hs : AreSeparators seps) :
    ∃ us p', Scans ⟨p, seps ++ (t.text ++ passageText ts)⟩ us ⟨p', []⟩ ∧
      us.map Token.content = (t :: ts).map Token.content := by
  induction ts generalizing s t p seps with
  | nil =>
    cases h with
    | cons htake hrest =>
      obtain ⟨t', p', htake', hkind, htext⟩ :=
        htake.replace hs (hrest.endsAlike hapart) p
      refine ⟨[t'], p', .cons htake' (.nil _), ?_⟩
      rw [List.map_singleton, Token.content_eq hkind htext]
      rfl
  | cons u ts ih =>
    cases h with
    | cons htake hrest =>
      obtain ⟨t', p', htake', hkind, htext⟩ :=
        htake.replace hs (hrest.endsAlike hapart) p
      obtain ⟨us, p'', hscans, hcontents⟩ :=
        ih hrest (fun v hv => hapart v (List.mem_cons_of_mem u hv)) p'
          (hrest.isLexed u List.mem_cons_self).leading
      rw [← List.append_assoc, ← passageText_cons] at hscans
      refine ⟨t' :: us, p'', .cons htake' hscans, ?_⟩
      rw [List.map_cons, Token.content_eq hkind htext, hcontents]
      rfl

end Spot

end Entitlement
