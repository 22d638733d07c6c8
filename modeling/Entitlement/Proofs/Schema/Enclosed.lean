import Entitlement.Proofs.Schema.Reading

/-!
# Expressions between brackets

`Bracket.Encloses` says which texts can stand between two brackets as an
expression that the schema carries along. The kept text of a passage is one
(`encloses_trimBlanks`), and one that is written between its brackets again
is read as the same tokens, whatever blanks stand around it
(`Bracket.Encloses.exists_scans`).
-/

namespace Entitlement

variable {b : Bracket}

/-! ## Trimmed texts -/

/-- **A text is its trimmed part between blanks**, and the trimmed part has
no blank at its ends. -/
theorem trimBlanks_spec (cs : List Char) :
    (∃ front back, cs = front ++ (trimBlanks cs ++ back) ∧
      (∀ c ∈ front, isBlank c = true) ∧ ∀ c ∈ back, isBlank c = true) ∧
    (∀ c ∈ (trimBlanks cs).head?, isBlank c = false) ∧
      ∀ c ∈ (trimBlanks cs).getLast?, isBlank c = false := by
  have htake : ∀ {ds : List Char}, ∀ c ∈ ds.takeWhile isBlank,
      isBlank c = true :=
    fun c hc => List.all_eq_true.mp List.all_takeWhile c hc
  have hhead : ∀ {ds : List Char}, ∀ c ∈ (ds.dropWhile isBlank).head?,
      isBlank c = false := by
    intro ds c hc
    have hnot := List.head?_dropWhile_not isBlank ds
    rw [hc] at hnot
    exact hnot
  have hcs : cs.takeWhile isBlank ++ cs.dropWhile isBlank = cs :=
    List.takeWhile_append_dropWhile
  have hrest : trimBlanks cs
      ++ ((cs.dropWhile isBlank).reverse.takeWhile isBlank).reverse
      = cs.dropWhile isBlank := by
    rw [trimBlanks, ← List.reverse_append, List.takeWhile_append_dropWhile,
      List.reverse_reverse]
  refine ⟨⟨cs.takeWhile isBlank,
    ((cs.dropWhile isBlank).reverse.takeWhile isBlank).reverse, ?_, htake,
    ?_⟩, ?_, ?_⟩
  · rw [hrest, hcs]
  · intro c hc
    exact htake c (List.mem_reverse.mp hc)
  · intro c hc
    obtain ⟨ds, hds⟩ := List.head?_eq_some_iff.mp hc
    rw [hds] at hrest
    refine @hhead cs c ?_
    rw [← hrest]
    rfl
  · intro c hc
    rw [trimBlanks, List.getLast?_reverse] at hc
    exact hhead c hc

/-- Nothing is left of a text exactly if it is blank. -/
theorem trimBlanks_eq_nil_iff {cs : List Char} :
    trimBlanks cs = [] ↔ ∀ c ∈ cs, isBlank c = true := by
  obtain ⟨⟨front, back, hcs, hfront, hback⟩, hfirst, -⟩ := trimBlanks_spec cs
  constructor
  · intro h
    rw [hcs, h, List.nil_append]
    exact List.forall_mem_append.mpr ⟨hfront, hback⟩
  · intro h
    cases htrim : trimBlanks cs with
    | nil => rfl
    | cons c ds =>
      rw [htrim] at hcs hfirst
      have hblank : isBlank c = true := h c (by rw [hcs]; simp)
      rw [hfirst c rfl] at hblank
      cases hblank

/-- What stands between blanks is what is left of a trimmed text. -/
theorem trimBlanks_between {front cs back : List Char}
    (hfront : ∀ c ∈ front, isBlank c = true)
    (hback : ∀ c ∈ back, isBlank c = true) (hne : cs ≠ [])
    (hfirst : ∀ c ∈ cs.head?, isBlank c = false)
    (hlast : ∀ c ∈ cs.getLast?, isBlank c = false) :
    trimBlanks (front ++ (cs ++ back)) = cs := by
  have hdrop {ds : List Char} (hds : ∀ c ∈ ds.head?, isBlank c = false) :
      ds.dropWhile isBlank = ds := by
    cases ds with
    | nil => rfl
    | cons d ds => rw [List.dropWhile_cons, hds d rfl]; rfl
  obtain ⟨c, ds, rfl⟩ := List.exists_cons_of_ne_nil hne
  have hlead : (c :: ds ++ back).dropWhile isBlank = c :: ds ++ back :=
    hdrop hfirst
  have htrail : (c :: ds).reverse.dropWhile isBlank = (c :: ds).reverse :=
    hdrop (by rwa [List.head?_reverse])
  rw [trimBlanks, List.dropWhile_append_of_pos hfront, hlead,
    List.reverse_append, List.dropWhile_append_of_pos
      (fun c hc => hback c (List.mem_reverse.mp hc)), htrail,
    List.reverse_reverse]

/-! ## Expressions between brackets -/

/-- **Whether a text can stand between brackets as an expression**: it is
not empty and has no blank at its ends, it splits into tokens without a
comment, and its own brackets are closed in order. -/
structure Bracket.Encloses (b : Bracket) (text : String) : Prop where
  nonempty : text ≠ ""
  first : ∀ c ∈ text.toList.head?, isBlank c = false
  last : ∀ c ∈ text.toList.getLast?, isBlank c = false
  tokens : ∃ tokens, tokenize text = .ok tokens ∧
    (∀ t ∈ tokens, ¬ ['/', '/'] <:+: t.leading) ∧
    b.depthAfter 0 (tokens.map Token.kind) = some 0

/-- **The text of a passage is an expression**, if anything is left of it
without the blanks at its ends. -/
theorem encloses_trimBlanks {s s' : Spot} {ts : List Token}
    (h : s.Scans ts s') (hd : b.depthAfter 0 (ts.map Token.kind) = some 0)
    {blank : List Char} (hblank : AreSeparators blank)
    (hne : trimBlanks (passageText ts ++ blank) ≠ []) :
    b.Encloses (String.ofList (trimBlanks (passageText ts ++ blank))) := by
  have hstart : false = true → ∀ cs, s.text ≠ '/' :: cs :=
    fun h => absurd h Bool.false_ne_true
  obtain ⟨slash, hrun⟩ := Reading.run_passageText h hstart hd
  have hall : (Reading.outside false 0).run b (passageText ts ++ blank)
      = some (.outside (slash && blank.isEmpty) 0) := by
    rw [Reading.run_append, hrun, Option.bind_some, Reading.run_of_steps
      fun c hc => Reading.step_of_isSeparator (hblank c hc)]
  obtain ⟨⟨front, back, hsplit, hfront, hback⟩, hfirst, hlast⟩ :=
    trimBlanks_spec (passageText ts ++ blank)
  -- the blanks at the ends leave the reading outside of strings
  rw [hsplit, Reading.run_append] at hall
  obtain ⟨r₁, hrun₁, hall⟩ := Option.bind_eq_some_iff.mp hall
  have hquote : (Reading.outside false 0).HasQuote := trivial
  obtain ⟨slash₁, rfl⟩ :=
    (Reading.run_blanks hfront hquote hrun₁).1 false 0 rfl
  rw [Reading.run_append] at hall
  obtain ⟨r₂, hrun₂, hall⟩ := Option.bind_eq_some_iff.mp hall
  obtain ⟨slash₂, rfl⟩ := (Reading.run_blanks hback
    (Reading.hasQuote_of_run (Reading.hasQuote_of_run hquote hrun₁) hrun₂)
    hall).2 _ 0 rfl
  obtain ⟨us, s₁, last, hscans, hends, hleading, hdepth⟩ :=
    Reading.exists_scans hrun₂ .start
  refine ⟨?_, ?_, ?_, us ++ [last], ?_, ?_, ?_⟩
  · intro hempty
    exact hne (by simpa using hempty)
  · rw [String.toList_ofList]
    exact hfirst
  · rw [String.toList_ofList]
    exact hlast
  · rw [tokenize, String.toList_ofList]
    exact Spot.tokensFrom_eq_ok_iff.mpr ⟨us, s₁, last, hscans, hends, rfl⟩
  · rintro t ht hinfix
    have hmem : '/' ∈ t.leading :=
      hinfix.subset List.mem_cons_self
    cases hleading t ht '/' hmem
  · rw [List.map_append, Bracket.depthAfter_append, hdepth]
    show b.depthAfter 0 [last.kind] = some 0
    rw [hends.token]
    cases b <;> rfl

/-- Blanks without two slashes in a row have no comment. -/
theorem areSeparators_blank {cs blank rest : List Char}
    (h : spanBlank false cs = (blank, rest))
    (hc : ¬ ['/', '/'] <:+: blank) : AreSeparators blank := by
  induction cs generalizing blank with
  | nil =>
    cases h
    exact fun c hc => absurd hc List.not_mem_nil
  | cons c cs ih =>
    by_cases hstart : ∃ ds, c = '/' ∧ cs = '/' :: ds
    · obtain ⟨ds, rfl, rfl⟩ := hstart
      rw [spanBlank] at h
      cases h
      exact absurd ⟨[], _, rfl⟩ hc
    · have hnot : ∀ ds, c = '/' → cs = '/' :: ds → False :=
        fun ds h₁ h₂ => hstart ⟨ds, h₁, h₂⟩
      rw [spanBlank.eq_3 _ _ _ hnot] at h
      cases hsep : isSeparator c with
      | true =>
        rw [hsep] at h
        cases h
        intro d hd
        rcases List.mem_cons.mp hd with rfl | hd
        · exact hsep
        · exact ih rfl (fun h => hc (h.trans (List.suffix_cons c _).isInfix))
            d hd
      | false =>
        rw [hsep] at h
        cases h
        exact fun d hd => absurd hd List.not_mem_nil

/-- Without comments there is nothing to drop. -/
theorem dropComments_of_separators {cs : List Char}
    (h : AreSeparators cs) : dropComments false cs = cs := by
  induction cs with
  | nil => rfl
  | cons c cs ih =>
    have hrest := ih fun d hd => h d (List.mem_cons_of_mem c hd)
    by_cases hline : c = '\n'
    · subst hline
      rw [dropComments, hrest]
    · have hslash : c ≠ '/' := by
        rintro rfl
        cases h '/' List.mem_cons_self
      rw [dropComments_cons false hline fun _ hc => absurd hc hslash, hrest]
      rfl

/-- The text of tokens without comments is what they were read from. -/
theorem passageText_of_separators {ts : List Token}
    (h : ∀ t ∈ ts, AreSeparators t.leading) :
    passageText ts = ts.flatMap fun t => t.leading ++ t.text := by
  induction ts with
  | nil => rfl
  | cons t ts ih =>
    rw [passageText_cons, List.flatMap_cons,
      dropComments_of_separators (h t List.mem_cons_self),
      ih fun u hu => h u (List.mem_cons_of_mem t hu)]

/-- Nor has a run whose tokens have no comments in front of them. -/
theorem areSeparators_leading {s s' : Spot} {ts : List Token}
    (h : s.Scans ts s') (hc : ∀ t ∈ ts, ¬ ['/', '/'] <:+: t.leading) :
    ∀ t ∈ ts, AreSeparators t.leading := by
  induction h with
  | nil => exact fun t ht => absurd ht List.not_mem_nil
  | cons htake _ ih =>
    intro t ht
    rcases List.mem_cons.mp ht with rfl | ht
    · exact areSeparators_blank htake.blank (hc _ List.mem_cons_self)
    · exact ih (fun u hu => hc u (List.mem_cons_of_mem _ hu)) t ht

/-- **An expression is read as a passage wherever it is written**, behind
blanks and in front of a character that joins with nothing. -/
theorem Bracket.Encloses.exists_scans {text : String} (h : b.Encloses text)
    {seps after : List Char} (hs : AreSeparators seps) (ha : Breaks after)
    (p : Position) :
    ∃ ts p', Spot.Scans ⟨p, seps ++ (text.toList ++ after)⟩ ts ⟨p', after⟩ ∧
      b.depthAfter 0 (ts.map Token.kind) = some 0 ∧ ts ≠ [] ∧
      passageText ts = seps ++ text.toList := by
  obtain ⟨hne, -, hlast, tokens, htokens, hcomment, hdepth⟩ := h
  obtain ⟨ts, s', last, hscans, hends, rfl⟩ :=
    (Spot.tokensFrom_eq_ok_iff (s := ⟨.start, text.toList⟩)).mp htokens
  have htext : text.toList = _ ++ s'.text := hscans.text_eq
  -- nothing stands behind the last token
  have hend : s'.text = [] := by
    have hleading : s'.text = last.leading := by
      have happend := spanBlank_append false s'.text
      rw [hends.blank] at happend
      simpa using happend.symm
    have hsep := areSeparators_blank hends.blank
      (hcomment last (List.mem_append_right ts (List.mem_singleton_self last)))
    rw [← hleading] at hsep
    cases hback : s'.text.getLast? with
    | none => exact List.getLast?_eq_none_iff.mp hback
    | some c =>
      have hblank := isBlank_of_isSeparator
        (hsep c (List.mem_of_getLast? hback))
      rw [hlast c (by rw [htext, List.getLast?_append, hback]; rfl)] at hblank
      cases hblank
  have hseparator := areSeparators_leading hscans
    fun t ht => hcomment t (List.mem_append_left [last] ht)
  rw [List.map_append, Bracket.depthAfter_append] at hdepth
  obtain ⟨depth, hdepth, hstop⟩ := Option.bind_eq_some_iff.mp hdepth
  have hzero : depth = 0 := by
    rw [hends.token] at hstop
    cases b <;> exact Option.some.inj hstop
  subst hzero
  cases hscans with
  | nil =>
    rw [show text.toList = [] from hend] at htext
    exact absurd (String.toList_eq_nil_iff.mp hend) hne
  | @cons _ s₁ _ t ts htake hrest =>
    obtain ⟨t', p₁, htake', hkind, htext', hleading⟩ :=
      htake.extend seps hs ha p
    obtain ⟨ts', p', hrest', hkinds, htexts, hleadings⟩ := hrest.extend ha p₁
    rw [hend, List.nil_append] at hrest'
    have hscans' := Spot.Scans.cons htake' hrest'
    have hseparator' : ∀ u ∈ t' :: ts', AreSeparators u.leading := by
      intro u hu c hc
      rcases List.mem_cons.mp hu with rfl | hu
      · rw [hleading] at hc
        rcases List.mem_append.mp hc with hc | hc
        · exact hs c hc
        · exact hseparator t List.mem_cons_self c hc
      · have hmem := List.mem_map_of_mem (f := Token.leading) hu
        rw [hleadings] at hmem
        obtain ⟨v, hv, heq⟩ := List.mem_map.mp hmem
        rw [← heq] at hc
        exact hseparator v (List.mem_cons_of_mem t hv) c hc
    refine ⟨t' :: ts', p', hscans', ?_, List.cons_ne_nil _ _, ?_⟩
    · rw [List.map_cons, hkind, hkinds]
      exact hdepth
    · have hall : seps ++ (text.toList ++ after) = _ ++ after :=
        hscans'.text_eq
      rw [passageText_of_separators hseparator']
      refine List.append_cancel_right (?_ : _ ++ after = _ ++ after)
      rw [← hall, List.append_assoc]

end Entitlement
