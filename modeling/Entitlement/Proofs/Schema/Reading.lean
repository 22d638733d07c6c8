import Entitlement.Proofs.Schema.Passage
import Entitlement.Proofs.Schema.Scan

/-!
# Reading a text character by character

What is kept of a passage is again an expression that can stand between the
brackets, even though tokens may grow together where a comment is dropped.
The reason does not lie with tokens but with characters. A `Reading` goes
through a text character by character and knows only whether it is inside
of a string, whether the last character was a slash, and how deep the
brackets are. The tokens of a passage lead a reading through its kept text
(`Reading.run_passageText`), and a text that a reading goes through splits
into tokens, has no comment, and its brackets are closed in order
(`Reading.exists_scans`).
-/

namespace Entitlement

variable {b : Bracket}

/-- **What is known while a text is read.** -/
inductive Reading
  /-- Outside of strings; `slash` says whether a slash was read last. -/
  | outside (slash : Bool) (depth : Nat)
  /-- In a string; `escaped` says whether a backslash protects the next
  character. -/
  | inside (quote : Char) (escaped : Bool) (depth : Nat)

namespace Reading

/-- One more character; nothing if it cannot stand there, or if it makes
two slashes that start a comment. -/
def step (b : Bracket) : Reading → Char → Option Reading
  | outside slash depth, c =>
    if c = '"' ∨ c = '\'' then some (inside c false depth)
    else if c = '/' then if slash then none else some (outside true depth)
    else if isSeparator c || isWordPart c then some (outside false depth)
    else (Mark.ofChar? c).bind fun m =>
      (b.depthAfter depth [.mark m]).map (outside false)
  | inside quote escaped depth, c =>
    if c = '\\' ∧ escaped = false then some (inside quote true depth)
    else if c = quote ∧ escaped = false then some (outside false depth)
    else if c = '\n' then none
    else some (inside quote false depth)

/-- **Some more characters.** -/
def run (b : Bracket) : Reading → List Char → Option Reading
  | r, [] => some r
  | r, c :: cs => (r.step b c).bind fun r => r.run b cs

theorem run_append (r : Reading) (cs ds : List Char) :
    r.run b (cs ++ ds) = (r.run b cs).bind fun r => r.run b ds := by
  induction cs generalizing r with
  | nil => rfl
  | cons c cs ih =>
    rw [List.cons_append, run, run]
    cases r.step b c with
    | none => rfl
    | some r => exact ih r

/-! ### Over the characters of tokens -/

/-- A letter, digit or underscore is no quote, no slash and no separator. -/
theorem step_of_isWordPart {c : Char} (hc : isWordPart c = true)
    (slash : Bool) (depth : Nat) :
    (outside slash depth).step b c = some (outside false depth) := by
  have hquote : ¬ (c = '"' ∨ c = '\'') := by
    rintro (rfl | rfl) <;> cases hc
  have hslash : c ≠ '/' := by
    rintro rfl
    cases hc
  rw [step, if_neg hquote, if_neg hslash, hc, Bool.or_true, if_pos rfl]

theorem step_of_isSeparator {c : Char} (hc : isSeparator c = true)
    (slash : Bool) (depth : Nat) :
    (outside slash depth).step b c = some (outside false depth) := by
  have hquote : ¬ (c = '"' ∨ c = '\'') := by
    rintro (rfl | rfl) <;> cases hc
  have hslash : c ≠ '/' := by
    rintro rfl
    cases hc
  rw [step, if_neg hquote, if_neg hslash, hc, Bool.true_or, if_pos rfl]

/-- A mark of one character leads to the depth of the mark. -/
theorem step_of_ofChar? {c : Char} {m : Mark} (hc : Mark.ofChar? c = some m)
    {slash : Bool} (hslash : m = .slash → slash = false) (depth : Nat) :
    (outside slash depth).step b c
      = (b.depthAfter depth [.mark m]).map
          (outside (decide (m = .slash))) := by
  by_cases hm : m = .slash
  · subst hm
    have hchar : c = '/' := by
      have hspelling := Mark.toList_spelling_of_ofChar? hc
      exact (List.cons.inj hspelling).1.symm
    rw [hchar, hslash rfl]
    cases b <;> rfl
  · unfold Mark.ofChar? at hc
    split at hc <;> first
      | (cases hc; rfl)
      | (cases hc; exact absurd rfl hm)
      | cases hc

/-- So does a mark of two, neither of which means anything by itself. -/
theorem run_of_ofPair? {c d : Char} {m : Mark}
    (h : Mark.ofPair? c d = some m) (slash : Bool) (depth : Nat) :
    (outside slash depth).run b [c, d]
      = (b.depthAfter depth [.mark m]).map
          (outside (decide (m = .slash))) := by
  unfold Mark.ofPair? at h
  split at h <;> first
    | (cases h; cases b <;> rfl)
    | cases h

/-- A string is gone through to its end. -/
theorem run_of_scanString {quote : Char} {escaped : Bool}
    {cs body rest : List Char}
    (h : scanString quote escaped cs = some (body, rest)) (depth : Nat) :
    (inside quote escaped depth).run b cs
      = (outside false depth).run b rest := by
  fun_induction scanString quote escaped cs generalizing body with
  | case1 => cases h
  | case2 escaped c cs hc ih =>
    obtain ⟨⟨body', rest'⟩, hb, heq⟩ := Option.map_eq_some_iff.mp h
    cases heq
    rw [run, step, if_pos hc]
    exact ih hb
  | case3 escaped c cs hc hq =>
    cases h
    rw [run, step, if_neg hc, if_pos hq]
    rfl
  | case4 => cases h
  | case5 escaped c cs hc hq hn ih =>
    obtain ⟨⟨body', rest'⟩, hb, heq⟩ := Option.map_eq_some_iff.mp h
    cases heq
    rw [run, step, if_neg hc, if_neg hq, if_neg hn]
    exact ih hb

/-- Characters that each lead outside at the same depth do so together. -/
theorem run_of_steps {cs : List Char}
    (h : ∀ c ∈ cs, ∀ slash depth,
      (outside slash depth).step b c = some (outside false depth))
    (slash : Bool) (depth : Nat) :
    (outside slash depth).run b cs
      = some (outside (slash && cs.isEmpty) depth) := by
  induction cs generalizing slash with
  | nil => simp [run]
  | cons c cs ih =>
    rw [run, h c List.mem_cons_self]
    have hrest := ih (fun d hd => h d (List.mem_cons_of_mem c hd)) false
    simpa using hrest

/-- **Over a token a reading comes to the depth that the token leads
to.** -/
theorem run_of_spells {kind : TokenKind} {text : List Char}
    (h : kind.Spells text) {slash : Bool}
    (hslash : kind = .mark .slash → slash = false) (depth : Nat) :
    (outside slash depth).run b text
      = (b.depthAfter depth [kind]).map
          (outside (decide (kind = .mark .slash))) := by
  cases h with
  | string hquote hs =>
    rename_i quote body
    rw [run, step, if_pos hquote, Option.bind_some, run_of_scanString hs]
    cases b <;> rfl
  | number hc hcs =>
    rename_i c cs
    have hsteps : ∀ d ∈ c :: cs, ∀ slash depth,
        (outside slash depth).step b d = some (outside false depth) := by
      intro d hd slash depth
      have hpart : isDigit d = true ∨ d = '.' := by
        rcases List.mem_cons.mp hd with rfl | hd
        · exact Or.inl hc
        · exact hcs d hd
      rcases hpart with hdigit | rfl
      · exact step_of_isWordPart (by rw [isWordPart, hdigit, Bool.or_true]) ..
      · cases b <;> rfl
    rw [run_of_steps hsteps]
    cases b <;> simp [Bracket.depthAfter, Bracket.opening, Bracket.closing]
  | word hc hcs =>
    rename_i c cs
    have hsteps : ∀ d ∈ c :: cs, ∀ slash depth,
        (outside slash depth).step b d = some (outside false depth) := by
      intro d hd slash depth
      refine step_of_isWordPart ?_ slash depth
      rcases List.mem_cons.mp hd with rfl | hd
      · rw [isWordPart, hc, Bool.true_or]
      · exact List.all_eq_true.mp hcs d hd
    rw [run_of_steps hsteps]
    unfold TokenKind.ofWord
    split <;> simp [Bracket.depthAfter]
  | char hc =>
    rename_i c m
    rw [run, step_of_ofChar? hc (fun hm => hslash (by rw [hm]))]
    simp only [TokenKind.mark.injEq]
    cases b.depthAfter depth [.mark m] with
    | none => rfl
    | some depth => rfl
  | pair hc =>
    rw [run_of_ofPair? hc]
    simp only [TokenKind.mark.injEq]

/-! ### From tokens to characters -/

/-- Blank text that leaves nothing when its comments are dropped begins
with a comment. -/
theorem eq_nil_of_dropComments {cs : List Char}
    (h : dropComments false cs = []) : cs = [] ∨ ∃ ds, cs = '/' :: ds := by
  cases cs with
  | nil => exact Or.inl rfl
  | cons c cs =>
    by_cases hslash : c = '/'
    · exact Or.inr ⟨cs, by rw [hslash]⟩
    · by_cases hline : c = '\n'
      · subst hline
        cases h
      · rw [dropComments_cons false hline
          (fun _ hc => absurd hc hslash)] at h
        cases h

/-- A slash is written as one. -/
theorem eq_of_spells_slash {text : List Char}
    (h : (TokenKind.mark .slash).Spells text) : text = ['/'] := by
  generalize hk : TokenKind.mark .slash = kind at h
  cases h with
  | char hc =>
    cases hk
    have hspelling := Mark.toList_spelling_of_ofChar? hc
    rw [← hspelling]
    rfl
  | pair hc =>
    cases hk
    have hspelling := Mark.toList_spelling_of_ofPair? hc
    cases hspelling
  | word hc hcs =>
    unfold TokenKind.ofWord at hk
    split at hk <;> cases hk
  | string => cases hk
  | number => cases hk

/-- **The tokens of a run lead a reading through their text**, to the depth
that they lead to. -/
theorem run_passageText {s s' : Spot} {ts : List Token} (h : s.Scans ts s')
    {slash : Bool} (hslash : slash = true → ∀ cs, s.text ≠ '/' :: cs)
    {depth depth' : Nat}
    (hd : b.depthAfter depth (ts.map Token.kind) = some depth') :
    ∃ slash', (outside slash depth).run b (passageText ts)
      = some (outside slash' depth') := by
  induction h generalizing slash depth with
  | nil =>
    cases hd
    exact ⟨slash, rfl⟩
  | @cons s s' s'' t ts htake _ ih =>
    rw [List.map_cons, Bracket.depthAfter_cons] at hd
    obtain ⟨middle, hmiddle, hrest⟩ := Option.bind_eq_some_iff.mp hd
    have hlexed := htake.isLexed
    have hblank := run_of_steps
      (fun c hc => step_of_isSeparator (b := b) (hlexed.leading c hc))
      slash depth
    have happend := spanBlank_append false s.text
    rw [htake.blank] at happend
    -- in front of a slash there was no slash, or else a comment
    have hbefore : t.kind = .mark .slash →
        (slash && (dropComments false t.leading).isEmpty) = false := by
      intro hk
      cases slash with
      | false => rfl
      | true =>
        cases hdrop : dropComments false t.leading with
        | cons => rfl
        | nil =>
          have htext := hlexed.spells
          rw [hk] at htext
          rw [eq_of_spells_slash htext] at happend
          rcases eq_nil_of_dropComments hdrop with hnil | ⟨ds, hcons⟩
          · rw [hnil] at happend
            exact absurd happend.symm (hslash rfl _)
          · rw [hcons] at happend
            exact absurd happend.symm (hslash rfl _)
    -- and behind it there is none
    have hafter : decide (t.kind = .mark .slash) = true →
        ∀ cs, s'.text ≠ '/' :: cs := by
      intro hk cs heq
      have htext := hlexed.spells
      rw [of_decide_eq_true hk] at htext
      have hrest := (rest_of_spanBlank htake.blank).2 cs
      rw [eq_of_spells_slash htext, heq] at hrest
      exact hrest rfl
    obtain ⟨slash', hrun⟩ := ih hafter hrest
    refine ⟨slash', ?_⟩
    rw [passageText_cons, run_append, run_append, hblank, Option.bind_some,
      run_of_spells hlexed.spells hbefore, hmiddle]
    exact hrun

/-! ### From characters to tokens -/

/-- Where a reading goes through, only separators are skipped. -/
theorem spanBlank_of_run {cs : List Char} {slash : Bool} {depth : Nat}
    {r : Reading} (h : (outside slash depth).run b cs = some r) :
    AreSeparators (spanBlank false cs).1 ∧
      ∃ slash', (outside slash' depth).run b (spanBlank false cs).2
        = some r := by
  induction cs generalizing slash with
  | nil => exact ⟨fun c hc => absurd hc List.not_mem_nil, slash, h⟩
  | cons c cs ih =>
    have hstart : ∀ ds, c = '/' → cs = '/' :: ds → False := by
      rintro ds rfl rfl
      cases slash <;> cases h
    rw [spanBlank.eq_3 _ _ _ hstart]
    cases hc : isSeparator c with
    | true =>
      rw [run, step_of_isSeparator hc] at h
      obtain ⟨hall, hrun⟩ := ih h
      refine ⟨?_, hrun⟩
      intro d hd
      rcases List.mem_cons.mp hd with rfl | hd
      · exact hc
      · exact hall d hd
    | false => exact ⟨fun c hc => absurd hc List.not_mem_nil, slash, h⟩

/-- A string that a reading leaves has an end. -/
theorem exists_scanString {quote : Char} {escaped : Bool} {cs : List Char}
    {depth : Nat} {slash' : Bool} {depth' : Nat}
    (h : (inside quote escaped depth).run b cs
      = some (outside slash' depth')) :
    ∃ body rest, scanString quote escaped cs = some (body, rest) := by
  induction cs generalizing escaped with
  | nil => cases h
  | cons c cs ih =>
    rw [run, step] at h
    rw [scanString]
    split at h
    next hc =>
      obtain ⟨body, rest, hs⟩ := ih h
      exact ⟨c :: body, rest, by rw [if_pos hc, hs]; rfl⟩
    next hc =>
      rw [if_neg hc]
      split at h
      next hq => exact ⟨[], cs, if_pos hq⟩
      next hq =>
        rw [if_neg hq]
        split at h
        next => cases h
        next hn =>
          obtain ⟨body, rest, hs⟩ := ih h
          exact ⟨c :: body, rest, by rw [if_neg hn, hs]; rfl⟩

/-- Where a reading goes through, there is a token. -/
theorem exists_scanToken {c : Char} {cs : List Char}
    (hc : isSeparator c = false) {slash : Bool} {depth : Nat}
    {slash' : Bool} {depth' : Nat}
    (h : (outside slash depth).run b (c :: cs)
      = some (outside slash' depth')) :
    ∃ kind text rest,
      scanToken (c :: cs) = .ok (some (kind, text, rest)) := by
  simp only [scanToken]
  by_cases hquote : c = '"' ∨ c = '\''
  · rw [run, step, if_pos hquote] at h
    obtain ⟨body, rest, hs⟩ := exists_scanString h
    rw [if_pos hquote, hs]
    exact ⟨_, _, _, rfl⟩
  rw [if_neg hquote]
  by_cases hdigit : isDigit c = true
  · rw [if_pos hdigit]
    exact ⟨_, _, _, rfl⟩
  rw [if_neg hdigit]
  by_cases hword : isWordStart c = true
  · rw [if_pos hword]
    exact ⟨_, _, _, rfl⟩
  rw [if_neg hword]
  cases hpair : cs.head?.bind (Mark.ofPair? c) with
  | some m => exact ⟨_, _, _, rfl⟩
  | none =>
    cases hm : Mark.ofChar? c with
    | some m => exact ⟨_, _, _, rfl⟩
    | none =>
      have hslash : c ≠ '/' := by
        rintro rfl
        cases hm
      have hpart : (isSeparator c || isWordPart c) = false := by
        rw [isWordPart, hc, Bool.eq_false_iff.mpr hdigit,
          Bool.eq_false_iff.mpr hword]
        rfl
      rw [run, step, if_neg hquote, if_neg hslash, hpart, hm] at h
      cases h

/-- **A text that a reading goes through splits into tokens**, without a
comment, and the tokens lead to the depth where the reading ends. -/
theorem exists_scans {cs : List Char} {slash : Bool} {depth : Nat}
    {slash' : Bool} {depth' : Nat}
    (h : (outside slash depth).run b cs = some (outside slash' depth'))
    (p : Position) :
    ∃ ts s' last, Spot.Scans ⟨p, cs⟩ ts s' ∧ s'.Ends last ∧
      (∀ t ∈ ts ++ [last], AreSeparators t.leading) ∧
      b.depthAfter depth (ts.map Token.kind) = some depth' := by
  -- each token takes at least one character
  obtain ⟨n, hn⟩ : ∃ n, cs.length < n := ⟨_, Nat.lt_succ_self _⟩
  induction n generalizing cs slash depth p with
  | zero => cases hn
  | succ n ih =>
    obtain ⟨hblank, slash₁, hrun⟩ := spanBlank_of_run h
    cases hspan : spanBlank false cs with
    | mk blank rest =>
      rw [hspan] at hblank hrun
      cases rest with
      | nil =>
        cases hrun
        refine ⟨[], ⟨p, cs⟩, _, .nil _, Spot.ends_of_spanBlank hspan, ?_, rfl⟩
        intro t ht
        rw [List.mem_singleton.mp ht]
        exact hblank
      | cons c rest =>
        have hc := (rest_of_spanBlank hspan).1 c rfl
        obtain ⟨kind, text, rest', hscan⟩ := exists_scanToken hc hrun
        have hspells := (endsBefore_of_scanToken hscan).spells
        have happend := scanToken_append hscan
        rw [← happend] at hspan hscan hrun
        -- the slash that a reading goes through stands alone
        have hslash : kind = .mark .slash → slash₁ = false := by
          rintro rfl
          rw [eq_of_spells_slash hspells] at hrun
          cases slash₁ with
          | false => rfl
          | true => cases hrun
        rw [run_append, run_of_spells hspells hslash] at hrun
        obtain ⟨_, hstep, hrun⟩ := Option.bind_eq_some_iff.mp hrun
        obtain ⟨middle, hmiddle, rfl⟩ := Option.map_eq_some_iff.mp hstep
        have hlt : rest'.length < n := by
          have hlength : (text ++ rest').length ≤ cs.length := by
            have hle := length_spanBlank_le false cs
            rw [hspan] at hle
            exact hle
          have hshorter := length_rest_lt_of_scanToken hscan
          omega
        let t : Token := ⟨kind, text, blank, p.advanceAll blank⟩
        have htake : Spot.Takes ⟨p, cs⟩ t ⟨t.position.advanceAll text, rest'⟩ :=
          ⟨hspan, hscan, rfl, rfl⟩
        obtain ⟨ts, s', last, hscans, hends, hleading, hdepth⟩ :=
          ih hrun (t.position.advanceAll text) hlt
        refine ⟨t :: ts, s', last, .cons htake hscans, hends, ?_, ?_⟩
        · intro u hu
          rcases List.mem_cons.mp hu with rfl | hu
          · exact hblank
          · exact hleading u hu
        · rw [List.map_cons, Bracket.depthAfter_cons, hmiddle]
          exact hdepth

/-! ### Blanks at the ends -/

/-- Whether a reading is not in a string whose quote is blank, as there is
none. -/
def HasQuote : Reading → Prop
  | outside _ _ => True
  | inside quote _ _ => isBlank quote = false

theorem hasQuote_of_step {r r' : Reading} {c : Char} (hr : r.HasQuote)
    (h : r.step b c = some r') : r'.HasQuote := by
  cases r with
  | outside slash depth =>
    rw [step] at h
    split at h
    next hquote =>
      cases h
      rcases hquote with rfl | rfl <;> rfl
    next =>
      split at h
      · split at h
        · cases h
        · cases h
          exact trivial
      · split at h
        · cases h
          exact trivial
        · obtain ⟨m, -, h⟩ := Option.bind_eq_some_iff.mp h
          obtain ⟨d, -, rfl⟩ := Option.map_eq_some_iff.mp h
          exact trivial
  | inside quote escaped depth =>
    rw [step] at h
    split at h
    · cases h
      exact hr
    · split at h
      · cases h
        exact trivial
      · split at h
        · cases h
        · cases h
          exact hr

theorem hasQuote_of_run {r r' : Reading} {cs : List Char} (hr : r.HasQuote)
    (h : r.run b cs = some r') : r'.HasQuote := by
  induction cs generalizing r with
  | nil =>
    cases h
    exact hr
  | cons c cs ih =>
    obtain ⟨r₁, hstep, h⟩ := Option.bind_eq_some_iff.mp h
    exact ih (hasQuote_of_step hr hstep) h

/-- A blank changes nothing but that no slash was read last. -/
theorem step_blank {r r' : Reading} {c : Char} (hc : isBlank c = true)
    (hr : r.HasQuote) (h : r.step b c = some r') :
    (∀ slash depth, r = outside slash depth → r' = outside false depth) ∧
      ∀ slash depth, r' = outside slash depth →
        ∃ slash, r = outside slash depth := by
  cases r with
  | outside slash depth =>
    have hr' : r' = outside false depth := by
      rw [step] at h
      split at h
      next hquote => rcases hquote with rfl | rfl <;> cases hc
      next =>
        split at h
        next hslash =>
          subst hslash
          cases hc
        next =>
          split at h
          · cases h
            rfl
          · obtain ⟨m, hm, -⟩ := Option.bind_eq_some_iff.mp h
            rw [isBlank_of_ofChar? hm] at hc
            cases hc
    subst hr'
    constructor
    · intro slash' depth' heq
      cases heq
      rfl
    · intro slash' depth' heq
      cases heq
      exact ⟨slash, rfl⟩
  | inside quote escaped depth =>
    refine ⟨fun _ _ heq => Reading.noConfusion heq, ?_⟩
    rintro slash' depth' rfl
    rw [step] at h
    split at h
    next => cases h
    next =>
      split at h
      next hq =>
        rw [hq.1, hr] at hc
        cases hc
      next =>
        split at h <;> cases h

/-- So do blanks in a row. -/
theorem run_blanks {cs : List Char} (hcs : ∀ c ∈ cs, isBlank c = true)
    {r r' : Reading} (hr : r.HasQuote) (h : r.run b cs = some r') :
    (∀ slash depth, r = outside slash depth →
      ∃ slash', r' = outside slash' depth) ∧
      ∀ slash depth, r' = outside slash depth →
        ∃ slash', r = outside slash' depth := by
  induction cs generalizing r with
  | nil =>
    cases h
    exact ⟨fun slash _ heq => ⟨slash, heq⟩, fun slash _ heq => ⟨slash, heq⟩⟩
  | cons c cs ih =>
    obtain ⟨r₁, hstep, h⟩ := Option.bind_eq_some_iff.mp h
    obtain ⟨hto, hfrom⟩ := step_blank (hcs c List.mem_cons_self) hr hstep
    obtain ⟨hto', hfrom'⟩ := ih (fun d hd => hcs d (List.mem_cons_of_mem c hd))
      (hasQuote_of_step hr hstep) h
    constructor
    · intro slash depth heq
      exact hto' false depth (hto slash depth heq)
    · intro slash depth heq
      obtain ⟨slash', heq'⟩ := hfrom' slash depth heq
      exact hfrom slash' depth heq'

end Reading

end Entitlement
