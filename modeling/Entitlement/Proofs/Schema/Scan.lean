import Entitlement.Proofs.Schema.Lookahead

/-!
# Reading tokens, one after the other

The lexer goes through a text from spot to spot: a `Spot` is a position and
the text behind it. `Spot.Takes` is one step, over the blanks and comments
in front of a token and the token itself, and `Spot.Scans` is a run of
steps. A text splits into tokens exactly if a run leads to blanks and
comments with nothing behind them (`tokensFrom_eq_ok_iff`), and a run over
some tokens and then others is two runs (`Spot.Scans.append`), so what is
known of the parts of a text can be put together.

A step looks only a little beyond its token. `Spot.Scans.extend` says that
the steps through a text stay the same when the text goes on, if it goes on
with a character that joins with nothing, and whatever blanks stand in
front.
-/

namespace Entitlement

/-! ## Runs of tokens -/

/-- **A place in a text**: its position, and the text behind it. -/
structure Spot where
  place : Position
  text : List Char

namespace Spot

/-- **One step of the lexer**: over the blanks in front of a token and the
token itself. -/
structure Takes (s : Spot) (t : Token) (s' : Spot) : Prop where
  blank : spanBlank false s.text = (t.leading, t.text ++ s'.text)
  token : scanToken (t.text ++ s'.text)
    = .ok (some (t.kind, t.text, s'.text))
  position : t.position = s.place.advanceAll t.leading
  place : s'.place = t.position.advanceAll t.text

/-- **A run of the lexer** over some tokens. -/
inductive Scans : Spot → List Token → Spot → Prop
  | nil (s : Spot) : s.Scans [] s
  | cons {s s' s'' : Spot} {t : Token} {ts : List Token} :
      s.Takes t s' → s'.Scans ts s'' → s.Scans (t :: ts) s''

/-- **Whether nothing but blanks and comments is left**, with the token
for the end of the text behind them. -/
structure Ends (s : Spot) (last : Token) : Prop where
  blank : spanBlank false s.text = (last.leading, [])
  token : last = ⟨.endOfText, [], last.leading,
    s.place.advanceAll last.leading⟩

/-- **Whether there is no token behind the blanks and comments**, for the
reason that an error gives and where it says. -/
structure Fails (s : Spot) (blank rest : List Char) (e : LexError) : Prop where
  skips : spanBlank false s.text = (blank, rest)
  token : scanToken rest = .error e.fault
  line : e.line = (s.place.advanceAll blank).line
  column : e.column = (s.place.advanceAll blank).column

variable {s s' s'' : Spot} {t last : Token} {ts us : List Token}

theorem ends_of_spanBlank {blank : List Char}
    (h : spanBlank false s.text = (blank, [])) :
    s.Ends ⟨.endOfText, [], blank, s.place.advanceAll blank⟩ :=
  ⟨h, rfl⟩

/-- The lexer takes lexed tokens. -/
theorem Takes.isLexed (h : s.Takes t s') : t.IsLexed where
  spells := (endsBefore_of_scanToken h.token).spells
  leading := by
    have hmem := @areSeparators_dropComments false false id s.text
    rw [h.blank] at hmem
    exact hmem

theorem Scans.isLexed (h : s.Scans ts s') : ∀ t ∈ ts, t.IsLexed := by
  induction h with
  | nil => exact fun t ht => absurd ht List.not_mem_nil
  | cons htake _ ih =>
    intro t ht
    rcases List.mem_cons.mp ht with rfl | ht
    · exact htake.isLexed
    · exact ih t ht

/-- Two runs make one. -/
theorem Scans.append (h : s.Scans ts s') (h' : s'.Scans us s'') :
    s.Scans (ts ++ us) s'' := by
  induction h with
  | nil => exact h'
  | cons htake _ ih => exact .cons htake (ih h')

/-- A run over some tokens and then others is two runs. -/
theorem scans_append_iff :
    s.Scans (ts ++ us) s'' ↔ ∃ s', s.Scans ts s' ∧ s'.Scans us s'' := by
  constructor
  · intro h
    induction ts generalizing s with
    | nil => exact ⟨s, .nil s, h⟩
    | cons t ts ih =>
      cases h with
      | cons htake hrest =>
        obtain ⟨m, hm, hus⟩ := ih hrest
        exact ⟨m, .cons htake hm, hus⟩
  · rintro ⟨s', h, h'⟩
    exact h.append h'

/-- Where a token follows the blanks, there is a step over it. -/
theorem takes_of_spanBlank {p : Position} {cs text rest : List Char}
    {kind : TokenKind}
    (h : scanToken (spanBlank false cs).2 = .ok (some (kind, text, rest))) :
    Takes ⟨p, cs⟩
      ⟨kind, text, (spanBlank false cs).1,
        p.advanceAll (spanBlank false cs).1⟩
      ⟨(p.advanceAll (spanBlank false cs).1).advanceAll text, rest⟩ := by
  have happend : text ++ rest = (spanBlank false cs).2 := scanToken_append h
  refine ⟨?_, ?_, rfl, rfl⟩
  · show spanBlank false cs = ((spanBlank false cs).1, text ++ rest)
    rw [happend]
  · show scanToken (text ++ rest) = _
    rw [happend]
    exact h

/-- A step of the lexer is a step of `tokensFrom`. -/
theorem tokensFrom_of_takes (h : s.Takes t s') :
    tokensFrom s.place s.text
      = (tokensFrom s'.place s'.text).map (t :: ·) := by
  obtain ⟨kind, text, leading, position⟩ := t
  obtain ⟨hblank, htoken, hposition, hplace⟩ := h
  simp only at hblank htoken hposition hplace
  have hscan : scanToken (spanBlank false s.text).2
      = .ok (some (kind, text, s'.text)) := by
    rw [hblank]
    exact htoken
  rw [tokensFrom, hplace, hposition]
  simp only [hblank]
  split
  next fault hf => cases hf.symm.trans hscan
  next hf => cases hf.symm.trans hscan
  next kind' text' rest' hf =>
    cases hf.symm.trans hscan
    cases tokensFrom ((s.place.advanceAll leading).advanceAll text) s'.text with
    | error e => rfl
    | ok tokens => rfl

/-- A text has no token only if it is empty. -/
theorem eq_nil_of_scanToken {cs : List Char} (h : scanToken cs = .ok none) :
    cs = [] := by
  cases cs with
  | nil => rfl
  | cons c cs =>
    simp only [scanToken] at h
    repeat' split at h
    all_goals cases h

/-- Where nothing is left, `tokensFrom` stops. -/
theorem tokensFrom_of_ends (h : s.Ends last) :
    tokensFrom s.place s.text = .ok [last] := by
  have hscan : scanToken (spanBlank false s.text).2 = .ok none := by
    rw [h.blank]
    rfl
  rw [tokensFrom]
  split
  next fault hf => cases hf.symm.trans hscan
  next hf =>
    rw [h.blank]
    exact congrArg (fun t => Except.ok [t]) h.token.symm
  next kind text rest hf => cases hf.symm.trans hscan

/-- **A text splits into tokens exactly if a run leads to its end.** -/
theorem tokensFrom_eq_ok_iff {tokens : List Token} :
    tokensFrom s.place s.text = .ok tokens ↔
      ∃ ts s' last, s.Scans ts s' ∧ s'.Ends last ∧ tokens = ts ++ [last] := by
  constructor
  · obtain ⟨p, cs⟩ := s
    intro h
    simp only at h
    fun_induction tokensFrom p cs generalizing tokens with
    | case1 => cases h
    | case2 p cs leading place =>
      rename_i hf
      cases h
      refine ⟨[], ⟨p, cs⟩, _, .nil _, ⟨?_, rfl⟩, rfl⟩
      rw [← eq_nil_of_scanToken hf]
    | case3 => cases h
    | case4 p cs leading place kind text rest hf tokens hrest =>
      rename_i ih
      cases h
      obtain ⟨ts, s', last, hscans, hends, heq⟩ := ih hrest
      exact ⟨_ :: ts, s', last, .cons (takes_of_spanBlank hf) hscans, hends,
        congrArg _ heq⟩
  · rintro ⟨ts, s', last, hscans, hends, rfl⟩
    induction hscans with
    | nil => exact tokensFrom_of_ends hends
    | cons htake _ ih =>
      rw [tokensFrom_of_takes htake, ih hends]
      rfl

/-- Where no token follows the blanks, `tokensFrom` fails. -/
theorem tokensFrom_of_fails {blank rest : List Char} {e : LexError}
    (h : s.Fails blank rest e) : tokensFrom s.place s.text = .error e := by
  obtain ⟨fault, line, column⟩ := e
  obtain ⟨hblank, htoken, hline, hcolumn⟩ := h
  have hscan : scanToken (spanBlank false s.text).2 = .error fault := by
    rw [hblank]
    exact htoken
  simp only at hline hcolumn
  rw [tokensFrom, hline, hcolumn]
  simp only [hblank]
  split
  next fault' hf =>
    cases hf.symm.trans hscan
    rfl
  next hf => cases hf.symm.trans hscan
  next kind text rest hf => cases hf.symm.trans hscan

/-- **A text does not split into tokens exactly if a run leads to a place
without one.** -/
theorem tokensFrom_eq_error_iff {e : LexError} :
    tokensFrom s.place s.text = .error e ↔
      ∃ ts s' blank rest, s.Scans ts s' ∧ s'.Fails blank rest e := by
  constructor
  · obtain ⟨p, cs⟩ := s
    intro h
    simp only at h
    fun_induction tokensFrom p cs with
    | case1 p cs leading place fault hf =>
      cases h
      exact ⟨[], ⟨p, cs⟩, _, _, .nil _, rfl, hf, rfl, rfl⟩
    | case2 => cases h
    | case3 p cs leading place kind text rest hf e' hrest =>
      rename_i ih
      cases h
      obtain ⟨ts, s', blank, rest, hscans, hfails⟩ := ih hrest
      exact ⟨_ :: ts, s', blank, rest, .cons (takes_of_spanBlank hf) hscans,
        hfails⟩
    | case4 => cases h
  · rintro ⟨ts, s', blank, rest, hscans, hfails⟩
    induction hscans with
    | nil => exact tokensFrom_of_fails hfails
    | cons htake _ ih =>
      rw [tokensFrom_of_takes htake, ih hfails]
      rfl

/-! ## Texts that go on -/

/-- **A step stays the same in a longer text**, with blanks in front and
behind it a character that joins with nothing. -/
theorem Takes.extend (h : s.Takes t s') (seps : List Char)
    {after : List Char} (hs : AreSeparators seps) (ha : Breaks after)
    (p : Position) :
    ∃ t' p', Takes ⟨p, seps ++ (s.text ++ after)⟩ t' ⟨p', s'.text ++ after⟩ ∧
      t'.kind = t.kind ∧ t'.text = t.text ∧ t'.leading = seps ++ t.leading := by
  obtain ⟨c, cs, htext, -⟩ := h.isLexed.spells.head
  have hne : t.text ++ s'.text ≠ [] := by
    rw [htext]
    exact List.cons_ne_nil _ _
  have hslash : ∀ c ∈ after.head?, c ≠ '/' := ha.ne rfl
  have hblank := spanBlank_extend hne hslash h.blank
  have htoken := scanToken_extend ha h.token
  rw [List.append_assoc] at hblank
  refine ⟨⟨t.kind, t.text, seps ++ t.leading,
    p.advanceAll (seps ++ t.leading)⟩, _, ⟨?_, htoken, rfl, rfl⟩, rfl, rfl,
    rfl⟩
  exact spanBlank_separators hs hblank

/-- **A run stays the same in a longer text**, up to the positions of its
tokens. -/
theorem Scans.extend (h : s.Scans ts s') {after : List Char}
    (ha : Breaks after) (p : Position) :
    ∃ ts' p', Scans ⟨p, s.text ++ after⟩ ts' ⟨p', s'.text ++ after⟩ ∧
      ts'.map Token.kind = ts.map Token.kind ∧
      ts'.map Token.text = ts.map Token.text ∧
      ts'.map Token.leading = ts.map Token.leading := by
  induction h generalizing p with
  | nil => exact ⟨[], p, .nil _, rfl, rfl, rfl⟩
  | cons htake _ ih =>
    obtain ⟨t', p', htake', hkind, htext, hleading⟩ :=
      htake.extend [] .nil ha p
    obtain ⟨ts', p'', hscans, hkinds, htexts, hleadings⟩ := ih p'
    refine ⟨t' :: ts', p'', .cons htake' hscans, ?_, ?_, ?_⟩
    · rw [List.map_cons, List.map_cons, hkind, hkinds]
    · rw [List.map_cons, List.map_cons, htext, htexts]
    · rw [List.map_cons, List.map_cons, hleading, hleadings, List.nil_append]

/-- The characters of a run are those of its tokens and of the blanks in
front of them. -/
theorem Scans.text_eq (h : s.Scans ts s') :
    s.text = (ts.flatMap fun t => t.leading ++ t.text) ++ s'.text := by
  induction h with
  | nil => rfl
  | @cons s _ _ _ _ htake _ ih =>
    have happend := spanBlank_append false s.text
    rw [htake.blank] at happend
    rw [← happend, ih, List.flatMap_cons]
    simp only [List.append_assoc]

end Spot

end Entitlement
