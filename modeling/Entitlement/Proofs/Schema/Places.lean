import Entitlement.Proofs.Schema.Gaps

/-!
# Where tokens stand

The lexer keeps a position while it goes through a text, and tokens and errors
report it. It is the position behind all that was read: its offset counts the
bytes, its line the line feeds, and its column the characters behind the last
of them (`Position.IsBehind`). So a line and a column are those of one place
(`Position.IsBehind.eq_empty_of_append`), the bytes that a token reports as its
own spell what it says (`Token.StandsIn`), and between them there is nothing
but blanks and comments: the tokens partition the text (`Partitions`).

An error reports the position at which the reading ended. The text in front of
it splits into tokens by itself (`Spot.Scans.truncate`), and behind it there is
either a character that starts no token or a quote that is not closed on its
line (`LexFault.IsAt`).

What carries the proof along a run of the lexer is that it is at a place of
the text, with the position behind what comes before (`Spot.IsIn`): a step over
a gap and a token leads from place to place (`Spot.Takes.isIn`), and so a run
partitions what it goes through (`Spot.Scans.partitions`).
-/

namespace Entitlement

/-! ## Positions -/

/-- **Whether a position is the one behind a text.** -/
structure Position.IsBehind (p : Position) (before : String) : Prop where
  offset : p.offset = before.utf8ByteSize
  line : p.line = 1 + before.toList.count '\n'
  column : p.column = 1 + (before.toList.rtakeWhile (· != '\n')).length

/-- **To read some characters leads behind them.** -/
theorem Position.isBehind_advanceAll (before : List Char) :
    (start.advanceAll before).IsBehind (String.ofList before) := by
  induction before using List.reverseRecOn with
  | nil => exact ⟨rfl, rfl, rfl⟩
  | append_singleton before c ih =>
    obtain ⟨hoffset, hline, hcolumn⟩ := ih
    rw [String.toList_ofList] at hline hcolumn
    have hsize : (String.ofList (before ++ [c])).utf8ByteSize
        = (String.ofList before).utf8ByteSize + c.utf8Size := by
      rw [String.ofList_append, String.utf8ByteSize_append]
      simp
    rw [advanceAll_append, advanceAll_cons, advanceAll_nil, advance]
    by_cases hc : c = '\n'
    · subst hc
      rw [if_pos rfl]
      refine ⟨?_, ?_, ?_⟩
      · rw [hsize, hoffset]
      · rw [String.toList_ofList, List.count_append,
          List.count_singleton_self, hline, Nat.add_assoc]
      · rw [String.toList_ofList,
          List.rtakeWhile_concat_neg _ _ _ (by simp)]
        rfl
    · rw [if_neg hc]
      refine ⟨?_, ?_, ?_⟩
      · rw [hsize, hoffset]
      · rw [String.toList_ofList, List.count_append, List.count_singleton,
          hline]
        simp [hc]
      · rw [String.toList_ofList,
          List.rtakeWhile_concat_pos _ _ _ (by simpa using hc), hcolumn,
          List.length_append]
        rfl

/-- Without a line feed a text goes on with its last line. -/
theorem rtakeWhile_append_of_not_mem {before after : List Char}
    (h : '\n' ∉ after) :
    (before ++ after).rtakeWhile (· != '\n')
      = before.rtakeWhile (· != '\n') ++ after := by
  unfold List.rtakeWhile
  rw [List.reverse_append, List.takeWhile_append_of_pos, List.reverse_append,
    List.reverse_reverse]
  intro c hc
  rw [bne_iff_ne]
  rintro rfl
  exact h (List.mem_reverse.mp hc)

/-- **A line and a column are those of one place** of a text: where it goes
on, one of them changes. -/
theorem Position.IsBehind.eq_empty_of_append {p q : Position}
    {before after : String} (hp : p.IsBehind before)
    (hq : q.IsBehind (before ++ after)) (hline : p.line = q.line)
    (hcolumn : p.column = q.column) : after = "" := by
  rw [hp.line, hq.line, String.toList_append, List.count_append] at hline
  have hnone : '\n' ∉ after.toList := by
    rw [← List.count_eq_zero]
    omega
  rw [hp.column, hq.column, String.toList_append,
    rtakeWhile_append_of_not_mem hnone, List.length_append] at hcolumn
  have hlength : after.toList.length = 0 := by omega
  exact String.toList_eq_nil_iff.mp (List.length_eq_zero_iff.mp hlength)

/-! ## Tokens in a text -/

/-- **Whether a token stands in a text where it says**: its position is that
behind what comes before, and its bytes spell its content, in quotes if it is
a string. -/
structure Token.StandsIn (t : Token) (source : String) : Prop where
  position : ∃ before after, source = before ++ after ∧
    t.position.IsBehind before
  size_pos : 0 < t.size
  size_eq : t.size
    = t.value.utf8ByteSize + if t.kind = .string then 2 else 0
  bytes : ∃ quote : String,
    (if t.kind = .string then quote = "\"" ∨ quote = "'" else quote = "") ∧
      source.toUTF8.extract t.position.offset (t.position.offset + t.size)
        = (quote ++ t.value ++ quote).toUTF8

/-- Whether there is a gap between two offsets of a text. -/
def IsGapIn (source : String) (start stop : Nat) : Prop :=
  ∃ before gap after : String, source = before ++ gap ++ after ∧
    start = before.utf8ByteSize ∧ stop = (before ++ gap).utf8ByteSize ∧
      IsGap gap.toList after.toList

/-- **The gaps that tokens leave** between two offsets: in front of each of
them, and behind the last. -/
def gapsBetween (start : Nat) : List Token → Nat → List (Nat × Nat)
  | [], stop => [(start, stop)]
  | t :: ts, stop =>
    (start, t.position.offset) ::
      gapsBetween (t.position.offset + t.size) ts stop

/-- **Whether tokens partition a text** between two offsets: they stand in it
one behind the other, and what they leave are gaps. -/
structure Partitions (source : String) (start : Nat) (tokens : List Token)
    (stop : Nat) : Prop where
  stands : ∀ t ∈ tokens, t.StandsIn source
  gaps : ∀ gap ∈ gapsBetween start tokens stop, IsGapIn source gap.1 gap.2
  ordered : tokens.Pairwise fun t u =>
    t.position.offset + t.size ≤ u.position.offset

variable {source : String} {start stop : Nat} {t : Token} {ts : List Token}

/-- A gap ends behind its start. -/
theorem IsGapIn.le (h : IsGapIn source start stop) : start ≤ stop := by
  obtain ⟨before, gap, after, -, rfl, rfl, -⟩ := h
  rw [String.utf8ByteSize_append]
  exact Nat.le_add_right _ _

namespace Partitions

theorem nil (h : IsGapIn source start stop) :
    Partitions source start [] stop where
  stands := fun _ ht => absurd ht List.not_mem_nil
  gaps := List.forall_mem_singleton.mpr h
  ordered := .nil

/-- The tokens of a partition stand behind its start. -/
theorem start_le (h : Partitions source start ts stop) :
    ∀ t ∈ ts, start ≤ t.position.offset := by
  obtain ⟨-, hgaps, -⟩ := h
  induction ts generalizing start with
  | nil => exact fun t ht => absurd ht List.not_mem_nil
  | cons u ts ih =>
    rw [gapsBetween, List.forall_mem_cons] at hgaps
    have hle := hgaps.1.le
    intro t ht
    rcases List.mem_cons.mp ht with rfl | ht
    · exact hle
    · have hrest := ih hgaps.2 t ht
      omega

/-- A gap and a token in front of a partition belong to it. -/
theorem cons (hgap : IsGapIn source start t.position.offset)
    (ht : t.StandsIn source)
    (h : Partitions source (t.position.offset + t.size) ts stop) :
    Partitions source start (t :: ts) stop where
  stands := List.forall_mem_cons.mpr ⟨ht, h.stands⟩
  gaps := List.forall_mem_cons.mpr ⟨hgap, h.gaps⟩
  ordered := .cons h.start_le h.ordered

end Partitions

/-! ## Slices -/

/-- The bytes of a text between two places are those of what is there. -/
theorem extract_toUTF8 (before slice after : String) :
    (before ++ slice ++ after).toUTF8.extract before.utf8ByteSize
        (before.utf8ByteSize + slice.utf8ByteSize)
      = slice.toUTF8 := by
  simp only [String.toUTF8_eq_toByteArray, String.toByteArray_append,
    ← String.size_toByteArray]
  rw [ByteArray.append_assoc, ByteArray.extract_append,
    ByteArray.extract_eq_empty_iff.mpr (by omega), ByteArray.empty_append,
    Nat.sub_self, Nat.add_sub_cancel_left, ByteArray.extract_append_eq_left rfl]

/-- A string is written in quotes. -/
theorem TokenKind.Spells.exists_string {kind : TokenKind} {text : List Char}
    (h : kind.Spells text) (hkind : kind = .string) :
    ∃ quote body, (quote = '"' ∨ quote = '\'') ∧
      text = quote :: (body ++ [quote]) := by
  cases h with
  | string hquote _ => exact ⟨_, _, hquote, rfl⟩
  | word =>
    unfold TokenKind.ofWord at hkind
    split at hkind <;> cases hkind
  | number => cases hkind
  | char => cases hkind
  | pair => cases hkind

/-- A token is written as its content, in quotes if it is a string. -/
theorem Token.IsLexed.exists_quote (h : t.IsLexed) :
    ∃ quote : String,
      (if t.kind = .string then quote = "\"" ∨ quote = "'" else quote = "") ∧
        String.ofList t.text = quote ++ t.value ++ quote := by
  unfold value
  by_cases hkind : t.kind = .string
  · obtain ⟨quote, body, hquote, htext⟩ := h.spells.exists_string hkind
    rw [hkind, htext]
    refine ⟨String.ofList [quote], ?_, ?_⟩
    · rcases hquote with rfl | rfl
      · exact .inl rfl
      · exact .inr rfl
    · rw [← String.ofList_append, ← String.ofList_append]
      simp
  · refine ⟨"", by rw [if_neg hkind], ?_⟩
    split
    next hstring => exact absurd hstring hkind
    next => rw [String.empty_append, String.append_empty]

/-- **A token stands where it was read.** -/
theorem Token.IsLexed.standsIn (h : t.IsLexed) {before after : String}
    (hsource : source = before ++ String.ofList t.text ++ after)
    (hposition : t.position.IsBehind before) : t.StandsIn source := by
  obtain ⟨quote, hquote, hwritten⟩ := h.exists_quote
  refine ⟨⟨before, String.ofList t.text ++ after, ?_, hposition⟩, ?_, ?_,
    quote, hquote, ?_⟩
  · rw [hsource, String.append_assoc]
  · obtain ⟨c, cs, htext, -⟩ := h.spells.head
    rw [size, htext, Nat.pos_iff_ne_zero, Ne, String.utf8ByteSize_eq_zero_iff,
      String.ofList_eq_empty_iff]
    exact List.cons_ne_nil c cs
  · rw [size, hwritten, String.utf8ByteSize_append,
      String.utf8ByteSize_append]
    split at hquote
    next hstring =>
      have hone : quote.utf8ByteSize = 1 := by
        rcases hquote with rfl | rfl <;> rfl
      rw [if_pos hstring]
      omega
    next hstring =>
      rw [if_neg hstring, hquote, String.utf8ByteSize_empty, Nat.zero_add]
  · rw [size, hposition.offset, hsource, extract_toUTF8, hwritten]

/-! ## Runs of the lexer -/

namespace Spot

variable {s s' : Spot} {blank rest : List Char}

/-- **Whether the lexer is at a place of a text**: what is left of the text is
behind it, and its position is that behind what is gone. -/
def IsIn (s : Spot) (source : String) : Prop :=
  ∃ before, source.toList = before ++ s.text ∧
    s.place = Position.start.advanceAll before

theorem isIn_start (source : String) :
    IsIn ⟨.start, source.toList⟩ source :=
  ⟨[], rfl, rfl⟩

/-- To skip the blanks and comments leads over a gap. -/
theorem IsIn.gap (h : s.IsIn source)
    (hblank : spanBlank false s.text = (blank, rest)) :
    ∃ before, source.toList = before ++ rest ∧
      s.place.advanceAll blank = Position.start.advanceAll before ∧
      IsGapIn source s.place.offset (String.ofList before).utf8ByteSize := by
  obtain ⟨before, htext, hplace⟩ := h
  have happend : blank ++ rest = s.text := by
    have happend := spanBlank_append false s.text
    rwa [hblank] at happend
  rw [← happend, ← List.append_assoc] at htext
  refine ⟨before ++ blank, htext, ?_, ?_⟩
  · rw [hplace, Position.advanceAll_append]
  · refine ⟨String.ofList before, String.ofList blank, String.ofList rest, ?_,
      ?_, ?_, ?_⟩
    · rw [← String.ofList_append, ← String.ofList_append, ← htext,
        String.ofList_toList]
    · rw [hplace, (Position.isBehind_advanceAll before).offset]
    · rw [String.ofList_append]
    · rw [String.toList_ofList, String.toList_ofList]
      exact isGap_of_spanBlank hblank

/-- **A step leads over a gap and a token to another place of the text.** -/
theorem Takes.isIn (h : s.Takes t s') (hs : s.IsIn source) :
    t.StandsIn source ∧ IsGapIn source s.place.offset t.position.offset ∧
      s'.IsIn source ∧ s'.place.offset = t.position.offset + t.size := by
  obtain ⟨before, htext, hplace, hgap⟩ := hs.gap h.blank
  rw [← h.position] at hplace
  have hbehind := Position.isBehind_advanceAll before
  rw [← hplace] at hbehind
  have hplace' : s'.place = Position.start.advanceAll (before ++ t.text) := by
    rw [h.place, hplace, Position.advanceAll_append]
  have hsource : source = String.ofList before ++ String.ofList t.text
      ++ String.ofList s'.text := by
    rw [String.append_assoc, ← String.ofList_append, ← String.ofList_append,
      ← htext, String.ofList_toList]
  refine ⟨h.isLexed.standsIn hsource hbehind, ?_, ⟨before ++ t.text, ?_,
    hplace'⟩, ?_⟩
  · rwa [hbehind.offset]
  · rw [htext, List.append_assoc]
  · rw [hplace', (Position.isBehind_advanceAll _).offset, hbehind.offset,
      String.ofList_append, String.utf8ByteSize_append]
    rfl

theorem Scans.isIn (h : s.Scans ts s') (hs : s.IsIn source) :
    s'.IsIn source := by
  induction h with
  | nil => exact hs
  | cons htake _ ih => exact ih (htake.isIn hs).2.2.1

/-- **A run partitions what it goes through**, and the gap behind it. -/
theorem Scans.partitions (h : s.Scans ts s') (hs : s.IsIn source)
    (hlast : IsGapIn source s'.place.offset stop) :
    Partitions source s.place.offset ts stop := by
  induction h with
  | nil => exact .nil hlast
  | cons htake _ ih =>
    obtain ⟨hstands, hgap, hs', hoffset⟩ := htake.isIn hs
    have hrest := ih hs' hlast
    rw [hoffset] at hrest
    exact .cons hgap hstands hrest

/-- The tokens of a text partition it as far as the last blank. -/
theorem Scans.partitions_start {source : String}
    (h : Scans ⟨.start, source.toList⟩ ts s')
    (hblank : spanBlank false s'.text = (blank, rest)) :
    ∃ before, source.toList = before ++ rest ∧
      (s'.place.advanceAll blank).IsBehind (String.ofList before) ∧
      Partitions source 0 ts (String.ofList before).utf8ByteSize := by
  have hstart := isIn_start source
  obtain ⟨before, htext, hplace, hgap⟩ := (h.isIn hstart).gap hblank
  refine ⟨before, htext, ?_, h.partitions hstart hgap⟩
  rw [hplace]
  exact Position.isBehind_advanceAll before

end Spot

/-! ## Texts that are cut off -/

/-- A text that is cut off ends a token as it did. -/
theorem endsAlike_of_append (y after : List Char) :
    EndsAlike (y ++ after) y := by
  cases y with
  | nil => exact .inl fun c hc => by cases hc
  | cons c y =>
    refine .inr ⟨c, y ++ after, y, rfl, rfl, ?_⟩
    cases y with
    | nil => exact .inl fun c hc => by cases hc
    | cons d y => exact .inr rfl

namespace Spot

variable {s s' : Spot} {y after : List Char}

/-- A step stays the same if the text is cut off behind its token. -/
theorem Takes.truncate (h : s.Takes t s') (hs' : s'.text = y ++ after) :
    ∃ x, s.text = x ++ after ∧ Takes ⟨s.place, x⟩ t ⟨s'.place, y⟩ := by
  obtain ⟨hblank, hcomment⟩ := rest_of_spanBlank h.blank
  have hgap := isGap_of_spanBlank h.blank
  obtain ⟨c, cs, htext, -⟩ := h.isLexed.spells.head
  have hhead : (t.text ++ y).head? = (t.text ++ s'.text).head? := by
    rw [htext]
    rfl
  rw [← hhead] at hblank
  have hspan : spanBlank false (t.leading ++ (t.text ++ y))
      = (t.leading, t.text ++ y) := by
    refine (hgap.truncate fun c hc => ?_).spanBlank_eq hblank ?_
    · rwa [← hhead]
    · intro ds heq
      refine hcomment (ds ++ after) ?_
      rw [hs', ← List.append_assoc, heq]
      rfl
  have htoken := endsBefore_of_scanToken h.token
  rw [hs'] at htoken
  refine ⟨t.leading ++ (t.text ++ y), ?_, hspan,
    (htoken.replace (endsAlike_of_append y after)).scanToken_eq, h.position,
    h.place⟩
  have happend := spanBlank_append false s.text
  rw [h.blank, hs'] at happend
  rw [← happend]
  simp only [List.append_assoc]

/-- **A run stays the same if the text is cut off behind it.** -/
theorem Scans.truncate (h : s.Scans ts s') (hs' : s'.text = y ++ after) :
    ∃ x, s.text = x ++ after ∧ Scans ⟨s.place, x⟩ ts ⟨s'.place, y⟩ := by
  induction h with
  | nil s => exact ⟨y, hs', .nil _⟩
  | cons htake _ ih =>
    obtain ⟨x, hx, hscans⟩ := ih hs'
    obtain ⟨x', hx', htake'⟩ := htake.truncate hx
    exact ⟨x', hx', .cons htake' hscans⟩

end Spot

/-! ## Whole texts -/

/-- **Tokens and errors tell their places.** If a text splits into tokens, the
last of them alone stands for the end of the text and is behind all of it, and
the others partition the text. If not, the text in front of the place that the
error reports does, and there is no token at that place for the reason that
the error gives. -/
theorem tokens_tell_their_places (source : String) :
    match tokenize source with
    | .ok tokens =>
      ∃ front last, tokens = front ++ [last] ∧
        last.kind = .endOfText ∧ last.position.IsBehind source ∧
        (∀ t ∈ front, t.kind ≠ .endOfText) ∧
        Partitions source 0 front source.utf8ByteSize
    | .error e =>
      ∃ before rest front last, source = before ++ rest ∧
        tokenize before = .ok (front ++ [last]) ∧
        last.position.IsBehind before ∧
        e.line = last.position.line ∧ e.column = last.position.column ∧
        Partitions source 0 front before.utf8ByteSize ∧
        e.fault.IsAt rest.toList := by
  let s : Spot := ⟨.start, source.toList⟩
  split
  next tokens htokens =>
    obtain ⟨front, s', last, hscans, hends, rfl⟩ :=
      (Spot.tokensFrom_eq_ok_iff (s := s)).mp htokens
    obtain ⟨before, htext, hbehind, hpartitions⟩ :=
      hscans.partitions_start hends.blank
    rw [List.append_nil] at htext
    rw [← htext, String.ofList_toList] at hbehind hpartitions
    refine ⟨front, last, rfl, ?_, ?_, ?_, hpartitions⟩
    · rw [hends.token]
    · rw [hends.token]
      exact hbehind
    · exact fun t ht => (hscans.isLexed t ht).spells.ne_endOfText
  next e herror =>
    obtain ⟨front, s', blank, rest, hscans, hfails⟩ :=
      (Spot.tokensFrom_eq_error_iff (s := s)).mp herror
    obtain ⟨before, htext, hbehind, hpartitions⟩ :=
      hscans.partitions_start hfails.skips
    -- the text is cut off where the error is, behind the last gap
    have hblank : s'.text = blank ++ rest := by
      have happend := spanBlank_append false s'.text
      rw [hfails.skips] at happend
      exact happend.symm
    obtain ⟨x, hx, hscans'⟩ := hscans.truncate hblank
    obtain rfl : before = x := List.append_cancel_right (htext.symm.trans hx)
    have hskip := (isGap_of_spanBlank hfails.skips).spanBlank_self
    have hends := Spot.ends_of_spanBlank (s := ⟨s'.place, blank⟩) hskip
    refine ⟨String.ofList before, String.ofList rest, front,
      ⟨.endOfText, [], blank, s'.place.advanceAll blank⟩, ?_, ?_, hbehind,
      hfails.line, hfails.column, hpartitions, ?_⟩
    · rw [← String.ofList_append, ← htext, String.ofList_toList]
    · rw [tokenize, String.toList_ofList]
      exact Spot.tokensFrom_eq_ok_iff.mpr ⟨front, _, _, hscans', hends, rfl⟩
    · rw [String.toList_ofList]
      exact isAt_of_scanToken hfails.token

end Entitlement
