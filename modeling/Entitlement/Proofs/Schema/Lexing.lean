import Entitlement.Schema.Parser

/-!
# What the lexer takes at one place

The lexer skips the blanks and comments at a place and takes the token
behind them. It takes a text as a token of some kind exactly if the text is
written as the kind is and what follows does not go on with it:
`TokenKind.EndsBefore` says so form by form (`scanToken_eq_ok_iff`), and
later proofs go by its cases and not by those of `scanToken`. So what was
taken is written as its kind is (`TokenKind.Spells`), and what was skipped
is blank once its comments are dropped; `Token.IsLexed` says both.
-/

namespace Entitlement

/-! ## Blanks and comments -/

/-- Whether a text consists of separators. -/
def AreSeparators (cs : List Char) : Prop :=
  ∀ c ∈ cs, isSeparator c = true

namespace AreSeparators

theorem nil : AreSeparators [] :=
  fun _ h => absurd h List.not_mem_nil

theorem of_all {cs : List Char} (h : cs.all isSeparator = true) :
    AreSeparators cs :=
  List.all_eq_true.mp h

/-- The end of a line separates. -/
theorem line : AreSeparators ['\n'] := of_all rfl

theorem append {cs ds : List Char} (hc : AreSeparators cs)
    (hd : AreSeparators ds) : AreSeparators (cs ++ ds) := by
  intro c h
  rcases List.mem_append.mp h with h | h
  · exact hc c h
  · exact hd c h

end AreSeparators

/-- What follows the blanks is no comment and no blank. -/
theorem rest_of_spanBlank {cs blank rest : List Char}
    (h : spanBlank false cs = (blank, rest)) :
    (∀ c ∈ rest.head?, isSeparator c = false) ∧
      ∀ cs, rest ≠ '/' :: '/' :: cs := by
  have hall : ∀ inComment, (spanBlank inComment cs).2 = rest →
      (∀ c ∈ rest.head?, isSeparator c = false) ∧
        ∀ cs, rest ≠ '/' :: '/' :: cs := by
    clear h
    intro inComment h
    fun_induction spanBlank inComment cs with
    | case1 =>
      subst h
      simp
    | case2 inComment cs blank rest' heq ih => exact ih (by simpa [heq] using h)
    | case3 inComment c cs hnot hblank blank rest' heq ih =>
      exact ih (by simpa [heq] using h)
    | case4 inComment c cs hnot hblank =>
      subst h
      simp only [Bool.or_eq_true, not_or, Bool.not_eq_true] at hblank
      refine ⟨?_, ?_⟩
      · intro d hd
        cases hd
        exact hblank.1
      · rintro ds heq
        cases heq
        exact hnot ds rfl rfl
  exact hall false (by rw [h])

/-- A character that neither ends a line nor starts a comment is dropped
only inside a comment. -/
theorem dropComments_cons {c : Char} {cs : List Char} (dropping : Bool)
    (hline : c ≠ '\n') (hstart : ∀ ds, c = '/' → cs = '/' :: ds → False) :
    dropComments dropping (c :: cs)
      = if dropping then dropComments true cs
        else c :: dropComments false cs := by
  rw [dropComments.eq_4 _ _ _ hline hstart]

/-- **Without its comments, what is skipped is blank.** The lexer ends a
comment at a carriage return too, so it may be outside of a comment that
is still being dropped. -/
theorem areSeparators_dropComments {inComment dropping : Bool}
    (hd : inComment = true → dropping = true) (cs : List Char) :
    AreSeparators (dropComments dropping (spanBlank inComment cs).1) := by
  fun_induction spanBlank inComment cs generalizing dropping with
  | case1 => exact .nil
  | case2 inComment cs blank rest heq ih =>
    rw [heq] at ih
    exact ih fun _ => rfl
  | case3 inComment c cs hnot hblank blank rest heq ih =>
    rw [heq] at ih
    by_cases hline : c = '\n'
    · subst hline
      intro d hmem
      rcases List.mem_cons.mp hmem with rfl | hmem
      · rfl
      · exact ih (by simp [isLineEnd]) d hmem
    have hstart : ∀ ds, c = '/' → blank = '/' :: ds → False := by
      rintro ds hc rfl
      have happend := spanBlank_append (inComment && !isLineEnd c) cs
      rw [heq] at happend
      exact hnot (ds ++ rest) hc happend.symm
    rw [dropComments_cons dropping hline hstart]
    cases dropping with
    | true => exact ih fun _ => rfl
    | false =>
      have hout : inComment = false := by
        cases inComment with
        | true => cases hd rfl
        | false => rfl
      subst hout
      intro d hmem
      rcases List.mem_cons.mp hmem with rfl | hmem
      · simpa using hblank
      · exact ih (by simp) d hmem
  | case4 => exact .nil

/-- Separators in front of a text are skipped with its blanks. -/
theorem spanBlank_separators {seps cs blank rest : List Char}
    (hs : AreSeparators seps) (h : spanBlank false cs = (blank, rest)) :
    spanBlank false (seps ++ cs) = (seps ++ blank, rest) := by
  induction seps with
  | nil => exact h
  | cons c seps ih =>
    have hc := hs c List.mem_cons_self
    have hne : c ≠ '/' := by
      rintro rfl
      cases hc
    rw [List.cons_append, spanBlank.eq_3 _ _ _ (by
      intro ds heq
      exact absurd heq hne)]
    simp only [hc, Bool.true_or, if_true, Bool.false_and]
    rw [ih fun d hd => hs d (List.mem_cons_of_mem c hd)]
    rfl

/-- What is skipped in front of a token is skipped in a longer text too,
unless the text goes on with a slash. -/
theorem spanBlank_extend {inComment : Bool} {cs blank rest after : List Char}
    (hr : rest ≠ []) (ha : ∀ c ∈ after.head?, c ≠ '/')
    (h : spanBlank inComment cs = (blank, rest)) :
    spanBlank inComment (cs ++ after) = (blank, rest ++ after) := by
  fun_induction spanBlank inComment cs generalizing blank with
  | case1 =>
    cases h
    exact absurd rfl hr
  | case2 inComment cs blank' rest' heq ih =>
    simp only [Prod.mk.injEq] at h
    obtain ⟨rfl, rfl⟩ := h
    rw [List.cons_append, List.cons_append, spanBlank, ih heq]
  | case3 inComment c cs hnot hblank blank' rest' heq ih =>
    simp only [Prod.mk.injEq] at h
    obtain ⟨rfl, rfl⟩ := h
    have hstart : ∀ ds, c = '/' → cs ++ after = '/' :: ds → False := by
      intro ds hc heq'
      cases cs with
      | nil =>
        cases heq
        exact hr rfl
      | cons d cs =>
        cases heq'
        exact hnot cs hc rfl
    rw [List.cons_append, spanBlank.eq_3 _ _ _ hstart, if_pos hblank, ih heq]
  | case4 inComment c cs hnot hblank =>
    cases h
    have hstart : ∀ ds, c = '/' → cs ++ after = '/' :: ds → False := by
      intro ds hc heq
      cases cs with
      | nil =>
        have hhead : '/' ∈ after.head? := by
          rw [show after = '/' :: ds from heq]
          rfl
        exact ha '/' hhead rfl
      | cons d cs =>
        cases heq
        exact hnot cs hc rfl
    rw [List.cons_append, spanBlank.eq_3 _ _ _ hstart, if_neg hblank]

/-! ## What tokens look like -/

/-- **Whether a text is a name**: an ASCII letter or underscore, then ASCII
letters, digits and underscores, and not a reserved word. -/
def isName (s : String) : Bool :=
  match s.toList with
  | [] => false
  | c :: cs =>
    isWordStart c && cs.all isWordPart && (Keyword.ofSpelling? s).isNone

/-- **How the kinds of tokens are written.** -/
inductive TokenKind.Spells : TokenKind → List Char → Prop
  | string {quote : Char} {body : List Char} :
      quote = '"' ∨ quote = '\'' →
      scanString quote false (body ++ [quote]) = some (body, []) →
      Spells .string (quote :: (body ++ [quote]))
  | number {c : Char} {cs : List Char} : isDigit c = true →
      (∀ d ∈ cs, isDigit d = true ∨ d = '.') →
      Spells .number (c :: cs)
  | word {c : Char} {cs : List Char} : isWordStart c = true →
      cs.all isWordPart = true →
      Spells (.ofWord (String.ofList (c :: cs))) (c :: cs)
  | char {c : Char} {m : Mark} : Mark.ofChar? c = some m →
      Spells (.mark m) [c]
  | pair {c d : Char} {m : Mark} : Mark.ofPair? c d = some m →
      Spells (.mark m) [c, d]

/-- **What is a token in front of the rest of a text**: it is written as its
kind is, and the rest does not go on with it. -/
inductive TokenKind.EndsBefore : TokenKind → List Char → List Char → Prop
  | string {quote : Char} {body rest : List Char} :
      quote = '"' ∨ quote = '\'' →
      scanString quote false (body ++ [quote]) = some (body, []) →
      EndsBefore .string (quote :: (body ++ [quote])) rest
  | number {c : Char} {cs rest : List Char} : isDigit c = true →
      scanNumber (c :: cs ++ rest) = (c :: cs, rest) →
      EndsBefore .number (c :: cs) rest
  | word {c : Char} {cs rest : List Char} : isWordStart c = true →
      (∀ d ∈ cs, isWordPart d = true) →
      (∀ d ∈ rest.head?, isWordPart d = false) →
      EndsBefore (.ofWord (String.ofList (c :: cs))) (c :: cs) rest
  | pair {c d : Char} {m : Mark} {rest : List Char} :
      Mark.ofPair? c d = some m → EndsBefore (.mark m) [c, d] rest
  | char {c : Char} {m : Mark} {rest : List Char} :
      Mark.ofChar? c = some m → (∀ d ∈ rest.head?, Mark.ofPair? c d = none) →
      EndsBefore (.mark m) [c] rest

/-! ### Strings -/

/-- A string literal is read from its own characters. -/
theorem scanString_self {quote : Char} {escaped : Bool}
    {cs body rest : List Char}
    (h : scanString quote escaped cs = some (body, rest)) :
    scanString quote escaped (body ++ [quote]) = some (body, []) := by
  fun_induction scanString quote escaped cs generalizing body with
  | case1 => cases h
  | case2 escaped c cs hc ih =>
    obtain ⟨⟨body', rest'⟩, hb, heq⟩ := Option.map_eq_some_iff.mp h
    cases heq
    rw [List.cons_append, scanString, if_pos hc, ih hb]
    rfl
  | case3 escaped c cs hc hq =>
    cases h
    obtain ⟨rfl, rfl⟩ := hq
    rw [List.nil_append, scanString, if_neg hc, if_pos ⟨rfl, rfl⟩]
  | case4 => cases h
  | case5 escaped c cs hc hq hn ih =>
    obtain ⟨⟨body', rest'⟩, hb, heq⟩ := Option.map_eq_some_iff.mp h
    cases heq
    rw [List.cons_append, scanString, if_neg hc, if_neg hq, if_neg hn, ih hb]
    rfl

/-- A string literal ends at its quote, whatever follows. -/
theorem scanString_extend {quote : Char} {escaped : Bool}
    {cs body rest : List Char}
    (h : scanString quote escaped cs = some (body, rest))
    (after : List Char) :
    scanString quote escaped (cs ++ after) = some (body, rest ++ after) := by
  fun_induction scanString quote escaped cs generalizing body with
  | case1 => cases h
  | case2 escaped c cs hc ih =>
    obtain ⟨⟨body', rest'⟩, hb, heq⟩ := Option.map_eq_some_iff.mp h
    cases heq
    rw [List.cons_append, scanString, if_pos hc, ih hb]
    rfl
  | case3 escaped c cs hc hq =>
    cases h
    rw [List.cons_append, scanString, if_neg hc, if_pos hq]
  | case4 => cases h
  | case5 escaped c cs hc hq hn ih =>
    obtain ⟨⟨body', rest'⟩, hb, heq⟩ := Option.map_eq_some_iff.mp h
    cases heq
    rw [List.cons_append, scanString, if_neg hc, if_neg hq, if_neg hn, ih hb]
    rfl

/-! ### Words and numbers -/

/-- A run of characters ends in front of another one. -/
theorem takeWhile_append_of_head {p : Char → Bool} {cs rest : List Char}
    (hcs : ∀ c ∈ cs, p c = true) (hr : ∀ c ∈ rest.head?, p c = false) :
    (cs ++ rest).takeWhile p = cs ∧ (cs ++ rest).dropWhile p = rest := by
  rw [List.takeWhile_append_of_pos hcs, List.dropWhile_append_of_pos hcs]
  cases rest with
  | nil => exact ⟨List.append_nil cs, rfl⟩
  | cons c rest =>
    have hc := hr c rfl
    simp [hc]

/-- The characters of a run are of its sort. -/
theorem forall_mem_takeWhile {p : Char → Bool} {cs : List Char} :
    ∀ c ∈ cs.takeWhile p, p c = true :=
  List.all_eq_true.mp List.all_takeWhile

/-- Behind a run stands another character. -/
theorem head_dropWhile {p : Char → Bool} {cs : List Char} :
    ∀ c ∈ (cs.dropWhile p).head?, p c = false := by
  intro c hc
  have hnot := List.head?_dropWhile_not p cs
  rw [hc] at hnot
  exact hnot

/-- **A number is digits, or digits with a fraction.** -/
theorem scanNumber_spec (cs : List Char) :
    (∀ c ∈ (scanNumber cs).2.head?, isDigit c = false) ∧
      ((∀ c ∈ (scanNumber cs).1, isDigit c = true) ∧
          (∀ d ds, (scanNumber cs).2 = '.' :: d :: ds → isDigit d = false) ∨
        ∃ whole fraction, (scanNumber cs).1 = whole ++ '.' :: fraction ∧
          (∀ c ∈ whole, isDigit c = true) ∧
          (∀ c ∈ fraction, isDigit c = true) ∧ fraction ≠ []) := by
  have hhead : ∀ c ∈ (cs.dropWhile isDigit).head?, isDigit c = false :=
    head_dropWhile
  unfold scanNumber
  split
  next d rest hd =>
    split
    next hdigit =>
      refine ⟨head_dropWhile, .inr ⟨_, _, rfl, forall_mem_takeWhile,
        forall_mem_takeWhile, ?_⟩⟩
      rw [List.takeWhile_cons, if_pos hdigit]
      exact List.cons_ne_nil _ _
    next hdigit =>
      rw [hd] at hhead
      refine ⟨hhead, .inl ⟨forall_mem_takeWhile, ?_⟩⟩
      rintro e ds heq
      cases heq
      exact Bool.not_eq_true _ ▸ hdigit
  next hd =>
    exact ⟨hhead, .inl ⟨forall_mem_takeWhile,
      fun d ds heq => absurd heq (hd d ds)⟩⟩

/-- A number is made of digits and a point. -/
theorem mem_scanNumber (cs : List Char) :
    ∀ c ∈ (scanNumber cs).1, isDigit c = true ∨ c = '.' := by
  intro c hc
  obtain ⟨-, ⟨hwhole, -⟩ | ⟨whole, fraction, heq, hwhole, hfraction, -⟩⟩ :=
    scanNumber_spec cs
  · exact .inl (hwhole c hc)
  · rw [heq] at hc
    rcases List.mem_append.mp hc with hc | hc
    · exact .inl (hwhole c hc)
    · rcases List.mem_cons.mp hc with rfl | hc
      · exact .inr rfl
      · exact .inl (hfraction c hc)

/-- The number at a digit begins with the digit. -/
theorem exists_scanNumber_eq {c : Char} (cs : List Char)
    (h : isDigit c = true) :
    ∃ ds rest, scanNumber (c :: cs) = (c :: ds, rest) ∧ ds ++ rest = cs := by
  have hne := scanNumber_ne_nil cs h
  have happend := scanNumber_append (c :: cs)
  rcases hscan : scanNumber (c :: cs) with ⟨number, rest⟩
  rw [hscan] at hne happend
  cases number with
  | nil => exact absurd rfl hne
  | cons d ds =>
    obtain ⟨rfl, hrest⟩ := List.cons.inj happend
    exact ⟨ds, rest, rfl, hrest⟩

/-! ### All kinds of tokens -/

/-- No number starts with a quote. -/
theorem not_quote_of_isDigit {c : Char} (h : isDigit c = true) :
    ¬ (c = '"' ∨ c = '\'') := by
  rintro (rfl | rfl) <;> cases h

/-- Nor does a word. -/
theorem not_quote_of_isWordStart {c : Char} (h : isWordStart c = true) :
    ¬ (c = '"' ∨ c = '\'') := by
  rintro (rfl | rfl) <;> cases h

/-- No word starts with a digit. -/
theorem isDigit_of_isWordStart {c : Char} (h : isWordStart c = true) :
    isDigit c = false := by
  simp only [isWordStart, Bool.or_eq_true, Bool.and_eq_true,
    decide_eq_true_eq, beq_iff_eq, Char.le_def, UInt32.le_iff_toNat_le] at h
  simp only [isDigit, Bool.and_eq_false_iff, decide_eq_false_iff_not,
    Char.le_def, UInt32.le_iff_toNat_le]
  rcases h with (h | h) | rfl
  · have h₁ : 97 ≤ c.val.toNat := h.1
    exact Or.inr (Nat.not_le.mpr (Nat.lt_of_lt_of_le (by decide) h₁))
  · have h₁ : 65 ≤ c.val.toNat := h.1
    exact Or.inr (Nat.not_le.mpr (Nat.lt_of_lt_of_le (by decide) h₁))
  · decide

/-- A mark starts neither a literal nor a word. -/
theorem starts_of_ofChar? {c : Char} {m : Mark}
    (h : Mark.ofChar? c = some m) :
    ¬ (c = '"' ∨ c = '\'') ∧ isDigit c = false ∧ isWordStart c = false := by
  unfold Mark.ofChar? at h
  split at h <;> first | decide | cases h

/-- Nor does a mark of two characters. -/
theorem starts_of_ofPair? {c d : Char} {m : Mark}
    (h : Mark.ofPair? c d = some m) :
    ¬ (c = '"' ∨ c = '\'') ∧ isDigit c = false ∧ isWordStart c = false := by
  unfold Mark.ofPair? at h
  split at h <;> first | decide | cases h

/-- What the lexer takes is a token in front of the rest. -/
theorem endsBefore_of_scanToken {cs text rest : List Char} {kind : TokenKind}
    (h : scanToken cs = .ok (some (kind, text, rest))) :
    kind.EndsBefore text rest := by
  cases cs with
  | nil => cases h
  | cons c cs =>
    simp only [scanToken] at h
    split at h
    next hquote =>
      split at h
      next body rest' hs =>
        cases h
        exact .string hquote (scanString_self hs)
      next => cases h
    next =>
      split at h
      next hdigit =>
        obtain ⟨ds, rest', heq, rfl⟩ := exists_scanNumber_eq cs hdigit
        rw [heq] at h
        cases h
        exact .number hdigit heq
      next =>
        split at h
        next hword =>
          cases h
          exact .word hword forall_mem_takeWhile head_dropWhile
        next =>
          split at h
          next m hm =>
            cases h
            obtain ⟨d, hd, hm⟩ := Option.bind_eq_some_iff.mp hm
            obtain ⟨ds, rfl⟩ := List.head?_eq_some_iff.mp hd
            exact .pair hm
          next m hnone hm =>
            cases h
            exact .char hm (Option.bind_eq_none_iff.mp hnone)
          next => cases h

/-- **The lexer takes what is a token in front of the rest.** -/
theorem TokenKind.EndsBefore.scanToken_eq {kind : TokenKind}
    {text rest : List Char} (h : kind.EndsBefore text rest) :
    scanToken (text ++ rest) = .ok (some (kind, text, rest)) := by
  cases h with
  | @string quote body rest hquote hs =>
    have hs' := scanString_extend hs rest
    rw [List.cons_append, scanToken, if_pos hquote, hs']
    rfl
  | number hdigit hn =>
    rw [List.cons_append] at hn ⊢
    rw [scanToken, if_neg (not_quote_of_isDigit hdigit), if_pos hdigit, hn]
  | word hword hcs hr =>
    obtain ⟨htake, hdrop⟩ := takeWhile_append_of_head hcs hr
    rw [List.cons_append, scanToken,
      if_neg (not_quote_of_isWordStart hword), isDigit_of_isWordStart hword,
      if_neg Bool.false_ne_true, if_pos hword, htake, hdrop]
  | pair hm =>
    obtain ⟨hquote, hdigit, hword⟩ := starts_of_ofPair? hm
    simp only [List.cons_append, List.nil_append, scanToken, hquote, hdigit,
      hword, List.head?_cons, Option.bind_some, hm]
    rfl
  | char hm hr =>
    obtain ⟨hquote, hdigit, hword⟩ := starts_of_ofChar? hm
    rw [List.cons_append, List.nil_append, scanToken, if_neg hquote, hdigit,
      if_neg Bool.false_ne_true, hword, if_neg Bool.false_ne_true,
      Option.bind_eq_none_iff.mpr hr, hm]

theorem scanToken_eq_ok_iff {kind : TokenKind} {text rest : List Char} :
    scanToken (text ++ rest) = .ok (some (kind, text, rest)) ↔
      kind.EndsBefore text rest :=
  ⟨endsBefore_of_scanToken, TokenKind.EndsBefore.scanToken_eq⟩

/-- **A token is written as its kind is.** -/
theorem TokenKind.EndsBefore.spells {kind : TokenKind} {text rest : List Char}
    (h : kind.EndsBefore text rest) : kind.Spells text := by
  cases h with
  | string hquote hs => exact .string hquote hs
  | @number c cs rest hdigit hn =>
    have hmem := mem_scanNumber (c :: cs ++ rest)
    rw [hn] at hmem
    exact .number hdigit fun d hd => hmem d (List.mem_cons_of_mem c hd)
  | word hword hcs _ => exact .word hword (List.all_eq_true.mpr hcs)
  | pair hm => exact .pair hm
  | char hm _ => exact .char hm

/-! ### Where tokens begin -/

theorem isBlank_of_isWordStart {c : Char} (h : isWordStart c = true) :
    isBlank c = false := by
  simp only [isWordStart, Bool.or_eq_true, Bool.and_eq_true,
    decide_eq_true_eq, beq_iff_eq, Char.le_def, UInt32.le_iff_toNat_le] at h
  simp only [isBlank, Char.toNat, Bool.or_eq_false_iff, Bool.and_eq_false_iff,
    decide_eq_false_iff_not, beq_eq_false_iff_ne]
  rcases h with (h | h) | rfl
  · have h₁ : 97 ≤ c.val.toNat := h.1
    have h₂ : c.val.toNat ≤ 122 := h.2
    omega
  · have h₁ : 65 ≤ c.val.toNat := h.1
    have h₂ : c.val.toNat ≤ 90 := h.2
    omega
  · decide

theorem isBlank_of_isDigit {c : Char} (h : isDigit c = true) :
    isBlank c = false := by
  simp only [isDigit, Bool.and_eq_true, decide_eq_true_eq, Char.le_def,
    UInt32.le_iff_toNat_le] at h
  simp only [isBlank, Char.toNat, Bool.or_eq_false_iff, Bool.and_eq_false_iff,
    decide_eq_false_iff_not, beq_eq_false_iff_ne]
  have h₁ : 48 ≤ c.val.toNat := h.1
  have h₂ : c.val.toNat ≤ 57 := h.2
  omega

theorem isBlank_of_ofChar? {c : Char} {m : Mark}
    (h : Mark.ofChar? c = some m) : isBlank c = false := by
  unfold Mark.ofChar? at h
  split at h <;> first | rfl | cases h

theorem isBlank_of_ofPair? {c d : Char} {m : Mark}
    (h : Mark.ofPair? c d = some m) : isBlank c = false := by
  unfold Mark.ofPair? at h
  split at h <;> first | rfl | cases h

/-- Separators are blank. -/
theorem isBlank_of_isSeparator {c : Char} (h : isSeparator c = true) :
    isBlank c = true := by
  simp only [isSeparator, Bool.or_eq_true, beq_iff_eq] at h
  rcases h with ((rfl | rfl) | rfl) | rfl <;> decide

/-- What is not blank is no separator. -/
theorem isSeparator_of_isBlank {c : Char} (h : isBlank c = false) :
    isSeparator c = false := by
  cases hsep : isSeparator c with
  | false => rfl
  | true => rw [isBlank_of_isSeparator hsep] at h; cases h

/-- No token begins with a blank. -/
theorem TokenKind.Spells.head {kind : TokenKind} {text : List Char}
    (h : kind.Spells text) : ∃ c cs, text = c :: cs ∧ isBlank c = false := by
  cases h with
  | string hquote _ =>
    refine ⟨_, _, rfl, ?_⟩
    rcases hquote with rfl | rfl <;> decide
  | number hc _ => exact ⟨_, _, rfl, isBlank_of_isDigit hc⟩
  | word hc _ => exact ⟨_, _, rfl, isBlank_of_isWordStart hc⟩
  | char hc => exact ⟨_, _, rfl, isBlank_of_ofChar? hc⟩
  | pair hc => exact ⟨_, _, rfl, isBlank_of_ofPair? hc⟩

/-- An identifier is a name. -/
theorem TokenKind.Spells.isName {text : List Char}
    (h : TokenKind.identifier.Spells text) :
    Entitlement.isName (String.ofList text) = true := by
  generalize hk : TokenKind.identifier = kind at h
  cases h with
  | word hc hcs =>
    rename_i c cs
    unfold TokenKind.ofWord at hk
    split at hk
    next => cases hk
    next hnone =>
      rw [Entitlement.isName, String.toList_ofList]
      simp only [hc, hcs, hnone, Bool.true_and, Option.isNone_none]
  | string => cases hk
  | number => cases hk
  | char => cases hk
  | pair => cases hk

/-- The end of the text is no token. -/
theorem TokenKind.Spells.ne_endOfText {kind : TokenKind} {text : List Char}
    (h : kind.Spells text) : kind ≠ .endOfText := by
  cases h with
  | word hc hcs =>
    unfold TokenKind.ofWord
    split <;> exact TokenKind.noConfusion
  | string => exact TokenKind.noConfusion
  | number => exact TokenKind.noConfusion
  | char => exact TokenKind.noConfusion
  | pair => exact TokenKind.noConfusion

/-- **What is known of a token that the lexer took.** -/
structure Token.IsLexed (t : Token) : Prop where
  spells : t.kind.Spells t.text
  leading : AreSeparators (dropComments false t.leading)

/-- The content of an identifier is a name. -/
theorem Token.IsLexed.isName {t : Token} (h : t.IsLexed)
    (hk : t.kind = .identifier) : Entitlement.isName t.value = true := by
  have hvalue : t.value = String.ofList t.text := by
    unfold Token.value
    rw [hk]
  have hspells := h.spells
  rw [hk] at hspells
  rw [hvalue]
  exact hspells.isName

end Entitlement
