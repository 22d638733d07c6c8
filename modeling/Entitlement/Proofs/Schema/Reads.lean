import Entitlement.Proofs.Schema.Enclosed
import Entitlement.Proofs.Schema.Grammar

/-!
# Reading a text from its front

What the lexer takes of a text that is known piece by piece. Behind some
separators stands a word or a mark, the lexer takes it, and what is left is
the text behind it. `Reads` says that a text is read as tokens of some sort
up to another text, and its lemmas take one piece each: a name, a reserved
word, a mark, tokens that are known already, or an expression between
brackets. So a text is read by going through its pieces in their order, and
the tokens are collected on the way.
-/

namespace Entitlement

/-! ## One token -/

/-- Whether a text does not go on with a word in front of it. -/
def EndsWord (after : List Char) : Prop :=
  ∀ c ∈ after.head?, isWordPart c = false

theorem endsWord_cons {c : Char} {cs : List Char}
    (h : isWordPart c = false) : EndsWord (c :: cs) := by
  intro d hd
  cases hd
  exact h

/-- Whether a mark makes no other one with what follows, nor a comment. -/
def Mark.standsAlone : Mark → Bool
  | lBrace | rBrace | lParen | rParen | lBracket | rBracket => true
  | dot | comma | atSign | hash => true
  | _ => false

theorem Mark.ofPair?_of_standsAlone {c : Char} {m : Mark}
    (hc : ofChar? c = some m) (hm : m.standsAlone = true) (d : Char) :
    ofPair? c d = none := by
  unfold ofChar? at hc
  split at hc <;> cases hc <;> first | rfl | cases hm

namespace Spot

variable {seps after : List Char}

/-- What is neither a separator nor a comment is read as a token, behind
separators. -/
theorem takes_of_scanToken {kind : TokenKind} {c : Char} {cs : List Char}
    (hs : AreSeparators seps) (hc : isSeparator c = false) (hslash : c ≠ '/')
    (h : scanToken (c :: cs ++ after) = .ok (some (kind, c :: cs, after)))
    (p : Position) :
    ∃ t p', Takes ⟨p, seps ++ (c :: cs ++ after)⟩ t ⟨p', after⟩ ∧
      t.kind = kind ∧ t.text = c :: cs ∧ t.leading = seps := by
  have hblank : spanBlank false (c :: cs ++ after)
      = ([], c :: cs ++ after) := by
    rw [List.cons_append, spanBlank.eq_3 _ _ _ fun _ heq => absurd heq hslash,
      hc]
    rfl
  have hall := spanBlank_separators hs hblank
  rw [List.append_nil] at hall
  exact ⟨⟨kind, c :: cs, seps, p.advanceAll seps⟩, _, ⟨hall, h, rfl, rfl⟩,
    rfl, rfl, rfl⟩

/-- A word is taken up to its end. -/
theorem takes_word {c : Char} {cs : List Char} (hs : AreSeparators seps)
    (hc : isWordStart c = true) (hcs : cs.all isWordPart = true)
    (ha : EndsWord after) (p : Position) :
    ∃ t p', Takes ⟨p, seps ++ (c :: cs ++ after)⟩ t ⟨p', after⟩ ∧
      t.kind = .ofWord (String.ofList (c :: cs)) ∧ t.text = c :: cs ∧
      t.leading = seps := by
  have hslash : c ≠ '/' := by
    rintro rfl
    cases hc
  refine takes_of_scanToken hs
    (isSeparator_of_isBlank (isBlank_of_isWordStart hc)) hslash ?_ p
  exact (TokenKind.EndsBefore.word hc (List.all_eq_true.mp hcs) ha).scanToken_eq

/-- A name is taken as an identifier. -/
theorem takes_name {n : String} (hs : AreSeparators seps)
    (hn : isName n = true) (ha : EndsWord after) (p : Position) :
    ∃ t p', Takes ⟨p, seps ++ (n.toList ++ after)⟩ t ⟨p', after⟩ ∧
      t.kind = .identifier ∧ t.value = n := by
  unfold isName at hn
  split at hn
  next => cases hn
  next c cs heq =>
    simp only [Bool.and_eq_true] at hn
    obtain ⟨⟨hc, hcs⟩, hword⟩ := hn
    obtain ⟨t, p', htakes, hkind, htext, -⟩ := takes_word hs hc hcs ha p
    have hident : t.kind = .identifier := by
      rw [hkind, ← heq, String.ofList_toList, TokenKind.ofWord,
        Option.isNone_iff_eq_none.mp hword]
    refine ⟨t, p', ?_, hident, ?_⟩
    · rw [heq]
      exact htakes
    · unfold Token.value
      rw [hident]
      show String.ofList t.text = n
      rw [htext, ← heq, String.ofList_toList]

/-- A reserved word is taken as itself. -/
theorem takes_keyword (k : Keyword) (hs : AreSeparators seps)
    (ha : EndsWord after) (p : Position) :
    ∃ t p', Takes ⟨p, seps ++ (k.spelling.toList ++ after)⟩ t ⟨p', after⟩ ∧
      t.kind = .keyword k := by
  obtain ⟨c, cs, heq, hc, hcs, hword⟩ : ∃ c cs,
      k.spelling.toList = c :: cs ∧ isWordStart c = true ∧
      cs.all isWordPart = true ∧
      TokenKind.ofWord (String.ofList (c :: cs)) = .keyword k := by
    cases k <;> exact ⟨_, _, rfl, rfl, rfl, by decide⟩
  obtain ⟨t, p', htakes, hkind, -⟩ := takes_word hs hc hcs ha p
  rw [heq]
  exact ⟨t, p', htakes, hkind.trans hword⟩

/-- A mark is taken, unless it makes another one with what follows. -/
theorem takes_mark {c : Char} {m : Mark} (hs : AreSeparators seps)
    (hc : Mark.ofChar? c = some m) (hm : m ≠ .slash)
    (ha : ∀ d ∈ after.head?, Mark.ofPair? c d = none) (p : Position) :
    ∃ t p', Takes ⟨p, seps ++ (c :: after)⟩ t ⟨p', after⟩ ∧
      t.kind = .mark m ∧ t.leading = seps := by
  have hslash : c ≠ '/' := by
    rintro rfl
    exact hm (Option.some.inj hc).symm
  have hscan := (TokenKind.EndsBefore.char hc ha).scanToken_eq
  obtain ⟨t, p', htakes, hkind, -, hleading⟩ := takes_of_scanToken hs
    (isSeparator_of_isBlank (isBlank_of_ofChar? hc)) hslash hscan p
  exact ⟨t, p', htakes, hkind, hleading⟩

end Spot

/-! ## Reading on -/

/-- **Whether the text at a spot is read as tokens of some sort** and then
as another text. -/
def Reads (s : Spot) (after : List Char) (sort : List Token → Prop) : Prop :=
  ∃ ts p', s.Scans ts ⟨p', after⟩ ∧ sort ts

/-- **Whether a text is read as tokens of some sort**, behind separators and
in front of what does not go on with its last word. -/
def IsReadAs (cs : List Char) (sort : List Token → Prop) : Prop :=
  ∀ seps after p, AreSeparators seps → EndsWord after →
    Reads ⟨p, seps ++ (cs ++ after)⟩ after sort

namespace Reads

variable {p : Position} {seps rest after : List Char}
  {sort : List Token → Prop}

/-- There is nothing more to read. -/
theorem done (h : sort []) : Reads ⟨p, after⟩ after sort :=
  ⟨[], p, .nil _, h⟩

/-- First one token, then the rest. -/
theorem cons {s s' : Spot} {t : Token} (h : s.Takes t s')
    (hrest : Reads s' after fun ts => sort (t :: ts)) :
    Reads s after sort := by
  obtain ⟨ts, p', hts, hsort⟩ := hrest
  exact ⟨t :: ts, p', .cons h hts, hsort⟩

/-- First the tokens of a run, then the rest. -/
theorem scans {s s' : Spot} {us : List Token} (h : s.Scans us s')
    (hrest : Reads s' after fun ts => sort (us ++ ts)) :
    Reads s after sort := by
  obtain ⟨ts, p', hts, hsort⟩ := hrest
  exact ⟨us ++ ts, p', h.append hts, hsort⟩

/-- First tokens of some sort, then the rest. -/
theorem append {s : Spot} {first : List Token → Prop}
    (h : Reads s rest first)
    (hrest : ∀ us p', first us →
      Reads ⟨p', rest⟩ after fun ts => sort (us ++ ts)) :
    Reads s after sort := by
  obtain ⟨us, p', hus, hfirst⟩ := h
  exact .scans hus (hrest us p' hfirst)

/-- First a name, then the rest. -/
theorem name (seps : List Char) (hs : AreSeparators seps) {n : String}
    (hn : isName n = true) (ha : EndsWord rest)
    (h : ∀ t p', t.kind = .identifier → t.value = n →
      Reads ⟨p', rest⟩ after fun ts => sort (t :: ts)) :
    Reads ⟨p, seps ++ (n.toList ++ rest)⟩ after sort := by
  obtain ⟨t, p', htakes, hkind, hvalue⟩ := Spot.takes_name hs hn ha p
  exact .cons htakes (h t p' hkind hvalue)

/-- First a reserved word, then the rest. -/
theorem keyword (seps : List Char) (hs : AreSeparators seps) (k : Keyword)
    (ha : EndsWord rest)
    (h : ∀ t p', t.kind = .keyword k →
      Reads ⟨p', rest⟩ after fun ts => sort (t :: ts)) :
    Reads ⟨p, seps ++ (k.spelling.toList ++ rest)⟩ after sort := by
  obtain ⟨t, p', htakes, hkind⟩ := Spot.takes_keyword k hs ha p
  exact .cons htakes (h t p' hkind)

/-- First a mark, then the rest. -/
theorem mark (seps : List Char) (hs : AreSeparators seps) {c : Char}
    {m : Mark} (hc : Mark.ofChar? c = some m) (hm : m ≠ .slash)
    (ha : ∀ d ∈ rest.head?, Mark.ofPair? c d = none)
    (h : ∀ t p', t.kind = .mark m → t.leading = seps →
      Reads ⟨p', rest⟩ after fun ts => sort (t :: ts)) :
    Reads ⟨p, seps ++ (c :: rest)⟩ after sort := by
  obtain ⟨t, p', htakes, hkind, hleading⟩ := Spot.takes_mark hs hc hm ha p
  exact .cons htakes (h t p' hkind hleading)

/-- First a mark that stands alone, then the rest. -/
theorem sign (seps : List Char) (hs : AreSeparators seps) {c : Char}
    {m : Mark} (hc : Mark.ofChar? c = some m) (hm : m.standsAlone = true)
    (h : ∀ t p', t.kind = .mark m → t.leading = seps →
      Reads ⟨p', rest⟩ after fun ts => sort (t :: ts)) :
    Reads ⟨p, seps ++ (c :: rest)⟩ after sort := by
  have hslash : m ≠ .slash := by
    rintro rfl
    cases hm
  exact .mark seps hs hc hslash
    (fun d _ => Mark.ofPair?_of_standsAlone hc hm d) h

end Reads

/-! ## Names and passages -/

/-- Names with commas between them are read as these names. -/
theorem isReadAs_names {names : List String} (hne : names ≠ [])
    (h : ∀ n ∈ names, isName n = true) :
    IsReadAs (", ".intercalate names).toList (DerivesNames · names) := by
  induction names with
  | nil => exact absurd rfl hne
  | cons n names ih =>
    intro seps after p hs ha
    have hn := h n List.mem_cons_self
    cases names with
    | nil =>
      rw [String.intercalate_singleton]
      refine .name seps hs hn ha fun t p hkind hvalue => .done ?_
      rw [← hvalue]
      exact .one hkind
    | cons m names =>
      have htext : (", ".intercalate (n :: m :: names)).toList ++ after =
          n.toList ++ (',' :: ([' '] ++
            ((", ".intercalate (m :: names)).toList ++ after))) := by
        rw [String.intercalate_cons_cons]
        simp only [String.toList_append, List.append_assoc]
        rfl
      rw [htext]
      refine .name seps hs hn (endsWord_cons rfl) fun t p hkind hvalue => ?_
      refine .sign [] .nil rfl rfl fun comma p hcomma _ => ?_
      refine (ih (List.cons_ne_nil m names) (fun k hk => h k
        (List.mem_cons_of_mem _ hk)) [' '] after p
        (.of_all rfl) ha).append fun us p hus => .done ?_
      rw [List.append_nil, ← hvalue]
      exact .more hkind hcomma hus

namespace Bracket

variable {b : Bracket}

/-- The character that opens. -/
def openingChar : Bracket → Char
  | braces => '\x7b'
  | parens => '('

/-- The character that closes. -/
def closingChar : Bracket → Char
  | braces => '\x7d'
  | parens => ')'

/-- **The tokens of an expression and its brackets derive the text of the
expression**, whatever separators stand around it. -/
theorem Encloses.derives {text : String} (h : b.Encloses text)
    {opening close : Token} {ts : List Token} {front : List Char}
    (hopening : opening.kind = .mark b.opening)
    (hclose : close.kind = .mark b.closing)
    (hdepth : b.depthAfter 0 (ts.map Token.kind) = some 0)
    (hts : passageText ts = front ++ text.toList)
    (hfront : AreSeparators front) (hback : AreSeparators close.leading) :
    b.Derives (opening :: (ts ++ [close])) text := by
  have hne : text.toList ≠ [] := fun h' =>
    h.nonempty (String.toList_eq_nil_iff.mp h')
  have htrim : trimBlanks (passageText ts ++ dropComments false close.leading)
      = text.toList := by
    rw [hts, dropComments_of_separators hback, List.append_assoc]
    exact trimBlanks_between (fun c hc => isBlank_of_isSeparator (hfront c hc))
      (fun c hc => isBlank_of_isSeparator (hback c hc)) hne h.first h.last
  have hderives := Derives.mk hopening hclose hdepth (by rwa [htrim])
  rwa [htrim, String.ofList_toList] at hderives

end Bracket

/-- **An expression between brackets is read as itself.** -/
theorem Reads.passage {b : Bracket} {text : String} (h : b.Encloses text)
    (seps front back : List Char) (hs : AreSeparators seps)
    (hfront : AreSeparators front) (hback : AreSeparators back)
    {p : Position} {rest after : List Char} {sort : List Token → Prop}
    (hrest : ∀ us p', b.Derives us text →
      Reads ⟨p', rest⟩ after fun ts => sort (us ++ ts)) :
    Reads ⟨p, seps ++ (b.openingChar ::
      (front ++ (text.toList ++ (back ++ (b.closingChar :: rest)))))⟩
      after sort := by
  have hbreaks : Breaks (back ++ b.closingChar :: rest) := by
    cases back with
    | nil =>
      intro c hc
      cases hc
      cases b <;> rfl
    | cons d back =>
      intro c hc
      cases hc
      have hd := hback d List.mem_cons_self
      simp only [isSeparator, Bool.or_eq_true, beq_iff_eq] at hd
      rcases hd with ((rfl | rfl) | rfl) | rfl <;> rfl
  refine .sign seps hs (m := b.opening) (by cases b <;> rfl)
    (by cases b <;> rfl) fun opening p hopening _ => ?_
  obtain ⟨ts, p', hts, hdepth, -, hpassage⟩ := h.exists_scans hfront hbreaks p
  refine .scans hts ?_
  refine .sign back hback (m := b.closing) (by cases b <;> rfl)
    (by cases b <;> rfl) fun close p hclose hleading => ?_
  rw [← hleading] at hback
  have hderives := h.derives hopening hclose hdepth hpassage hfront hback
  simpa only [List.cons_append, List.append_assoc, List.nil_append]
    using hrest _ p hderives

end Entitlement
