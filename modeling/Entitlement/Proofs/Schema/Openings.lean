import Entitlement.Proofs.Schema.Enclosed
import Entitlement.Proofs.Schema.Grammar

/-!
# Counting opening parentheses

How many parentheses some tokens open (`openings`), and how many an
expression makes them open (`PermissionExpr.openingsAt`). The second is a
lower bound for the first: whatever tokens derive an expression, they open
at least as many (`PermissionExpr.Derives.openingsAt_le`).

An expression on the spot is kept as a text, so its parentheses are counted
in the text, where those in strings do not count. The blanks and comments
between tokens have none that count, so the text has as many as the tokens
that it was kept from (`Bracket.Derives.openings_eq`).
-/

namespace Entitlement

/-! ## In tokens -/

/-- **The number of parentheses that tokens open.** -/
def openings (ts : List Token) : Nat :=
  ts.countP fun t => t.kind = .mark .lParen

theorem openings_nil : openings [] = 0 := rfl

theorem openings_cons (t : Token) (ts : List Token) :
    openings (t :: ts)
      = openings ts + if t.kind = .mark .lParen then 1 else 0 := by
  simp [openings, List.countP_cons]

theorem openings_append (ts us : List Token) :
    openings (ts ++ us) = openings ts + openings us :=
  List.countP_append

/-- A token of another kind opens none. -/
theorem openings_cons_of_ne {t : Token} {kind : TokenKind}
    (h : t.kind = kind) (hne : kind ≠ .mark .lParen) (ts : List Token) :
    openings (t :: ts) = openings ts := by
  rw [openings_cons, h, if_neg hne, Nat.add_zero]

theorem openings_cons_of_eq {t : Token} (h : t.kind = .mark .lParen)
    (ts : List Token) : openings (t :: ts) = openings ts + 1 := by
  rw [openings_cons, if_pos h]

/-! ## In texts -/

/-- **The number of parentheses that a text opens** outside of strings. It
may start in a string, of which the quote is known and whether a backslash
protects the next character. -/
def parensOpened : Option (Char × Bool) → List Char → Nat
  | _, [] => 0
  | none, c :: cs =>
    if c = '"' ∨ c = '\'' then parensOpened (some (c, false)) cs
    else if c = '(' then parensOpened none cs + 1
    else parensOpened none cs
  | some (quote, escaped), c :: cs =>
    if c = '\\' ∧ escaped = false then parensOpened (some (quote, true)) cs
    else if c = quote ∧ escaped = false then parensOpened none cs
    else parensOpened (some (quote, false)) cs

/-- Whether a character is neither a quote nor an opening parenthesis. -/
def isPlain (c : Char) : Prop := ¬ (c = '"' ∨ c = '\'') ∧ c ≠ '('

theorem isPlain_of_isWordPart {c : Char} (h : isWordPart c = true) :
    isPlain c := by
  refine ⟨?_, ?_⟩
  · rintro (rfl | rfl) <;> cases h
  · rintro rfl
    cases h

theorem isPlain_of_isBlank {c : Char} (h : isBlank c = true) :
    isPlain c := by
  refine ⟨?_, ?_⟩
  · rintro (rfl | rfl) <;> cases h
  · rintro rfl
    cases h

/-- A character that is neither a quote nor an opening parenthesis counts
nothing. -/
theorem parensOpened_cons {c : Char} (h : isPlain c) (rest : List Char) :
    parensOpened none (c :: rest) = parensOpened none rest := by
  rw [parensOpened, if_neg h.1, if_neg h.2]

theorem parensOpened_append {cs : List Char} (h : ∀ c ∈ cs, isPlain c)
    (rest : List Char) :
    parensOpened none (cs ++ rest) = parensOpened none rest := by
  induction cs with
  | nil => rfl
  | cons c cs ih =>
    rw [List.cons_append, parensOpened_cons (h c List.mem_cons_self)]
    exact ih fun d hd => h d (List.mem_cons_of_mem c hd)

/-- A string counts nothing. -/
theorem parensOpened_of_scanString {quote : Char} {escaped : Bool}
    {cs body rest : List Char}
    (h : scanString quote escaped cs = some (body, rest)) :
    parensOpened (some (quote, escaped)) cs = parensOpened none rest := by
  fun_induction scanString quote escaped cs generalizing body with
  | case1 => cases h
  | case2 escaped c cs hc ih =>
    obtain ⟨⟨body', rest'⟩, hb, heq⟩ := Option.map_eq_some_iff.mp h
    cases heq
    rw [parensOpened, if_pos hc]
    exact ih hb
  | case3 escaped c cs hc hq =>
    cases h
    rw [parensOpened, if_neg hc, if_pos hq]
  | case4 => cases h
  | case5 escaped c cs hc hq _ ih =>
    obtain ⟨⟨body', rest'⟩, hb, heq⟩ := Option.map_eq_some_iff.mp h
    cases heq
    rw [parensOpened, if_neg hc, if_neg hq]
    exact ih hb

/-- **A token counts in its text as it does by its kind.** -/
theorem parensOpened_of_spells {kind : TokenKind} {text : List Char}
    (h : kind.Spells text) (rest : List Char) :
    parensOpened none (text ++ rest)
      = parensOpened none rest + if kind = .mark .lParen then 1 else 0 := by
  cases h with
  | @string quote body hquote hs =>
    rw [List.cons_append, parensOpened, if_pos hquote,
      parensOpened_of_scanString (scanString_extend hs rest)]
    rfl
  | @number c cs hc hcs =>
    refine parensOpened_append (fun d hd => ?_) rest
    have hdigit {d : Char} (h : isDigit d = true) : isPlain d :=
      isPlain_of_isWordPart (by rw [isWordPart, h, Bool.or_true])
    rcases List.mem_cons.mp hd with rfl | hd
    · exact hdigit hc
    · rcases hcs d hd with h | rfl
      · exact hdigit h
      · exact ⟨by decide, by decide⟩
  | @word c cs hc hcs =>
    have hkind : TokenKind.ofWord (String.ofList (c :: cs))
        ≠ .mark .lParen := by
      unfold TokenKind.ofWord
      split <;> exact TokenKind.noConfusion
    rw [if_neg hkind]
    refine parensOpened_append (fun d hd => ?_) rest
    rcases List.mem_cons.mp hd with rfl | hd
    · exact isPlain_of_isWordPart (by rw [isWordPart, hc, Bool.true_or])
    · exact isPlain_of_isWordPart (List.all_eq_true.mp hcs d hd)
  | char hc =>
    unfold Mark.ofChar? at hc
    split at hc <;> first | (cases hc; rfl) | cases hc
  | pair hc =>
    unfold Mark.ofPair? at hc
    split at hc <;> first | (cases hc; rfl) | cases hc

/-- **The kept text of tokens opens as many as the tokens.** -/
theorem parensOpened_passageText {ts : List Token}
    (hts : ∀ t ∈ ts, t.IsLexed) (rest : List Char) :
    parensOpened none (passageText ts ++ rest)
      = parensOpened none rest + openings ts := by
  induction ts with
  | nil => rfl
  | cons t ts ih =>
    have ht := hts t List.mem_cons_self
    have hblank : ∀ c ∈ dropComments false t.leading, isPlain c :=
      fun c hc => isPlain_of_isBlank (isBlank_of_isSeparator (ht.leading c hc))
    rw [passageText_cons, List.append_assoc, List.append_assoc,
      parensOpened_append hblank, parensOpened_of_spells ht.spells,
      ih fun u hu => hts u (List.mem_cons_of_mem t hu), openings_cons,
      Nat.add_assoc]

/-- Blanks count nothing, in a string or not. -/
theorem parensOpened_blank {back : List Char}
    (h : ∀ c ∈ back, isBlank c = true) (string : Option (Char × Bool)) :
    parensOpened string back = 0 := by
  fun_induction parensOpened string back with
  | case1 => rfl
  | case2 c cs hquote =>
    exact absurd hquote (isPlain_of_isBlank (h c List.mem_cons_self)).1
  | case3 cs =>
    exact absurd rfl (isPlain_of_isBlank (h '(' List.mem_cons_self)).2
  | case4 | case5 | case6 | case7 =>
    rename_i ih
    exact ih fun d hd => h d (List.mem_cons_of_mem _ hd)

/-- So they count nothing at the end of a text. -/
theorem parensOpened_append_blank {back : List Char}
    (h : ∀ c ∈ back, isBlank c = true) (string : Option (Char × Bool))
    (cs : List Char) :
    parensOpened string (cs ++ back) = parensOpened string cs := by
  fun_induction parensOpened string cs with
  | case1 string => exact parensOpened_blank h string
  | case2 c cs hquote ih =>
    rw [List.cons_append, parensOpened, if_pos hquote, ih]
  | case3 cs hquote ih =>
    rw [List.cons_append, parensOpened, if_neg hquote, if_pos rfl, ih]
  | case4 c cs hquote hparen ih =>
    rw [List.cons_append, parensOpened, if_neg hquote, if_neg hparen, ih]
  | case5 quote escaped c cs hc ih =>
    rw [List.cons_append, parensOpened, if_pos hc, ih]
  | case6 quote escaped c cs hc hq ih =>
    rw [List.cons_append, parensOpened, if_neg hc, if_pos hq, ih]
  | case7 quote escaped c cs hc hq ih =>
    rw [List.cons_append, parensOpened, if_neg hc, if_neg hq, ih]

/-- **Trimming a text takes no parentheses away.** -/
theorem parensOpened_trimBlanks (cs : List Char) :
    parensOpened none (trimBlanks cs) = parensOpened none cs := by
  obtain ⟨⟨front, back, hcs, hfront, hback⟩, -, -⟩ := trimBlanks_spec cs
  conv => rhs; rw [hcs]
  rw [parensOpened_append fun c hc => isPlain_of_isBlank (hfront c hc),
    parensOpened_append_blank hback]

/-- **The tokens of a passage open one more than its text.** -/
theorem Bracket.Derives.openings_eq {ts : List Token} {text : String}
    (h : parens.Derives ts text) (hts : ∀ t ∈ ts, t.IsLexed) :
    openings ts = parensOpened none text.toList + 1 := by
  cases h with
  | @mk opening close inner hopening hclose _ _ =>
    have hinner : ∀ t ∈ inner, t.IsLexed := fun t ht =>
      hts t (List.mem_cons_of_mem _ (List.mem_append_left _ ht))
    have hblank : AreSeparators (dropComments false close.leading) :=
      (hts close (by simp)).leading
    rw [openings_cons_of_eq hopening, openings_append,
      openings_cons_of_ne hclose parens.opening_ne_closing.symm,
      openings_nil, String.toList_ofList, parensOpened_trimBlanks,
      parensOpened_passageText hinner,
      parensOpened_blank fun c hc => isBlank_of_isSeparator (hblank c hc)]
    omega

/-! ## In expressions -/

namespace PermissionExpr

/-- **The parentheses that an expression opens** where a precedence is
demanded: those of its calls and of what is written on the spot, and one
pair around each part that binds less tightly than its place demands. -/
def openingsAt (demanded : Nat) (e : PermissionExpr) : Nat :=
  (if e.precedence < demanded then 1 else 0) +
    match e with
    | name _ => 0
    | member _ _ => 0
    | call _ _ => 1
    | inline expression => parensOpened none expression.toList + 1
    | not operand => operand.openingsAt 4
    | binary op left right =>
      left.openingsAt op.precedence + right.openingsAt (op.precedence + 1)

/-- An expression opens one more where more is demanded. -/
theorem openingsAt_eq (e : PermissionExpr) (demanded : Nat) :
    e.openingsAt demanded = e.openingsAt e.precedence +
      if e.precedence < demanded then 1 else 0 := by
  cases e <;> simp [openingsAt, Nat.add_comm]

/-- What binds tightly enough is as it is by itself. -/
theorem openingsAt_of_le {e : PermissionExpr} {demanded : Nat}
    (h : demanded ≤ e.precedence) :
    e.openingsAt demanded = e.openingsAt e.precedence := by
  rw [openingsAt_eq, if_neg (Nat.not_lt.mpr h), Nat.add_zero]

theorem openingsAt_mono (e : PermissionExpr) {level level' : Nat}
    (h : level ≤ level') : e.openingsAt level ≤ e.openingsAt level' := by
  rw [openingsAt_eq, openingsAt_eq e level']
  split <;> split <;> omega

/-- One pair of parentheses is enough for any place. -/
theorem openingsAt_le_succ (e : PermissionExpr) (level level' : Nat) :
    e.openingsAt level ≤ e.openingsAt level' + 1 := by
  rw [openingsAt_eq, openingsAt_eq e level']
  split <;> omega

theorem openingsAt_not (operand : PermissionExpr) :
    (not operand).openingsAt 3 = operand.openingsAt 4 :=
  Nat.zero_add _

theorem openingsAt_binary (op : Connective) (left right : PermissionExpr) :
    (binary op left right).openingsAt op.precedence
      = left.openingsAt op.precedence
        + right.openingsAt (op.precedence + 1) := by
  rw [openingsAt, precedence, if_neg (Nat.lt_irrefl _), Nat.zero_add]

/-- **Whatever tokens derive an expression open at least as many.** -/
theorem Derives.openingsAt_le {level : Nat} {ts : List Token}
    {e : PermissionExpr} (h : Derives level ts e)
    (hts : ∀ t ∈ ts, t.IsLexed) : e.openingsAt level ≤ openings ts := by
  induction h with
  | name => exact Nat.zero_le _
  | member => exact Nat.zero_le _
  | call hrule hopening | callWith hrule hopening =>
    show 1 ≤ _
    rw [openings_cons, openings_cons_of_eq hopening]
    omega
  | @inline keyword ts text hkeyword hpassage =>
    have hinner := hpassage.openings_eq fun t ht =>
      hts t (List.mem_cons_of_mem _ ht)
    show 0 + (parensOpened none text.toList + 1) ≤ _
    rw [openings_cons, hinner]
    omega
  | @group opening close inner e hopening _ _ ih =>
    have hinner := ih fun t ht =>
      hts t (List.mem_cons_of_mem _ (List.mem_append_left _ ht))
    have hpair := e.openingsAt_le_succ 4 1
    rw [openings_cons_of_eq hopening, openings_append]
    omega
  | not hkeyword _ ih =>
    rw [openingsAt_not, openings_cons]
    exact Nat.le_add_right_of_le
      (ih fun t ht => hts t (List.mem_cons_of_mem _ ht))
  | binary _ hkeyword _ ihl ihr =>
    have hleft := ihl fun t ht => hts t (List.mem_append_left _ ht)
    have hright := ihr fun t ht =>
      hts t (List.mem_append_right _ (List.mem_cons_of_mem _ ht))
    rw [openingsAt_binary, openings_append, openings_cons]
    omega
  | loosen _ ih =>
    exact Nat.le_trans (openingsAt_mono _ (Nat.le_succ _)) (ih hts)

/-! ## No more than needed -/

/-- **Whether tokens derive an expression with no more parentheses than it
opens**, if the lexer took them. -/
structure DerivesSparingly (level : Nat) (ts : List Token)
    (e : PermissionExpr) : Prop where
  derives : Derives level ts e
  openings_le : (∀ t ∈ ts, t.IsLexed) → openings ts ≤ e.openingsAt level

end PermissionExpr

theorem DerivesNames.openings_eq {ts : List Token} {names : List String}
    (h : DerivesNames ts names) : openings ts = 0 := by
  induction h with
  | one hname => rw [openings_cons_of_ne hname (by decide), openings_nil]
  | more hname hcomma _ ih =>
    rw [openings_cons_of_ne hname (by decide),
      openings_cons_of_ne hcomma (by decide), ih]

namespace PermissionExpr.DerivesSparingly

variable {ts us : List Token} {e : PermissionExpr}

theorem name {t : Token} (h : t.kind = .identifier) :
    DerivesSparingly 4 [t] (.name t.value) where
  derives := .name h
  openings_le _ := by
    rw [openings_cons_of_ne h (by decide), openings_nil]
    exact Nat.zero_le _

theorem member {relation dot permission : Token}
    (hrelation : relation.kind = .identifier) (hdot : dot.kind = .mark .dot)
    (hpermission : permission.kind = .identifier) :
    DerivesSparingly 4 [relation, dot, permission]
      (.member relation.value permission.value) where
  derives := .member hrelation hdot hpermission
  openings_le _ := by
    rw [openings_cons_of_ne hrelation (by decide),
      openings_cons_of_ne hdot (by decide),
      openings_cons_of_ne hpermission (by decide), openings_nil]
    exact Nat.zero_le _

theorem call {rule opening close : Token} (hrule : rule.kind = .identifier)
    (hopening : opening.kind = .mark .lParen)
    (hclose : close.kind = .mark .rParen) :
    DerivesSparingly 4 [rule, opening, close] (.call rule.value []) where
  derives := .call hrule hopening hclose
  openings_le _ := by
    rw [openings_cons_of_ne hrule (by decide),
      openings_cons_of_eq hopening,
      openings_cons_of_ne hclose (by decide), openings_nil]
    exact Nat.le_refl 1

theorem callWith {rule opening close : Token} {arguments : List String}
    (hrule : rule.kind = .identifier)
    (hopening : opening.kind = .mark .lParen)
    (harguments : DerivesNames ts arguments)
    (hclose : close.kind = .mark .rParen) :
    DerivesSparingly 4 (rule :: opening :: (ts ++ [close]))
      (.call rule.value arguments) where
  derives := .callWith hrule hopening harguments hclose
  openings_le _ := by
    rw [openings_cons_of_ne hrule (by decide),
      openings_cons_of_eq hopening, openings_append, harguments.openings_eq,
      openings_cons_of_ne hclose (by decide), openings_nil]
    exact Nat.le_refl 1

theorem inline {keyword : Token} {text : String}
    (hkeyword : keyword.kind = .keyword .rule)
    (h : Bracket.parens.Derives ts text) :
    DerivesSparingly 4 (keyword :: ts) (.inline text) where
  derives := .inline hkeyword h
  openings_le hts := by
    rw [openings_cons_of_ne hkeyword (by decide),
      h.openings_eq fun t ht => hts t (List.mem_cons_of_mem _ ht)]
    exact Nat.le_add_left _ 0

theorem not {keyword : Token} (hkeyword : keyword.kind = .keyword .not)
    (h : DerivesSparingly 4 ts e) :
    DerivesSparingly 3 (keyword :: ts) (.not e) where
  derives := .not hkeyword h.derives
  openings_le hts := by
    rw [openings_cons_of_ne hkeyword (by decide), openingsAt_not]
    exact h.openings_le fun t ht => hts t (List.mem_cons_of_mem _ ht)

theorem binary {op : Connective} {keyword : Token} {l r : PermissionExpr}
    (hl : DerivesSparingly op.precedence ts l)
    (hkeyword : keyword.kind = .keyword op.keyword)
    (hr : DerivesSparingly (op.precedence + 1) us r) :
    DerivesSparingly op.precedence (ts ++ keyword :: us)
      (.binary op l r) where
  derives := .binary hl.derives hkeyword hr.derives
  openings_le hts := by
    rw [openings_append,
      openings_cons_of_ne hkeyword TokenKind.noConfusion,
      openingsAt_binary]
    exact Nat.add_le_add
      (hl.openings_le fun t ht => hts t (List.mem_append_left _ ht))
      (hr.openings_le fun t ht =>
        hts t (List.mem_append_right _ (List.mem_cons_of_mem _ ht)))

/-- An expression that binds tightly enough needs no parentheses. -/
theorem of_le (h : DerivesSparingly e.precedence ts e) {demanded : Nat}
    (hd : demanded ≤ e.precedence) : DerivesSparingly demanded ts e where
  derives := h.derives.of_le hd
  openings_le hts := by
    rw [openingsAt_of_le hd]
    exact h.openings_le hts

/-- One that does not needs them. -/
theorem group {opening close : Token}
    (hopening : opening.kind = .mark .lParen)
    (h : DerivesSparingly e.precedence ts e)
    (hclose : close.kind = .mark .rParen) {demanded : Nat}
    (hlt : e.precedence < demanded) (hd : demanded ≤ 4) :
    DerivesSparingly demanded (opening :: (ts ++ [close])) e where
  derives := (Derives.group hopening (h.derives.of_le e.precedence_pos)
    hclose).of_le hd
  openings_le hts := by
    have hinner := h.openings_le fun t ht =>
      hts t (List.mem_cons_of_mem _ (List.mem_append_left _ ht))
    rw [openings_cons_of_eq hopening, openings_append,
      openings_cons_of_ne hclose (by decide), openings_nil,
      openingsAt_eq, if_pos hlt]
    exact Nat.succ_le_succ hinner

end PermissionExpr.DerivesSparingly

end Entitlement
