import Entitlement.Proofs.Schema.ParserSound

/-!
# What is derived is accepted

Tokens that derive something are taken by the step that reads it, and
nothing behind them is. This needs the token behind them not to go on with
what was read: a name behind an expression may be followed by an `and`, but
not an expression behind a name by a parenthesis. `TokenKind.Ends` says so
for expressions, `TokenKind.EndsMember` for members.

The parser reads a chain of operands from the left and the grammar derives
it from the right end, so a chain is followed in the middle: after as many
rounds as there are operands, what is left to do is to go on from the chain
that was read so far.
-/

namespace Entitlement

namespace Cursor

variable (c : Cursor) (t : Token) (ts : List Token)

@[simp] theorem kind_before_cons : (c.before (t :: ts)).kind = t.kind := rfl

@[simp] theorem following_before_cons_cons (u : Token) :
    (c.before (t :: u :: ts)).following = u := rfl

end Cursor

namespace Step

variable {α β : Type} {c c' : Cursor} {t : Token} {ts : List Token}

theorem map_ok {x : Step α} {f : α → β} {a : α}
    (h : x c = .ok (a, c')) : (f <$> x) c = .ok (f a, c') :=
  map_eq_ok_iff.mpr ⟨a, h, rfl⟩

/-- Where a token of the right kind comes next, the step is the first. -/
theorem peek_pos {kind : TokenKind} {x y : Step α} (h : t.kind = kind) :
    (peek >>= fun next => if next = kind then x else y)
      (c.before (t :: ts)) = x (c.before (t :: ts)) := by
  rw [peek_bind, if_pos (show (c.before (t :: ts)).kind = kind from h)]

/-- Where another token comes next, the step is the second. -/
theorem peek_neg {kind : TokenKind} {x y : Step α} (h : c.kind ≠ kind) :
    (peek >>= fun next => if next = kind then x else y) c = y c := by
  rw [peek_bind, if_neg h]

/-- The next token is taken. -/
theorem take_before (f : Token → Step β) :
    (take >>= f) (c.before (t :: ts)) = f t (c.before ts) := rfl

/-- A token of the right kind is taken. -/
theorem token_before {kind : TokenKind} {role : String}
    (h : t.kind = kind) :
    token kind role (c.before (t :: ts)) = .ok (t, c.before ts) :=
  if_pos h

/-- An identifier is taken as a name. -/
theorem name_before {what : String} (h : t.kind = .identifier) :
    name what (c.before (t :: ts)) = .ok (t.value, c.before ts) :=
  if_pos h

/-- Names are taken if no comma follows. -/
theorem names_before {what : String} {ns : List String}
    (h : DerivesNames ts ns) {count : Nat} (hcount : ts.length ≤ count)
    (hc : c.kind ≠ .mark .comma) :
    names what count (c.before ts) = .ok (ns, c) := by
  induction h generalizing count with
  | one hk =>
    obtain ⟨count, rfl⟩ := Nat.exists_eq_add_of_le' hcount
    show names what (count + 1) _ = _
    rw [names, bind_ok (name_before hk), Cursor.before_nil,
      peek_neg hc]
    rfl
  | more hk hcomma _ ih =>
    simp only [List.length_cons] at hcount
    obtain ⟨count, rfl⟩ : ∃ n, count = n + 1 := ⟨count - 1, by omega⟩
    rw [names, bind_ok (name_before hk), peek_pos hcomma, take_before,
      bind_ok (ih (by omega))]
    rfl

/-- A passage is taken with its closing bracket. -/
theorem captured_before {b : Bracket} {opening : Token} {text : String}
    (h : b.Derives (opening :: ts) text) {what : String}
    {empty : SyntaxFault} :
    captured opening (.mark b.closing) what empty (c.before ts) =
      .ok (text, c) := by
  generalize hus : opening :: ts = us at h
  cases h with
  | @mk _ close inner hopening hclose hdepth hne =>
    obtain ⟨rfl, rfl⟩ := List.cons.inj hus
    have hpassage : passage (.mark b.opening) (.mark b.closing) 0
        (c.before (inner ++ [close])).ahead =
        some (passageText inner ++ dropComments false close.leading,
          c.ahead) :=
      passage_eq_some_iff.mpr
        ⟨inner, close, List.append_cons .. |>.symm, hclose, hdepth, rfl⟩
    unfold captured
    rw [hopening, hpassage]
    dsimp only
    split
    next hnil => exact absurd hnil hne
    next => rfl

end Step

/-! ## Expressions -/

/-- **What may follow an expression at a level**: nothing that would go on
with it. -/
structure TokenKind.Ends (level : Nat) (k : TokenKind) : Prop where
  parenthesis : k ≠ .mark .lParen
  dot : k ≠ .mark .dot
  connective : ∀ op : Connective, level ≤ op.precedence →
    k ≠ .keyword op.keyword

theorem TokenKind.Ends.mono {level level' : Nat} {k : TokenKind}
    (h : TokenKind.Ends level k) (hle : level ≤ level') :
    TokenKind.Ends level' k where
  parenthesis := h.parenthesis
  dot := h.dot
  connective op hop := h.connective op (Nat.le_trans hle hop)

/-- A mark that is neither ends an expression at every level. -/
theorem TokenKind.Ends.of_mark {level : Nat} {k : TokenKind} {m : Mark}
    (hk : k = .mark m) (hparen : m ≠ .lParen) (hdot : m ≠ .dot) :
    k.Ends level where
  parenthesis h := hparen (TokenKind.mark.inj (hk.symm.trans h))
  dot h := hdot (TokenKind.mark.inj (hk.symm.trans h))
  connective _ _ h := TokenKind.noConfusion (hk.symm.trans h)

/-- Each connective has a word of its own. -/
theorem Connective.eq_of_keyword_eq {op op' : Connective}
    (h : op.keyword = op'.keyword) : op = op' := by
  cases op <;> cases op' <;> first | rfl | cases h

/-- A connective ends its left operand, or a tighter expression. -/
theorem TokenKind.Ends.of_connective (op : Connective) :
    TokenKind.Ends (op.precedence + 1) (.keyword op.keyword) where
  parenthesis := TokenKind.noConfusion
  dot := TokenKind.noConfusion
  connective op' hle h := by
    rw [Connective.eq_of_keyword_eq (TokenKind.keyword.inj h)] at hle
    exact Nat.not_succ_le_self _ hle

namespace PermissionExpr

variable {c : Cursor} {ts : List Token} {e : PermissionExpr}

/-- The step that reads a name, a member, a call or a group. -/
def readFactor (count : Nat) : Step PermissionExpr :=
  readPrimary (read count) count

/-- **The step that reads an expression at a level.** -/
def readAt (count : Nat) : Nat → Step PermissionExpr
  | 0 => readDisjunction (readFactor count) count
  | 1 => readDisjunction (readFactor count) count
  | 2 => readConjunction (readFactor count) count
  | 3 => readUnary (readFactor count)
  | _ => readFactor count

/-- At the level of a connective, operands are read in a chain. -/
theorem readAt_precedence (op : Connective) (count : Nat) :
    readAt count op.precedence = readAt count (op.precedence + 1) >>=
      readChain op (readAt count (op.precedence + 1)) count := by
  cases op <;> rfl

/-- Where no operand follows, a chain is complete. -/
theorem readChain_of_ne {op : Connective} {operand : Step PermissionExpr}
    {count : Nat} {left : PermissionExpr}
    (h : c.kind ≠ .keyword op.keyword) :
    readChain op operand count left c = .ok (left, c) := by
  cases count with
  | zero => rfl
  | succ count =>
    rw [readChain, Step.peek_neg h]
    rfl

/-- **Whether an expression is read at a level**, when the tokens for it
come next. -/
def Parses (level : Nat) (ts : List Token) (e : PermissionExpr) : Prop :=
  ∀ count c, ts.length ≤ count → TokenKind.Ends level c.kind →
    readAt count level (c.before ts) = .ok (e, c)

/-- **Whether an expression is read as the beginning of a chain**: after
some rounds, what is left to do is to go on from it. -/
def Chains (op : Connective) (ts : List Token) (e : PermissionExpr) : Prop :=
  ∀ count c, ts.length ≤ count →
    TokenKind.Ends (op.precedence + 1) c.kind → ∃ k ≤ ts.length, ∀ m,
      (readAt count (op.precedence + 1) >>=
        readChain op (readAt count (op.precedence + 1)) (k + m))
          (c.before ts) =
        readChain op (readAt count (op.precedence + 1)) m e c

/-- A single operand begins a chain. -/
theorem Parses.chains (op : Connective)
    (h : Parses (op.precedence + 1) ts e) : Chains op ts e := by
  intro count c hcount hc
  refine ⟨0, Nat.zero_le _, fun m => ?_⟩
  rw [Step.bind_ok (h _ _ hcount hc), Nat.zero_add]

/-- A chain goes on with a connective and one more operand. -/
theorem Chains.more {op : Connective} {keyword : Token} {ls rs : List Token}
    {l r : PermissionExpr} (hl : Chains op ls l)
    (hk : keyword.kind = .keyword op.keyword)
    (hr : Parses (op.precedence + 1) rs r) :
    Chains op (ls ++ keyword :: rs) (.binary op l r) := by
  intro count c hcount hc
  simp only [List.length_append, List.length_cons] at hcount
  -- the connective ends the chain so far, as it ends any operand
  have hends : TokenKind.Ends (op.precedence + 1)
      (c.before (keyword :: rs)).kind := by
    show TokenKind.Ends _ keyword.kind
    rw [hk]
    exact .of_connective op
  obtain ⟨k, hk', hchain⟩ := hl count _ (by omega) hends
  refine ⟨k + 1, by simp only [List.length_append, List.length_cons]; omega,
    fun m => ?_⟩
  rw [Cursor.before_append, Nat.add_assoc, hchain, Nat.add_comm 1 m,
    readChain, Step.peek_pos hk, Step.take_before,
    Step.bind_ok (hr _ _ (by omega) hc)]

/-- A chain behind which none of its operands follows is complete. -/
theorem Chains.parses {op : Connective} (h : Chains op ts e) :
    Parses op.precedence ts e := by
  intro count c hcount hc
  obtain ⟨k, hk, hchain⟩ := h _ _ hcount (hc.mono (Nat.le_succ _))
  obtain ⟨m, rfl⟩ := Nat.exists_eq_add_of_le (Nat.le_trans hk hcount)
  rw [readAt_precedence, hchain,
    readChain_of_ne (hc.connective op (Nat.le_refl _))]

/-- The tightest expressions do not begin with a `not`. -/
theorem Derives.exists_cons {level : Nat} (h : Derives level ts e)
    (hlevel : 4 ≤ level) :
    ∃ t us, ts = t :: us ∧ t.kind ≠ .keyword .not := by
  induction h with
  | name hk | member hk | call hk | callWith hk | inline hk | group hk =>
    refine ⟨_, _, rfl, ?_⟩
    rw [hk]
    decide
  | not => exact absurd hlevel (by decide)
  | @binary op => cases op <;> exact absurd hlevel (by decide)
  | loosen _ ih => exact ih (Nat.le_succ_of_le hlevel)

/-- The arguments of a call are read up to its closing parenthesis. -/
theorem readCall_before {count : Nat} {rule opening close : Token}
    (hclose : close.kind = .mark .rParen)
    {arguments : List String}
    (h : ts = [] ∧ arguments = [] ∨
      DerivesNames ts arguments ∧ ts.length ≤ count) :
    readCall count (c.before (rule :: opening :: (ts ++ [close]))) =
      .ok (.call rule.value arguments, c) := by
  have hends : Step.token (.mark .rParen) "to close rule call arguments"
      (c.before [close]) = .ok (close, c) := Step.token_before hclose
  rw [readCall, Step.take_before, Step.take_before]
  rcases h with ⟨rfl, rfl⟩ | ⟨hts, hcount⟩
  · rw [List.nil_append, Step.peek_pos hclose, Step.bind_ok rfl]
    exact Step.bind_ok hends
  · have hparen : (c.before (ts ++ [close])).kind ≠ .mark .rParen := by
      cases hts with
      | one hk | more hk =>
        rw [List.cons_append, Cursor.kind_before_cons, hk]
        exact TokenKind.noConfusion
    have hcomma : (c.before [close]).kind ≠ .mark .comma := by
      rw [Cursor.kind_before_cons, hclose]
      decide
    rw [Step.peek_neg hparen, Cursor.before_append,
      Step.bind_ok (Step.names_before hts hcount hcomma)]
    exact Step.bind_ok hends

/-- A name is an operand of its own where no argument list and no member
follows. -/
theorem readPrimary_name {group : Step PermissionExpr} {count : Nat}
    (h : c.kind = .identifier) (hparen : c.advance.kind ≠ .mark .lParen)
    (hdot : c.advance.kind ≠ .mark .dot) :
    readPrimary group count c = .ok (.name c.current.value, c.advance) := by
  unfold readPrimary
  rw [h]
  split
  next heq => cases heq
  next heq => cases heq
  next heq => exact absurd heq hparen
  next heq => exact absurd heq hdot
  next => rfl
  next hne _ _ => exact absurd rfl hne

/-- No connective binds as tightly as a `not`. -/
theorem precedence_lt (op : Connective) : op.precedence < 3 := by
  cases op <;> decide

/-- Connectives have different levels. -/
theorem eq_of_precedence_eq {op op' : Connective}
    (h : op.precedence = op'.precedence) : op = op' := by
  cases op <;> cases op' <;> first | rfl | cases h

/-- **What is derived at a level is read there**, and begins a chain if the
level is that of a connective. -/
theorem Derives.parses_and_chains {level : Nat} (h : Derives level ts e) :
    Parses level ts e ∧ ∀ op : Connective, op.precedence = level →
      Chains op ts e := by
  -- the tightest forms are operands, and so is a `not`
  have alone {level : Nat} {ts : List Token} {e : PermissionExpr}
        (hlevel : 3 ≤ level) (h : Parses level ts e) : Parses level ts e ∧
      ∀ op : Connective, op.precedence = level → Chains op ts e :=
    ⟨h, fun op hop => absurd (hop ▸ hlevel) (Nat.not_le.mpr (precedence_lt op))⟩
  have joined {op : Connective} {ts : List Token} {e : PermissionExpr}
      (h : Chains op ts e) : Parses op.precedence ts e ∧
      ∀ op' : Connective, op'.precedence = op.precedence →
        Chains op' ts e :=
    ⟨h.parses, fun op' hop => eq_of_precedence_eq hop ▸ h⟩
  induction h with
  | name hk =>
    refine alone (by decide) fun count c hcount hc => ?_
    exact readPrimary_name hk hc.parenthesis hc.dot
  | @member relation dot permission hrelation hdot hpermission =>
    refine alone (by decide) fun count c hcount hc => ?_
    show readPrimary _ _ _ = _
    unfold readPrimary
    simp only [Cursor.kind_before_cons, Cursor.following_before_cons_cons,
      hrelation, hdot]
    rw [Step.take_before, Step.take_before,
      Step.bind_ok (Step.name_before hpermission)]
    rfl
  | @call rule opening close hrule hopening hclose =>
    refine alone (by decide) fun count c hcount hc => ?_
    show readPrimary _ _ _ = _
    unfold readPrimary
    simp only [Cursor.kind_before_cons, Cursor.following_before_cons_cons,
      hrule, hopening]
    show readCall _ (c.before (rule :: opening :: ([] ++ [close]))) = _
    exact readCall_before hclose (.inl ⟨rfl, rfl⟩)
  | @callWith rule opening close ts arguments hrule hopening hargs hclose =>
    refine alone (by decide) fun count c hcount hc => ?_
    show readPrimary _ _ _ = _
    unfold readPrimary
    simp only [Cursor.kind_before_cons, Cursor.following_before_cons_cons,
      hrule, hopening]
    simp only [List.length_cons, List.length_append] at hcount
    exact readCall_before hclose (.inr ⟨hargs, by omega⟩)
  | @inline keyword ts text hk hpassage =>
    refine alone (by decide) fun count c hcount hc => ?_
    obtain ⟨opening, us, rfl, hopening⟩ := hpassage.exists_cons
    show readPrimary _ _ _ = _
    unfold readPrimary
    simp only [Cursor.kind_before_cons, hk]
    have htoken : Step.token (.mark .lParen) "after 'rule'"
        (c.before (opening :: us)) = .ok (opening, c.before us) :=
      Step.token_before hopening
    rw [Step.take_before, Step.bind_ok htoken]
    exact Step.bind_ok (Step.captured_before hpassage)
  | @group opening close ts e hopening _ hclose ih =>
    refine alone (by decide) fun count c hcount hc => ?_
    simp only [List.length_cons, List.length_append, List.length_nil] at hcount
    obtain ⟨count, rfl⟩ : ∃ n, count = n + 1 := ⟨count - 1, by omega⟩
    have hends : TokenKind.Ends 1 (c.before [close]).kind :=
      .of_mark hclose (by decide) (by decide)
    have hgroup : read (count + 1) ((c.before [close]).before ts) =
      .ok (e, c.before [close]) := ih.1 count _ (by omega) hends
    show readPrimary _ _ _ = _
    unfold readPrimary
    simp only [Cursor.kind_before_cons, hopening]
    rw [Step.take_before, Cursor.before_append, Step.bind_ok hgroup,
      Step.bind_ok (Step.token_before hclose)]
    rfl
  | @not keyword ts e hk hoperand ih =>
    refine alone (by decide) fun count c hcount hc => ?_
    have hfactor : readFactor count (c.before ts) = .ok (e, c) :=
      ih.1 _ _ (Nat.le_of_succ_le hcount) (hc.mono (Nat.le_succ _))
    show readUnary _ _ = _
    rw [readUnary, Step.peek_pos hk, Step.take_before, Step.bind_ok hfactor]
    rfl
  | @binary op _ _ _ _ _ _ hk _ ihl ihr =>
    exact joined (Chains.more (ihl.2 op rfl) hk ihr.1)
  | @loosen level ts e h ih =>
    -- each level reads by the step of the next one
    obtain _ | _ | _ | _ | level := level
    · refine ⟨fun count c hcount hc => ?_, fun op hop => ?_⟩
      · exact ih.1 _ _ hcount (hc.mono (Nat.le_succ _))
      · cases op <;> cases hop
    · exact joined (Parses.chains .or ih.1)
    · exact joined (Parses.chains .and ih.1)
    · refine alone (by decide) fun count c hcount hc => ?_
      obtain ⟨t, us, rfl, hk⟩ := h.exists_cons (by decide)
      show readUnary _ _ = _
      rw [readUnary, Step.peek_neg (c := c.before (t :: us)) hk]
      exact ih.1 _ _ hcount (hc.mono (Nat.le_succ _))
    · exact alone (Nat.le_add_left 3 (level + 1)) fun count c hcount hc =>
        ih.1 _ _ hcount (hc.mono (Nat.le_succ _))

end PermissionExpr

/-! ## Members -/

variable {c : Cursor} {ts : List Token} {count : Nat}

/-- **What may follow a member** of an entity type. -/
structure TokenKind.EndsMember (k : TokenKind) : Prop where
  expression : TokenKind.Ends 0 k
  sign : k ≠ .mark .atSign
  hash : k ≠ .mark .hash
  bracket : k ≠ .mark .lBracket

/-- The closing brace of an entity type ends its last member. -/
theorem TokenKind.EndsMember.rBrace :
    TokenKind.EndsMember (.mark .rBrace) where
  expression := .of_mark rfl (by decide) (by decide)
  sign := by decide
  hash := by decide
  bracket := by decide

/-- A word that is no connective ends a member. -/
theorem TokenKind.EndsMember.of_keyword {k : Keyword} (hor : k ≠ .or)
    (hand : k ≠ .and) : TokenKind.EndsMember (.keyword k) where
  expression := by
    refine ⟨TokenKind.noConfusion, TokenKind.noConfusion, ?_⟩
    intro op _ h
    cases op
    · exact hor (TokenKind.keyword.inj h)
    · exact hand (TokenKind.keyword.inj h)
  sign := TokenKind.noConfusion
  hash := TokenKind.noConfusion
  bracket := TokenKind.noConfusion

/-- The first token of the next member ends a member. -/
theorem EntityMember.Derives.endsMember {member : EntityMember}
    (h : Derives ts member) : (c.before ts).kind.EndsMember := by
  cases h with
  | relation hk | attr hk | attrList hk =>
    rw [Cursor.kind_before_cons, hk]
    exact .of_keyword (by decide) (by decide)
  | permission hk =>
    rw [Cursor.kind_before_cons]
    rcases hk with hk | hk <;> rw [hk] <;>
      exact .of_keyword (by decide) (by decide)

/-- The kind of the token behind some things, if one is theirs or comes
behind them. -/
theorem DerivesAll.kind_before {α : Type} {derives : List Token → α → Prop}
    {as : List α} {p : TokenKind → Prop} (h : DerivesAll derives ts as)
    (hfirst : ∀ {ts a} {c : Cursor}, derives ts a → p (c.before ts).kind)
    (hc : p c.kind) : p (c.before ts).kind := by
  cases h with
  | nil => exact hc
  | cons ha _ =>
    rw [Cursor.before_append]
    exact hfirst ha

/-- Each sort of subjects begins with its sign. -/
theorem TargetDecl.Derives.exists_cons {target : TargetDecl}
    (h : Derives ts target) :
    ∃ t us, ts = t :: us ∧ t.kind = .mark .atSign := by
  cases h with
  | entity hk | userset hk => exact ⟨_, _, rfl, hk⟩

/-- Sorts of subjects are read. -/
theorem TargetDecl.readAll_before {targets : List TargetDecl}
    (h : DerivesAll TargetDecl.Derives ts targets)
    (hcount : ts.length ≤ count) (hsign : c.kind ≠ .mark .atSign)
    (hhash : c.kind ≠ .mark .hash) :
    readAll count (c.before ts) = .ok (targets, c) := by
  induction h generalizing count with
  | nil =>
    -- the count may be used up, but not before the subjects are
    cases count with
    | zero => rfl
    | succ count =>
      rw [readAll, Cursor.before_nil, Step.peek_neg hsign]
      rfl
  | @cons ts us target targets htarget hrest ih =>
    rw [List.length_append] at hcount
    cases htarget with
    | entity hk hname =>
      simp only [List.length_cons, List.length_nil] at hcount
      obtain ⟨count, rfl⟩ : ∃ n, count = n + 1 := ⟨count - 1, by omega⟩
      have hnext : (c.before us).kind ≠ .mark .hash := by
        refine hrest.kind_before (p := (· ≠ .mark .hash)) ?_ hhash
        intro ts target c h
        obtain ⟨t, us, rfl, hk⟩ := h.exists_cons
        rw [Cursor.kind_before_cons, hk]
        decide
      rw [readAll, Cursor.before_append, Step.peek_pos hk, Step.take_before,
        Step.bind_ok (Step.name_before hname), Cursor.before_nil,
        Step.peek_neg hnext, Step.bind_ok rfl]
      exact Step.bind_ok (ih (by omega))
    | userset hk hname hhash hrelation =>
      simp only [List.length_cons, List.length_nil] at hcount
      obtain ⟨count, rfl⟩ : ∃ n, count = n + 1 := ⟨count - 1, by omega⟩
      rw [readAll, Cursor.before_append, Step.peek_pos hk, Step.take_before,
        Step.bind_ok (Step.name_before hname), Step.peek_pos hhash,
        Step.take_before,
        Step.bind_ok (Step.map_ok (Step.name_before hrelation)),
        Cursor.before_nil]
      exact Step.bind_ok (ih (by omega))

/-- **A member is read** if what follows ends it. -/
theorem EntityMember.read?_before {member : EntityMember}
    (h : Derives ts member) (hcount : ts.length ≤ count)
    (hc : c.kind.EndsMember) :
    ∃ step, read? count (c.before ts).kind = some step ∧
      step (c.before ts) = .ok (member, c) := by
  cases h with
  | @relation keyword name ts targets hk hname htargets hne =>
    refine ⟨_, by rw [Cursor.kind_before_cons, hk]; rfl, Step.map_ok ?_⟩
    simp only [List.length_cons] at hcount
    have hread : TargetDecl.readAll count (c.before ts) = .ok (targets, c) :=
      TargetDecl.readAll_before htargets (by omega) hc.sign hc.hash
    cases htargets with
    | nil => exact absurd rfl hne
    | cons htarget =>
      obtain ⟨sign, us, rfl, hsign⟩ := htarget.exists_cons
      rw [List.cons_append] at hread ⊢
      rw [RelationDecl.read, Step.take_before,
        Step.bind_ok (Step.name_before hname), Step.peek_pos hsign]
      exact Step.bind_ok hread
  | attr hk hname htype =>
    refine ⟨_, by rw [Cursor.kind_before_cons, hk]; rfl, Step.map_ok ?_⟩
    rw [AttributeDecl.read, Step.take_before,
      Step.bind_ok (Step.name_before hname),
      Step.bind_ok (Step.name_before htype), Cursor.before_nil,
      Step.peek_neg hc.bracket]
    rfl
  | attrList hk hname htype hopening hclose =>
    refine ⟨_, by rw [Cursor.kind_before_cons, hk]; rfl, Step.map_ok ?_⟩
    rw [AttributeDecl.read, Step.take_before,
      Step.bind_ok (Step.name_before hname),
      Step.bind_ok (Step.name_before htype), Step.peek_pos hopening,
      Step.take_before, Step.bind_ok (Step.token_before hclose)]
    rfl
  | @permission keyword name assign ts e hk hname hassign he =>
    have hread : PermissionDecl.read count
        (c.before (keyword :: name :: assign :: ts)) =
        .ok (⟨name.value, e⟩, c) := by
      simp only [List.length_cons] at hcount
      have hexpr : PermissionExpr.read count (c.before ts) = .ok (e, c) := by
        obtain ⟨count, rfl⟩ : ∃ n, count = n + 1 := ⟨count - 1, by omega⟩
        exact he.parses_and_chains.1 count c (by omega)
          (hc.expression.mono (Nat.zero_le 1))
      rw [PermissionDecl.read, Step.take_before,
        Step.bind_ok (Step.name_before hname),
        Step.bind_ok (Step.token_before hassign), Step.bind_ok hexpr]
      rfl
    rcases hk with hk | hk
    · exact ⟨_, by rw [Cursor.kind_before_cons, hk]; rfl, Step.map_ok hread⟩
    · exact ⟨_, by rw [Cursor.kind_before_cons, hk]; rfl, Step.map_ok hread⟩

/-! ## Declarations -/

/-- A round that reads a member. -/
theorem readMembers_of_ok {entity : String} {c' : Cursor}
    {step : Step EntityMember} {member : EntityMember}
    (hstep : EntityMember.read? count c.kind = some step)
    (h : step c = .ok (member, c')) :
    readMembers entity (count + 1) c =
      (readMembers entity count c').withItem member := by
  rw [readMembers]
  split
  next hk =>
    rw [hk] at hstep
    cases hstep
  next hk =>
    rw [hk] at hstep
    cases hstep
  next hk =>
    rw [hk] at hstep
    cases hstep
  next =>
    rw [hstep]
    dsimp only
    rw [h]

/-- Members are read without an error up to their closing brace. -/
theorem readMembers_before {entity : String} {members : List EntityMember}
    (h : DerivesAll EntityMember.Derives ts members) {close : Token}
    (hclose : close.kind = .mark .rBrace) (hcount : ts.length < count) :
    readMembers entity count (c.before (ts ++ [close])) =
      ⟨members, [], c⟩ := by
  induction h generalizing count with
  | nil =>
    obtain ⟨count, rfl⟩ : ∃ n, count = n + 1 := ⟨count - 1, by omega⟩
    unfold readMembers
    rw [List.nil_append, Cursor.kind_before_cons, hclose]
    rfl
  | @cons ts us member members hmember hrest ih =>
    rw [List.length_append] at hcount
    have hpos := hmember.length_pos
    obtain ⟨count, rfl⟩ : ∃ n, count = n + 1 := ⟨count - 1, by omega⟩
    have hends : ((c.before [close]).before us).kind.EndsMember := by
      refine hrest.kind_before (p := TokenKind.EndsMember)
        (fun h => h.endsMember) ?_
      rw [Cursor.kind_before_cons, hclose]
      exact .rBrace
    have hle : ts.length ≤ count := by omega
    obtain ⟨step, hstep, hread⟩ :=
      EntityMember.read?_before hmember hle hends
    rw [Cursor.before_append] at ih
    rw [List.append_assoc, Cursor.before_append, Cursor.before_append,
      readMembers_of_ok hstep hread, ih (by omega)]
    rfl

/-- A rule is read from its keyword on. -/
theorem RuleDecl.read_before {decl : RuleDecl}
    (h : Declaration.Derives ts (.rule decl)) (hcount : ts.length ≤ count) :
    (c.before ts).kind = .keyword .rule ∧
      read count (c.before ts) = .ok (decl, c) := by
  cases h with
  | @rule keyword name opening close ts us _ _ hk hname hopening hparameters
      hclose hbody =>
    simp only [List.length_cons, List.length_append] at hcount
    obtain ⟨brace, us, rfl, hbrace⟩ := hbody.exists_cons
    have hcomma : (c.before (close :: brace :: us)).kind ≠ .mark .comma := by
      rw [Cursor.kind_before_cons, hclose]
      decide
    have htoken : Step.token (.mark .lBrace) "to open rule body"
        (c.before (brace :: us)) = .ok (brace, c.before us) :=
      Step.token_before hbrace
    refine ⟨hk, ?_⟩
    rw [read, Step.take_before, Step.bind_ok (Step.name_before hname),
      Step.bind_ok (Step.token_before hopening), Cursor.before_append,
      Step.bind_ok (Step.names_before hparameters (by omega) hcomma),
      Step.bind_ok (Step.token_before hclose), Step.bind_ok htoken]
    exact Step.bind_ok (Step.captured_before hbody)

/-- The head of an entity type is read. -/
theorem EntityDecl.readHead_before {keyword name opening : Token}
    (hname : name.kind = .identifier)
    (hopening : opening.kind = .mark .lBrace) :
    readHead (c.before (keyword :: name :: opening :: ts)) =
      .ok (name.value, c.before ts) := by
  rw [readHead, Step.take_before, Step.bind_ok (Step.name_before hname),
    Step.bind_ok (Step.token_before hopening)]
  rfl

/-- **Declarations are read without an error** up to the end of the text. -/
theorem readDeclarations_before {declarations : List Declaration}
    (h : DerivesAll Declaration.Derives ts declarations)
    (hc : c.kind = .endOfText) (hcount : ts.length < count) :
    readDeclarations count (c.before ts) = ⟨declarations, [], c⟩ := by
  induction h generalizing count with
  | nil =>
    obtain ⟨count, rfl⟩ : ∃ n, count = n + 1 := ⟨count - 1, by omega⟩
    unfold readDeclarations
    rw [Cursor.before_nil, hc]
    rfl
  | @cons ts us declaration declarations hdeclaration hrest ih =>
    rw [List.length_append] at hcount
    have hpos := hdeclaration.length_pos
    obtain ⟨count, rfl⟩ : ∃ n, count = n + 1 := ⟨count - 1, by omega⟩
    rw [Cursor.before_append]
    unfold readDeclarations
    cases declaration with
    | rule decl =>
      have hle : ts.length ≤ count := by omega
      obtain ⟨hk, hread⟩ :=
        RuleDecl.read_before (c := c.before us) hdeclaration hle
      rw [hk]
      dsimp only
      rw [hread]
      dsimp only
      rw [ih (by omega)]
      rfl
    | entity decl =>
      cases hdeclaration with
      | @entity keyword name opening close ts members hk hname hopening
          hmembers hclose =>
        simp only [List.length_cons, List.length_append] at hcount
        rw [Cursor.kind_before_cons, hk]
        dsimp only
        rw [EntityDecl.readHead_before hname hopening]
        dsimp only
        rw [readMembers_before hmembers hclose (by omega)]
        dsimp only
        rw [ih (by omega)]
        rfl

/-- **A document that is derived is read**. -/
theorem parseTokens_of_derives {last : Token} {d : Document}
    (hlast : last.kind = .endOfText) (h : d.Derives ts) :
    parseTokens (ts ++ [last]) = .ok d := by
  obtain ⟨declarations, hts, rfl⟩ := h
  unfold parseTokens
  rw [Cursor.ofTokens_concat, List.length_append,
    readDeclarations_before (c := ⟨[], last⟩) hts hlast (by omega)]

end Entitlement
