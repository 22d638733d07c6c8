import Entitlement.Proofs.Schema.Grammar
import Entitlement.Proofs.Schema.Lexing

/-!
# What the parser accepts is derived

A reading step that succeeds has taken some tokens, and these tokens derive
what it returns. `Cursor.before` puts tokens in front of a cursor, so a
step from `c` to `c'` is said to have taken `ts` if `c = c'.before ts`.

Loops count down from the number of tokens, and nothing here depends on how
far they come but in the two loops over declarations, which leave off
without an error when their count is used up.
-/

namespace Entitlement

namespace Cursor

/-- The cursor in front of some more tokens. -/
def before (c : Cursor) (ts : List Token) : Cursor :=
  { c with ahead := ts ++ c.ahead }

/-- **Whether a cursor is in front of tokens that the lexer took.** -/
structure IsLexed (c : Cursor) : Prop where
  stop : c.stop.kind = .endOfText
  ahead : ∀ t ∈ c.ahead, t.IsLexed

variable {c c' : Cursor} {ts us : List Token} {k : TokenKind}

@[simp] theorem before_nil (c : Cursor) : c.before [] = c := rfl

theorem ahead_before (c : Cursor) (ts : List Token) :
    (c.before ts).ahead = ts ++ c.ahead := rfl

theorem length_before (c : Cursor) (ts : List Token) :
    (c.before ts).ahead.length = ts.length + c.ahead.length :=
  List.length_append

theorem before_append (c : Cursor) (ts us : List Token) :
    c.before (ts ++ us) = (c.before us).before ts := by
  unfold before
  rw [List.append_assoc]

/-- The tokens behind some are lexed too. -/
theorem IsLexed.of_before (h : (c.before ts).IsLexed) : c.IsLexed where
  stop := h.stop
  ahead t ht := h.ahead t (List.mem_append_right ts ht)

theorem IsLexed.behind (h : c.IsLexed) (hc : c = c'.before ts) :
    c'.IsLexed := by
  rw [hc] at h
  exact h.of_before

/-- The end of the text comes next exactly if no token is ahead. -/
theorem IsLexed.kind_eq_iff (h : c.IsLexed) :
    c.kind = .endOfText ↔ c.ahead = [] := by
  obtain ⟨ahead, stop⟩ := c
  cases ahead with
  | nil => exact iff_of_true h.stop rfl
  | cons t ahead =>
    have ht : t.IsLexed := h.ahead t List.mem_cons_self
    exact iff_of_false ht.spells.ne_endOfText (List.cons_ne_nil t ahead)

/-- Where the text goes on, the next token is the first ahead. -/
theorem exists_of_kind (h : c.IsLexed) (hk : c.kind = k)
    (hne : k ≠ .endOfText) :
    ∃ t, c = c.advance.before [t] ∧ t.kind = k ∧ c.current = t := by
  obtain ⟨ahead, stop⟩ := c
  cases ahead with
  | nil => exact absurd (hk.symm.trans h.stop) hne
  | cons t ahead => exact ⟨t, rfl, hk, rfl⟩

end Cursor

namespace Step

variable {α β : Type} {c c' : Cursor}

/-- A sequence of steps succeeds if both do. -/
theorem bind_eq_ok_iff {x : Step α} {f : α → Step β} {b : β} :
    (x >>= f) c = .ok (b, c') ↔
      ∃ a c₁, x c = .ok (a, c₁) ∧ f a c₁ = .ok (b, c') := by
  refine Outcome.bind_eq_ok_iff.trans ?_
  rw [Prod.exists]

theorem bind_ok {x : Step α} {f : α → Step β} {a : α}
    (h : x c = .ok (a, c')) : (x >>= f) c = f a c' := by
  show (x c >>= fun r => f r.1 r.2) = f a c'
  rw [h]
  rfl

/-- A sequence of steps fails if the first does. -/
theorem bind_error {x : Step α} {f : α → Step β} {broken : Breakage}
    (h : x c = .error broken) : (x >>= f) c = .error broken := by
  show (x c >>= fun r => f r.1 r.2) = .error broken
  rw [h]
  rfl

theorem pure_eq_ok_iff {a b : α} :
    (pure a : Step α) c = .ok (b, c') ↔ a = b ∧ c = c' := by
  show Except.ok (a, c) = .ok (b, c') ↔ _
  simp

/-- A step with a changed result succeeds if the step does. -/
theorem map_eq_ok_iff {x : Step α} {f : α → β} {b : β} :
    (f <$> x) c = .ok (b, c') ↔ ∃ a, x c = .ok (a, c') ∧ f a = b := by
  rw [map_eq_pure_bind, bind_eq_ok_iff]
  constructor
  · rintro ⟨a, c₁, hx, h⟩
    obtain ⟨rfl, rfl⟩ := pure_eq_ok_iff.mp h
    exact ⟨a, hx, rfl⟩
  · rintro ⟨a, hx, rfl⟩
    exact ⟨a, c', hx, pure_eq_ok_iff.mpr ⟨rfl, rfl⟩⟩

/-- Looking at the next token takes none. -/
theorem peek_bind (f : TokenKind → Step β) :
    (peek >>= f) c = f c.kind c := rfl

theorem take_bind (f : Token → Step β) :
    (take >>= f) c = f c.current c.advance := rfl

/-- A token that is asked for is taken. -/
theorem token_eq_ok (h : c.IsLexed) {kind : TokenKind} {role : String}
    (hne : kind ≠ .endOfText) {t : Token}
    (ht : token kind role c = .ok (t, c')) :
    c = c'.before [t] ∧ t.kind = kind := by
  unfold token at ht
  split at ht
  next hk =>
    cases ht
    obtain ⟨t, hc, hkind, hcurrent⟩ := Cursor.exists_of_kind h hk hne
    rw [hcurrent]
    exact ⟨hc, hkind⟩
  next => cases ht

/-- A name that is asked for is an identifier. -/
theorem name_eq_ok (h : c.IsLexed) {what s : String}
    (ht : name what c = .ok (s, c')) :
    ∃ t, c = c'.before [t] ∧ t.kind = .identifier ∧ s = t.value := by
  unfold name at ht
  split at ht
  next hk =>
    cases ht
    obtain ⟨t, hc, hkind, hcurrent⟩ :=
      Cursor.exists_of_kind h hk TokenKind.noConfusion
    exact ⟨t, hc, hkind, by rw [hcurrent]⟩
  next => cases ht

/-- Names are derived. -/
theorem names_eq_ok {what : String} {count : Nat} (h : c.IsLexed)
    {ns : List String} (ht : names what count c = .ok (ns, c')) :
    ∃ ts, c = c'.before ts ∧ DerivesNames ts ns := by
  induction count generalizing c ns with
  | zero =>
    obtain ⟨first, c₁, hfirst, ht⟩ := bind_eq_ok_iff.mp ht
    obtain ⟨t, rfl, hk, rfl⟩ := name_eq_ok h hfirst
    obtain ⟨rfl, rfl⟩ := pure_eq_ok_iff.mp ht
    exact ⟨[t], rfl, .one hk⟩
  | succ count ih =>
    obtain ⟨first, c₁, hfirst, ht⟩ := bind_eq_ok_iff.mp ht
    obtain ⟨t, hc, hk, rfl⟩ := name_eq_ok h hfirst
    replace h := h.behind hc
    rw [hc]
    rw [peek_bind] at ht
    split at ht
    next hcomma =>
      obtain ⟨comma, hc₁, hkind, -⟩ :=
        Cursor.exists_of_kind h hcomma TokenKind.noConfusion
      rw [take_bind] at ht
      obtain ⟨rest, c₂, hrest, ht⟩ := bind_eq_ok_iff.mp ht
      obtain ⟨rfl, rfl⟩ := pure_eq_ok_iff.mp ht
      obtain ⟨ts, hts, hrest⟩ := ih (h.behind hc₁) hrest
      rw [hc₁, hts]
      exact ⟨t :: comma :: ts, rfl, .more hk hkind hrest⟩
    next =>
      obtain ⟨rfl, rfl⟩ := pure_eq_ok_iff.mp ht
      exact ⟨[t], rfl, .one hk⟩

/-- **A passage that is kept is derived**, behind its opening bracket. -/
theorem captured_eq_ok {b : Bracket} {opening : Token}
    (hopening : opening.kind = .mark b.opening) {what text : String}
    {empty : SyntaxFault}
    (ht : captured opening (.mark b.closing) what empty c = .ok (text, c')) :
    ∃ ts, c = c'.before ts ∧ b.Derives (opening :: ts) text := by
  unfold captured at ht
  rw [hopening] at ht
  split at ht
  next => cases ht
  next kept rest hp =>
    obtain ⟨ts, close, hahead, hclose, hdepth, rfl⟩ :=
      passage_eq_some_iff.mp hp
    simp only at ht
    split at ht
    next => cases ht
    next trimmed hne =>
      cases ht
      refine ⟨ts ++ [close], ?_, .mk hopening hclose hdepth hne⟩
      show c = ⟨ts ++ [close] ++ rest, c.stop⟩
      rw [List.append_assoc]
      obtain ⟨ahead, stop⟩ := c
      exact congrArg (Cursor.mk · stop) hahead

end Step

namespace PermissionExpr

variable {c c' : Cursor} {e : PermissionExpr}

/-- **Whether what a step returns is derived** at a level. -/
def IsSound (level : Nat) (step : Step PermissionExpr) : Prop :=
  ∀ {c e c'}, c.IsLexed → step c = .ok (e, c') →
    ∃ ts, c = c'.before ts ∧ Derives level ts e

/-- Operands joined by a connective are derived at its level. -/
theorem readChain_eq_ok {op : Connective} {operand : Step PermissionExpr}
    (ho : IsSound (op.precedence + 1) operand)
    {count : Nat} {left : PermissionExpr} {ls : List Token}
    (hl : Derives op.precedence ls left) (h : c.IsLexed)
    (ht : readChain op operand count left c = .ok (e, c')) :
    ∃ ts, c = c'.before ts ∧ Derives op.precedence (ls ++ ts) e := by
  induction count generalizing left ls c with
  | zero =>
    obtain ⟨rfl, rfl⟩ := Step.pure_eq_ok_iff.mp ht
    exact ⟨[], rfl, by rwa [List.append_nil]⟩
  | succ count ih =>
    rw [readChain, Step.peek_bind] at ht
    split at ht
    next hkind =>
      obtain ⟨keyword, hc, hk, -⟩ :=
        Cursor.exists_of_kind h hkind TokenKind.noConfusion
      rw [Step.take_bind] at ht
      obtain ⟨right, c₁, hright, ht⟩ := Step.bind_eq_ok_iff.mp ht
      replace h := h.behind hc
      obtain ⟨rs, hrs, hright⟩ := ho h hright
      obtain ⟨ts, rfl, he⟩ := ih (.binary hl hk hright) (h.behind hrs) ht
      refine ⟨keyword :: (rs ++ ts), ?_, ?_⟩
      · rw [hc, hrs, ← Cursor.before_append, ← Cursor.before_append]
        rfl
      · rwa [List.append_assoc, List.cons_append] at he
    next =>
      obtain ⟨rfl, rfl⟩ := Step.pure_eq_ok_iff.mp ht
      exact ⟨[], rfl, by rwa [List.append_nil]⟩

variable {primary group : Step PermissionExpr} {count : Nat}

theorem isSound_readUnary (hp : IsSound 4 primary) :
    IsSound 3 (readUnary primary) := by
  intro c e c' h ht
  rw [readUnary, Step.peek_bind] at ht
  split at ht
  next hkind =>
    obtain ⟨keyword, hc, hk, -⟩ :=
      Cursor.exists_of_kind h hkind TokenKind.noConfusion
    rw [Step.take_bind] at ht
    obtain ⟨operand, c₁, hoperand, ht⟩ := Step.bind_eq_ok_iff.mp ht
    obtain ⟨rfl, rfl⟩ := Step.pure_eq_ok_iff.mp ht
    replace h := h.behind hc
    obtain ⟨ts, hts, he⟩ := hp h hoperand
    exact ⟨keyword :: ts, by rw [hc, hts]; rfl, .not hk he⟩
  next =>
    obtain ⟨ts, hts, he⟩ := hp h ht
    exact ⟨ts, hts, he.loosen⟩

/-- A chain of operands that are derived one level tighter is derived. -/
theorem isSound_chain (op : Connective) {operand : Step PermissionExpr}
    (ho : IsSound (op.precedence + 1) operand) :
    IsSound op.precedence (operand >>= readChain op operand count) := by
  intro c e c' h ht
  obtain ⟨first, c₁, hfirst, ht⟩ := Step.bind_eq_ok_iff.mp ht
  obtain ⟨ts, hc, hts⟩ := ho h hfirst
  replace h := h.behind hc
  obtain ⟨us, hc₁, he⟩ := readChain_eq_ok ho hts.loosen h ht
  exact ⟨ts ++ us, by rw [hc, hc₁, Cursor.before_append], he⟩

theorem isSound_readConjunction (hp : IsSound 4 primary) :
    IsSound 2 (readConjunction primary count) :=
  isSound_chain .and (isSound_readUnary hp)

theorem isSound_readDisjunction (hp : IsSound 4 primary) :
    IsSound 1 (readDisjunction primary count) :=
  isSound_chain .or (isSound_readConjunction hp)

/-- A call is derived. -/
theorem readCall_eq_ok (h : c.IsLexed) (hkind : c.kind = .identifier)
    (hfollowing : c.following.kind = .mark .lParen)
    (ht : readCall count c = .ok (e, c')) :
    ∃ ts, c = c'.before ts ∧ Derives 4 ts e := by
  obtain ⟨rule, hc, hrule, hcurrent⟩ :=
    Cursor.exists_of_kind h hkind TokenKind.noConfusion
  replace h := h.behind hc
  obtain ⟨opening, hc₁, hopening, -⟩ := Cursor.exists_of_kind h
    (show c.advance.kind = .mark .lParen from hfollowing)
    TokenKind.noConfusion
  replace h := h.behind hc₁
  rw [readCall, Step.take_bind, Step.take_bind, hcurrent, Step.peek_bind] at ht
  rw [hc, hc₁]
  split at ht
  next =>
    obtain ⟨arguments, c₂, hargs, ht⟩ := Step.bind_eq_ok_iff.mp ht
    obtain ⟨close, c₃, hclose, ht⟩ := Step.bind_eq_ok_iff.mp ht
    obtain ⟨rfl, rfl⟩ := Step.pure_eq_ok_iff.mp ht
    obtain ⟨rfl, rfl⟩ := Step.pure_eq_ok_iff.mp hargs
    obtain ⟨hc₂, hkind⟩ := Step.token_eq_ok h TokenKind.noConfusion hclose
    exact ⟨[rule, opening, close], by rw [hc₂]; rfl,
      .call hrule hopening hkind⟩
  next =>
    obtain ⟨arguments, c₂, hargs, ht⟩ := Step.bind_eq_ok_iff.mp ht
    obtain ⟨close, c₃, hclose, ht⟩ := Step.bind_eq_ok_iff.mp ht
    obtain ⟨rfl, rfl⟩ := Step.pure_eq_ok_iff.mp ht
    obtain ⟨ts, hts, hnames⟩ := Step.names_eq_ok h hargs
    replace h := h.behind hts
    rw [hts]
    obtain ⟨hc₂, hkind⟩ := Step.token_eq_ok h TokenKind.noConfusion hclose
    refine ⟨rule :: opening :: (ts ++ [close]), ?_,
      .callWith hrule hopening hnames hkind⟩
    rw [hc₂, ← Cursor.before_append, ← Cursor.before_append,
      ← Cursor.before_append]
    rfl

/-- A name, a member, a call, an expression on the spot and a group are
derived, if the group is. -/
theorem isSound_readPrimary (hg : IsSound 1 group) :
    IsSound 4 (readPrimary group count) := by
  intro c e c' h ht
  unfold readPrimary at ht
  split at ht
  next hkind =>
    obtain ⟨opening, hc, hopening, -⟩ :=
      Cursor.exists_of_kind h hkind TokenKind.noConfusion
    rw [Step.take_bind] at ht
    replace h := h.behind hc
    obtain ⟨inner, c₁, hinner, ht⟩ := Step.bind_eq_ok_iff.mp ht
    obtain ⟨close, c₂, hclose, ht⟩ := Step.bind_eq_ok_iff.mp ht
    obtain ⟨rfl, rfl⟩ := Step.pure_eq_ok_iff.mp ht
    obtain ⟨ts, hts, he⟩ := hg h hinner
    replace h := h.behind hts
    obtain ⟨hc₁, hkind⟩ := Step.token_eq_ok h TokenKind.noConfusion hclose
    refine ⟨opening :: (ts ++ [close]), ?_, .group hopening he hkind⟩
    rw [hc, hts, hc₁, ← Cursor.before_append, ← Cursor.before_append]
    rfl
  next hkind =>
    obtain ⟨keyword, hc, hkeyword, -⟩ :=
      Cursor.exists_of_kind h hkind TokenKind.noConfusion
    rw [Step.take_bind] at ht
    replace h := h.behind hc
    obtain ⟨opening, c₁, hopening, ht⟩ := Step.bind_eq_ok_iff.mp ht
    obtain ⟨expression, c₂, hexpression, ht⟩ := Step.bind_eq_ok_iff.mp ht
    obtain ⟨rfl, rfl⟩ := Step.pure_eq_ok_iff.mp ht
    obtain ⟨hc₁, hkind⟩ := Step.token_eq_ok h TokenKind.noConfusion hopening
    replace h := h.behind hc₁
    obtain ⟨ts, hts, hpassage⟩ := Step.captured_eq_ok (b := .parens)
      hkind hexpression
    refine ⟨keyword :: opening :: ts, ?_, .inline hkeyword hpassage⟩
    rw [hc, hc₁, hts]
    rfl
  next hkind hfollowing => exact readCall_eq_ok h hkind hfollowing ht
  next hkind hfollowing =>
    obtain ⟨relation, hc, hrelation, hcurrent⟩ :=
      Cursor.exists_of_kind h hkind TokenKind.noConfusion
    replace h := h.behind hc
    obtain ⟨dot, hc₁, hdot, -⟩ := Cursor.exists_of_kind h
      (show c.advance.kind = .mark .dot from hfollowing)
      TokenKind.noConfusion
    replace h := h.behind hc₁
    rw [Step.take_bind, Step.take_bind, hcurrent] at ht
    obtain ⟨permission, c₂, hpermission, ht⟩ := Step.bind_eq_ok_iff.mp ht
    obtain ⟨rfl, rfl⟩ := Step.pure_eq_ok_iff.mp ht
    obtain ⟨t, hc₂, hkind, rfl⟩ := Step.name_eq_ok h hpermission
    refine ⟨[relation, dot, t], ?_, .member hrelation hdot hkind⟩
    rw [hc, hc₁, hc₂]
    rfl
  next hkind _ _ =>
    obtain ⟨t, hc, hname, hcurrent⟩ :=
      Cursor.exists_of_kind h hkind TokenKind.noConfusion
    rw [Step.take_bind, hcurrent] at ht
    obtain ⟨rfl, rfl⟩ := Step.pure_eq_ok_iff.mp ht
    exact ⟨[t], hc, .name hname⟩
  next => cases ht

/-- **An expression that is read is derived.** -/
theorem isSound_read (count : Nat) : IsSound 1 (read count) := by
  induction count with
  | zero =>
    intro c e c' h ht
    cases ht
  | succ count ih => exact isSound_readDisjunction (isSound_readPrimary ih)

end PermissionExpr

/-! ## Members -/

variable {c c' : Cursor} {count : Nat}

/-- Sorts of subjects are derived, and where one starts there is one. -/
theorem TargetDecl.readAll_eq_ok (h : c.IsLexed)
    {targets : List TargetDecl}
    (ht : readAll count c = .ok (targets, c')) :
    ∃ ts, c = c'.before ts ∧ DerivesAll TargetDecl.Derives ts targets ∧
      (0 < count → c.kind = .mark .atSign → targets ≠ []) := by
  induction count generalizing c targets with
  | zero =>
    obtain ⟨rfl, rfl⟩ := Step.pure_eq_ok_iff.mp ht
    exact ⟨[], rfl, .nil, fun h => absurd h (Nat.lt_irrefl 0)⟩
  | succ count ih =>
    rw [readAll, Step.peek_bind] at ht
    split at ht
    next hkind =>
      obtain ⟨sign, hc, hsign, -⟩ :=
        Cursor.exists_of_kind h hkind TokenKind.noConfusion
      rw [Step.take_bind] at ht
      replace h := h.behind hc
      rw [hc]
      obtain ⟨entity, c₁, hentity, ht⟩ := Step.bind_eq_ok_iff.mp ht
      obtain ⟨name, hc₁, hname, rfl⟩ := Step.name_eq_ok h hentity
      replace h := h.behind hc₁
      rw [hc₁]
      rw [Step.peek_bind] at ht
      split at ht
      next hkind =>
        obtain ⟨hash, hc₂, hhash, -⟩ := Cursor.exists_of_kind
          h hkind TokenKind.noConfusion
        replace h := h.behind hc₂
        rw [hc₂]
        rw [Step.take_bind] at ht
        obtain ⟨relation, c₃, hrelation, ht⟩ := Step.bind_eq_ok_iff.mp ht
        obtain ⟨rest, c₄, hrest, ht⟩ := Step.bind_eq_ok_iff.mp ht
        obtain ⟨rfl, rfl⟩ := Step.pure_eq_ok_iff.mp ht
        obtain ⟨value, hvalue, rfl⟩ := Step.map_eq_ok_iff.mp hrelation
        obtain ⟨t, hc₃, hkind, rfl⟩ := Step.name_eq_ok h hvalue
        replace h := h.behind hc₃
        rw [hc₃]
        obtain ⟨ts, hts, hderives, -⟩ :=
          ih h hrest
        rw [hts]
        exact ⟨sign :: name :: hash :: t :: ts, rfl,
          .cons (.userset hsign hname hhash hkind) hderives,
          fun _ _ => List.cons_ne_nil _ _⟩
      next =>
        rw [pure_bind] at ht
        obtain ⟨rest, c₄, hrest, ht⟩ := Step.bind_eq_ok_iff.mp ht
        obtain ⟨rfl, rfl⟩ := Step.pure_eq_ok_iff.mp ht
        obtain ⟨ts, hts, hderives, -⟩ := ih h hrest
        rw [hts]
        exact ⟨sign :: name :: ts, rfl,
          .cons (.entity hsign hname) hderives,
          fun _ _ => List.cons_ne_nil _ _⟩
    next hkind =>
      obtain ⟨rfl, rfl⟩ := Step.pure_eq_ok_iff.mp ht
      exact ⟨[], rfl, .nil, fun _ h => absurd h hkind⟩

theorem RelationDecl.read_eq_ok (h : c.IsLexed) (hcount : 0 < count)
    (hkind : c.kind = .keyword .relation) {decl : RelationDecl}
    (ht : read count c = .ok (decl, c')) :
    ∃ ts, c = c'.before ts ∧ EntityMember.Derives ts (.relation decl) := by
  obtain ⟨keyword, hc, hkeyword, -⟩ :=
    Cursor.exists_of_kind h hkind TokenKind.noConfusion
  rw [read, Step.take_bind] at ht
  replace h := h.behind hc
  rw [hc]
  obtain ⟨name, c₁, hname, ht⟩ := Step.bind_eq_ok_iff.mp ht
  obtain ⟨t, hc₁, ht₁, rfl⟩ := Step.name_eq_ok h hname
  replace h := h.behind hc₁
  rw [hc₁]
  rw [Step.peek_bind] at ht
  split at ht
  next hsign =>
    obtain ⟨targets, c₂, htargets, ht⟩ := Step.bind_eq_ok_iff.mp ht
    obtain ⟨rfl, rfl⟩ := Step.pure_eq_ok_iff.mp ht
    obtain ⟨ts, hc₂, hts, hne⟩ :=
      TargetDecl.readAll_eq_ok h htargets
    rw [hc₂]
    exact ⟨keyword :: t :: ts, rfl,
      .relation hkeyword ht₁ hts (hne hcount hsign)⟩
  next => cases ht

theorem AttributeDecl.read_eq_ok (h : c.IsLexed)
    (hkind : c.kind = .keyword .attr) {decl : AttributeDecl}
    (ht : read c = .ok (decl, c')) :
    ∃ ts, c = c'.before ts ∧ EntityMember.Derives ts (.attr decl) := by
  obtain ⟨keyword, hc, hkeyword, -⟩ :=
    Cursor.exists_of_kind h hkind TokenKind.noConfusion
  rw [read, Step.take_bind] at ht
  replace h := h.behind hc
  rw [hc]
  obtain ⟨name, c₁, hname, ht⟩ := Step.bind_eq_ok_iff.mp ht
  obtain ⟨t, hc₁, ht₁, rfl⟩ := Step.name_eq_ok h hname
  replace h := h.behind hc₁
  rw [hc₁]
  obtain ⟨type, c₂, htype, ht⟩ := Step.bind_eq_ok_iff.mp ht
  obtain ⟨u, hc₂, hu, rfl⟩ := Step.name_eq_ok h htype
  replace h := h.behind hc₂
  rw [hc₂]
  rw [Step.peek_bind] at ht
  split at ht
  next hbracket =>
    obtain ⟨opening, hc₃, hopening, -⟩ := Cursor.exists_of_kind
      h hbracket TokenKind.noConfusion
    replace h := h.behind hc₃
    rw [hc₃]
    rw [Step.take_bind] at ht
    obtain ⟨close, c₄, hclose, ht⟩ := Step.bind_eq_ok_iff.mp ht
    obtain ⟨rfl, rfl⟩ := Step.pure_eq_ok_iff.mp ht
    obtain ⟨hc₄, hkind⟩ := Step.token_eq_ok
      h TokenKind.noConfusion hclose
    rw [hc₄]
    exact ⟨[keyword, t, u, opening, close], rfl,
      .attrList hkeyword ht₁ hu hopening hkind⟩
  next =>
    obtain ⟨rfl, rfl⟩ := Step.pure_eq_ok_iff.mp ht
    exact ⟨[keyword, t, u], rfl, .attr hkeyword ht₁ hu⟩

theorem PermissionDecl.read_eq_ok (h : c.IsLexed)
    (hkind : c.kind = .keyword .permission ∨ c.kind = .keyword .action)
    {decl : PermissionDecl} (ht : read count c = .ok (decl, c')) :
    ∃ ts, c = c'.before ts ∧ EntityMember.Derives ts (.permission decl) := by
  obtain ⟨keyword, hc, hkeyword⟩ : ∃ t, c = c.advance.before [t] ∧
      (t.kind = .keyword .permission ∨ t.kind = .keyword .action) := by
    rcases hkind with hkind | hkind
    · obtain ⟨t, hc, hk, -⟩ :=
        Cursor.exists_of_kind h hkind TokenKind.noConfusion
      exact ⟨t, hc, .inl hk⟩
    · obtain ⟨t, hc, hk, -⟩ :=
        Cursor.exists_of_kind h hkind TokenKind.noConfusion
      exact ⟨t, hc, .inr hk⟩
  rw [read, Step.take_bind] at ht
  replace h := h.behind hc
  rw [hc]
  obtain ⟨name, c₁, hname, ht⟩ := Step.bind_eq_ok_iff.mp ht
  obtain ⟨t, hc₁, ht₁, rfl⟩ := Step.name_eq_ok h hname
  replace h := h.behind hc₁
  rw [hc₁]
  obtain ⟨assign, c₂, hassign, ht⟩ := Step.bind_eq_ok_iff.mp ht
  obtain ⟨hc₂, hmark⟩ := Step.token_eq_ok h TokenKind.noConfusion hassign
  replace h := h.behind hc₂
  rw [hc₂]
  obtain ⟨expr, c₃, hexpr, ht⟩ := Step.bind_eq_ok_iff.mp ht
  obtain ⟨rfl, rfl⟩ := Step.pure_eq_ok_iff.mp ht
  obtain ⟨ts, hc₃, hts⟩ := PermissionExpr.isSound_read count
    h hexpr
  rw [hc₃]
  exact ⟨keyword :: t :: assign :: ts, rfl,
    .permission hkeyword ht₁ hmark hts⟩

namespace EntityMember

/-- **A member that is read is derived.** -/
theorem read?_eq_ok (h : c.IsLexed) (hcount : 0 < count)
    {step : Step EntityMember} (hstep : read? count c.kind = some step)
    {member : EntityMember} (ht : step c = .ok (member, c')) :
    ∃ ts, c = c'.before ts ∧ Derives ts member := by
  unfold read? at hstep
  split at hstep
  next hkind =>
    cases hstep
    obtain ⟨decl, hdecl, rfl⟩ := Step.map_eq_ok_iff.mp ht
    exact RelationDecl.read_eq_ok h hcount hkind hdecl
  next hkind =>
    cases hstep
    obtain ⟨decl, hdecl, rfl⟩ := Step.map_eq_ok_iff.mp ht
    exact AttributeDecl.read_eq_ok h hkind hdecl
  next hkind =>
    cases hstep
    obtain ⟨decl, hdecl, rfl⟩ := Step.map_eq_ok_iff.mp ht
    exact PermissionDecl.read_eq_ok h (.inl hkind) hdecl
  next hkind =>
    cases hstep
    obtain ⟨decl, hdecl, rfl⟩ := Step.map_eq_ok_iff.mp ht
    exact PermissionDecl.read_eq_ok h (.inr hkind) hdecl
  next => cases hstep

/-- A member takes at least one token. -/
theorem Derives.length_pos {ts : List Token} {member : EntityMember}
    (h : Derives ts member) : 0 < ts.length := by
  cases h <;> exact Nat.succ_pos _

end EntityMember

/-! ## Declarations -/

/-- Members that are read without an error are derived, and their closing
brace is taken. -/
theorem readMembers_of_no_errors {entity : String} (h : c.IsLexed)
    (hcount : c.ahead.length < count)
    (he : (readMembers entity count c).errors = []) :
    ∃ ts close, c = (readMembers entity count c).rest.before (ts ++ [close]) ∧
      close.kind = .mark .rBrace ∧
      DerivesAll EntityMember.Derives ts
        (readMembers entity count c).items := by
  induction count generalizing c with
  | zero => exact absurd hcount (Nat.not_lt_zero _)
  | succ count ih =>
    unfold readMembers at he ⊢
    -- only the closing brace and a member that is read leave no error
    split at he
    next hkind =>
      obtain ⟨close, hc, hclose, -⟩ :=
        Cursor.exists_of_kind h hkind TokenKind.noConfusion
      exact ⟨[], close, hc, hclose, .nil⟩
    next => cases he
    next => cases he
    next =>
      split at he
      next => cases he
      next step hstep =>
        split at he
        next item rest ht =>
          have hahead : c.ahead ≠ [] := fun hnil => by
            rw [h.kind_eq_iff.mpr hnil] at hstep
            cases hstep
          have hcount₁ : 0 < count := Nat.lt_of_lt_of_le
            (List.length_pos_iff.mpr hahead) (Nat.le_of_lt_succ hcount)
          obtain ⟨ts, hc, hts⟩ :=
            EntityMember.read?_eq_ok h hcount₁ hstep ht
          have hlength : rest.ahead.length < count := by
            rw [hc, Cursor.length_before] at hcount
            have := hts.length_pos
            omega
          replace h := h.behind hc
          obtain ⟨us, close, hrest, hclose, hus⟩ :=
            ih h hlength he
          refine ⟨ts ++ us, close, ?_, hclose, .cons hts hus⟩
          rw [hc, List.append_assoc, Cursor.before_append]
          exact congrArg (Cursor.before · ts) hrest
        next => cases he

/-- The head of an entity type is its keyword, its name and a brace. -/
theorem EntityDecl.readHead_eq_ok (h : c.IsLexed)
    (hkind : c.kind = .keyword .entity) {name : String}
    (ht : readHead c = .ok (name, c')) :
    ∃ keyword t opening, c = c'.before [keyword, t, opening] ∧
      keyword.kind = .keyword .entity ∧ t.kind = .identifier ∧
      opening.kind = .mark .lBrace ∧ name = t.value := by
  obtain ⟨keyword, hc, hkeyword, -⟩ :=
    Cursor.exists_of_kind h hkind TokenKind.noConfusion
  rw [readHead, Step.take_bind] at ht
  replace h := h.behind hc
  rw [hc]
  obtain ⟨name, c₁, hname, ht⟩ := Step.bind_eq_ok_iff.mp ht
  obtain ⟨t, hc₁, ht₁, rfl⟩ := Step.name_eq_ok h hname
  replace h := h.behind hc₁
  rw [hc₁]
  obtain ⟨opening, c₂, hopening, ht⟩ := Step.bind_eq_ok_iff.mp ht
  obtain ⟨rfl, rfl⟩ := Step.pure_eq_ok_iff.mp ht
  obtain ⟨hc₂, hbrace⟩ := Step.token_eq_ok h TokenKind.noConfusion hopening
  rw [hc₂]
  exact ⟨keyword, t, opening, rfl, hkeyword, ht₁, hbrace, rfl⟩

theorem RuleDecl.read_eq_ok (h : c.IsLexed)
    (hkind : c.kind = .keyword .rule) {decl : RuleDecl}
    (ht : read count c = .ok (decl, c')) :
    ∃ ts, c = c'.before ts ∧ Declaration.Derives ts (.rule decl) := by
  obtain ⟨keyword, hc, hkeyword, -⟩ :=
    Cursor.exists_of_kind h hkind TokenKind.noConfusion
  rw [read, Step.take_bind] at ht
  replace h := h.behind hc
  rw [hc]
  obtain ⟨name, c₁, hname, ht⟩ := Step.bind_eq_ok_iff.mp ht
  obtain ⟨t, hc₁, ht₁, rfl⟩ := Step.name_eq_ok h hname
  replace h := h.behind hc₁
  rw [hc₁]
  obtain ⟨opening, c₂, hopening, ht⟩ := Step.bind_eq_ok_iff.mp ht
  obtain ⟨hc₂, hparen⟩ := Step.token_eq_ok h TokenKind.noConfusion hopening
  replace h := h.behind hc₂
  rw [hc₂]
  obtain ⟨parameters, c₃, hparameters, ht⟩ := Step.bind_eq_ok_iff.mp ht
  obtain ⟨ts, hc₃, hts⟩ := Step.names_eq_ok h hparameters
  replace h := h.behind hc₃
  rw [hc₃]
  obtain ⟨close, c₄, hclose, ht⟩ := Step.bind_eq_ok_iff.mp ht
  obtain ⟨hc₄, hcloseParen⟩ := Step.token_eq_ok
    h TokenKind.noConfusion hclose
  replace h := h.behind hc₄
  rw [hc₄]
  obtain ⟨brace, c₅, hbrace, ht⟩ := Step.bind_eq_ok_iff.mp ht
  obtain ⟨hc₅, hopenBrace⟩ := Step.token_eq_ok
    h
    TokenKind.noConfusion hbrace
  replace h := h.behind hc₅
  rw [hc₅]
  obtain ⟨body, c₆, hbody, ht⟩ := Step.bind_eq_ok_iff.mp ht
  obtain ⟨rfl, rfl⟩ := Step.pure_eq_ok_iff.mp ht
  obtain ⟨us, hc₆, hus⟩ := Step.captured_eq_ok (b := .braces) hopenBrace hbody
  refine ⟨keyword :: t :: opening :: (ts ++ close :: brace :: us), ?_,
    .rule hkeyword ht₁ hparen hts hcloseParen hus⟩
  rw [hc₆]
  simp only [← Cursor.before_append, List.cons_append, List.nil_append]

namespace Declaration

/-- A declaration takes at least one token. -/
theorem Derives.length_pos {ts : List Token} {declaration : Declaration}
    (h : Derives ts declaration) : 0 < ts.length := by
  cases h <;> exact Nat.succ_pos _

end Declaration

/-- **Declarations that are read without an error are derived**, by all
that is ahead. -/
theorem readDeclarations_of_no_errors (h : c.IsLexed)
    (hcount : c.ahead.length < count)
    (he : (readDeclarations count c).errors = []) :
    DerivesAll Declaration.Derives c.ahead
      (readDeclarations count c).items := by
  induction count generalizing c with
  | zero => exact absurd hcount (Nat.not_lt_zero _)
  | succ count ih =>
    unfold readDeclarations at he ⊢
    split at he
    next hkind =>
      rw [h.kind_eq_iff.mp hkind]
      exact .nil
    next hkind =>
      split at he
      next name rest ht =>
        obtain ⟨hmembers, hrest⟩ := List.append_eq_nil_iff.mp he
        obtain ⟨keyword, t, opening, hc, hkeyword, ht₁, hbrace, rfl⟩ :=
          EntityDecl.readHead_eq_ok h hkind ht
        replace h := h.behind hc
        rw [hc] at hcount
        simp only [Cursor.length_before, List.length_cons] at hcount
        obtain ⟨ts, close, hc₁, hclose, hts⟩ :=
          readMembers_of_no_errors h (by omega) hmembers
        rw [hc₁] at hcount
        simp only [Cursor.length_before] at hcount
        have hus := ih (h.behind hc₁) (by omega) hrest
        have hentity :=
          Declaration.Derives.entity hkeyword ht₁ hbrace hts hclose
        rw [hc, Cursor.ahead_before, congrArg Cursor.ahead hc₁,
          Cursor.ahead_before, ← List.append_assoc]
        exact .cons hentity hus
      next => cases he
    next hkind =>
      split at he
      next decl rest ht =>
        obtain ⟨ts, hc, hts⟩ := RuleDecl.read_eq_ok h hkind ht
        have hpos := hts.length_pos
        rw [hc, Cursor.length_before] at hcount
        rw [hc]
        exact .cons hts (ih (h.behind hc) (by omega) he)
      next => cases he
    next => cases he

/-- The cursor in front of all the tokens of a text. -/
theorem Cursor.ofTokens_concat (ts : List Token) (last : Token) :
    Cursor.ofTokens (ts ++ [last]) = Cursor.before ⟨[], last⟩ ts := by
  unfold Cursor.ofTokens Cursor.before
  rw [List.dropLast_concat, List.getLastD_concat, List.append_nil]

/-- **A document that is read is derived**, by the tokens before the end of
the text. -/
theorem derives_of_parseTokens {ts : List Token} {last : Token}
    {d : Document} (hlast : last.kind = .endOfText)
    (hts : ∀ t ∈ ts, t.IsLexed) (h : parseTokens (ts ++ [last]) = .ok d) :
    d.Derives ts := by
  have hlexed : (Cursor.before ⟨[], last⟩ ts).IsLexed :=
    ⟨hlast, by simpa [Cursor.before] using hts⟩
  unfold parseTokens at h
  rw [Cursor.ofTokens_concat, List.length_append] at h
  dsimp only at h
  split at h
  next he =>
    cases h
    have hcount : (Cursor.before ⟨[], last⟩ ts).ahead.length <
        ts.length + [last].length + 1 := by
      rw [Cursor.length_before]
      exact Nat.lt_succ_of_le (Nat.add_le_add_left (Nat.zero_le _) _)
    have hall := readDeclarations_of_no_errors hlexed hcount he
    rw [Cursor.ahead_before, List.append_nil] at hall
    exact ⟨_, hall, rfl⟩
  next => cases h

end Entitlement
