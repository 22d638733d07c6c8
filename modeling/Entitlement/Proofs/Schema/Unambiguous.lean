import Entitlement.Proofs.Schema.DerivationTree
import Entitlement.Proofs.Schema.ParserComplete

/-!
# The grammar is unambiguous

No two derivation trees have the same tokens (`DocumentTree.tokens_injective`).
The tokens of a part of a tree go on with those of the next part, so more is
shown of each sort: two trees in front of more tokens are the same, and what
stands behind them is the same, if the tokens behind them do not go on with
the trees. Which tokens do not is known from the parser, which ends an
expression or a member there.

The proof goes along the first tree. A leaf takes one token, a row goes on as
long as the next token begins an item, and a passage goes up to the bracket
that closes it.
-/

namespace Entitlement

/-- Whether tokens begin, if they do, with a kind of some sort. -/
def Begins (p : TokenKind → Prop) (ts : List Token) : Prop :=
  ∀ t ∈ ts.head?, p t.kind

namespace Begins

variable {p q : TokenKind → Prop} {ts : List Token}

theorem mono (h : Begins p ts) (hpq : ∀ k, p k → q k) : Begins q ts :=
  fun t ht => hpq t.kind (h t ht)

/-- What begins with a leaf begins with its kind. -/
theorem leaf_iff {kind : TokenKind} {leaf : Leaf kind} :
    Begins p (leaf.token :: ts) ↔ p kind := by
  constructor
  · intro h
    rw [← leaf.kind_eq]
    exact h leaf.token rfl
  · intro h t ht
    cases ht
    rwa [leaf.kind_eq]

/-- With no condition there is nothing to show. -/
theorem of_true : Begins (fun _ => True) ts :=
  fun _ _ => trivial

end Begins

/-- **Whether trees are told apart in front of tokens of some sort**: two
trees with tokens of the sort behind them are the same, and so is what stands
behind them. -/
def SplitsBefore {τ : Type} (p : TokenKind → Prop)
    (tokens : τ → List Token) : Prop :=
  ∀ ⦃tree tree' : τ⦄ ⦃us us' : List Token⦄, Begins p us → Begins p us' →
    tokens tree ++ us = tokens tree' ++ us' → tree = tree' ∧ us = us'

namespace Leaf

variable {kind kind' : TokenKind} {us us' : List Token}

/-- Leaves take one token. -/
theorem eq_of_cons {a b : Leaf kind} (h : a.token :: us = b.token :: us') :
    a = b ∧ us = us' :=
  ⟨Leaf.ext (List.cons.inj h).1, (List.cons.inj h).2⟩

/-- The kind of the first token is that of the leaf. -/
theorem kind_eq_of_cons {a : Leaf kind} {b : Leaf kind'}
    (h : a.token :: us = b.token :: us') : kind = kind' := by
  rw [← a.kind_eq, ← b.kind_eq, (List.cons.inj h).1]

/-- Leaves of one of two kinds take one token. -/
theorem eq_of_cons_elim (hne : kind ≠ kind') {a b : Leaf kind ⊕ Leaf kind'}
    (h : a.elim token token :: us = b.elim token token :: us') :
    a = b ∧ us = us' := by
  cases a with
  | inl a =>
    cases b with
    | inl b =>
      obtain ⟨rfl, rfl⟩ := eq_of_cons h
      exact ⟨rfl, rfl⟩
    | inr b => exact absurd (kind_eq_of_cons h) hne
  | inr a =>
    cases b with
    | inl b => exact absurd (kind_eq_of_cons h).symm hne
    | inr b =>
      obtain ⟨rfl, rfl⟩ := eq_of_cons h
      exact ⟨rfl, rfl⟩

end Leaf

/-! ## Rows -/

/-- **Rows are told apart** where their items are, in front of tokens that
begin no item. -/
theorem SplitsBefore.all {τ : Type} {tokens : τ → List Token}
    (starts : TokenKind → Prop) {ends follows : TokenKind → Prop}
    (h : SplitsBefore ends tokens)
    (hstarts : ∀ tree, ∃ t ts, tokens tree = t :: ts ∧ starts t.kind)
    (hends : ∀ k, starts k → ends k)
    (hfollows : ∀ k, follows k → ends k ∧ ¬ starts k) :
    SplitsBefore follows (List.flatMap tokens) := by
  have hbehind (trees : List τ) {us : List Token} (hus : Begins follows us) :
      Begins ends (trees.flatMap tokens ++ us) := by
    cases trees with
    | nil => exact hus.mono fun k hk => (hfollows k hk).1
    | cons tree trees =>
      obtain ⟨t, ts, htree, ht⟩ := hstarts tree
      rw [List.flatMap_cons, htree]
      intro u hu
      cases hu
      exact hends _ ht
  -- nothing that follows a row is an item of it
  have hstop (tree : τ) (trees : List τ) {us : List Token}
      (hus : Begins follows us) (us' : List Token) :
      us ≠ (tree :: trees).flatMap tokens ++ us' := by
    rintro rfl
    obtain ⟨t, ts, htree, ht⟩ := hstarts tree
    rw [List.flatMap_cons, htree] at hus
    exact (hfollows _ (hus t rfl)).2 ht
  intro trees trees' us us' hus hus' heq
  induction trees generalizing trees' with
  | nil =>
    cases trees' with
    | nil => exact ⟨rfl, heq⟩
    | cons tree' trees' => exact absurd heq (hstop tree' trees' hus us')
  | cons tree trees ih =>
    cases trees' with
    | nil => exact absurd heq.symm (hstop tree trees hus' us)
    | cons tree' trees' =>
      rw [List.flatMap_cons, List.flatMap_cons, List.append_assoc,
        List.append_assoc] at heq
      obtain ⟨rfl, hrest⟩ := h (hbehind trees hus) (hbehind trees' hus') heq
      obtain ⟨rfl, rfl⟩ := ih hrest
      exact ⟨rfl, rfl⟩

/-- **Parts that may be left out are told apart** where the parts are, in
front of tokens that begin none. -/
theorem SplitsBefore.option {τ : Type} {tokens : τ → List Token}
    (starts : TokenKind → Prop) {ends follows : TokenKind → Prop}
    (h : SplitsBefore ends tokens)
    (hstarts : ∀ tree, ∃ t ts, tokens tree = t :: ts ∧ starts t.kind)
    (hends : ∀ k, starts k → ends k)
    (hfollows : ∀ k, follows k → ends k ∧ ¬ starts k) :
    SplitsBefore follows (optionTokens tokens) := by
  have hrow (part : Option τ) :
      optionTokens tokens part = part.toList.flatMap tokens := by
    cases part with
    | none => rfl
    | some tree => exact (List.flatMap_singleton tokens tree).symm
  intro part part' us us' hus hus' heq
  rw [hrow, hrow] at heq
  obtain ⟨hpart, hrest⟩ := h.all starts hstarts hends hfollows hus hus' heq
  exact ⟨by simpa using congrArg List.head? hpart, hrest⟩

/-- Two leaves are told apart, whatever follows. -/
theorem splits_pair (kind kind' : TokenKind) : SplitsBefore (fun _ => True)
    (@pairTokens kind kind') := by
  rintro ⟨first, second⟩ ⟨first', second'⟩ us us' - - h
  obtain ⟨rfl, hsecond⟩ := Leaf.eq_of_cons h
  obtain ⟨rfl, rfl⟩ := Leaf.eq_of_cons hsecond
  exact ⟨rfl, rfl⟩

/-- Two leaves begin with the first. -/
theorem exists_cons_pair {kind kind' : TokenKind}
    (pair : Leaf kind × Leaf kind') :
    ∃ t ts, pairTokens pair = t :: ts ∧ t.kind = kind :=
  ⟨_, _, rfl, pair.1.kind_eq⟩

/-- Names are told apart where no comma follows. -/
theorem NamesTree.splits : SplitsBefore (· ≠ .mark .comma) tokens := by
  rintro ⟨first, more⟩ ⟨first', more'⟩ us us' hus hus' h
  obtain ⟨rfl, hmore⟩ := Leaf.eq_of_cons h
  obtain ⟨rfl, rfl⟩ := (splits_pair _ _).all _ exists_cons_pair
    (fun _ _ => trivial) (fun _ hk => ⟨trivial, hk⟩) hus hus' hmore
  exact ⟨rfl, rfl⟩

/-- Arguments that may be left out are told apart in front of a closing
parenthesis. -/
theorem NamesTree.splits_option :
    SplitsBefore (· = .mark .rParen) (optionTokens tokens) := by
  refine NamesTree.splits.option (· = .identifier)
    (fun tree => ⟨_, _, rfl, tree.first.kind_eq⟩) ?_ ?_
  · rintro _ rfl
    decide
  · rintro _ rfl
    decide

/-- Behind its opening bracket, a passage is read up to the end of its
tree. -/
theorem PassageTree.passage_raw {b : Bracket} (tree : PassageTree b)
    (us : List Token) :
    passage (.mark b.opening) (.mark b.closing) 0
        (tree.raw ++ tree.closing.token :: us) =
      some (passageText tree.raw ++
        dropComments false tree.closing.token.leading, us) :=
  passage_eq_some_iff.mpr ⟨tree.raw, tree.closing.token, rfl,
    tree.closing.kind_eq, tree.balanced, rfl⟩

/-- **Passages are told apart**, whatever follows. -/
theorem PassageTree.splits (b : Bracket) :
    SplitsBefore (fun _ => True) (PassageTree.tokens (b := b)) := by
  intro tree tree' us us' _ _ h
  simp only [tokens, List.cons_append, List.append_assoc, List.nil_append] at h
  obtain ⟨hopening, hrest⟩ := Leaf.eq_of_cons h
  obtain rfl : us = us' := by
    have hread := tree.passage_raw us
    rw [hrest, tree'.passage_raw] at hread
    exact (congrArg Prod.snd (Option.some.inj hread)).symm
  rw [List.append_cons, List.append_cons tree'.raw] at hrest
  obtain ⟨hraw, hclosing⟩ :=
    List.append_inj' (List.append_cancel_right hrest) rfl
  obtain ⟨hclosing, -⟩ := Leaf.eq_of_cons hclosing
  cases tree
  cases tree'
  subst hopening hraw hclosing
  exact ⟨rfl, rfl⟩

/-! ## Expressions -/

/-- Where an expression ends, an operand of it ends too. -/
theorem OperandsTree.begins_ends {op : Connective} (tree : OperandsTree op)
    {us : List Token} (hus : Begins (TokenKind.Ends op.precedence) us) :
    Begins (TokenKind.Ends (Stage.operand op).level) (tree.tokens ++ us) := by
  rw [Stage.level_operand]
  cases tree with
  | done => exact hus.mono fun k hk => hk.mono (Nat.le_succ _)
  | more => exact Begins.leaf_iff.mpr (.of_connective op)

/-- What ends an operand ends it without its `not` too. -/
theorem Begins.ends_primary {us : List Token}
    (hus : Begins (TokenKind.Ends Stage.unary.level) us) :
    Begins (TokenKind.Ends Stage.primary.level) us :=
  hus.mono fun _ hk => hk.mono (Nat.le_succ 3)

/-- The tightest forms do not begin with a `not`. -/
theorem ExprTree.tokens_append_ne_not (tree : ExprTree .primary)
    (keyword : Leaf (.keyword .not)) (us us' : List Token) :
    tree.tokens ++ us ≠ keyword.token :: us' := by
  intro h
  cases tree with
  | group | inline | call | member | name => cases Leaf.kind_eq_of_cons h

mutual

/-- **Expressions are told apart** in front of tokens that end them. -/
theorem ExprTree.splits : ∀ {s : Stage} (tree tree' : ExprTree s)
    {us us' : List Token}, Begins (TokenKind.Ends s.level) us →
      Begins (TokenKind.Ends s.level) us' →
      tree.tokens ++ us = tree'.tokens ++ us' → tree = tree' ∧ us = us'
  | .joined _, .joined first more, .joined first' more', us, us', hus, hus',
      h => by
    simp only [ExprTree.tokens, List.append_assoc] at h
    obtain ⟨rfl, hmore⟩ := first.splits first' (more.begins_ends hus)
      (more'.begins_ends hus') h
    obtain ⟨rfl, rfl⟩ := more.splits more' hus hus' hmore
    exact ⟨rfl, rfl⟩
  | .unary, .plain e, .plain e', us, us', hus, hus', h => by
    obtain ⟨rfl, rfl⟩ := e.splits e' hus.ends_primary hus'.ends_primary h
    exact ⟨rfl, rfl⟩
  | .unary, .not _ e, .not _ e', us, us', hus, hus', h => by
    obtain ⟨rfl, he⟩ := Leaf.eq_of_cons h
    obtain ⟨rfl, rfl⟩ := e.splits e' hus.ends_primary hus'.ends_primary he
    exact ⟨rfl, rfl⟩
  | .unary, .plain e, .not keyword' e', us, us', _, _, h =>
    absurd h (e.tokens_append_ne_not keyword' us _)
  | .unary, .not keyword e, .plain e', us, us', _, _, h =>
    absurd h.symm (e'.tokens_append_ne_not keyword us' _)
  | .primary, .group opening e closing, tree', us, us', hus, hus', h => by
    cases tree' with
    | group opening' e' closing' =>
      simp only [ExprTree.tokens, List.cons_append, List.append_assoc,
        List.nil_append] at h
      obtain ⟨rfl, he⟩ := Leaf.eq_of_cons h
      have hends : TokenKind.Ends 1 (.mark .rParen) :=
        .of_mark rfl (by decide) (by decide)
      obtain ⟨rfl, hclosing⟩ := e.splits e' (Begins.leaf_iff.mpr hends)
        (Begins.leaf_iff.mpr hends) he
      obtain ⟨rfl, rfl⟩ := Leaf.eq_of_cons hclosing
      exact ⟨rfl, rfl⟩
    | inline | call | member | name => cases Leaf.kind_eq_of_cons h
  | .primary, .inline _ passage, tree', us, us', _, _, h => by
    cases tree' with
    | inline _ passage' =>
      obtain ⟨rfl, hpassage⟩ := Leaf.eq_of_cons h
      obtain ⟨rfl, rfl⟩ :=
        PassageTree.splits _ Begins.of_true Begins.of_true hpassage
      exact ⟨rfl, rfl⟩
    | group | call | member | name => cases Leaf.kind_eq_of_cons h
  | .primary, .call _ _ _ _, tree', us, us', _, hus', h => by
    cases tree' with
    | call =>
      simp only [ExprTree.tokens, List.cons_append, List.append_assoc,
        List.nil_append] at h
      obtain ⟨rfl, hopening⟩ := Leaf.eq_of_cons h
      obtain ⟨rfl, harguments⟩ := Leaf.eq_of_cons hopening
      obtain ⟨rfl, hclosing⟩ := NamesTree.splits_option
        (Begins.leaf_iff.mpr rfl) (Begins.leaf_iff.mpr rfl) harguments
      obtain ⟨rfl, rfl⟩ := Leaf.eq_of_cons hclosing
      exact ⟨rfl, rfl⟩
    | name =>
      -- behind a name alone there is no parenthesis
      obtain ⟨-, rfl⟩ := Leaf.eq_of_cons h
      exact absurd rfl (Begins.leaf_iff.mp hus').parenthesis
    | member => cases Leaf.kind_eq_of_cons (Leaf.eq_of_cons h).2
    | group | inline => cases Leaf.kind_eq_of_cons h
  | .primary, .member _ _ _, tree', us, us', _, hus', h => by
    cases tree' with
    | member =>
      obtain ⟨rfl, hdot⟩ := Leaf.eq_of_cons h
      obtain ⟨rfl, hpermission⟩ := Leaf.eq_of_cons hdot
      obtain ⟨rfl, rfl⟩ := Leaf.eq_of_cons hpermission
      exact ⟨rfl, rfl⟩
    | name =>
      -- nor a dot
      obtain ⟨-, rfl⟩ := Leaf.eq_of_cons h
      exact absurd rfl (Begins.leaf_iff.mp hus').dot
    | call => cases Leaf.kind_eq_of_cons (Leaf.eq_of_cons h).2
    | group | inline => cases Leaf.kind_eq_of_cons h
  | .primary, .name _, tree', us, us', hus, _, h => by
    cases tree' with
    | name =>
      obtain ⟨rfl, rfl⟩ := Leaf.eq_of_cons h
      exact ⟨rfl, rfl⟩
    | call =>
      obtain ⟨-, rfl⟩ := Leaf.eq_of_cons h
      exact absurd rfl (Begins.leaf_iff.mp hus).parenthesis
    | member =>
      obtain ⟨-, rfl⟩ := Leaf.eq_of_cons h
      exact absurd rfl (Begins.leaf_iff.mp hus).dot
    | group | inline => cases Leaf.kind_eq_of_cons h

theorem OperandsTree.splits : ∀ {op : Connective} (tree tree' : OperandsTree op)
    {us us' : List Token}, Begins (TokenKind.Ends op.precedence) us →
      Begins (TokenKind.Ends op.precedence) us' →
      tree.tokens ++ us = tree'.tokens ++ us' → tree = tree' ∧ us = us'
  | _, .done, .done, us, us', _, _, h => ⟨rfl, h⟩
  -- a chain that ends is not followed by its connective
  | op, .done, .more _ _ _, us, us', hus, _, h => by
    obtain rfl : us = _ := h
    exact absurd rfl ((Begins.leaf_iff.mp hus).connective op (Nat.le_refl _))
  | op, .more _ _ _, .done, us, us', _, hus', h => by
    obtain rfl : _ = us' := h
    exact absurd rfl ((Begins.leaf_iff.mp hus').connective op (Nat.le_refl _))
  | _, .more _ operand rest, .more _ operand' rest', us, us', hus, hus',
      h => by
    simp only [OperandsTree.tokens, List.cons_append, List.append_assoc] at h
    obtain ⟨rfl, hoperand⟩ := Leaf.eq_of_cons h
    obtain ⟨rfl, hrest⟩ := operand.splits operand' (rest.begins_ends hus)
      (rest'.begins_ends hus') hoperand
    obtain ⟨rfl, rfl⟩ := rest.splits rest' hus hus' hrest
    exact ⟨rfl, rfl⟩

end

/-! ## Declarations -/

/-- Sorts of subjects are told apart where no relation follows. -/
theorem TargetTree.splits : SplitsBefore (· ≠ .mark .hash) tokens := by
  rintro ⟨sign, entity, relation⟩ ⟨sign', entity', relation'⟩ us us' hus hus' h
  obtain ⟨rfl, hentity⟩ := Leaf.eq_of_cons h
  obtain ⟨rfl, hrelation⟩ := Leaf.eq_of_cons hentity
  obtain ⟨rfl, rfl⟩ := (splits_pair _ _).option _ exists_cons_pair
    (fun _ _ => trivial) (fun _ hk => ⟨trivial, hk⟩) hus hus' hrelation
  exact ⟨rfl, rfl⟩

/-- Sorts of subjects in a row are told apart in front of what ends a
member. -/
theorem TargetTree.splits_row :
    SplitsBefore TokenKind.EndsMember (List.flatMap tokens) := by
  refine TargetTree.splits.all (· = .mark .atSign)
    (fun tree => ⟨_, _, rfl, tree.sign.kind_eq⟩) ?_ fun _ hk =>
    ⟨hk.hash, hk.sign⟩
  rintro _ rfl
  decide

/-- The words that begin a member. -/
def TokenKind.StartsMember (k : TokenKind) : Prop :=
  k = .keyword .relation ∨ k = .keyword .attr ∨ k = .keyword .permission ∨
    k = .keyword .action

namespace MemberTree

theorem exists_cons (tree : MemberTree) :
    ∃ t ts, tree.tokens = t :: ts ∧ t.kind.StartsMember := by
  cases tree with
  | relation keyword => exact ⟨_, _, rfl, .inl keyword.kind_eq⟩
  | attr keyword => exact ⟨_, _, rfl, .inr (.inl keyword.kind_eq)⟩
  | permission keyword =>
    rcases keyword with keyword | keyword
    · exact ⟨_, _, rfl, .inr (.inr (.inl keyword.kind_eq))⟩
    · exact ⟨_, _, rfl, .inr (.inr (.inr keyword.kind_eq))⟩

/-- **Members are told apart** in front of tokens that end them. -/
theorem splits : SplitsBefore TokenKind.EndsMember tokens := by
  intro tree tree' us us' hus hus' h
  cases tree with
  | relation keyword name first more =>
    cases tree' with
    | relation keyword' name' first' more' =>
      obtain ⟨rfl, hname⟩ := Leaf.eq_of_cons h
      obtain ⟨rfl, htargets⟩ := Leaf.eq_of_cons hname
      obtain ⟨hrow, rfl⟩ := TargetTree.splits_row hus hus' htargets
      obtain ⟨rfl, rfl⟩ := List.cons.inj hrow
      exact ⟨rfl, rfl⟩
    | attr => cases Leaf.kind_eq_of_cons h
    | permission keyword' =>
      rcases keyword' with keyword' | keyword' <;> cases Leaf.kind_eq_of_cons h
  | attr keyword name type brackets =>
    cases tree' with
    | attr keyword' name' type' brackets' =>
      obtain ⟨rfl, hname⟩ := Leaf.eq_of_cons h
      obtain ⟨rfl, htype⟩ := Leaf.eq_of_cons hname
      obtain ⟨rfl, hbrackets⟩ := Leaf.eq_of_cons htype
      obtain ⟨rfl, rfl⟩ := (splits_pair _ _).option _ exists_cons_pair
        (fun _ _ => trivial) (fun _ hk => ⟨trivial, hk.bracket⟩) hus hus'
        hbrackets
      exact ⟨rfl, rfl⟩
    | relation => cases Leaf.kind_eq_of_cons h
    | permission keyword' =>
      rcases keyword' with keyword' | keyword' <;> cases Leaf.kind_eq_of_cons h
  | permission keyword name assign e =>
    cases tree' with
    | permission keyword' name' assign' e' =>
      obtain ⟨rfl, hname⟩ := Leaf.eq_of_cons_elim (by decide) h
      obtain ⟨rfl, hassign⟩ := Leaf.eq_of_cons hname
      obtain ⟨rfl, he⟩ := Leaf.eq_of_cons hassign
      have hends (k : TokenKind) (hk : k.EndsMember) : TokenKind.Ends 1 k :=
        hk.expression.mono (Nat.zero_le 1)
      obtain ⟨rfl, rfl⟩ := e.splits e' (hus.mono hends) (hus'.mono hends) he
      exact ⟨rfl, rfl⟩
    | relation | attr =>
      rcases keyword with keyword | keyword <;> cases Leaf.kind_eq_of_cons h

end MemberTree

/-- Members in a row are told apart in front of a closing brace. -/
theorem MemberTree.splits_row :
    SplitsBefore (· = .mark .rBrace) (List.flatMap tokens) := by
  refine MemberTree.splits.all _ MemberTree.exists_cons ?_ ?_
  · rintro _ (rfl | rfl | rfl | rfl) <;>
      exact .of_keyword (by decide) (by decide)
  · rintro _ rfl
    exact ⟨.rBrace, by simp [TokenKind.StartsMember]⟩

namespace DeclarationTree

/-- **Declarations are told apart**, whatever follows. -/
theorem splits : SplitsBefore (fun _ => True) tokens := by
  intro tree tree' us us' _ _ h
  cases tree with
  | rule keyword name opening parameters closing body =>
    cases tree' with
    | rule keyword' name' opening' parameters' closing' body' =>
      simp only [tokens, List.cons_append, List.append_assoc] at h
      obtain ⟨rfl, hname⟩ := Leaf.eq_of_cons h
      obtain ⟨rfl, hopening⟩ := Leaf.eq_of_cons hname
      obtain ⟨rfl, hparameters⟩ := Leaf.eq_of_cons hopening
      have hcomma : TokenKind.mark .rParen ≠ .mark .comma := by decide
      obtain ⟨rfl, hclosing⟩ := NamesTree.splits (Begins.leaf_iff.mpr hcomma)
        (Begins.leaf_iff.mpr hcomma) hparameters
      obtain ⟨rfl, hbody⟩ := Leaf.eq_of_cons hclosing
      obtain ⟨rfl, rfl⟩ :=
        PassageTree.splits _ Begins.of_true Begins.of_true hbody
      exact ⟨rfl, rfl⟩
    | entity => cases Leaf.kind_eq_of_cons h
  | entity keyword name opening members closing =>
    cases tree' with
    | rule => cases Leaf.kind_eq_of_cons h
    | entity keyword' name' opening' members' closing' =>
      simp only [tokens, List.cons_append, List.append_assoc,
        List.nil_append] at h
      obtain ⟨rfl, hname⟩ := Leaf.eq_of_cons h
      obtain ⟨rfl, hopening⟩ := Leaf.eq_of_cons hname
      obtain ⟨rfl, hmembers⟩ := Leaf.eq_of_cons hopening
      obtain ⟨rfl, hclosing⟩ := MemberTree.splits_row
        (Begins.leaf_iff.mpr rfl) (Begins.leaf_iff.mpr rfl) hmembers
      obtain ⟨rfl, rfl⟩ := Leaf.eq_of_cons hclosing
      exact ⟨rfl, rfl⟩

theorem exists_cons (tree : DeclarationTree) :
    ∃ t ts, tree.tokens = t :: ts := by
  cases tree with
  | rule | entity => exact ⟨_, _, rfl⟩

end DeclarationTree

/-- **No two derivation trees have the same tokens.** -/
theorem DocumentTree.tokens_injective : Function.Injective tokens := by
  rintro ⟨trees⟩ ⟨trees'⟩ h
  have hsplits : SplitsBefore (fun _ => False)
      (List.flatMap DeclarationTree.tokens) := by
    refine DeclarationTree.splits.all (fun _ => True) ?_
      (fun _ _ => trivial) fun _ => False.elim
    intro tree
    obtain ⟨t, ts, heq⟩ := tree.exists_cons
    exact ⟨t, ts, heq, trivial⟩
  have hnil : Begins (fun _ => False) [] := fun _ ht => nomatch ht
  obtain ⟨rfl, -⟩ := hsplits hnil hnil (congrArg (· ++ []) h)
  rfl

end Entitlement
