import Entitlement.Proofs.Schema.Enclosed
import Entitlement.Proofs.Schema.Grammar

/-!
# Derivation trees

The grammar once more, as the trees of its derivations. There is a type of
trees for each sort of phrase and a constructor for each of its forms, and
the leaves are tokens of the kinds that the form demands:

* a document is a row of rules and entity types;
* an entity type is a row of relations, attributes and permissions;
* a permission expression is conjunctions joined by `or`, a conjunction is
  operands joined by `and`, an operand may stand behind one `not`, and the
  tightest forms are groups, expressions on the spot, calls, members and
  names.

A tree has its tokens, from left to right, and says something, a chain of
operands grouped to the left. `Tells` compares the trees of a sort with a
relation between tokens and what is declared; `DocumentTree.tells` says
that what tokens derive is what a tree of theirs says. The relations derive
a chain from its right end and the trees hold it in a row, which is the
difference between the two, and a passage of the trees has a token where
one of the relations has a text.
-/

namespace Entitlement

/-! ## Trees -/

/-- **A token of a kind.** -/
@[ext]
structure Leaf (kind : TokenKind) where
  token : Token
  kind_eq : token.kind = kind

/-- The content of a leaf. -/
def Leaf.value {kind : TokenKind} (leaf : Leaf kind) : String :=
  leaf.token.value

/-- The tokens of two leaves. -/
def pairTokens {kind kind' : TokenKind} (pair : Leaf kind × Leaf kind') :
    List Token :=
  [pair.1.token, pair.2.token]

/-- The tokens of a part that may be left out. -/
def optionTokens {τ : Type} (tokens : τ → List Token) (part : Option τ) :
    List Token :=
  part.elim [] tokens

/-- Names separated by commas, at least one. -/
structure NamesTree where
  first : Leaf .identifier
  more : List (Leaf (.mark .comma) × Leaf .identifier)

namespace NamesTree

def tokens (tree : NamesTree) : List Token :=
  tree.first.token :: tree.more.flatMap pairTokens

def names (tree : NamesTree) : List String :=
  tree.first.value :: tree.more.map fun item => item.2.value

end NamesTree

/-- **A passage between brackets**: some tokens, at least one, among which
the brackets are balanced. -/
structure PassageTree (b : Bracket) where
  opening : Leaf (.mark b.opening)
  raw : List Token
  closing : Leaf (.mark b.closing)
  nonempty : raw ≠ []
  balanced : b.depthAfter 0 (raw.map Token.kind) = some 0

namespace PassageTree

variable {b : Bracket}

def tokens (tree : PassageTree b) : List Token :=
  tree.opening.token :: (tree.raw ++ [tree.closing.token])

/-- The kept text: that of the tokens, with the blanks between them and
without the comments and the blanks at both ends. -/
def text (tree : PassageTree b) : String :=
  String.ofList (trimBlanks (passageText tree.raw ++
    dropComments false tree.closing.token.leading))

end PassageTree

/-- **The sorts of permission expressions**: operands joined by a
connective, an operand perhaps behind a `not`, and the tightest forms. -/
inductive Stage
  | joined (op : Connective)
  | unary
  | primary

namespace Stage

/-- The operands of a connective: those of `or` are joined by `and`. -/
def operand : Connective → Stage
  | .or => .joined .and
  | .and => .unary

/-- The level of a sort of expressions. -/
def level : Stage → Nat
  | joined op => op.precedence
  | unary => 3
  | primary => 4

theorem level_operand (op : Connective) :
    (operand op).level = op.precedence + 1 := by
  cases op <;> rfl

end Stage

mutual

/-- **A permission expression** of a sort. -/
inductive ExprTree : Stage → Type
  | joined {op : Connective} (first : ExprTree (.operand op))
      (more : OperandsTree op) : ExprTree (.joined op)
  | plain (e : ExprTree .primary) : ExprTree .unary
  | not (keyword : Leaf (.keyword .not)) (e : ExprTree .primary) :
      ExprTree .unary
  | group (opening : Leaf (.mark .lParen)) (e : ExprTree (.joined .or))
      (closing : Leaf (.mark .rParen)) : ExprTree .primary
  | inline (keyword : Leaf (.keyword .rule)) (passage : PassageTree .parens) :
      ExprTree .primary
  | call (rule : Leaf .identifier) (opening : Leaf (.mark .lParen))
      (arguments : Option NamesTree) (closing : Leaf (.mark .rParen)) :
      ExprTree .primary
  | member (relation : Leaf .identifier) (dot : Leaf (.mark .dot))
      (permission : Leaf .identifier) : ExprTree .primary
  | name (name : Leaf .identifier) : ExprTree .primary

/-- **The operands behind the first one**, each behind a connective. -/
inductive OperandsTree : Connective → Type
  | done {op : Connective} : OperandsTree op
  | more {op : Connective} (keyword : Leaf (.keyword op.keyword))
      (operand : ExprTree (.operand op)) (rest : OperandsTree op) :
      OperandsTree op

end

mutual

def ExprTree.tokens : {s : Stage} → ExprTree s → List Token
  | _, .joined first more => first.tokens ++ more.tokens
  | _, .plain e => e.tokens
  | _, .not keyword e => keyword.token :: e.tokens
  | _, .group opening e closing =>
    opening.token :: (e.tokens ++ [closing.token])
  | _, .inline keyword passage => keyword.token :: passage.tokens
  | _, .call rule opening arguments closing =>
    rule.token :: opening.token ::
      (optionTokens NamesTree.tokens arguments ++ [closing.token])
  | _, .member relation dot permission =>
    [relation.token, dot.token, permission.token]
  | _, .name name => [name.token]

def OperandsTree.tokens : {op : Connective} → OperandsTree op → List Token
  | _, .done => []
  | _, .more keyword operand rest =>
    keyword.token :: (operand.tokens ++ rest.tokens)

end

mutual

/-- **What an expression says**; operands are grouped to the left. -/
def ExprTree.expr : {s : Stage} → ExprTree s → PermissionExpr
  | .joined op, .joined first more =>
    more.operands.foldl (.binary op) first.expr
  | _, .plain e => e.expr
  | _, .not _ e => .not e.expr
  | _, .group _ e _ => e.expr
  | _, .inline _ passage => .inline passage.text
  | _, .call rule _ arguments _ =>
    .call rule.value ((arguments.map NamesTree.names).getD [])
  | _, .member relation _ permission =>
    .member relation.value permission.value
  | _, .name name => .name name.value

/-- The operands, in their order. -/
def OperandsTree.operands :
    {op : Connective} → OperandsTree op → List PermissionExpr
  | _, .done => []
  | _, .more _ operand rest => operand.expr :: rest.operands

end

/-- A sort of subjects that a relation admits. -/
structure TargetTree where
  sign : Leaf (.mark .atSign)
  entity : Leaf .identifier
  relation : Option (Leaf (.mark .hash) × Leaf .identifier)

namespace TargetTree

def tokens (tree : TargetTree) : List Token :=
  tree.sign.token :: tree.entity.token ::
    optionTokens pairTokens tree.relation

def decl (tree : TargetTree) : TargetDecl where
  entity := tree.entity.value
  relation := tree.relation.map fun r => r.2.value

end TargetTree

/-- **A member of an entity type.** -/
inductive MemberTree
  | relation (keyword : Leaf (.keyword .relation)) (name : Leaf .identifier)
      (first : TargetTree) (more : List TargetTree)
  | attr (keyword : Leaf (.keyword .attr)) (name type : Leaf .identifier)
      (brackets : Option (Leaf (.mark .lBracket) × Leaf (.mark .rBracket)))
  | permission
      (keyword : Leaf (.keyword .permission) ⊕ Leaf (.keyword .action))
      (name : Leaf .identifier) (assign : Leaf (.mark .assign))
      (e : ExprTree (.joined .or))

namespace MemberTree

def tokens : MemberTree → List Token
  | relation keyword name first more =>
    keyword.token :: name.token :: (first :: more).flatMap TargetTree.tokens
  | attr keyword name type brackets =>
    keyword.token :: name.token :: type.token ::
      optionTokens pairTokens brackets
  | permission keyword name assign e =>
    keyword.elim Leaf.token Leaf.token :: name.token :: assign.token ::
      e.tokens

def decl : MemberTree → EntityMember
  | relation _ name first more =>
    .relation ⟨name.value, (first :: more).map TargetTree.decl⟩
  | attr _ name type brackets =>
    .attr ⟨name.value, type.value, brackets.isSome⟩
  | permission _ name _ e => .permission ⟨name.value, e.expr⟩

end MemberTree

/-- **A declaration of a document.** -/
inductive DeclarationTree
  | rule (keyword : Leaf (.keyword .rule)) (name : Leaf .identifier)
      (opening : Leaf (.mark .lParen)) (parameters : NamesTree)
      (closing : Leaf (.mark .rParen)) (body : PassageTree .braces)
  | entity (keyword : Leaf (.keyword .entity)) (name : Leaf .identifier)
      (opening : Leaf (.mark .lBrace)) (members : List MemberTree)
      (closing : Leaf (.mark .rBrace))

namespace DeclarationTree

def tokens : DeclarationTree → List Token
  | rule keyword name opening parameters closing body =>
    keyword.token :: name.token :: opening.token ::
      (parameters.tokens ++ closing.token :: body.tokens)
  | entity keyword name opening members closing =>
    keyword.token :: name.token :: opening.token ::
      (members.flatMap MemberTree.tokens ++ [closing.token])

def decl : DeclarationTree → Declaration
  | rule _ name _ parameters _ body =>
    .rule ⟨name.value, parameters.names, body.text⟩
  | entity _ name _ members _ =>
    .entity (.ofMembers name.value (members.map MemberTree.decl))

end DeclarationTree

/-- **A document**: its declarations in a row. -/
structure DocumentTree where
  declarations : List DeclarationTree

namespace DocumentTree

def tokens (tree : DocumentTree) : List Token :=
  tree.declarations.flatMap DeclarationTree.tokens

/-- **What a document says**: its rules and its entity types, each in the
order of their declaration. -/
def document (tree : DocumentTree) : Document :=
  .ofDeclarations (tree.declarations.map DeclarationTree.decl)

end DocumentTree

/-! ## Trees and derivations -/

/-- **Whether the trees of a sort tell what is derived**: what tokens that
the lexer took derive is what a tree of theirs says. -/
def Tells {τ α : Type} (tokens : τ → List Token) (meaning : τ → α)
    (derives : List Token → α → Prop) : Prop :=
  ∀ {ts : List Token} {a : α}, (∀ t ∈ ts, t.IsLexed) →
    (derives ts a ↔ ∃ tree, tokens tree = ts ∧ meaning tree = a)

/-- Rows of trees tell what is derived in a row. -/
theorem Tells.all {τ α : Type} {tokens : τ → List Token} {meaning : τ → α}
    {derives : List Token → α → Prop} (h : Tells tokens meaning derives) :
    Tells (List.flatMap tokens) (List.map meaning) (DerivesAll derives) := by
  intro ts as hts
  constructor
  · intro has
    induction has with
    | nil => exact ⟨[], rfl, rfl⟩
    | cons ha _ ih =>
      obtain ⟨htree, htrees⟩ := List.forall_mem_append.mp hts
      obtain ⟨tree, rfl, rfl⟩ := (h htree).mp ha
      obtain ⟨trees, rfl, rfl⟩ := ih htrees
      exact ⟨tree :: trees, rfl, rfl⟩
  · rintro ⟨trees, rfl, rfl⟩
    induction trees with
    | nil => exact .nil
    | cons tree trees ih =>
      rw [List.flatMap_cons] at hts ⊢
      obtain ⟨htree, htrees⟩ := List.forall_mem_append.mp hts
      exact .cons ((h htree).mpr ⟨tree, rfl, rfl⟩) (ih htrees)

theorem NamesTree.tells : Tells tokens names DerivesNames := by
  rintro ts ns -
  constructor
  · intro h
    induction h with
    | one hk => exact ⟨⟨⟨_, hk⟩, []⟩, rfl, rfl⟩
    | more hk hcomma _ ih =>
      obtain ⟨⟨first, more⟩, rfl, rfl⟩ := ih
      exact ⟨⟨⟨_, hk⟩, (⟨_, hcomma⟩, first) :: more⟩, rfl, rfl⟩
  · rintro ⟨⟨first, more⟩, rfl, rfl⟩
    induction more generalizing first with
    | nil => exact .one first.kind_eq
    | cons item more ih =>
      exact .more first.kind_eq item.1.kind_eq (ih item.2)

/-- **Something is left of a passage exactly if it has a token**: the rest
is blank. -/
theorem trimBlanks_passageText_ne_nil {ts : List Token} {close : Token}
    (hts : ∀ t ∈ ts, t.IsLexed) (hclose : close.IsLexed) :
    trimBlanks (passageText ts ++ dropComments false close.leading) ≠ [] ↔
      ts ≠ [] := by
  rw [Ne, Ne, trimBlanks_eq_nil_iff]
  refine not_congr ⟨fun h => ?_, ?_⟩
  · cases ts with
    | nil => rfl
    | cons t ts =>
      obtain ⟨c, cs, htext, hc⟩ := (hts t List.mem_cons_self).spells.head
      have hmem : c ∈ passageText (t :: ts) := by
        rw [passageText_cons, htext]
        simp
      rw [h c (List.mem_append_left _ hmem)] at hc
      cases hc
  · rintro rfl c hc
    exact isBlank_of_isSeparator (hclose.leading c hc)

theorem PassageTree.tells (b : Bracket) :
    Tells (PassageTree.tokens (b := b)) PassageTree.text b.Derives := by
  intro ts text hts
  constructor
  · intro h
    cases h with
    | @mk opening close raw hopening hclose hbalanced hne =>
      obtain ⟨-, hts⟩ := List.forall_mem_cons.mp hts
      obtain ⟨hraw, hlast⟩ := List.forall_mem_append.mp hts
      have hnonempty := (trimBlanks_passageText_ne_nil hraw
        (hlast close List.mem_cons_self)).mp hne
      exact ⟨⟨⟨opening, hopening⟩, raw, ⟨close, hclose⟩, hnonempty,
        hbalanced⟩, rfl, rfl⟩
  · rintro ⟨tree, rfl, rfl⟩
    obtain ⟨-, hts⟩ := List.forall_mem_cons.mp hts
    obtain ⟨hraw, hlast⟩ := List.forall_mem_append.mp hts
    exact .mk tree.opening.kind_eq tree.closing.kind_eq tree.balanced
      ((trimBlanks_passageText_ne_nil hraw
        (hlast _ List.mem_cons_self)).mpr tree.nonempty)

/-! ### Expressions -/

mutual

/-- What an expression says is derived at its level. -/
theorem ExprTree.derives : ∀ {s : Stage} (tree : ExprTree s),
    (∀ t ∈ tree.tokens, t.IsLexed) →
      PermissionExpr.Derives s.level tree.tokens tree.expr
  | .joined op, .joined first more, h => by
    rw [ExprTree.tokens, List.forall_mem_append] at h
    have hfirst := first.derives h.1
    rw [Stage.level_operand] at hfirst
    exact more.derives h.2 hfirst.loosen
  | _, .plain e, h => (e.derives h).loosen
  | _, .not keyword e, h =>
    .not keyword.kind_eq (e.derives (List.forall_mem_cons.mp h).2)
  | _, .group opening e closing, h => by
    rw [ExprTree.tokens, List.forall_mem_cons, List.forall_mem_append] at h
    exact .group opening.kind_eq (e.derives h.2.1) closing.kind_eq
  | _, .inline keyword passage, h =>
    .inline keyword.kind_eq ((PassageTree.tells _
      (List.forall_mem_cons.mp h).2).mpr ⟨passage, rfl, rfl⟩)
  | _, .call rule opening none closing, _ =>
    .call rule.kind_eq opening.kind_eq closing.kind_eq
  | _, .call rule opening (some arguments) closing, h => by
    rw [ExprTree.tokens, List.forall_mem_cons, List.forall_mem_cons,
      List.forall_mem_append] at h
    exact .callWith rule.kind_eq opening.kind_eq
      ((NamesTree.tells h.2.2.1).mpr ⟨arguments, rfl, rfl⟩) closing.kind_eq
  | _, .member relation dot permission, _ =>
    .member relation.kind_eq dot.kind_eq permission.kind_eq
  | _, .name name, _ => .name name.kind_eq

/-- Operands go on with what was derived at the level of the connective. -/
theorem OperandsTree.derives : ∀ {op : Connective} (tree : OperandsTree op),
    (∀ t ∈ tree.tokens, t.IsLexed) →
      ∀ {ls : List Token} {l : PermissionExpr},
        PermissionExpr.Derives op.precedence ls l →
        PermissionExpr.Derives op.precedence (ls ++ tree.tokens)
          (tree.operands.foldl (.binary op) l)
  | _, .done, _, ls, l, hl => by
    rw [OperandsTree.tokens, List.append_nil]
    exact hl
  | op, .more keyword operand rest, h, ls, l, hl => by
    rw [OperandsTree.tokens, List.forall_mem_cons, List.forall_mem_append] at h
    have hoperand := operand.derives h.2.1
    rw [Stage.level_operand] at hoperand
    have hrest := rest.derives h.2.2
      (.binary hl keyword.kind_eq hoperand)
    rwa [List.append_assoc, List.cons_append] at hrest

end

namespace OperandsTree

variable {op : Connective}

/-- One more operand at the end. -/
def concat : OperandsTree op → Leaf (.keyword op.keyword) →
    ExprTree (.operand op) → OperandsTree op
  | .done, keyword, e => .more keyword e .done
  | .more first operand rest, keyword, e =>
    .more first operand (rest.concat keyword e)

theorem tokens_concat (keyword : Leaf (.keyword op.keyword))
    (e : ExprTree (.operand op)) : ∀ tree : OperandsTree op,
      (tree.concat keyword e).tokens =
        tree.tokens ++ keyword.token :: e.tokens
  | .done => by
    simp only [concat, tokens, List.append_nil, List.nil_append]
  | .more _ _ rest => by
    simp only [concat, tokens, tokens_concat keyword e rest,
      List.append_assoc, List.cons_append]

theorem operands_concat (keyword : Leaf (.keyword op.keyword))
    (e : ExprTree (.operand op)) : ∀ tree : OperandsTree op,
      (tree.concat keyword e).operands = tree.operands ++ [e.expr]
  | .done => by simp only [concat, operands, List.nil_append]
  | .more _ _ rest => by
    simp only [concat, operands, operands_concat keyword e rest,
      List.cons_append]

end OperandsTree

/-- The sorts of expressions have different levels. -/
theorem Stage.eq_of_level_eq {s s' : Stage} (h : s.level = s'.level) :
    s = s' := by
  rcases s with (_ | _) | _ | _ <;> rcases s' with (_ | _) | _ | _ <;>
    first | rfl | cases h

/-- Nothing is derived beyond the tightest level. -/
theorem PermissionExpr.Derives.level_le {level : Nat} {ts : List Token}
    {e : PermissionExpr} (h : Derives level ts e) : level ≤ 4 := by
  induction h with
  | name | member | call | callWith | inline | group => exact Nat.le_refl 4
  | not => exact Nat.le_succ 3
  | @binary op => cases op <;> decide
  | loosen _ ih => exact Nat.le_of_succ_le ih

/-- What is derived at a level has a tree. -/
theorem PermissionExpr.Derives.exists_tree {level : Nat} {ts : List Token}
    {e : PermissionExpr} (h : Derives level ts e)
    (hts : ∀ t ∈ ts, t.IsLexed) (s : Stage) (hs : s.level = level) :
    ∃ tree : ExprTree s, tree.tokens = ts ∧ tree.expr = e := by
  induction h generalizing s with
  | name hk =>
    obtain rfl : s = .primary := Stage.eq_of_level_eq hs
    exact ⟨.name ⟨_, hk⟩, rfl, rfl⟩
  | member hrelation hdot hpermission =>
    obtain rfl : s = .primary := Stage.eq_of_level_eq hs
    exact ⟨.member ⟨_, hrelation⟩ ⟨_, hdot⟩ ⟨_, hpermission⟩, rfl, rfl⟩
  | call hrule hopening hclose =>
    obtain rfl : s = .primary := Stage.eq_of_level_eq hs
    exact ⟨.call ⟨_, hrule⟩ ⟨_, hopening⟩ none ⟨_, hclose⟩, rfl, rfl⟩
  | callWith hrule hopening harguments hclose =>
    obtain rfl : s = .primary := Stage.eq_of_level_eq hs
    rw [List.forall_mem_cons, List.forall_mem_cons,
      List.forall_mem_append] at hts
    obtain ⟨arguments, rfl, rfl⟩ := (NamesTree.tells hts.2.2.1).mp harguments
    exact ⟨.call ⟨_, hrule⟩ ⟨_, hopening⟩ (some arguments) ⟨_, hclose⟩,
      rfl, rfl⟩
  | inline hk hpassage =>
    obtain rfl : s = .primary := Stage.eq_of_level_eq hs
    obtain ⟨passage, rfl, rfl⟩ := (PassageTree.tells _
      (List.forall_mem_cons.mp hts).2).mp hpassage
    exact ⟨.inline ⟨_, hk⟩ passage, rfl, rfl⟩
  | group hopening _ hclose ih =>
    obtain rfl : s = .primary := Stage.eq_of_level_eq hs
    rw [List.forall_mem_cons, List.forall_mem_append] at hts
    obtain ⟨tree, rfl, rfl⟩ := ih hts.2.1 (.joined .or) rfl
    exact ⟨.group ⟨_, hopening⟩ tree ⟨_, hclose⟩, rfl, rfl⟩
  | not hk _ ih =>
    obtain rfl : s = .unary := Stage.eq_of_level_eq hs
    obtain ⟨tree, rfl, rfl⟩ := ih (List.forall_mem_cons.mp hts).2 .primary rfl
    exact ⟨.not ⟨_, hk⟩ tree, rfl, rfl⟩
  | @binary op _ _ _ _ _ _ hk _ ihl ihr =>
    -- the chain so far is the left operand
    obtain rfl : s = .joined op := Stage.eq_of_level_eq hs
    rw [List.forall_mem_append, List.forall_mem_cons] at hts
    obtain ⟨left, rfl, rfl⟩ := ihl hts.1 (.joined op) rfl
    obtain ⟨right, rfl, rfl⟩ :=
      ihr hts.2.2 (.operand op) (Stage.level_operand op)
    cases left with
    | joined first more =>
      refine ⟨.joined first (more.concat ⟨_, hk⟩ right), ?_, ?_⟩
      · rw [ExprTree.tokens, ExprTree.tokens, OperandsTree.tokens_concat,
          List.append_assoc]
      · rw [ExprTree.expr, ExprTree.expr, OperandsTree.operands_concat,
          List.foldl_append]
        rfl
  | loosen h ih =>
    -- a single operand is a chain, and a tightest form is an operand
    cases s with
    | joined op =>
      obtain ⟨tree, rfl, rfl⟩ := ih hts (.operand op)
        ((Stage.level_operand op).trans (congrArg (· + 1) hs))
      exact ⟨.joined tree .done, by rw [ExprTree.tokens, OperandsTree.tokens,
        List.append_nil], rfl⟩
    | unary =>
      obtain ⟨tree, rfl, rfl⟩ := ih hts .primary (congrArg (· + 1) hs)
      exact ⟨.plain tree, rfl, rfl⟩
    | primary => exact absurd (hs ▸ h.level_le) (by decide)

theorem ExprTree.tells (s : Stage) :
    Tells (ExprTree.tokens (s := s)) ExprTree.expr
      (PermissionExpr.Derives s.level) := by
  intro ts e hts
  constructor
  · intro h
    exact h.exists_tree hts s rfl
  · rintro ⟨tree, rfl, rfl⟩
    exact tree.derives hts

/-! ### Declarations -/

theorem TargetTree.tells : Tells tokens decl TargetDecl.Derives := by
  rintro ts target -
  constructor
  · intro h
    cases h with
    | entity hsign hname => exact ⟨⟨⟨_, hsign⟩, ⟨_, hname⟩, none⟩, rfl, rfl⟩
    | userset hsign hname hhash hrelation =>
      exact ⟨⟨⟨_, hsign⟩, ⟨_, hname⟩, some (⟨_, hhash⟩, ⟨_, hrelation⟩)⟩,
        rfl, rfl⟩
  · rintro ⟨⟨sign, entity, _ | ⟨hash, relation⟩⟩, rfl, rfl⟩
    · exact .entity sign.kind_eq entity.kind_eq
    · exact .userset sign.kind_eq entity.kind_eq hash.kind_eq
        relation.kind_eq

theorem MemberTree.tells : Tells tokens decl EntityMember.Derives := by
  intro ts member hts
  constructor
  · intro h
    cases h with
    | relation hk hname htargets hne =>
      rw [List.forall_mem_cons, List.forall_mem_cons] at hts
      obtain ⟨targets, rfl, rfl⟩ := (TargetTree.tells.all hts.2.2).mp htargets
      cases targets with
      | nil => exact absurd rfl hne
      | cons first more =>
        exact ⟨.relation ⟨_, hk⟩ ⟨_, hname⟩ first more, rfl, rfl⟩
    | attr hk hname htype =>
      exact ⟨.attr ⟨_, hk⟩ ⟨_, hname⟩ ⟨_, htype⟩ none, rfl, rfl⟩
    | attrList hk hname htype hopening hclose =>
      exact ⟨.attr ⟨_, hk⟩ ⟨_, hname⟩ ⟨_, htype⟩
        (some (⟨_, hopening⟩, ⟨_, hclose⟩)), rfl, rfl⟩
    | permission hk hname hassign he =>
      rw [List.forall_mem_cons, List.forall_mem_cons,
        List.forall_mem_cons] at hts
      obtain ⟨e, rfl, rfl⟩ := (ExprTree.tells (.joined .or) hts.2.2.2).mp he
      rcases hk with hk | hk
      · exact ⟨.permission (.inl ⟨_, hk⟩) ⟨_, hname⟩ ⟨_, hassign⟩ e, rfl, rfl⟩
      · exact ⟨.permission (.inr ⟨_, hk⟩) ⟨_, hname⟩ ⟨_, hassign⟩ e, rfl, rfl⟩
  · rintro ⟨tree, rfl, rfl⟩
    cases tree with
    | relation keyword name first more =>
      rw [tokens, List.forall_mem_cons, List.forall_mem_cons] at hts
      exact .relation keyword.kind_eq name.kind_eq
        ((TargetTree.tells.all hts.2.2).mpr ⟨first :: more, rfl, rfl⟩)
        (List.cons_ne_nil _ _)
    | attr keyword name type brackets =>
      cases brackets with
      | none => exact .attr keyword.kind_eq name.kind_eq type.kind_eq
      | some brackets =>
        exact .attrList keyword.kind_eq name.kind_eq type.kind_eq
          brackets.1.kind_eq brackets.2.kind_eq
    | permission keyword name assign e =>
      rw [tokens, List.forall_mem_cons, List.forall_mem_cons,
        List.forall_mem_cons] at hts
      have he := (ExprTree.tells _ hts.2.2.2).mpr ⟨e, rfl, rfl⟩
      cases keyword with
      | inl keyword =>
        exact .permission (.inl keyword.kind_eq) name.kind_eq assign.kind_eq he
      | inr keyword =>
        exact .permission (.inr keyword.kind_eq) name.kind_eq assign.kind_eq he

theorem DeclarationTree.tells : Tells tokens decl Declaration.Derives := by
  intro ts declaration hts
  constructor
  · intro h
    cases h with
    | rule hk hname hopening hparameters hclose hbody =>
      rw [List.forall_mem_cons, List.forall_mem_cons, List.forall_mem_cons,
        List.forall_mem_append, List.forall_mem_cons] at hts
      obtain ⟨-, -, -, hts, -, hus⟩ := hts
      obtain ⟨parameters, rfl, rfl⟩ := (NamesTree.tells hts).mp hparameters
      obtain ⟨body, rfl, rfl⟩ := (PassageTree.tells _ hus).mp hbody
      exact ⟨.rule ⟨_, hk⟩ ⟨_, hname⟩ ⟨_, hopening⟩ parameters ⟨_, hclose⟩
        body, rfl, rfl⟩
    | entity hk hname hopening hmembers hclose =>
      rw [List.forall_mem_cons, List.forall_mem_cons, List.forall_mem_cons,
        List.forall_mem_append] at hts
      obtain ⟨members, rfl, rfl⟩ :=
        (MemberTree.tells.all hts.2.2.2.1).mp hmembers
      exact ⟨.entity ⟨_, hk⟩ ⟨_, hname⟩ ⟨_, hopening⟩ members ⟨_, hclose⟩,
        rfl, rfl⟩
  · rintro ⟨tree, rfl, rfl⟩
    cases tree with
    | rule keyword name opening parameters closing body =>
      rw [tokens, List.forall_mem_cons, List.forall_mem_cons,
        List.forall_mem_cons, List.forall_mem_append,
        List.forall_mem_cons] at hts
      obtain ⟨-, -, -, hts, -, hus⟩ := hts
      exact .rule keyword.kind_eq name.kind_eq opening.kind_eq
        ((NamesTree.tells hts).mpr ⟨parameters, rfl, rfl⟩) closing.kind_eq
        ((PassageTree.tells _ hus).mpr ⟨body, rfl, rfl⟩)
    | entity keyword name opening members closing =>
      rw [tokens, List.forall_mem_cons, List.forall_mem_cons,
        List.forall_mem_cons, List.forall_mem_append] at hts
      exact .entity keyword.kind_eq name.kind_eq opening.kind_eq
        ((MemberTree.tells.all hts.2.2.2.1).mpr ⟨members, rfl, rfl⟩)
        closing.kind_eq

/-- **What tokens derive is what a tree of theirs says.** -/
theorem DocumentTree.tells : Tells tokens document Document.Derives := by
  intro ts d hts
  constructor
  · rintro ⟨declarations, h, rfl⟩
    obtain ⟨trees, rfl, rfl⟩ := (DeclarationTree.tells.all hts).mp h
    exact ⟨⟨trees⟩, rfl, rfl⟩
  · rintro ⟨⟨trees⟩, rfl, rfl⟩
    exact ⟨_, (DeclarationTree.tells.all hts).mpr ⟨trees, rfl, rfl⟩, rfl⟩

end Entitlement
