import Entitlement.Proofs.Outcome
import Entitlement.Proofs.Schema.RoundTrip
import Entitlement.Proofs.Schema.Unambiguous
import Entitlement.Proofs.Schema.Uncommented

/-!
# Expressions keep their tokens

A document carries expressions along as texts: the bodies of its rules and
the expressions on the spot (`Document.expressions`). Each is the text of a
passage of the derivation tree (`DocumentTree.expressions_document`), without
the comments and the blanks at its ends. Read again by itself, it has the
tokens that stand between the brackets of the passage, if these stay apart
without the comments (`PassageTree.exists_tokenize_text`).

They do not stay apart where a comment begins right behind a token and is
ended by a carriage return alone. The lexer goes on with the next token there,
but the comment is dropped up to the next line feed, and nothing is left
between the two tokens.
-/

namespace Entitlement

/-! ## The texts of a document -/

/-- The expressions on the spot in a permission expression. -/
def PermissionExpr.expressions : PermissionExpr → List String
  | inline expression => [expression]
  | not operand => operand.expressions
  | binary _ left right => left.expressions ++ right.expressions
  | _ => []

/-- **The expressions that a document carries along**: the bodies of its
rules, and what stands on the spot in its permissions. -/
def Document.expressions (d : Document) : List String :=
  d.rules.map RuleDecl.body ++ d.entities.flatMap fun e =>
    e.permissions.flatMap fun p => p.expr.expressions

/-- A passage, with its brackets. -/
abbrev Passage := Σ b : Bracket, PassageTree b

namespace Passage

def tokens (p : Passage) : List Token := p.2.tokens

def text (p : Passage) : String := p.2.text

end Passage

mutual

/-- The passages in an expression. -/
def ExprTree.passages : {s : Stage} → ExprTree s → List Passage
  | _, .joined first more => first.passages ++ more.passages
  | _, .plain e => e.passages
  | _, .not _ e => e.passages
  | _, .group _ e _ => e.passages
  | _, .inline _ passage => [⟨.parens, passage⟩]
  | _, .call .. => []
  | _, .member .. => []
  | _, .name _ => []

def OperandsTree.passages : {op : Connective} → OperandsTree op → List Passage
  | _, .done => []
  | _, .more _ operand rest => operand.passages ++ rest.passages

end

def MemberTree.passages : MemberTree → List Passage
  | permission _ _ _ e => e.passages
  | _ => []

namespace DeclarationTree

/-- The passage that is the body of a rule. -/
def bodies : DeclarationTree → List Passage
  | rule _ _ _ _ _ body => [⟨.braces, body⟩]
  | entity .. => []

/-- The passages in the permissions of an entity type. -/
def passages : DeclarationTree → List Passage
  | rule .. => []
  | entity _ _ _ members _ => members.flatMap MemberTree.passages

end DeclarationTree

/-- **The passages of a document**: the bodies of the rules first, and then
those in the permissions. -/
def DocumentTree.passages (tree : DocumentTree) : List Passage :=
  tree.declarations.flatMap DeclarationTree.bodies ++
    tree.declarations.flatMap DeclarationTree.passages

/-- The expressions of a chain are those of its operands, in their order. -/
theorem PermissionExpr.expressions_foldl (op : Connective)
    (operands : List PermissionExpr) (first : PermissionExpr) :
    (operands.foldl (.binary op) first).expressions
      = first.expressions ++ operands.flatMap expressions := by
  induction operands generalizing first with
  | nil => exact (List.append_nil _).symm
  | cons operand operands ih =>
    rw [List.foldl_cons, ih, expressions, List.flatMap_cons, List.append_assoc]

mutual

/-- What an expression carries along are the texts of its passages. -/
theorem ExprTree.expressions_expr : ∀ {s : Stage} (tree : ExprTree s),
    tree.expr.expressions = tree.passages.map Passage.text
  | _, .joined first more => by
    rw [ExprTree.expr, PermissionExpr.expressions_foldl,
      first.expressions_expr, more.expressions_operands, ExprTree.passages,
      List.map_append]
  | _, .plain e => e.expressions_expr
  | _, .not _ e => e.expressions_expr
  | _, .group _ e _ => e.expressions_expr
  | _, .inline .. => rfl
  | _, .call .. => rfl
  | _, .member .. => rfl
  | _, .name _ => rfl

theorem OperandsTree.expressions_operands :
    ∀ {op : Connective} (tree : OperandsTree op),
      tree.operands.flatMap PermissionExpr.expressions
        = tree.passages.map Passage.text
  | _, .done => rfl
  | _, .more _ operand rest => by
    rw [OperandsTree.operands, List.flatMap_cons, operand.expressions_expr,
      rest.expressions_operands, OperandsTree.passages, List.map_append]

end

/-- What the members of an entity type carry along are the texts of their
passages. -/
theorem MemberTree.expressions_permissions (members : List MemberTree) :
    ((members.map decl).filterMap EntityMember.permission?).flatMap
        (fun p => p.expr.expressions)
      = (members.flatMap passages).map Passage.text := by
  induction members with
  | nil => rfl
  | cons member members ih =>
    rw [List.flatMap_cons, List.map_append, ← ih, List.map_cons]
    cases member with
    | relation | attr => rfl
    | permission keyword name assign e =>
      exact congrArg (· ++ _) e.expressions_expr

namespace DocumentTree

theorem rules_document (tree : DocumentTree) :
    tree.document.rules.map RuleDecl.body
      = (tree.declarations.flatMap DeclarationTree.bodies).map
          Passage.text := by
  obtain ⟨declarations⟩ := tree
  show ((declarations.map _).filterMap _).map _ = _
  induction declarations with
  | nil => rfl
  | cons declaration declarations ih =>
    rw [List.flatMap_cons, List.map_append, ← ih, List.map_cons]
    cases declaration <;> rfl

theorem entities_document (tree : DocumentTree) :
    (tree.document.entities.flatMap fun e =>
        e.permissions.flatMap fun p => p.expr.expressions)
      = (tree.declarations.flatMap DeclarationTree.passages).map
          Passage.text := by
  obtain ⟨declarations⟩ := tree
  show ((declarations.map _).filterMap _).flatMap _ = _
  induction declarations with
  | nil => rfl
  | cons declaration declarations ih =>
    rw [List.flatMap_cons, List.map_append, ← ih, List.map_cons]
    cases declaration with
    | rule => rfl
    | entity keyword name opening members closing =>
      exact congrArg (· ++ _) (MemberTree.expressions_permissions members)

/-- **What a document carries along are the texts of its passages.** -/
theorem expressions_document (tree : DocumentTree) :
    tree.document.expressions = tree.passages.map Passage.text := by
  unfold Document.expressions passages
  rw [List.map_append, rules_document, entities_document]

end DocumentTree

/-! ## The tokens of a passage -/

mutual

/-- A passage in an expression is a part of its tokens. -/
theorem ExprTree.infix_of_mem : ∀ {s : Stage} (tree : ExprTree s)
    {p : Passage}, p ∈ tree.passages → p.tokens <:+: tree.tokens
  | _, .joined first more, p, hp => by
    rw [ExprTree.passages, List.mem_append] at hp
    rw [ExprTree.tokens]
    rcases hp with hp | hp
    · exact (first.infix_of_mem hp).trans (List.prefix_append _ _).isInfix
    · exact (more.infix_of_mem hp).trans (List.suffix_append _ _).isInfix
  | _, .plain e, p, hp => e.infix_of_mem hp
  | _, .not keyword e, p, hp =>
    (e.infix_of_mem hp).trans (List.suffix_cons keyword.token _).isInfix
  | _, .group opening e closing, p, hp =>
    (e.infix_of_mem hp).trans
      ((List.prefix_append e.tokens [closing.token]).isInfix.trans
        (List.suffix_cons opening.token _).isInfix)
  | _, .inline keyword passage, p, hp => by
    obtain rfl := List.mem_singleton.mp hp
    exact (List.suffix_cons keyword.token passage.tokens).isInfix
  | _, .call .., p, hp => absurd hp List.not_mem_nil
  | _, .member .., p, hp => absurd hp List.not_mem_nil
  | _, .name _, p, hp => absurd hp List.not_mem_nil

theorem OperandsTree.infix_of_mem : ∀ {op : Connective} (tree : OperandsTree op)
    {p : Passage}, p ∈ tree.passages → p.tokens <:+: tree.tokens
  | _, .done, p, hp => absurd hp List.not_mem_nil
  | _, .more keyword operand rest, p, hp => by
    rw [OperandsTree.passages, List.mem_append] at hp
    rw [OperandsTree.tokens]
    refine List.IsInfix.trans ?_ (List.suffix_cons keyword.token _).isInfix
    rcases hp with hp | hp
    · exact (operand.infix_of_mem hp).trans (List.prefix_append _ _).isInfix
    · exact (rest.infix_of_mem hp).trans (List.suffix_append _ _).isInfix

end

/-- What is a part of an element's list is a part of all lists in a row. -/
theorem infix_flatMap {α β : Type} {f : α → List β} {xs : List α} {x : α}
    (hx : x ∈ xs) {ys : List β} (h : ys <:+: f x) : ys <:+: xs.flatMap f := by
  obtain ⟨before, after, rfl⟩ := List.append_of_mem hx
  rw [List.flatMap_append, List.flatMap_cons]
  exact (h.trans (List.prefix_append _ _).isInfix).trans
    (List.suffix_append _ _).isInfix

theorem MemberTree.infix_of_mem (tree : MemberTree) {p : Passage}
    (hp : p ∈ tree.passages) : p.tokens <:+: tree.tokens := by
  cases tree with
  | relation | attr => cases hp
  | permission keyword name assign e =>
    exact (e.infix_of_mem hp).trans
      (List.suffix_append [_, name.token, assign.token] e.tokens).isInfix

/-- **A passage is a part of the tokens of its document.** -/
theorem DocumentTree.infix_of_mem {tree : DocumentTree} {p : Passage}
    (hp : p ∈ tree.passages) : p.tokens <:+: tree.tokens := by
  rcases List.mem_append.mp hp with hp | hp
  · obtain ⟨declaration, hmem, hp⟩ := List.mem_flatMap.mp hp
    refine infix_flatMap hmem ?_
    cases declaration with
    | entity => cases hp
    | rule keyword name opening parameters closing body =>
      obtain rfl := List.mem_singleton.mp hp
      refine (List.suffix_append ([keyword.token, name.token, opening.token]
        ++ parameters.tokens ++ [closing.token]) body.tokens).isInfix.trans ?_
      rw [DeclarationTree.tokens]
      simp only [List.append_assoc, List.cons_append, List.nil_append]
      exact List.infix_rfl
  · obtain ⟨declaration, hmem, hp⟩ := List.mem_flatMap.mp hp
    refine infix_flatMap hmem ?_
    cases declaration with
    | rule => cases hp
    | entity keyword name opening members closing =>
      obtain ⟨member, hmember, hp⟩ := List.mem_flatMap.mp hp
      refine (infix_flatMap hmember (member.infix_of_mem hp)).trans ?_
      exact (List.prefix_append _ [closing.token]).isInfix.trans
        (List.suffix_append [keyword.token, name.token, opening.token] _).isInfix

/-! ## Reading a passage again -/

/-- No token ends with a blank. -/
theorem TokenKind.Spells.last {kind : TokenKind} {text : List Char}
    (h : kind.Spells text) : ∀ c ∈ text.getLast?, isBlank c = false := by
  intro c hc
  cases h with
  | @string quote body hquote _ =>
    rw [← List.cons_append, List.getLast?_concat] at hc
    cases hc
    rcases hquote with rfl | rfl <;> decide
  | number hdigit hdigits =>
    rcases List.mem_cons.mp (List.mem_of_getLast? hc) with rfl | hmem
    · exact isBlank_of_isDigit hdigit
    · rcases hdigits c hmem with hd | rfl
      · exact isBlank_of_isDigit hd
      · decide
  | word hstart hparts =>
    rcases List.mem_cons.mp (List.mem_of_getLast? hc) with rfl | hmem
    · exact isBlank_of_isWordStart hstart
    · have hpart := List.all_eq_true.mp hparts c hmem
      rw [isWordPart, Bool.or_eq_true] at hpart
      exact hpart.elim isBlank_of_isWordStart isBlank_of_isDigit
  | char hm =>
    cases hc
    exact isBlank_of_ofChar? hm
  | pair hm =>
    cases hc
    unfold Mark.ofPair? at hm
    split at hm <;> first | decide | cases hm

/-- Nor do tokens in a row. -/
theorem last_passageText {ts : List Token} (hts : ∀ t ∈ ts, t.IsLexed) :
    ∀ c ∈ (passageText ts).getLast?, isBlank c = false := by
  induction ts with
  | nil => exact fun c hc => by cases hc
  | cons t ts ih =>
    rw [List.forall_mem_cons] at hts
    intro c hc
    rw [passageText_cons, List.getLast?_append] at hc
    cases hrest : (passageText ts).getLast? with
    | some d =>
      rw [hrest] at hc
      cases hc
      exact ih hts.2 c hrest
    | none =>
      obtain ⟨d, ds, htext, -⟩ := hts.1.spells.head
      rw [hrest, List.getLast?_append, htext] at hc
      refine hts.1.spells.last c ?_
      rw [htext]
      simpa using hc

namespace PassageTree

variable {b : Bracket}

/-- **A passage is read again as its tokens**, if these stay apart without
the comments. -/
theorem exists_tokenize_text (tree : PassageTree b) (h : IsRun tree.tokens)
    (hapart : ∀ t ∈ tree.raw.tail, t.StaysApart) :
    ∃ us last, tokenize tree.text = .ok (us ++ [last]) ∧
      last.kind = .endOfText ∧
      us.map Token.content = tree.raw.map Token.content := by
  obtain ⟨opening, raw, closing, hne, hbalanced⟩ := tree
  obtain ⟨t, ts, rfl⟩ := List.exists_cons_of_ne_nil hne
  have hrun : IsRun (t :: ts ++ [closing.token]) := h.tail
  have hlexed := hrun.left.isLexed
  have hclosing := hrun.right.isLexed closing.token List.mem_cons_self
  obtain ⟨c, cs, htext, hc⟩ := (hlexed t List.mem_cons_self).spells.head
  -- the blanks at both ends are what is left of the comments there
  have htrim : trimBlanks (passageText (t :: ts) ++
      dropComments false closing.token.leading)
        = t.text ++ passageText ts := by
    rw [passageText_cons, List.append_assoc, List.append_assoc,
      ← List.append_assoc t.text]
    refine trimBlanks_between ?_ ?_ ?_ ?_ ?_
    · exact fun c hc => isBlank_of_isSeparator
        ((hlexed t List.mem_cons_self).leading c hc)
    · exact fun c hc => isBlank_of_isSeparator (hclosing.leading c hc)
    · rw [htext]
      exact List.cons_ne_nil _ _
    · rw [htext]
      intro d hd
      cases hd
      exact hc
    · have hlast := @last_passageText (t :: ts) hlexed
      intro d hd
      refine hlast d ?_
      rw [passageText_cons, List.append_assoc, List.getLast?_append,
        Option.mem_def.mp hd]
      rfl
  obtain ⟨s, s', hscans⟩ := hrun.left
  obtain ⟨us, p, hscans, hcontent⟩ :=
    hscans.withoutComments hapart .start .nil
  rw [List.nil_append] at hscans
  have hends : Spot.Ends ⟨p, []⟩ ⟨.endOfText, [], [], p.advanceAll []⟩ :=
    Spot.ends_of_spanBlank rfl
  refine ⟨us, _, ?_, congrArg Token.kind hends.token, hcontent⟩
  show tokenize (String.ofList (trimBlanks _)) = _
  rw [htrim, tokenize, String.toList_ofList]
  exact Spot.tokensFrom_eq_ok_iff.mpr
    ⟨us, _, _, hscans, hends, rfl⟩

end PassageTree

/-! ## What is kept of a text -/

/-- **Captured expressions keep their tokens.** If a text is accepted, its
tokens have one derivation tree, which says its document, and the expressions
of the document are the texts of the passages of the tree, in their order.
Each passage is a part of the tokens. Its text, read by itself, has the tokens
that stand between its brackets, with their kinds and contents, unless one of
them stands behind a comment that begins right behind the token in front and
is not ended by a line feed. -/
theorem captured_expressions_keep_their_tokens {source : String}
    {d : Document} (h : parse source = .ok d) :
    ∃ ts last, ∃ tree : DocumentTree,
      tokenize source = .ok (ts ++ [last]) ∧ tree.tokens = ts ∧
      (∀ tree' : DocumentTree, tree'.tokens = ts → tree' = tree) ∧
      tree.document = d ∧ d.expressions = tree.passages.map Passage.text ∧
      ∀ p ∈ tree.passages, p.tokens <:+: ts ∧
        ((∀ t ∈ p.2.raw.tail, t.StaysApart) →
          ∃ us last', tokenize p.text = .ok (us ++ [last']) ∧
            last'.kind = .endOfText ∧
            us.map Token.content = p.2.raw.map Token.content) := by
  obtain ⟨ts, last, htokens, -, hrun, hderives⟩ := parse_eq_ok_iff.mp h
  obtain ⟨tree, rfl, rfl⟩ := (DocumentTree.tells hrun.isLexed).mp hderives
  refine ⟨tree.tokens, last, tree, htokens, rfl,
    fun _ htree => DocumentTree.tokens_injective htree, rfl,
    tree.expressions_document, fun p hp => ?_⟩
  have hpart := DocumentTree.infix_of_mem hp
  refine ⟨hpart, p.2.exists_tokenize_text ?_⟩
  obtain ⟨before, after, heq⟩ := hpart
  rw [← heq] at hrun
  exact hrun.left.right

/-! ### A comment between two words -/

/-- A rule with a comment right behind the first word of its body. -/
def commentedSource (comment : String) : String :=
  "rule r(x) \x7b a" ++ comment ++ "in b \x7d"

/-- The body of the rule; the second word stands behind the comment. -/
def commentedBody (comment : String) : PassageTree .braces :=
  let place := Position.start.advanceAll
    ("rule r(x) \x7b a" ++ comment).toList
  { opening := ⟨⟨.mark .lBrace, ['{'], [' '], ⟨1, 11, 10⟩⟩, rfl⟩
    raw := [⟨.identifier, ['a'], [' '], ⟨1, 13, 12⟩⟩,
      ⟨.identifier, ['i', 'n'], comment.toList, place⟩,
      ⟨.identifier, ['b'], [' '], place.advanceAll ['i', 'n', ' ']⟩]
    closing := ⟨⟨.mark .rBrace, ['}'], [' '],
      place.advanceAll ['i', 'n', ' ', 'b', ' ']⟩, rfl⟩
    nonempty := List.cons_ne_nil _ _
    balanced := rfl }

/-- The derivation tree of the rule. -/
def commentedTree (comment : String) : DocumentTree where
  declarations := [.rule
    ⟨⟨.keyword .rule, ['r', 'u', 'l', 'e'], [], .start⟩, rfl⟩
    ⟨⟨.identifier, ['r'], [' '], ⟨1, 6, 5⟩⟩, rfl⟩
    ⟨⟨.mark .lParen, ['('], [], ⟨1, 7, 6⟩⟩, rfl⟩
    ⟨⟨⟨.identifier, ['x'], [], ⟨1, 8, 7⟩⟩, rfl⟩, []⟩
    ⟨⟨.mark .rParen, [')'], [], ⟨1, 9, 8⟩⟩, rfl⟩
    (commentedBody comment)]

/-- A comment that ends with the line leaves the words of the body. -/
theorem commented_words_stay :
    parse (commentedSource " // there\r\n")
        = .ok (commentedTree " // there\r\n").document ∧
      (commentedTree " // there\r\n").document.expressions = ["a \nin b"] ∧
      ∃ us last, tokenize "a \nin b" = .ok (us ++ [last]) ∧
        last.kind = .endOfText ∧
        us.map Token.content = [(.identifier, "a"), (.identifier, "in"),
          (.identifier, "b")] := by
  have hparse : parse (commentedSource " // there\r\n")
      = .ok (commentedTree " // there\r\n").document :=
    Outcome.eq_ok_of_toOption (by decide +kernel)
  have htokens : (tokenize (commentedSource " // there\r\n")).toOption.map
      List.dropLast = some (commentedTree " // there\r\n").tokens := by
    decide +kernel
  have htext : (commentedBody " // there\r\n").text = "a \nin b" := by
    decide +kernel
  refine ⟨hparse, by decide +kernel, ?_⟩
  obtain ⟨ts, last, tree, hts, -, hunique, -, -, hkeeps⟩ :=
    captured_expressions_keep_their_tokens hparse
  rw [hts] at htokens
  obtain rfl := hunique (commentedTree " // there\r\n")
    (by simpa [Except.toOption] using htokens.symm)
  obtain ⟨us, last', hus, hlast, hcontent⟩ :=
    (hkeeps ⟨.braces, commentedBody " // there\r\n"⟩
      List.mem_cons_self).2 (by decide)
  rw [← htext]
  exact ⟨us, last', hus, hlast, hcontent⟩

/-- **Words are joined by a comment that ends with a carriage return.** The
text is accepted, but of the three words of its body the first two are
one. -/
theorem commented_words_join :
    parse (commentedSource "//\r") = .ok (commentedTree "//\r").document ∧
      (tokenize (commentedSource "//\r")).toOption.map List.dropLast
        = some (commentedTree "//\r").tokens ∧
      (commentedTree "//\r").document.expressions = ["ain b"] ∧
      (commentedBody "//\r").text = "ain b" ∧
      (commentedBody "//\r").raw.map Token.content
        = [(.identifier, "a"), (.identifier, "in"), (.identifier, "b")] ∧
      ∀ us last, tokenize "ain b" = .ok (us ++ [last]) →
        us.map Token.content = [(.identifier, "ain"), (.identifier, "b")] := by
  refine ⟨Outcome.eq_ok_of_toOption (by decide +kernel), by decide +kernel,
    by decide +kernel, by decide +kernel, by decide +kernel, ?_⟩
  intro us last hus
  have hcontent : (tokenize "ain b").toOption.map
      (fun tokens => tokens.dropLast.map Token.content)
        = some [(.identifier, "ain"), (.identifier, "b")] := by
    decide +kernel
  rw [hus] at hcontent
  simpa [Except.toOption] using hcontent

end Entitlement
