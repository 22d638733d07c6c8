import Entitlement.Proofs.Schema.Passage
import Entitlement.Schema.Printer

/-!
# The grammar of schema documents

Which tokens spell what. Each sort of declaration has a relation between
token lists and what is declared, one constructor for each form.

A permission expression is derived *at a level*, the precedence that a
place demands: one for the operands of `or`, two for those of `and`, three
behind an operator for what may carry a `not`, and four for names, calls
and groups. What can be derived at a level can be derived at every looser
one, and parentheses lead from the loosest level to the tightest.
-/

namespace Entitlement

/-- Tokens for some things in a row, each derived by itself. -/
inductive DerivesAll {α : Type} (derives : List Token → α → Prop) :
    List Token → List α → Prop
  | nil : DerivesAll derives [] []
  | cons {ts us : List Token} {a : α} {as : List α} : derives ts a →
      DerivesAll derives us as → DerivesAll derives (ts ++ us) (a :: as)

/-- Names separated by commas, at least one. -/
inductive DerivesNames : List Token → List String → Prop
  | one {t : Token} : t.kind = .identifier → DerivesNames [t] [t.value]
  | more {t comma : Token} {ts : List Token} {names : List String} :
      t.kind = .identifier → comma.kind = .mark .comma →
      DerivesNames ts names →
      DerivesNames (t :: comma :: ts) (t.value :: names)

/-- **A passage between brackets**, and its text, of which something is left
between the blanks around it. -/
inductive Bracket.Derives (b : Bracket) : List Token → String → Prop
  | mk {opening close : Token} {ts : List Token} :
      opening.kind = .mark b.opening → close.kind = .mark b.closing →
      b.depthAfter 0 (ts.map Token.kind) = some 0 →
      trimBlanks (passageText ts ++ dropComments false close.leading) ≠ [] →
      b.Derives (opening :: (ts ++ [close])) (String.ofList
        (trimBlanks (passageText ts ++ dropComments false close.leading)))

/-- **A permission expression at a level.** -/
inductive PermissionExpr.Derives : Nat → List Token → PermissionExpr → Prop
  | name {t : Token} : t.kind = .identifier → Derives 4 [t] (.name t.value)
  | member {relation dot permission : Token} : relation.kind = .identifier →
      dot.kind = .mark .dot → permission.kind = .identifier →
      Derives 4 [relation, dot, permission]
        (.member relation.value permission.value)
  | call {rule opening close : Token} : rule.kind = .identifier →
      opening.kind = .mark .lParen → close.kind = .mark .rParen →
      Derives 4 [rule, opening, close] (.call rule.value [])
  | callWith {rule opening close : Token} {ts : List Token}
      {arguments : List String} : rule.kind = .identifier →
      opening.kind = .mark .lParen → DerivesNames ts arguments →
      close.kind = .mark .rParen →
      Derives 4 (rule :: opening :: (ts ++ [close]))
        (.call rule.value arguments)
  | inline {keyword : Token} {ts : List Token} {text : String} :
      keyword.kind = .keyword .rule → Bracket.parens.Derives ts text →
      Derives 4 (keyword :: ts) (.inline text)
  | group {opening close : Token} {ts : List Token} {e : PermissionExpr} :
      opening.kind = .mark .lParen → Derives 1 ts e →
      close.kind = .mark .rParen → Derives 4 (opening :: (ts ++ [close])) e
  | not {keyword : Token} {ts : List Token} {e : PermissionExpr} :
      keyword.kind = .keyword .not → Derives 4 ts e →
      Derives 3 (keyword :: ts) (.not e)
  | binary {op : Connective} {keyword : Token} {ls rs : List Token}
      {l r : PermissionExpr} : Derives op.precedence ls l →
      keyword.kind = .keyword op.keyword →
      Derives (op.precedence + 1) rs r →
      Derives op.precedence (ls ++ keyword :: rs) (.binary op l r)
  | loosen {level : Nat} {ts : List Token} {e : PermissionExpr} :
      Derives (level + 1) ts e → Derives level ts e

/-- A sort of subjects that a relation admits. -/
inductive TargetDecl.Derives : List Token → TargetDecl → Prop
  | entity {sign name : Token} : sign.kind = .mark .atSign →
      name.kind = .identifier → Derives [sign, name] ⟨name.value, none⟩
  | userset {sign name hash relation : Token} :
      sign.kind = .mark .atSign → name.kind = .identifier →
      hash.kind = .mark .hash → relation.kind = .identifier →
      Derives [sign, name, hash, relation]
        ⟨name.value, some relation.value⟩

/-- **A member of an entity type.** -/
inductive EntityMember.Derives : List Token → EntityMember → Prop
  | relation {keyword name : Token} {ts : List Token}
      {targets : List TargetDecl} : keyword.kind = .keyword .relation →
      name.kind = .identifier → DerivesAll TargetDecl.Derives ts targets →
      targets ≠ [] →
      Derives (keyword :: name :: ts) (.relation ⟨name.value, targets⟩)
  | attr {keyword name type : Token} : keyword.kind = .keyword .attr →
      name.kind = .identifier → type.kind = .identifier →
      Derives [keyword, name, type] (.attr ⟨name.value, type.value, false⟩)
  | attrList {keyword name type opening close : Token} :
      keyword.kind = .keyword .attr → name.kind = .identifier →
      type.kind = .identifier → opening.kind = .mark .lBracket →
      close.kind = .mark .rBracket →
      Derives [keyword, name, type, opening, close]
        (.attr ⟨name.value, type.value, true⟩)
  | permission {keyword name assign : Token} {ts : List Token}
      {e : PermissionExpr} :
      keyword.kind = .keyword .permission ∨
        keyword.kind = .keyword .action →
      name.kind = .identifier → assign.kind = .mark .assign →
      PermissionExpr.Derives 1 ts e →
      Derives (keyword :: name :: assign :: ts) (.permission ⟨name.value, e⟩)

/-- **A declaration of a document.** -/
inductive Declaration.Derives : List Token → Declaration → Prop
  | rule {keyword name opening close : Token} {ts us : List Token}
      {parameters : List String} {body : String} :
      keyword.kind = .keyword .rule → name.kind = .identifier →
      opening.kind = .mark .lParen → DerivesNames ts parameters →
      close.kind = .mark .rParen → Bracket.braces.Derives us body →
      Derives (keyword :: name :: opening :: (ts ++ close :: us))
        (.rule ⟨name.value, parameters, body⟩)
  | entity {keyword name opening close : Token} {ts : List Token}
      {members : List EntityMember} :
      keyword.kind = .keyword .entity → name.kind = .identifier →
      opening.kind = .mark .lBrace →
      DerivesAll EntityMember.Derives ts members →
      close.kind = .mark .rBrace →
      Derives (keyword :: name :: opening :: (ts ++ [close]))
        (.entity (.ofMembers name.value members))

/-- **A document**: its declarations in a row. -/
def Document.Derives (ts : List Token) (d : Document) : Prop :=
  ∃ declarations, DerivesAll Declaration.Derives ts declarations ∧
    d = .ofDeclarations declarations

/-- A passage begins with its opening bracket. -/
theorem Bracket.Derives.exists_cons {b : Bracket} {ts : List Token}
    {text : String} (h : b.Derives ts text) :
    ∃ opening us, ts = opening :: us ∧ opening.kind = .mark b.opening := by
  cases h with
  | mk hopening => exact ⟨_, _, rfl, hopening⟩

namespace PermissionExpr

/-- What is derived at a level is derived at every looser one. -/
theorem Derives.of_le {level level' : Nat} {ts : List Token}
    {e : PermissionExpr} (h : Derives level ts e) (hle : level' ≤ level) :
    Derives level' ts e := by
  induction level with
  | zero =>
    rw [Nat.le_zero.mp hle]
    exact h
  | succ level ih =>
    rcases Nat.lt_or_eq_of_le hle with hlt | rfl
    · exact ih h.loosen (Nat.le_of_lt_succ hlt)
    · exact h

/-- No expression binds more loosely than a whole one may. -/
theorem precedence_pos (e : PermissionExpr) : 1 ≤ e.precedence := by
  cases e with
  | binary op => cases op <;> exact Nat.succ_pos _
  | _ => exact Nat.succ_pos _

end PermissionExpr

end Entitlement
