import Mathlib.Data.List.Basic
import Entitlement.Proofs.Schema.Openings
import Entitlement.Proofs.Schema.Reads
import Entitlement.Proofs.Schema.WellFormed

/-!
# What is written is read

The canonical text of a well-formed document splits into tokens that derive
the document. A statement about a part of a document speaks of any
separators in front of its text and any text behind it that does not go on
with its last word.

A member and a declaration are whole lines. The line feed at the end is
left to whatever follows, as a separator in front of it.
-/

namespace Entitlement

/-! ## Expressions -/

namespace PermissionExpr

/-- An expression is put into parentheses where more is demanded. -/
theorem renderAt_eq (e : PermissionExpr) (demanded : Nat) :
    e.renderAt demanded =
      parenthesize (e.precedence < demanded) (e.renderAt e.precedence) := by
  have hloose : decide (e.precedence < e.precedence) = false :=
    decide_eq_false (Nat.lt_irrefl _)
  cases e <;> (simp only [renderAt, hloose]; rfl)

/-- A whole expression is written as an operand of the loosest
connective. -/
theorem renderAt_zero (e : PermissionExpr) :
    e.renderAt 0 = e.renderAt 1 := by
  rw [renderAt_eq e 0, renderAt_eq e 1,
    decide_eq_false (Nat.not_lt_zero _),
    decide_eq_false (Nat.not_lt.mpr e.precedence_pos)]

/-- **Whether an expression is read as itself** where a level is demanded,
with no more parentheses than it needs there. -/
def IsReadAt (demanded : Nat) (e : PermissionExpr) : Prop :=
  IsReadAs (e.renderAt demanded).toList (DerivesSparingly demanded · e)

/-- What is read as itself without parentheses is so at any level. -/
theorem IsReadAt.of_precedence {e : PermissionExpr}
    (h : e.IsReadAt e.precedence) {demanded : Nat} (hd : demanded ≤ 4) :
    e.IsReadAt demanded := by
  intro seps after p hs ha
  rw [renderAt_eq]
  by_cases hlt : e.precedence < demanded
  · have htext : (parenthesize (e.precedence < demanded)
        (e.renderAt e.precedence)).toList ++ after =
        '(' :: ([] ++
          ((e.renderAt e.precedence).toList ++ (')' :: after))) := by
      rw [parenthesize, if_pos (decide_eq_true hlt)]
      simp only [String.toList_append, List.append_assoc]
      rfl
    rw [htext]
    refine .sign seps hs rfl rfl fun opening p hopening _ => ?_
    refine (h [] (')' :: after) p (.of_all rfl)
      (endsWord_cons rfl)).append fun us p hus => ?_
    refine .sign [] .nil rfl rfl fun close p hclose _ => .done ?_
    exact .group hopening hus hclose hlt hd
  · rw [parenthesize, if_neg (by simpa using hlt)]
    obtain ⟨ts, p', hts, hderives⟩ := h seps after p hs ha
    exact ⟨ts, p', hts, hderives.of_le (Nat.not_lt.mp hlt)⟩

/-- **A well-formed expression is read as itself** at any level. -/
theorem WellFormed.isReadAt {e : PermissionExpr} (h : e.WellFormed)
    {demanded : Nat} (hd : demanded ≤ 4) : e.IsReadAt demanded := by
  induction e generalizing demanded with
  | name n =>
    refine .of_precedence ?_ hd
    show IsReadAs n.toList (DerivesSparingly 4 · (.name n))
    intro seps after p hs ha
    refine .name seps hs h ha fun t p hkind hvalue => .done ?_
    rw [← hvalue]
    exact .name hkind
  | member relation permission =>
    refine .of_precedence ?_ hd
    show IsReadAs (relation ++ "." ++ permission).toList
        (DerivesSparingly 4 · (.member relation permission))
    intro seps after p hs ha
    have htext : (relation ++ "." ++ permission).toList ++ after =
        relation.toList ++ ('.' :: ([] ++ (permission.toList ++ after))) := by
      simp only [String.toList_append, List.append_assoc]
      rfl
    rw [htext]
    refine .name seps hs h.1 (endsWord_cons rfl) fun t p hrelation ht => ?_
    refine .sign [] .nil rfl rfl fun dot p hdot _ => ?_
    refine .name [] .nil h.2 ha
      fun u p hpermission hu => .done ?_
    rw [← ht, ← hu]
    exact .member hrelation hdot hpermission
  | call rule arguments =>
    refine .of_precedence ?_ hd
    show IsReadAs
        (rule ++ "(" ++ ", ".intercalate arguments ++ ")").toList
        (DerivesSparingly 4 · (.call rule arguments))
    intro seps after p hs ha
    have htext : (rule ++ "(" ++ ", ".intercalate arguments ++ ")").toList
        ++ after = rule.toList ++ ('(' :: ([] ++
          ((", ".intercalate arguments).toList ++ (')' :: after)))) := by
      simp only [String.toList_append, List.append_assoc]
      rfl
    rw [htext]
    refine .name seps hs h.1 (endsWord_cons rfl) fun t p hrule ht => ?_
    refine .sign [] .nil rfl rfl fun opening p hopening _ => ?_
    rw [← ht]
    cases arguments with
    | nil =>
      refine .sign [] .nil rfl rfl fun close p hclose _ => .done ?_
      exact .call hrule hopening hclose
    | cons argument arguments =>
      refine (isReadAs_names (List.cons_ne_nil _ _) h.2 [] (')' :: after) p
        (.of_all rfl) (endsWord_cons rfl)).append
        fun us p hus => ?_
      refine .sign [] .nil rfl rfl fun close p hclose _ => .done ?_
      exact .callWith hrule hopening hus hclose
  | inline expression =>
    refine .of_precedence ?_ hd
    show IsReadAs ("rule(" ++ expression ++ ")").toList
        (DerivesSparingly 4 · (.inline expression))
    intro seps after p hs ha
    have htext : ("rule(" ++ expression ++ ")").toList ++ after =
        Keyword.rule.spelling.toList ++ ([] ++ ('(' :: ([] ++
          (expression.toList ++ ([] ++ (')' :: after)))))) := by
      simp only [String.toList_append, List.append_assoc]
      rfl
    rw [htext]
    refine .keyword seps hs .rule (endsWord_cons rfl) fun t p hkind => ?_
    refine .passage (b := .parens) h [] [] [] .nil
      (.of_all rfl) (.of_all rfl)
      fun us p hus => .done ?_
    rw [List.append_nil]
    exact .inline hkind hus
  | not operand ih =>
    refine .of_precedence ?_ hd
    show IsReadAs ("not " ++ operand.renderAt 4).toList
        (DerivesSparingly 3 · (.not operand))
    intro seps after p hs ha
    have htext : ("not " ++ operand.renderAt 4).toList ++ after =
        Keyword.not.spelling.toList ++ ([' '] ++
          ((operand.renderAt 4).toList ++ after)) := by
      simp only [String.toList_append, List.append_assoc]
      rfl
    rw [htext]
    refine .keyword seps hs .not (endsWord_cons rfl) fun t p hkind => ?_
    refine (ih h (Nat.le_refl 4) [' '] after p (.of_all rfl)
      ha).append fun us p hus => .done ?_
    rw [List.append_nil]
    exact .not hkind hus
  | binary op left right ihl ihr =>
    refine .of_precedence ?_ hd
    show IsReadAs ((binary op left right).renderAt op.precedence).toList
      (DerivesSparingly op.precedence · (.binary op left right))
    intro seps after p hs ha
    have htext : ((binary op left right).renderAt op.precedence).toList
        ++ after = (left.renderAt op.precedence).toList ++ ([' '] ++
          (op.keyword.spelling.toList ++ ([' '] ++
            ((right.renderAt (op.precedence + 1)).toList ++ after)))) := by
      have hbare : (binary op left right).renderAt op.precedence =
          left.renderAt op.precedence ++ " " ++ op.spelling ++ " " ++
            right.renderAt (op.precedence + 1) := by
        cases op <;> rfl
      rw [hbare]
      simp only [String.toList_append, List.append_assoc]
      cases op <;> rfl
    have hlevel : op.precedence + 1 ≤ 4 := by cases op <;> decide
    rw [htext]
    refine (ihl h.1 (Nat.le_of_succ_le hlevel) seps _ p hs
      (endsWord_cons rfl)).append fun us p hus => ?_
    refine .keyword [' '] (.of_all rfl) op.keyword
      (endsWord_cons rfl) fun t p hkind => ?_
    refine (ihr h.2 hlevel [' '] after p (.of_all rfl)
      ha).append fun vs p hvs => .done ?_
    rw [List.append_nil]
    exact .binary hus hkind hvs

end PermissionExpr

/-! ## Members -/

/-- **Whether a text is read as tokens of some sort but for the line feed at
its end**, behind separators and in front of anything. -/
def IsReadAsLine (text : String) (sort : List Token → Prop) : Prop :=
  ∀ seps after p, AreSeparators seps →
    Reads ⟨p, seps ++ (text.toList ++ after)⟩ ('\n' :: after) sort

/-- The targets of a relation do not go on with its name. -/
theorem endsWord_targets (targets : List TargetDecl) {after : List Char}
    (ha : EndsWord after) : EndsWord
      ((String.join (targets.map TargetDecl.render)).toList ++ after) := by
  cases targets with
  | nil => exact ha
  | cons t targets =>
    obtain ⟨cs, hcs⟩ : ∃ cs, t.render.toList = ' ' :: cs := by
      unfold TargetDecl.render
      split <;> simp only [String.toList_append, List.append_assoc] <;>
        exact ⟨_, rfl⟩
    rw [List.map_cons, String.join_cons, String.toList_append, hcs]
    exact endsWord_cons rfl

/-- The targets of a relation are read as themselves. -/
theorem reads_targets {targets : List TargetDecl}
    (h : ∀ t ∈ targets, t.WellFormed) {after : List Char}
    (ha : EndsWord after) (p : Position) :
    Reads ⟨p, (String.join (targets.map TargetDecl.render)).toList ++ after⟩
      after (DerivesAll TargetDecl.Derives · targets) := by
  induction targets generalizing p with
  | nil => exact .done .nil
  | cons t targets ih =>
    have ht := h t List.mem_cons_self
    have hrest := ih fun u hu => h u (List.mem_cons_of_mem t hu)
    have hends := endsWord_targets targets ha
    obtain ⟨entity, relation⟩ := t
    rw [List.map_cons, String.join_cons, String.toList_append,
      List.append_assoc]
    cases relation with
    | none =>
      have htext (cs : List Char) :
          (TargetDecl.render ⟨entity, none⟩).toList ++ cs =
          [' '] ++ ('@' :: ([] ++ (entity.toList ++ cs))) := by
        simp only [TargetDecl.render, String.toList_append]
        rfl
      rw [htext]
      refine .sign [' '] (.of_all rfl) rfl rfl fun sign p hsign _ => ?_
      refine .name [] .nil ht.entity hends
        fun name p hname hvalue => ?_
      refine (hrest p).append fun us p hus => .done ?_
      rw [List.append_nil, ← hvalue]
      exact .cons (.entity hsign hname) hus
    | some relation =>
      have htext (cs : List Char) :
          (TargetDecl.render ⟨entity, some relation⟩).toList ++ cs =
          [' '] ++ ('@' :: ([] ++ (entity.toList ++
            ('#' :: ([] ++ (relation.toList ++ cs)))))) := by
        simp only [TargetDecl.render, String.toList_append, List.append_assoc]
        rfl
      rw [htext]
      refine .sign [' '] (.of_all rfl) rfl rfl fun sign p hsign _ => ?_
      refine .name [] .nil ht.entity
        (endsWord_cons rfl) fun name p hname hvalue => ?_
      refine .sign [] .nil rfl rfl fun hash p hhash _ => ?_
      refine .name [] .nil (ht.relation _ rfl) hends
        fun name' p hname' hvalue' => ?_
      refine (hrest p).append fun us p hus => .done ?_
      rw [List.append_nil, ← hvalue, ← hvalue']
      exact .cons (.userset hsign hname hhash hname') hus

namespace EntityMember

/-- The line of a member. -/
def render : EntityMember → String
  | relation decl => decl.render
  | attr decl => decl.render
  | permission decl => decl.render

/-- **A well-formed member is read as itself.** -/
theorem WellFormed.isReadAsLine {member : EntityMember}
    (h : member.WellFormed) :
    IsReadAsLine member.render (Derives · member) := by
  intro seps after p hs
  -- the indentation is skipped with the separators in front of it
  have hindent : AreSeparators (seps ++ indentation.toList) :=
    hs.append (.of_all rfl)
  cases member with
  | relation decl =>
    have htext : (EntityMember.relation decl).render.toList ++ after =
        indentation.toList ++ (Keyword.relation.spelling.toList ++
          ([' '] ++ (decl.name.toList ++
            ((String.join (decl.targets.map TargetDecl.render)).toList ++
              ('\n' :: after))))) := by
      simp only [render, RelationDecl.render, String.toList_append,
        List.append_assoc]
      rfl
    rw [htext, ← List.append_assoc]
    refine .keyword _ hindent .relation (endsWord_cons rfl)
      fun keyword p hkeyword => ?_
    refine .name [' '] (.of_all rfl) h.name
      (endsWord_targets _ (endsWord_cons rfl)) fun name p hname hvalue => ?_
    refine (reads_targets h.targets (endsWord_cons rfl) p).append
      fun us p hus => .done ?_
    have hderives := Derives.relation hkeyword hname hus h.nonempty
    rwa [hvalue, ← List.append_nil us] at hderives
  | attr decl =>
    obtain ⟨name, typeName, isArray⟩ := decl
    have htext : (EntityMember.attr ⟨name, typeName, isArray⟩).render.toList
        ++ after = indentation.toList ++ (Keyword.attr.spelling.toList ++
          ([' '] ++ (name.toList ++ ([' '] ++ (typeName.toList ++
            ((if isArray then "[]" else "").toList ++
              ('\n' :: after))))))) := by
      simp only [render, AttributeDecl.render, AttributeDecl.typeText,
        String.toList_append, List.append_assoc]
      rfl
    rw [htext, ← List.append_assoc]
    refine .keyword _ hindent .attr (endsWord_cons rfl)
      fun keyword p hkeyword => ?_
    refine .name [' '] (.of_all rfl) h.name (endsWord_cons rfl)
      fun t p hname ht => ?_
    cases isArray with
    | false =>
      refine .name [' '] (.of_all rfl) h.typeName
        (endsWord_cons rfl) fun u p htype hu => .done ?_
      have hderives := Derives.attr hkeyword hname htype
      rwa [ht, hu] at hderives
    | true =>
      refine .name [' '] (.of_all rfl) h.typeName
        (endsWord_cons rfl) fun u p htype hu => ?_
      refine .sign [] .nil rfl rfl fun opening p hopening _ => ?_
      refine .sign [] .nil rfl rfl fun close p hclose _ => .done ?_
      have hderives := Derives.attrList hkeyword hname htype hopening hclose
      rwa [ht, hu] at hderives
  | permission decl =>
    have htext : (EntityMember.permission decl).render.toList ++ after =
        indentation.toList ++ (Keyword.permission.spelling.toList ++
          ([' '] ++ (decl.name.toList ++ ([' '] ++ ('=' :: ([' '] ++
            ((decl.expr.renderAt 1).toList ++ ('\n' :: after)))))))) := by
      simp only [render, PermissionDecl.render, PermissionExpr.render,
        PermissionExpr.renderAt_zero, String.toList_append, List.append_assoc]
      rfl
    rw [htext, ← List.append_assoc]
    refine .keyword _ hindent .permission (endsWord_cons rfl)
      fun keyword p hkeyword => ?_
    refine .name [' '] (.of_all rfl) h.name (endsWord_cons rfl)
      fun t p hname ht => ?_
    refine .mark [' '] (.of_all rfl) rfl (by decide)
      (fun d hd => by cases hd; rfl) fun assign p hassign _ => ?_
    refine (h.expr.isReadAt (by decide) [' '] _ p (.of_all rfl)
      (endsWord_cons rfl)).append fun us p hus => .done ?_
    have hderives :=
      Derives.permission (.inl hkeyword) hname hassign hus.derives
    rwa [ht, ← List.append_nil us] at hderives

end EntityMember

/-! ## Lines in a row -/

/-- Lines with separators between them are read line by line. -/
theorem exists_reads_lines {α : Type} {render : α → String}
    {derives : List Token → α → Prop} (sep : String)
    (hsep : AreSeparators sep.toList) {as : List α}
    (h : ∀ a ∈ as, IsReadAsLine (render a) (derives · a))
    {seps : List Char} (hs : AreSeparators seps) (after : List Char) :
    ∃ left, AreSeparators left ∧ ∀ p, Reads
      ⟨p, seps ++ ((sep.intercalate (as.map render)).toList ++ after)⟩
      (left ++ after) (DerivesAll derives · as) := by
  induction as generalizing seps with
  | nil => exact ⟨seps, hs, fun p => .done .nil⟩
  | cons a as ih =>
    have ha := h a List.mem_cons_self
    cases as with
    | nil =>
      refine ⟨['\n'], .line, fun p => ?_⟩
      refine (ha seps after p hs).append fun us p hus => .done ?_
      exact .cons hus .nil
    | cons b as =>
      -- the line feed that is left separates the next line
      obtain ⟨left, hleft, hrest⟩ :=
        ih (fun c hc => h c (List.mem_cons_of_mem a hc))
          (AreSeparators.line.append hsep)
      refine ⟨left, hleft, fun p => ?_⟩
      rw [List.map_cons, List.map_cons, String.intercalate_cons_cons,
        String.toList_append, String.toList_append, List.append_assoc,
        List.append_assoc]
      refine (ha seps _ p hs).append fun us p hus => ?_
      have hread := hrest p
      rw [List.append_assoc] at hread
      refine hread.append fun vs p hvs => .done ?_
      rw [List.append_nil]
      exact .cons hus hvs

/-- Texts joined are texts with nothing between them. -/
theorem join_eq_intercalate (texts : List String) :
    String.join texts = "".intercalate texts := by
  induction texts with
  | nil => rfl
  | cons text texts ih =>
    cases texts with
    | nil => rw [String.join_cons, String.join_nil, String.append_empty,
        String.intercalate_singleton]
    | cons _ _ =>
      rw [String.join_cons, ih, String.intercalate_cons_cons,
        String.append_empty]

/-! ## Declarations -/

namespace EntityDecl

/-- The members of an entity type in the order they are written in. -/
def members (e : EntityDecl) : List EntityMember :=
  e.relations.map .relation ++
    (e.attributes.map .attr ++ e.permissions.map .permission)

/-- An entity type is made up of its members. -/
theorem ofMembers_members (e : EntityDecl) :
    ofMembers e.name e.members = e := by
  obtain ⟨name, relations, attributes, permissions⟩ := e
  simp [ofMembers, members, List.filterMap_append, List.filterMap_map,
    Function.comp_def, EntityMember.relation?, EntityMember.attribute?,
    EntityMember.permission?]

/-- The members of an entity type are written line by line. -/
theorem renderMembers_eq (e : EntityDecl) :
    e.renderMembers =
      "".intercalate (e.members.map EntityMember.render) := by
  rw [← join_eq_intercalate, members]
  simp [renderMembers, EntityMember.render, Function.comp_def,
    String.append_assoc]

/-- An entity type without members is written as one with some, but for
the line feed behind its brace. -/
theorem render_eq (e : EntityDecl) : ∃ gap, AreSeparators gap ∧
    e.render.toList = Keyword.entity.spelling.toList ++ ([' '] ++
      (e.name.toList ++ ([' '] ++ ('\x7b' :: (gap ++
        (("".intercalate (e.members.map EntityMember.render)).toList ++
          ['\x7d', '\n'])))))) := by
  rw [← renderMembers_eq]
  unfold render
  split
  next hempty =>
    simp only [Bool.and_eq_true, List.isEmpty_iff] at hempty
    obtain ⟨⟨hr, ha⟩, hp⟩ := hempty
    refine ⟨[], .nil, ?_⟩
    rw [renderMembers, hr, ha, hp]
    simp only [String.toList_append, List.append_assoc]
    rfl
  next =>
    refine ⟨['\n'], .line, ?_⟩
    simp only [String.toList_append, List.append_assoc]
    rfl

end EntityDecl

namespace Declaration

/-- The lines of a declaration. -/
def render : Declaration → String
  | rule decl => decl.render
  | entity decl => decl.render

/-- **A well-formed declaration is read as itself.** -/
theorem WellFormed.isReadAsLine {declaration : Declaration}
    (h : declaration.WellFormed) :
    IsReadAsLine declaration.render (Derives · declaration) := by
  intro seps after p hs
  cases declaration with
  | rule decl =>
    have htext : (Declaration.rule decl).render.toList ++ after =
        Keyword.rule.spelling.toList ++ ([' '] ++ (decl.name.toList ++
          ('(' :: ([] ++ ((", ".intercalate decl.parameters).toList ++
            (')' :: ([' '] ++ ('\x7b' :: ("\n    ".toList ++
              (decl.body.toList ++ (['\n'] ++ ('\x7d' ::
                ('\n' :: after))))))))))))) := by
      simp only [render, RuleDecl.render, String.toList_append,
        List.append_assoc]
      rfl
    rw [htext]
    refine .keyword seps hs .rule (endsWord_cons rfl)
      fun keyword p hkeyword => ?_
    refine .name [' '] (.of_all rfl) h.name (endsWord_cons rfl)
      fun t p hname ht => ?_
    refine .sign [] .nil rfl rfl fun opening p hopening _ => ?_
    refine (isReadAs_names h.nonempty h.parameters [] _ p
      (.of_all rfl) (endsWord_cons rfl)).append
      fun us p hus => ?_
    refine .sign [] .nil rfl rfl fun close p hclose _ => ?_
    refine .passage (b := .braces) h.body [' '] "\n    ".toList ['\n']
      (.of_all rfl) (.of_all rfl)
      (.of_all rfl) fun vs p hvs => .done ?_
    have hderives := Derives.rule hkeyword hname hopening hus hclose hvs
    rwa [ht, ← List.append_nil vs] at hderives
  | entity decl =>
    obtain ⟨gap, hgap, htext⟩ := decl.render_eq
    have hmembers : ∀ member ∈ decl.members, member.WellFormed := by
      intro member hmem
      rcases List.mem_append.mp hmem with hmem | hmem
      · obtain ⟨r, hr, rfl⟩ := List.mem_map.mp hmem
        exact h.relations r hr
      rcases List.mem_append.mp hmem with hmem | hmem
      · obtain ⟨a, ha, rfl⟩ := List.mem_map.mp hmem
        exact h.attributes a ha
      · obtain ⟨p, hp, rfl⟩ := List.mem_map.mp hmem
        exact h.permissions p hp
    obtain ⟨left, hleft, hread⟩ := exists_reads_lines ""
      (.of_all rfl)
      (fun member hmem => (hmembers member hmem).isReadAsLine) hgap
      ('\x7d' :: ('\n' :: after))
    have htext' : (Declaration.entity decl).render.toList ++ after =
        Keyword.entity.spelling.toList ++ ([' '] ++ (decl.name.toList ++
          ([' '] ++ ('\x7b' :: (gap ++ (("".intercalate
            (decl.members.map EntityMember.render)).toList ++
              ('\x7d' :: ('\n' :: after)))))))) := by
      rw [render, htext]
      simp only [List.append_assoc, List.cons_append]
      rfl
    rw [htext']
    refine .keyword seps hs .entity (endsWord_cons rfl)
      fun keyword p hkeyword => ?_
    refine .name [' '] (.of_all rfl) h.name (endsWord_cons rfl)
      fun t p hname ht => ?_
    refine .sign [' '] (.of_all rfl) rfl rfl fun opening p hopening _ => ?_
    refine (hread p).append fun us p hus => ?_
    refine .sign left hleft rfl rfl fun close p hclose _ => .done ?_
    have hderives := Derives.entity hkeyword hname hopening hus hclose
    rwa [ht, decl.ofMembers_members] at hderives

end Declaration

/-! ## Documents -/

namespace Document

/-- The declarations of a document in the order they are written in. -/
def declarations (d : Document) : List Declaration :=
  d.rules.map .rule ++ d.entities.map .entity

/-- A document is made up of its declarations. -/
theorem ofDeclarations_declarations (d : Document) :
    ofDeclarations d.declarations = d := by
  obtain ⟨rules, entities⟩ := d
  simp [ofDeclarations, declarations, List.filterMap_append,
    List.filterMap_map, Function.comp_def, Declaration.rule?,
    Declaration.entity?]

/-- The declarations of a document are written with empty lines between
them. -/
theorem render_eq (d : Document) :
    d.render = "\n".intercalate (d.declarations.map Declaration.render) := by
  simp [render, declarations, Declaration.render, Function.comp_def]

/-- **The canonical text of a well-formed document splits into tokens that
derive the document.** -/
theorem WellFormed.tokenize_render {d : Document} (h : d.WellFormed) :
    ∃ ts last, tokenize d.render = .ok (ts ++ [last]) ∧
      last.kind = .endOfText ∧ d.Derives ts := by
  have hall : ∀ declaration ∈ d.declarations, declaration.WellFormed := by
    intro declaration hmem
    rcases List.mem_append.mp hmem with hmem | hmem
    · obtain ⟨r, hr, rfl⟩ := List.mem_map.mp hmem
      exact h.rules r hr
    · obtain ⟨e, he, rfl⟩ := List.mem_map.mp hmem
      exact h.entities e he
  obtain ⟨left, hleft, hread⟩ := exists_reads_lines "\n"
    (.of_all rfl)
    (fun declaration hmem => (hall declaration hmem).isReadAsLine)
    .nil []
  obtain ⟨ts, p, hscans, hderives⟩ := hread .start
  rw [← render_eq, List.nil_append, List.append_nil, List.append_nil]
    at hscans
  have hblank : spanBlank false (left ++ []) = (left ++ [], []) :=
    spanBlank_separators hleft rfl
  rw [List.append_nil] at hblank
  have hends := Spot.ends_of_spanBlank (s := ⟨p, left⟩) hblank
  refine ⟨ts, _, ?_, congrArg Token.kind hends.token, _, hderives,
    d.ofDeclarations_declarations.symm⟩
  exact Spot.tokensFrom_eq_ok_iff.mpr ⟨ts, _, _, hscans, hends, rfl⟩

end Document

end Entitlement
