import Entitlement.Proofs.Schema.Enclosed
import Entitlement.Proofs.Schema.Grammar

/-!
# Well-formed documents

A document is **well-formed** if it could have been read from a text: its
names are names, its rules have parameters and its relations targets, and
the texts that it carries along can stand between their brackets.

`Document.Derives.wellFormed` says that whatever is derived by tokens in a
row is well-formed. A token by itself is enough for a name, but not for the
text of a passage: what is kept between two brackets is written as tokens
and blanks only because the lexer went through it from one to the other.
-/

namespace Entitlement

/-! ## The parts of a document -/

/-- Whether an expression has names for names and expressions for texts. -/
def PermissionExpr.WellFormed : PermissionExpr → Prop
  | name n => isName n = true
  | member relation permission =>
    isName relation = true ∧ isName permission = true
  | call rule arguments =>
    isName rule = true ∧ ∀ argument ∈ arguments, isName argument = true
  | inline expression => Bracket.parens.Encloses expression
  | not operand => operand.WellFormed
  | binary _ left right => left.WellFormed ∧ right.WellFormed

structure TargetDecl.WellFormed (t : TargetDecl) : Prop where
  entity : isName t.entity = true
  relation : ∀ relation ∈ t.relation, isName relation = true

structure RelationDecl.WellFormed (r : RelationDecl) : Prop where
  name : isName r.name = true
  nonempty : r.targets ≠ []
  targets : ∀ target ∈ r.targets, target.WellFormed

structure AttributeDecl.WellFormed (a : AttributeDecl) : Prop where
  name : isName a.name = true
  typeName : isName a.typeName = true

structure PermissionDecl.WellFormed (p : PermissionDecl) : Prop where
  name : isName p.name = true
  expr : p.expr.WellFormed

structure RuleDecl.WellFormed (r : RuleDecl) : Prop where
  name : isName r.name = true
  nonempty : r.parameters ≠ []
  parameters : ∀ parameter ∈ r.parameters, isName parameter = true
  body : Bracket.braces.Encloses r.body

structure EntityDecl.WellFormed (e : EntityDecl) : Prop where
  name : isName e.name = true
  relations : ∀ r ∈ e.relations, r.WellFormed
  attributes : ∀ a ∈ e.attributes, a.WellFormed
  permissions : ∀ p ∈ e.permissions, p.WellFormed

/-- **Whether a document could have been read from a text.** -/
structure Document.WellFormed (d : Document) : Prop where
  rules : ∀ r ∈ d.rules, r.WellFormed
  entities : ∀ e ∈ d.entities, e.WellFormed

/-- Whether what a member declares is well-formed. -/
def EntityMember.WellFormed : EntityMember → Prop
  | relation decl => decl.WellFormed
  | attr decl => decl.WellFormed
  | permission decl => decl.WellFormed

/-- Whether what is declared is well-formed. -/
def Declaration.WellFormed : Declaration → Prop
  | rule decl => decl.WellFormed
  | entity decl => decl.WellFormed

/-- An entity type is well-formed if its members are. -/
theorem EntityDecl.wellFormed_ofMembers {name : String}
    {members : List EntityMember} (hname : isName name = true)
    (h : ∀ member ∈ members, member.WellFormed) :
    (EntityDecl.ofMembers name members).WellFormed where
  name := hname
  relations r hr := by
    obtain ⟨member, hmem, hsome⟩ := List.mem_filterMap.mp hr
    cases member <;> cases hsome
    exact h _ hmem
  attributes a ha := by
    obtain ⟨member, hmem, hsome⟩ := List.mem_filterMap.mp ha
    cases member <;> cases hsome
    exact h _ hmem
  permissions p hp := by
    obtain ⟨member, hmem, hsome⟩ := List.mem_filterMap.mp hp
    cases member <;> cases hsome
    exact h _ hmem

/-- A document is well-formed if its declarations are. -/
theorem Document.wellFormed_ofDeclarations
    {declarations : List Declaration}
    (h : ∀ declaration ∈ declarations, declaration.WellFormed) :
    (Document.ofDeclarations declarations).WellFormed where
  rules r hr := by
    obtain ⟨declaration, hmem, hsome⟩ := List.mem_filterMap.mp hr
    cases declaration <;> cases hsome
    exact h _ hmem
  entities e he := by
    obtain ⟨declaration, hmem, hsome⟩ := List.mem_filterMap.mp he
    cases declaration <;> cases hsome
    exact h _ hmem

/-! ## Tokens in a row -/

/-- **Whether the lexer takes some tokens one after the other**, somewhere
in some text. -/
def IsRun (ts : List Token) : Prop :=
  ∃ s s' : Spot, s.Scans ts s'

namespace IsRun

variable {t : Token} {ts us : List Token}

theorem left (h : IsRun (ts ++ us)) : IsRun ts := by
  obtain ⟨s, s', h⟩ := h
  obtain ⟨m, hts, -⟩ := Spot.scans_append_iff.mp h
  exact ⟨s, m, hts⟩

theorem right (h : IsRun (ts ++ us)) : IsRun us := by
  obtain ⟨s, s', h⟩ := h
  obtain ⟨m, -, hus⟩ := Spot.scans_append_iff.mp h
  exact ⟨m, s', hus⟩

theorem tail (h : IsRun (t :: ts)) : IsRun ts :=
  right (show IsRun ([t] ++ ts) from h)

theorem isLexed (h : IsRun ts) : ∀ t ∈ ts, t.IsLexed := by
  obtain ⟨s, s', h⟩ := h
  exact h.isLexed

/-- The identifiers of a run are names. -/
theorem isName (h : IsRun ts) (ht : t ∈ ts) (hk : t.kind = .identifier) :
    Entitlement.isName t.value = true :=
  (h.isLexed t ht).isName hk

/-- A text that splits into tokens splits into a run and the end. -/
theorem exists_of_tokenize {source : String} {tokens : List Token}
    (h : tokenize source = .ok tokens) :
    ∃ ts last, tokens = ts ++ [last] ∧ last.kind = .endOfText ∧
      IsRun ts := by
  obtain ⟨ts, s, last, hscans, hends, rfl⟩ :=
    (Spot.tokensFrom_eq_ok_iff (s := ⟨.start, source.toList⟩)).mp h
  exact ⟨ts, last, rfl, congrArg Token.kind hends.token, _, s, hscans⟩

end IsRun

/-! ## What is derived is well-formed -/

variable {ts : List Token}

theorem DerivesAll.forall {α : Type} {derives : List Token → α → Prop}
    {p : α → Prop} {as : List α} (h : DerivesAll derives ts as)
    (hts : IsRun ts) (hp : ∀ {ts a}, derives ts a → IsRun ts → p a) :
    ∀ a ∈ as, p a := by
  induction h with
  | nil => exact fun a ha => absurd ha List.not_mem_nil
  | cons ha _ ih =>
    intro b hb
    rcases List.mem_cons.mp hb with rfl | hb
    · exact hp ha hts.left
    · exact ih hts.right b hb

theorem DerivesNames.isName {names : List String} (h : DerivesNames ts names)
    (hts : IsRun ts) : ∀ n ∈ names, Entitlement.isName n = true := by
  induction h with
  | one hk =>
    intro n hn
    rw [List.mem_singleton.mp hn]
    exact hts.isName List.mem_cons_self hk
  | more hk _ _ ih =>
    intro n hn
    rcases List.mem_cons.mp hn with rfl | hn
    · exact hts.isName List.mem_cons_self hk
    · exact ih hts.tail.tail n hn

theorem DerivesNames.ne_nil {names : List String}
    (h : DerivesNames ts names) : names ≠ [] := by
  cases h <;> exact List.cons_ne_nil _ _

/-- **What is kept of a passage is an expression** between its brackets. -/
theorem Bracket.Derives.encloses {b : Bracket} {text : String}
    (h : b.Derives ts text) (hts : IsRun ts) : b.Encloses text := by
  cases h with
  | @mk opening close inner _ _ hdepth hne =>
    have hclose : close.IsLexed := hts.isLexed close
      (List.mem_cons_of_mem _ (List.mem_append_right _ List.mem_cons_self))
    obtain ⟨s, s', hscans⟩ := hts.tail.left
    exact encloses_trimBlanks hscans hdepth hclose.leading hne

theorem PermissionExpr.Derives.wellFormed {level : Nat} {e : PermissionExpr}
    (h : Derives level ts e) (hts : IsRun ts) : e.WellFormed := by
  induction h with
  | name hk => exact hts.isName List.mem_cons_self hk
  | member hrelation _ hpermission =>
    exact ⟨hts.isName (by simp) hrelation, hts.isName (by simp) hpermission⟩
  | call hrule =>
    exact ⟨hts.isName List.mem_cons_self hrule,
      fun n hn => absurd hn List.not_mem_nil⟩
  | callWith hrule _ harguments =>
    exact ⟨hts.isName List.mem_cons_self hrule,
      harguments.isName hts.tail.tail.left⟩
  | inline _ hpassage => exact hpassage.encloses hts.tail
  | group _ _ _ ih => exact ih hts.tail.left
  | not _ _ ih => exact ih hts.tail
  | binary _ _ _ ihl ihr => exact ⟨ihl hts.left, ihr hts.right.tail⟩
  | loosen _ ih => exact ih hts

theorem TargetDecl.Derives.wellFormed {t : TargetDecl} (h : Derives ts t)
    (hts : IsRun ts) : t.WellFormed := by
  cases h with
  | entity _ hname =>
    refine ⟨hts.isName (by simp) hname, fun relation hr => ?_⟩
    cases hr
  | userset _ hname _ hrelation =>
    refine ⟨hts.isName (by simp) hname, fun relation hr => ?_⟩
    cases hr
    exact hts.isName (by simp) hrelation

theorem EntityMember.Derives.wellFormed {member : EntityMember}
    (h : Derives ts member) (hts : IsRun ts) : member.WellFormed := by
  cases h with
  | relation _ hname htargets hne =>
    exact ⟨hts.isName (by simp) hname, hne,
      htargets.forall hts.tail.tail fun h hts => h.wellFormed hts⟩
  | attr _ hname htype | attrList _ hname htype =>
    exact ⟨hts.isName (by simp) hname, hts.isName (by simp) htype⟩
  | permission _ hname _ hexpr =>
    exact ⟨hts.isName (by simp) hname, hexpr.wellFormed hts.tail.tail.tail⟩

theorem Declaration.Derives.wellFormed {declaration : Declaration}
    (h : Derives ts declaration) (hts : IsRun ts) :
    declaration.WellFormed := by
  cases h with
  | rule _ hname _ hparameters _ hbody =>
    have hrest := hts.tail.tail.tail
    exact ⟨hts.isName (by simp) hname, hparameters.ne_nil,
      hparameters.isName hrest.left, hbody.encloses hrest.right.tail⟩
  | entity _ hname _ hmembers =>
    exact EntityDecl.wellFormed_ofMembers (hts.isName (by simp) hname)
      (hmembers.forall hts.tail.tail.tail.left
        fun h hts => h.wellFormed hts)

/-- **A document that is derived is well-formed.** -/
theorem Document.Derives.wellFormed {d : Document} (h : d.Derives ts)
    (hts : IsRun ts) : d.WellFormed := by
  obtain ⟨declarations, hall, rfl⟩ := h
  exact Document.wellFormed_ofDeclarations
    (hall.forall hts fun h hts => h.wellFormed hts)

end Entitlement
