import Entitlement.Proofs.Schema.References
import Entitlement.Proofs.Schema.RoundTrip

/-!
# The canonical text of a schema

A compiled schema is written as the canonical text of the document that it was
compiled from (`Document.toDocument_toSchema`): turning a document into a
schema loses nothing but layout. So the canonical text is read back as the same
document, has no more problems than the first text had, and compiles to the
same rules and entity types. From there on nothing changes: the canonical text
is its own canonical text (`Schema.canonical_text_compiles_alike`).
-/

namespace Entitlement

/-! ## From a schema back to its document -/

/-- A scalar type is spelled as it was written. -/
theorem ScalarType.spelling_of_ofSpelling? {name : String} {t : ScalarType}
    (h : ofSpelling? name = some t) : t.spelling = name := by
  unfold ofSpelling? at h
  split at h <;> cases h <;> rfl

theorem AttributeDecl.toDecl_of_toAttribute {entity : String}
    {a : AttributeDecl} {attr : AttributeDef}
    (h : a.toAttribute entity = .ok attr) : attr.toDecl = a := by
  unfold toAttribute at h
  split at h
  next scalar hscalar =>
    cases h
    unfold AttributeDef.toDecl
    rw [ScalarType.spelling_of_ofSpelling? hscalar]
  next => cases h

@[simp] theorem RelationDecl.toDecl_toRelation (r : RelationDecl) :
    r.toRelation.toDecl = r := by
  obtain ⟨name, targets⟩ := r
  simp [toRelation, Relation.toDecl, TargetDecl.toSubjectType,
    SubjectType.toDecl, Function.comp_def]

@[simp] theorem PermissionDecl.toDecl_toPermission (p : PermissionDecl) :
    p.toPermission.toDecl = .ok p := by
  unfold toPermission Permission.toDecl
  rw [PermissionExpr.toExpr_toRule]
  rfl

/-- **An entity type is declared as it was.** -/
theorem EntityDecl.toDecl_of_toEntityType {e : EntityDecl}
    {entity : EntityType} (h : e.toEntityType = .ok entity) :
    entity.toDecl = .ok e := by
  obtain ⟨attributes, hattributes, h⟩ := Outcome.bind_eq_ok_iff.mp h
  rw [Outcome.pure_eq_ok_iff] at h
  subst h
  have hpermissions : (e.permissions.map PermissionDecl.toPermission).mapM
      Permission.toDecl = .ok e.permissions := by
    refine Outcome.mapM_eq_ok_of_mapM (f := fun p => (.ok p.toPermission :
      Except Failure Permission)) (fun hp => ?_)
      (Outcome.mapM_eq_ok_map fun _ _ => rfl)
    cases hp
    exact PermissionDecl.toDecl_toPermission _
  have hattrs : attributes.map AttributeDef.toDecl = e.attributes := by
    have hback : attributes.mapM (fun a => (.ok a.toDecl :
        Except Failure AttributeDecl)) = .ok e.attributes :=
      Outcome.mapM_eq_ok_of_mapM (fun ha =>
        congrArg Except.ok (AttributeDecl.toDecl_of_toAttribute ha)) hattributes
    rw [Outcome.mapM_eq_ok_map fun _ _ => rfl] at hback
    exact Except.ok.inj hback
  unfold EntityType.toDecl
  simp only [hpermissions, hattrs]
  simp [bind, Except.bind, pure, Except.pure, Function.comp_def]

@[simp] theorem RuleDecl.toDecl_toRule (r : RuleDecl) : r.toRule.toDecl = r :=
  rfl

namespace Document

variable {d : Document} {tenant version source : String} {createdAt : Int}
  {s : Schema}

/-- **A schema is declared by the document that it was made of.** -/
theorem toDocument_toSchema
    (h : d.toSchema tenant version source createdAt = .ok s) :
    s.toDocument = .ok d := by
  obtain ⟨entities, hentities, h⟩ := Outcome.bind_eq_ok_iff.mp h
  rw [Outcome.pure_eq_ok_iff] at h
  subst h
  have hback : entities.mapM EntityType.toDecl = .ok d.entities :=
    Outcome.mapM_eq_ok_of_mapM EntityDecl.toDecl_of_toEntityType hentities
  unfold Schema.toDocument
  simp only [hback]
  simp [Function.comp_def]

/-- Its canonical text is the canonical text of the document. -/
theorem toText_toSchema
    (h : d.toSchema tenant version source createdAt = .ok s) :
    s.toText = .ok d.render := by
  unfold Schema.toText
  rw [toDocument_toSchema h]
  rfl

/-- The same document makes a schema of any name, text and time. -/
theorem toSchema_eq_ok (h : d.toSchema tenant version source createdAt = .ok s)
    (tenant' version' source' : String) (createdAt' : Int) :
    d.toSchema tenant' version' source' createdAt' = .ok { s with
      tenant := tenant', version := version', source := source',
      createdAt := createdAt', updatedAt := createdAt' } := by
  obtain ⟨entities, hentities, h⟩ := Outcome.bind_eq_ok_iff.mp h
  rw [Outcome.pure_eq_ok_iff] at h
  subst h
  unfold toSchema
  rw [hentities]
  rfl

end Document

/-! ## The canonical text -/

namespace Schema

variable {check : ExpressionCheck} {tenant version source : String}
  {createdAt : Int} {s : Schema}

/-- **Writing a schema anew preserves it.** A schema that compiles has a
canonical text, and under whatever name and time that text compiles, its rules
and its entity types are the same and the text is its own canonical text. -/
theorem canonical_text_compiles_alike
    (h : compileSchema check tenant version source createdAt = .ok s) :
    ∃ text, s.toText = .ok text ∧
      ∀ (tenant' version' : String) (createdAt' : Int), ∃ s',
        compileSchema check tenant' version' text createdAt' = .ok s' ∧
          s'.rules = s.rules ∧ s'.entities = s.entities ∧
          s'.toText = .ok text := by
  obtain ⟨d, hparse, hproblems, hs⟩ := compileSchema_eq_ok_iff.mp h
  refine ⟨d.render, Document.toText_toSchema hs,
    fun tenant' version' createdAt' => ?_⟩
  have hagain : parse d.render = .ok d :=
    (Document.wellFormed_of_parse hparse).parse_render
  have hs' := Document.toSchema_eq_ok hs tenant' version' d.render createdAt'
  exact ⟨_, compileSchema_eq_ok_iff.mpr ⟨d, hagain, hproblems, hs'⟩, rfl, rfl,
    Document.toText_toSchema hs'⟩

/-- A text with a comment, odd line breaks and needless parentheses. -/
def untidySource : String :=
  "rule open(r) \x7b r // who\n \x7d\nentity user {} entity document\x7b" ++
    "relation\nowner @user action view = " ++
    "((not owner)) or (rule( 1 ) and open(request)) \x7d"

/-- What it says. -/
def untidySchema : Schema where
  tenant := "t"
  version := "v"
  source := untidySource
  rules := [⟨"open", ["r"], "r"⟩]
  entities := [{ name := "user" },
    { name := "document"
      relations := [⟨"owner", [⟨"user", none⟩]⟩]
      permissions := [⟨"view", .binary .or (.not (.relation "owner"))
        (.binary .and (.inline "1") (.call "open" ["request"]))⟩] }]
  createdAt := 0
  updatedAt := 0

theorem compile_untidySource :
    compileSchema (fun _ => none) "t" "v" untidySource 0 = .ok untidySchema :=
  Outcome.eq_ok_of_toOption (by decide +kernel)

/-- Its canonical text is another one and compiles alike. -/
theorem untidySchema_compiles_alike : ∃ text,
    untidySchema.toText = .ok text ∧ text ≠ untidySource ∧ ∃ s',
      compileSchema (fun _ => none) "t" "w" text 1 = .ok s' ∧
        s'.rules = untidySchema.rules ∧ s'.entities = untidySchema.entities ∧
        s'.toText = .ok text := by
  obtain ⟨text, htext, hagain⟩ :=
    canonical_text_compiles_alike compile_untidySource
  refine ⟨text, htext, ?_, hagain "t" "w" 1⟩
  rintro rfl
  have hother : untidySchema.toText.toOption ≠ some untidySource := by
    decide +kernel
  exact hother (by rw [htext]; rfl)

end Schema

end Entitlement
