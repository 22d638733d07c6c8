import Entitlement.Failure
import Entitlement.Schema.Parser
import Entitlement.Schema.Printer

/-!
# Schemas from texts, and texts from schemas

`compileSchema` reads a schema text, validates the document and turns it
into a `Schema`. `Schema.toText` goes the other way and writes the
canonical text of a schema, which fails only if a rule lacks an operand:
such a rule has no text. A spare operand of a negation is left out.
-/

namespace Entitlement

/-! ## Rules -/

/-- **The rule of an expression.** -/
def PermissionExpr.toRule : PermissionExpr → PermissionRule
  | name n => .relation n
  | member relation permission => .member relation permission
  | call rule arguments => .call rule arguments
  | inline expression => .inline expression
  | not operand => .not operand.toRule
  | binary op left right => .binary op left.toRule right.toRule

/-- **The expression of a rule**, or the first connective without its
right operand. -/
def PermissionRule.toExpr : PermissionRule → Except Connective PermissionExpr
  | .relation n => .ok (.name n)
  | member r permission => .ok (.member r permission)
  | call rule arguments => .ok (.call rule arguments)
  | inline expression => .ok (.inline expression)
  | not operand => operand.toExpr.map .not
  | notWith operand _ => operand.toExpr.map .not
  | incomplete op _ => .error op
  | binary op left right => do
    let left ← left.toExpr
    let right ← right.toExpr
    pure (.binary op left right)

/-- An expression is the expression of its rule. -/
@[simp] theorem PermissionExpr.toExpr_toRule (e : PermissionExpr) :
    e.toRule.toExpr = .ok e := by
  induction e with
  | not operand ih => simp [toRule, PermissionRule.toExpr, ih, Except.map]
  | binary op left right ihl ihr =>
    simp [toRule, PermissionRule.toExpr, ihl, ihr, bind, Except.bind, pure,
      Except.pure]
  | _ => rfl

/-! ## Documents to schemas -/

/-- The sort of subjects of a declared target. -/
def TargetDecl.toSubjectType (t : TargetDecl) : SubjectType :=
  ⟨t.entity, t.relation⟩

/-- The relation that is declared. -/
def RelationDecl.toRelation (r : RelationDecl) : Relation :=
  ⟨r.name, r.targets.map TargetDecl.toSubjectType⟩

/-- The attribute that is declared, if its type exists. -/
def AttributeDecl.toAttribute (entity : String) (a : AttributeDecl) :
    Except Failure AttributeDef :=
  match ScalarType.ofSpelling? a.typeName with
  | some scalar => .ok ⟨a.name, ⟨scalar, a.isArray⟩⟩
  | none => .error (.attributeType entity a.name a.typeName)

/-- The permission that is declared. -/
def PermissionDecl.toPermission (p : PermissionDecl) : Permission :=
  ⟨p.name, p.expr.toRule⟩

/-- The entity type that is declared. -/
def EntityDecl.toEntityType (e : EntityDecl) : Except Failure EntityType := do
  let attributes ← e.attributes.mapM (AttributeDecl.toAttribute e.name)
  pure {
    name := e.name
    relations := e.relations.map RelationDecl.toRelation
    attributes
    permissions := e.permissions.map PermissionDecl.toPermission }

/-- The rule that is declared. -/
def RuleDecl.toRule (r : RuleDecl) : Rule :=
  ⟨r.name, r.parameters, r.body⟩

/-- **The schema of a document**, which fails only at an attribute whose
type does not exist. -/
def Document.toSchema (d : Document) (tenant version source : String)
    (createdAt : Int) : Except Failure Schema := do
  let entities ← d.entities.mapM EntityDecl.toEntityType
  pure {
    tenant, version, source
    rules := d.rules.map RuleDecl.toRule
    entities
    createdAt
    updatedAt := createdAt }

/-- **The schema of a text.** Its errors are those of the text or, if the
text is a document, those of the document. -/
def compileSchema (check : ExpressionCheck) (tenant version source : String)
    (createdAt : Int) : Except Failure Schema :=
  match parse source with
  | .error errors => .error (.schemaSyntax errors)
  | .ok document =>
    match document.problems check with
    | [] => document.toSchema tenant version source createdAt
    | problems => .error (.schemaInvalid problems)

/-! ## Schemas to texts -/

/-- The declaration of a sort of subjects. -/
def SubjectType.toDecl (t : SubjectType) : TargetDecl :=
  ⟨t.entityType, t.relation⟩

/-- The declaration of a relation. -/
def Relation.toDecl (r : Relation) : RelationDecl :=
  ⟨r.name, r.targets.map SubjectType.toDecl⟩

/-- The declaration of an attribute. -/
def AttributeDef.toDecl (a : AttributeDef) : AttributeDecl :=
  ⟨a.name, a.type.scalar.spelling, a.type.isArray⟩

/-- The declaration of a permission, if its rule is complete. -/
def Permission.toDecl (p : Permission) : Except Connective PermissionDecl :=
  p.rule.toExpr.map fun e => ⟨p.name, e⟩

/-- The declaration of an entity type, if its rules are complete. -/
def EntityType.toDecl (e : EntityType) : Except Connective EntityDecl := do
  let permissions ← e.permissions.mapM Permission.toDecl
  pure {
    name := e.name
    relations := e.relations.map Relation.toDecl
    attributes := e.attributes.map AttributeDef.toDecl
    permissions }

/-- The declaration of a rule. -/
def Rule.toDecl (r : Rule) : RuleDecl :=
  ⟨r.name, r.parameters, r.body⟩

/-- **The document of a schema**, if its rules are complete. -/
def Schema.toDocument (s : Schema) : Except Failure Document :=
  match s.entities.mapM EntityType.toDecl with
  | .ok entities => .ok { rules := s.rules.map Rule.toDecl, entities }
  | .error op => .error (.missingOperand op)

/-- **The canonical text of a schema.** -/
def Schema.toText (s : Schema) : Except Failure String :=
  s.toDocument.map Document.render

end Entitlement
