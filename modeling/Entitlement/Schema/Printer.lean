import Entitlement.Schema.Document

/-!
# Writing schema documents

`render` writes a document in its canonical layout: the rules, then the
entity types, a blank line between declarations; one member a line,
indented by four spaces, the relations first, then the attributes, then
the permissions.

A permission expression is written with the parentheses that its reading
needs and no others: `or` binds loosest, then `and`, then `not`, and the
two connectives group to the left. An operand is parenthesised when it
binds less tightly than its place demands.
-/

namespace Entitlement

/-! ## Permission expressions -/

/-- How tightly a connective binds. -/
def Connective.precedence : Connective → Nat
  | .or => 1
  | .and => 2

namespace PermissionExpr

/-- **How tightly an expression binds**: a connective loosest, everything
that is read as one operand tightest. -/
def precedence : PermissionExpr → Nat
  | binary op _ _ => op.precedence
  | not _ => 3
  | _ => 4

/-- Parentheses around a text, if they are needed. -/
def parenthesize (needed : Bool) (text : String) : String :=
  if needed then "(" ++ text ++ ")" else text

/-- **The text of an expression** at a place that demands a precedence. -/
def renderAt (demanded : Nat) (e : PermissionExpr) : String :=
  parenthesize (e.precedence < demanded) <|
    match e with
    | name n => n
    | member relation permission => relation ++ "." ++ permission
    | call rule arguments => rule ++ "(" ++ ", ".intercalate arguments ++ ")"
    | inline expression => "rule(" ++ expression ++ ")"
    | not operand => "not " ++ operand.renderAt 4
    | binary op left right =>
      left.renderAt op.precedence ++ " " ++ op.spelling ++ " " ++
        right.renderAt (op.precedence + 1)

/-- The text of a whole expression. -/
def render (e : PermissionExpr) : String :=
  e.renderAt 0

end PermissionExpr

/-! ## Declarations -/

/-- What stands in front of a member or a rule body. -/
def indentation : String := "    "

/-- The text of an admitted subject type. -/
def TargetDecl.render (t : TargetDecl) : String :=
  match t.relation with
  | none => " @" ++ t.entity
  | some relation => " @" ++ t.entity ++ "#" ++ relation

/-- The line of a relation. -/
def RelationDecl.render (r : RelationDecl) : String :=
  indentation ++ "relation " ++ r.name ++
    String.join (r.targets.map TargetDecl.render) ++ "\n"

/-- An attribute type as written, with the mark of a list. -/
def AttributeDecl.typeText (a : AttributeDecl) : String :=
  a.typeName ++ if a.isArray then "[]" else ""

/-- The line of an attribute. -/
def AttributeDecl.render (a : AttributeDecl) : String :=
  indentation ++ "attribute " ++ a.name ++ " " ++ a.typeText ++ "\n"

/-- The line of a permission. -/
def PermissionDecl.render (p : PermissionDecl) : String :=
  indentation ++ "permission " ++ p.name ++ " = " ++ p.expr.render ++ "\n"

/-- The lines of a rule. -/
def RuleDecl.render (r : RuleDecl) : String :=
  "rule " ++ r.name ++ "(" ++ ", ".intercalate r.parameters ++ ") \x7b\n" ++
    indentation ++ r.body ++ "\n\x7d\n"

/-- The lines of the members of an entity type. -/
def EntityDecl.renderMembers (e : EntityDecl) : String :=
  String.join (e.relations.map RelationDecl.render) ++
    String.join (e.attributes.map AttributeDecl.render) ++
    String.join (e.permissions.map PermissionDecl.render)

/-- The lines of an entity type; one without members takes a single
line. -/
def EntityDecl.render (e : EntityDecl) : String :=
  if e.relations.isEmpty && e.attributes.isEmpty && e.permissions.isEmpty then
    "entity " ++ e.name ++ " \x7b\x7d\n"
  else
    "entity " ++ e.name ++ " \x7b\n" ++ e.renderMembers ++ "\x7d\n"

/-- **The canonical text of a document.** -/
def Document.render (d : Document) : String :=
  "\n".intercalate
    (d.rules.map RuleDecl.render ++ d.entities.map EntityDecl.render)

end Entitlement
