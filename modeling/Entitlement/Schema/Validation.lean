import Entitlement.Schema.Basic
import Entitlement.Schema.Cycle

/-!
# Validation of schema documents

`Document.problems` lists all that keeps a document from being a schema,
in a fixed order:

* the rules: repeated names, repeated parameters, bodies that do not
  compile;
* repeated entity types;
* per entity type: names declared twice among its relations, attributes
  and permissions; unknown attribute types; relation targets that do not
  exist; and what its permissions refer to but no declaration provides;
* per entity type, a cycle among its permissions.

Whether an expression compiles is asked of `compiles`, so that validation
does not depend on an expression language.
-/

namespace Entitlement

/-- What an entity type can declare. -/
inductive MemberKind
  | relation | attr | permission
  deriving DecidableEq, Repr

/-- The word for a sort of member. -/
def MemberKind.word : MemberKind → String
  | relation => "relation"
  | attr => "attribute"
  | permission => "permission"

/-- Where an expression stands. -/
inductive ExpressionPlace
  | body (rule : String)
  | permission (entity name : String)
  deriving DecidableEq, Repr

/-- How messages name the place of an expression. -/
def ExpressionPlace.description : ExpressionPlace → String
  | .body rule => s!"rule '{rule}'"
  | .permission entity name => s!"{entity}#{name}"

/-- **What keeps a document from being a schema.** -/
inductive SchemaProblem
  | duplicateEntity (entity : String)
  | duplicateRule (rule : String)
  | duplicateParameter (rule parameter : String)
  | duplicateName (entity name : String) (first second : MemberKind)
  | invalidAttributeType (entity attr typeName : String)
  | undefinedEntityType (entity relation referenced : String)
  | undefinedUsersetRelation (entity relation target : String)
  | undefinedReference (entity permission name : String)
  | undefinedTraversal (entity permission relation : String)
  | undefinedMember (entity permission target name : String)
  | undefinedRule (entity permission rule : String)
  | arityMismatch (entity permission rule : String) (expected actual : Nat)
  | unrecognizedArgument (entity permission rule argument : String)
  | invalidExpression (place : ExpressionPlace) (reason : String)
  | cyclicPermission (entity : String) (cycle : List String)
  deriving DecidableEq, Repr

/-- The wording of a problem. -/
def SchemaProblem.message : SchemaProblem → String
  | duplicateEntity entity => s!"entity '{entity}' is declared more than once"
  | duplicateRule rule => s!"rule '{rule}' is declared more than once"
  | duplicateParameter rule parameter =>
    s!"rule '{rule}' declares parameter '{parameter}' more than once"
  | duplicateName entity name first second =>
    if first = second then
      s!"{first.word} '{name}' is declared more than once in entity '{entity}'"
    else
      s!"{second.word} '{name}' in entity '{entity}' conflicts with " ++
        s!"{first.word} of the same name"
  | invalidAttributeType entity attr typeName =>
    s!"attribute '{entity}.{attr}' has invalid type '{typeName}' " ++
      "(expected string, int, bool or float, optionally with [])"
  | undefinedEntityType entity relation referenced =>
    s!"undefined entity type '{referenced}' referenced in {entity}#{relation}"
  | undefinedUsersetRelation entity relation target =>
    s!"userset target '{target}' in {entity}#{relation} does not name a " ++
      "relation or permission"
  | undefinedReference entity permission name =>
    s!"undefined relation or permission '{name}' referenced in " ++
      s!"{entity}#{permission}"
  | undefinedTraversal entity permission relation =>
    s!"'{relation}' used for traversal in {entity}#{permission} is not a " ++
      s!"relation of '{entity}'"
  | undefinedMember entity permission target name =>
    s!"entity '{target}' declares no permission or relation '{name}' " ++
      s!"(referenced in {entity}#{permission})"
  | undefinedRule entity permission rule =>
    s!"undefined rule '{rule}' called in {entity}#{permission}"
  | arityMismatch entity permission rule expected actual =>
    s!"rule '{rule}' expects {expected} argument(s) but " ++
      s!"{entity}#{permission} passes {actual}"
  | unrecognizedArgument entity permission rule argument =>
    s!"argument '{argument}' to rule '{rule}' in {entity}#{permission} is " ++
      s!"neither a context name nor an attribute of '{entity}'"
  | invalidExpression place reason =>
    s!"invalid expression in {place.description}: {reason}"
  | cyclicPermission entity cycle =>
    s!"cyclic permission definition in entity '{entity}': " ++
      " -> ".intercalate cycle

/-- The report of several problems, a line each. -/
def SchemaProblem.report (problems : List SchemaProblem) : String :=
  "\n".intercalate (problems.map message)

/-! ## Repeated names -/

/-- The names of a list that occurred before in it, or in `seen`, once per
repetition. -/
def repeatedNames (seen : List String) : List String → List String
  | [] => []
  | name :: rest =>
    if seen.contains name then name :: repeatedNames seen rest
    else repeatedNames (name :: seen) rest

/-- The names of a list of members that were declared before in it, or in
`seen`, with what declared them first and what declares them again. -/
def repeatedMembers (seen : List (String × MemberKind)) :
    List (String × MemberKind) → List (String × MemberKind × MemberKind)
  | [] => []
  | (name, kind) :: rest =>
    match seen.lookup name with
    | some first => (name, first, kind) :: repeatedMembers seen rest
    | none => repeatedMembers ((name, kind) :: seen) rest

/-! ## Rules -/

/-- How the compiler of expressions answers: nothing, or why a text is no
expression. -/
abbrev ExpressionCheck := String → Option String

/-- The problems of one rule, apart from its name. -/
def RuleDecl.problems (check : ExpressionCheck) (r : RuleDecl) :
    List SchemaProblem :=
  (repeatedNames [] r.parameters).map (.duplicateParameter r.name) ++
    ((check r.body).map (.invalidExpression (.body r.name))).toList

/-- The problems of the rules, in their order; `seen` holds the names of
the rules before them. -/
def ruleProblems (check : ExpressionCheck) (seen : List String) :
    List RuleDecl → List SchemaProblem
  | [] => []
  | r :: rest =>
    (if seen.contains r.name then [.duplicateRule r.name] else []) ++
      r.problems check ++ ruleProblems check (r.name :: seen) rest

/-! ## Entity types -/

namespace EntityDecl

/-- The names that an entity type declares, with what they name. -/
def declaredNames (e : EntityDecl) : List (String × MemberKind) :=
  e.relations.map (fun r => (r.name, .relation)) ++
    e.attributes.map (fun a => (a.name, .attr)) ++
    e.permissions.map (fun p => (p.name, .permission))

/-- The names that are declared more than once. -/
def nameProblems (e : EntityDecl) : List SchemaProblem :=
  (repeatedMembers [] e.declaredNames).map fun (name, first, second) =>
    .duplicateName e.name name first second

/-- The attributes of unknown type. -/
def attributeProblems (e : EntityDecl) : List SchemaProblem :=
  e.attributes.filterMap fun a =>
    match ScalarType.ofSpelling? a.typeName with
    | some _ => none
    | none => some <| .invalidAttributeType e.name a.name
        (a.typeName ++ if a.isArray then "[]" else "")

/-- The problem of one target of a relation. -/
def targetProblem? (d : Document) (e : EntityDecl) (relation : String)
    (t : TargetDecl) : Option SchemaProblem :=
  match d.entity? t.entity with
  | none => some (.undefinedEntityType e.name relation t.entity)
  | some target =>
    match t.relation with
    | none => none
    | some r =>
      if target.hasRelationOrPermission r then none
      else some (.undefinedUsersetRelation e.name relation
        (t.entity ++ "#" ++ r))

/-- The relation targets that do not exist. -/
def targetProblems (d : Document) (e : EntityDecl) : List SchemaProblem :=
  e.relations.flatMap fun r => r.targets.filterMap (e.targetProblem? d r.name)

end EntityDecl

/-- The names that a rule call can pass besides attributes. -/
def contextNames : List String :=
  ["resource", "subject", "request"]

/-- **What a permission expression refers to but no declaration
provides.** -/
def PermissionExpr.problems (check : ExpressionCheck) (d : Document)
    (e : EntityDecl) (permission : String) :
    PermissionExpr → List SchemaProblem
  | name n =>
    if e.hasRelationOrPermission n then []
    else [.undefinedReference e.name permission n]
  | member relation target =>
    match e.relation? relation with
    | none => [.undefinedTraversal e.name permission relation]
    | some r =>
      (r.targets.filter fun t => t.relation.isNone).filterMap fun t =>
        match d.entity? t.entity with
        | none => none
        | some found =>
          if found.hasRelationOrPermission target then none
          else some (.undefinedMember e.name permission t.entity target)
  | call rule arguments =>
    match d.rule? rule with
    | none => [.undefinedRule e.name permission rule]
    | some r =>
      (if r.parameters.length = arguments.length then []
        else [.arityMismatch e.name permission rule r.parameters.length
          arguments.length]) ++
        (arguments.filter fun a =>
          !contextNames.contains a && !e.hasAttribute a).map
          (.unrecognizedArgument e.name permission rule)
  | inline expression =>
    ((check expression).map
      (.invalidExpression (.permission e.name permission))).toList
  | not operand => operand.problems check d e permission
  | binary _ left right =>
    left.problems check d e permission ++ right.problems check d e permission

namespace EntityDecl

/-- The problems inside an entity type, apart from cycles. -/
def problems (check : ExpressionCheck) (d : Document) (e : EntityDecl) :
    List SchemaProblem :=
  e.nameProblems ++ e.attributeProblems ++ e.targetProblems d ++
    e.permissions.flatMap fun p => p.expr.problems check d e p.name

/-- The cycle among the permissions of an entity type. -/
def cycleProblem? (e : EntityDecl) : Option SchemaProblem :=
  e.cycle?.map (.cyclicPermission e.name)

end EntityDecl

/-- **All that keeps a document from being a schema.** -/
def Document.problems (check : ExpressionCheck) (d : Document) :
    List SchemaProblem :=
  ruleProblems check [] d.rules ++
    (repeatedNames [] (d.entities.map EntityDecl.name)).map .duplicateEntity ++
    d.entities.flatMap (EntityDecl.problems check d) ++
    d.entities.filterMap EntityDecl.cycleProblem?

end Entitlement
