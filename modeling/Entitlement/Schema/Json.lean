import Entitlement.Json.Basic
import Entitlement.Schema.Basic

/-!
# Schemas as JSON

Schemas and their rules can be told as JSON. `toJson` shows them and
`ofJson?` reads them; the times of a schema are not part of it. A rule
says its sort as `kind`, and a connective always shows its right operand,
as null if it lacks it.

What is shown as an object may also be read from a list of its fields in
the order in which they are shown here, a rule with its sort in front.
-/

namespace Entitlement

/-! ## Rules -/

namespace PermissionRule

/-- A connective or negation with its operands. -/
def logicalJson (op : String) (left right : Json) : Json :=
  .ofFields [("kind", .string "logical"), ("operator", .string op),
    ("left", left), ("right", right)]

/-- **A rule as JSON.** -/
def toJson : PermissionRule → Json
  | .relation name =>
    .ofFields [("kind", .string "relation"), ("relation", .string name)]
  | binary op left right => logicalJson op.spelling left.toJson right.toJson
  | incomplete op left => logicalJson op.spelling left.toJson .null
  | not operand => logicalJson "not" operand.toJson .null
  | notWith operand spare => logicalJson "not" operand.toJson spare.toJson
  | member r permission =>
    .ofFields [("kind", .string "hierarchical"), ("relation", .string r),
      ("permission", .string permission)]
  | inline expression =>
    .ofFields [("kind", .string "abac"), ("expression", .string expression)]
  | call rule arguments =>
    .ofFields [("kind", .string "rule_call"), ("rule_name", .string rule),
      ("arguments", .ofStrings arguments)]

/-- The rule of an operator and its operands. -/
def ofOperator? (op : String) (left : PermissionRule)
    (right : Option PermissionRule) : Option PermissionRule :=
  match op, right with
  | "or", some r => some (binary .or left r)
  | "or", none => some (incomplete .or left)
  | "and", some r => some (binary .and left r)
  | "and", none => some (incomplete .and left)
  | "not", some r => some (notWith left r)
  | "not", none => some (not left)
  | _, _ => none

/-- The sorts of rules, each with the names of its parts. -/
def sorts : List (String × List String) :=
  [("relation", ["relation"]),
    ("logical", ["operator", "left", "right"]),
    ("hierarchical", ["relation", "permission"]),
    ("abac", ["expression"]),
    ("rule_call", ["rule_name", "arguments"])]

/-- The sort that JSON names. An operand may give its place among the
sorts. -/
def sortOf? (isOperand : Bool) : Json → Option (String × List String)
  | .string kind => sorts.find? fun s => s.1 == kind
  | .int n => if isOperand ∧ 0 ≤ n then sorts[n.toNat]? else none
  | _ => none

/-- **The sort of a rule and a record of its parts.** A list begins with
the sort and has all the parts behind it. -/
def opened? (isOperand : Bool) : Json → Option (String × Json)
  | .array (kind :: parts) => do
    let (sort, names) ← sortOf? isOperand kind
    let r ← (Json.array parts).record? names names.length
    some (sort, r)
  | j => do
    let (sort, _) ← (j.find? "kind").bind (sortOf? isOperand)
    some (sort, j)

/-- A part of a rule is smaller than the rule. -/
theorem sizeOf_lt_of_opened? {isOperand : Bool} {j r v : Json}
    {sort name : String} (ho : opened? isOperand j = some (sort, r))
    (h : r.find? name = some v) : sizeOf v < sizeOf j := by
  unfold opened? at ho
  split at ho
  next kind parts =>
    simp only [bind, Option.bind_eq_some_iff, Option.some.injEq] at ho
    obtain ⟨_, _, _, hr, he⟩ := ho
    obtain rfl := congrArg Prod.snd he
    have := Json.sizeOf_lt_of_record? hr h
    simp only [Json.array.sizeOf_spec, List.cons.sizeOf_spec] at this ⊢
    omega
  next =>
    simp only [bind, Option.bind_eq_some_iff, Option.some.injEq] at ho
    obtain ⟨_, _, he⟩ := ho
    obtain rfl := congrArg Prod.snd he
    exact Json.sizeOf_lt_of_find? h

/-- The rule that JSON tells, alone or as an operand. -/
def read? (isOperand : Bool) (j : Json) : Option PermissionRule :=
  match _ho : opened? isOperand j with
  | some ("relation", r) => (r.field? "relation" Json.string?).map .relation
  | some ("hierarchical", r) => do
    let relation ← r.field? "relation" Json.string?
    let permission ← r.field? "permission" Json.string?
    some (member relation permission)
  | some ("abac", r) => (r.field? "expression" Json.string?).map inline
  | some ("rule_call", r) => do
    let rule ← r.field? "rule_name" Json.string?
    let arguments ← r.field? "arguments" Json.strings?
    some (call rule arguments)
  | some ("logical", r) => do
    let op ← r.field? "operator" (Json.choice? true)
    let left ← match _h : r.find? "left" with
      | some left => read? true left
      | none => none
    let right ← match _h : r.find? "right" with
      | some .null => some none
      | some right => (read? true right).map some
      | none => some none
    ofOperator? op left right
  | _ => none
  termination_by sizeOf j
  decreasing_by all_goals exact sizeOf_lt_of_opened? _ho ‹_›

/-- **The rule that JSON tells.** -/
def ofJson? (j : Json) : Option PermissionRule := read? false j

end PermissionRule

/-! ## Entity types -/

/-- A sort of subjects as JSON. -/
def SubjectType.toJson (t : SubjectType) : Json :=
  .ofFields (("entity_type", .string t.entityType) ::
    (t.relation.toList.map fun r => ("relation", .string r)))

/-- The sort of subjects that JSON tells. -/
def SubjectType.ofJson? (j : Json) : Option SubjectType := do
  let j ← j.record? ["entity_type", "relation"] 1
  let entityType ← j.field? "entity_type" Json.string?
  let relation ← j.optional? "relation" Json.string?
  some { entityType, relation }

/-- A relation as JSON. -/
def Relation.toJson (r : Relation) : Json :=
  .ofFields [("name", .string r.name),
    ("targets", .array (r.targets.map SubjectType.toJson))]

/-- The list that a reader makes of the items of JSON. -/
def listOf? {α : Type} (read : Json → Option α) (j : Json) :
    Option (List α) :=
  j.array?.bind fun items => items.mapM read

/-- The relation that JSON tells. -/
def Relation.ofJson? (j : Json) : Option Relation := do
  let j ← j.record? ["name", "targets"] 2
  let name ← j.field? "name" Json.string?
  let targets ← j.field? "targets" (listOf? SubjectType.ofJson?)
  some { name, targets }

/-- An attribute as JSON. -/
def AttributeDef.toJson (a : AttributeDef) : Json :=
  .ofFields [("name", .string a.name),
    ("attribute_type", .ofFields [("scalar", .string a.type.scalar.spelling),
      ("is_array", .bool a.type.isArray)])]

/-- The attribute type that JSON tells. -/
def AttributeType.ofJson? (j : Json) : Option AttributeType := do
  let j ← j.record? ["scalar", "is_array"] 2
  let scalar ← j.field? "scalar" (Json.choice? false)
  let scalar ← ScalarType.ofSpelling? scalar
  let isArray ← j.field? "is_array" Json.bool?
  some { scalar, isArray }

/-- The attribute that JSON tells. -/
def AttributeDef.ofJson? (j : Json) : Option AttributeDef := do
  let j ← j.record? ["name", "attribute_type"] 2
  let name ← j.field? "name" Json.string?
  let type ← j.field? "attribute_type" AttributeType.ofJson?
  some { name, type }

/-- A permission as JSON. -/
def Permission.toJson (p : Permission) : Json :=
  .ofFields [("name", .string p.name), ("rule", p.rule.toJson)]

/-- The permission that JSON tells. -/
def Permission.ofJson? (j : Json) : Option Permission := do
  let j ← j.record? ["name", "rule"] 2
  let name ← j.field? "name" Json.string?
  let rule ← j.field? "rule" PermissionRule.ofJson?
  some { name, rule }

/-- A rule of a schema as JSON. -/
def Rule.toJson (r : Rule) : Json :=
  .ofFields [("name", .string r.name), ("parameters", .ofStrings r.parameters),
    ("body", .string r.body)]

/-- The rule of a schema that JSON tells. -/
def Rule.ofJson? (j : Json) : Option Rule := do
  let j ← j.record? ["name", "parameters", "body"] 3
  let name ← j.field? "name" Json.string?
  let parameters ← j.field? "parameters" Json.strings?
  let body ← j.field? "body" Json.string?
  some { name, parameters, body }

/-- An entity type as JSON. -/
def EntityType.toJson (e : EntityType) : Json :=
  .ofFields [("name", .string e.name),
    ("relations", .array (e.relations.map Relation.toJson)),
    ("attributes", .array (e.attributes.map AttributeDef.toJson)),
    ("permissions", .array (e.permissions.map Permission.toJson))]

/-- The entity type that JSON tells; lists that are missing are empty. -/
def EntityType.ofJson? (j : Json) : Option EntityType := do
  let j ← j.record? ["name", "relations", "attributes", "permissions"] 1
  let name ← j.field? "name" Json.string?
  let relations ← j.fieldOr? "relations" (listOf? Relation.ofJson?) []
  let attributes ← j.fieldOr? "attributes" (listOf? AttributeDef.ofJson?) []
  let permissions ← j.fieldOr? "permissions" (listOf? Permission.ofJson?) []
  some { name, relations, attributes, permissions }

/-! ## Schemas -/

namespace Schema

/-- The fields of a schema but for its source. -/
def compiledFields (s : Schema) : List (String × Json) :=
  [("tenant_id", .string s.tenant), ("version", .string s.version),
    ("rules", .array (s.rules.map Rule.toJson)),
    ("entities", .array (s.entities.map EntityType.toJson))]

/-- **A schema as JSON.** -/
def toJson (s : Schema) : Json :=
  .ofFields (("dsl", .string s.source) :: s.compiledFields)

/-- **The schema that JSON tells**, of a certain time. -/
def ofJson? (createdAt : Int) (j : Json) : Option Schema := do
  let tenant ← j.fieldOr? "tenant_id" Json.string? ""
  let version ← j.fieldOr? "version" Json.string? ""
  let source ← j.fieldOr? "dsl" Json.string? ""
  let rules ← j.field? "rules" (listOf? Rule.ofJson?)
  let entities ← j.field? "entities" (listOf? EntityType.ofJson?)
  some {
    tenant, version, source, rules, entities, createdAt,
    updatedAt := createdAt }

end Schema

end Entitlement
