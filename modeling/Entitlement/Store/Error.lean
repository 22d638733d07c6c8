/-!
# Errors of the store

Why the store refuses an operation or has nothing to answer.
-/

namespace Entitlement

/-- The greatest number of bytes of an identifier. -/
def maxIdentifierLength : Nat := 256

/-- **Why the store refuses an operation.** -/
inductive StoreError
  /-- The tenant has no schema, or none of the version. -/
  | schemaNotFound (tenant : String) (version : Option String)
  /-- The tenant has a schema of that version already. -/
  | versionExists (tenant version : String)
  /-- A deletion does not say what to delete. -/
  | emptyFilter
  | emptyField (field : String)
  | longField (field : String)
  | nullAttribute (name : String)
  /-- A read did not succeed. -/
  | unreadable (reason : String)
  deriving DecidableEq, Repr

/-- The version that a message is about, if there is one. -/
def renderVersion : Option String → String
  | none => ""
  | some version => s!" (version {version})"

/-- The wording of an error. -/
def StoreError.message : StoreError → String
  | schemaNotFound tenant version =>
    s!"schema not found for tenant {tenant}" ++ renderVersion version
  | versionExists tenant version =>
    s!"schema version already exists for tenant {tenant}: {version}"
  | emptyFilter => "invalid filter: delete requires at least one filter field"
  | emptyField field => s!"invalid input: {field} cannot be empty"
  | longField field =>
    s!"invalid input: {field} exceeds maximum length of {maxIdentifierLength}"
  | nullAttribute name => s!"invalid input: attribute '{name}' has a null value"
  | unreadable reason => s!"invalid input: {reason}"

end Entitlement
