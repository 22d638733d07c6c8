import Entitlement.Schema.Compile
import Entitlement.Store.Basic

/-!
# Compiled schemas kept by version

A stored schema is a text, and what it compiles to is kept by tenant and
version. A version never changes, so a kept schema is as good as a fresh
one: a cache is `Sound` for a store if every schema that it keeps is what
the stored version compiles to. Which version is the latest is always
asked of the store.
-/

namespace Entitlement

/-- What a stored version of a schema compiles to. -/
def StoredSchema.compile (check : ExpressionCheck) (tenant : String)
    (stored : StoredSchema) : Except Failure Schema :=
  compileSchema check tenant stored.version stored.source stored.createdAt

/-- **Compiled schemas by tenant and version**, the latest kept first. -/
structure SchemaCache where
  entries : List ((String × String) × Schema) := []

namespace SchemaCache

/-- The schema kept for a version of a tenant. -/
def find? (cache : SchemaCache) (tenant version : String) : Option Schema :=
  cache.entries.lookup (tenant, version)

/-- **The cache with a schema kept**, and no more than `capacity` of
them. -/
def insert (cache : SchemaCache) (capacity : Nat) (tenant version : String)
    (schema : Schema) : SchemaCache :=
  ⟨(((tenant, version), schema) :: cache.entries).take capacity⟩

/-- The cache without the entries that do not pass. -/
def evict (cache : SchemaCache) (keeps : String × String → Bool) :
    SchemaCache :=
  ⟨cache.entries.filter fun entry => keeps entry.1⟩

/-- **Whether every kept schema is what its stored version compiles to.** -/
def Sound (cache : SchemaCache) (check : ExpressionCheck) (store : Store) :
    Prop :=
  ∀ tenant version schema, cache.find? tenant version = some schema →
    ∃ stored, store.readSchema tenant version = .ok stored ∧
      stored.compile check tenant = .ok schema

/-- A cache that keeps nothing is sound. -/
theorem sound_empty (check : ExpressionCheck) (store : Store) :
    Sound {} check store := by
  intro tenant version schema h
  simp [find?] at h

/-- The compiled form of a stored version: the one that is kept, or a
fresh one. -/
def compiled (cache : SchemaCache) (check : ExpressionCheck)
    (tenant : String) (stored : StoredSchema) : Except Failure Schema :=
  match cache.find? tenant stored.version with
  | some schema => .ok schema
  | none => stored.compile check tenant

/-- **The schema of a version, or the latest**, by way of the cache. -/
def read (cache : SchemaCache) (check : ExpressionCheck) (store : Store)
    (tenant : String) : Option String → Except Failure Schema
  | some version =>
    match cache.find? tenant version with
    | some schema => .ok schema
    | none => do
      let stored ← (store.readSchema tenant version).mapError .ofStoreError
      cache.compiled check tenant stored
  | none => do
    let stored ← (store.latestSchema tenant).mapError .ofStoreError
    cache.compiled check tenant stored

end SchemaCache

end Entitlement
