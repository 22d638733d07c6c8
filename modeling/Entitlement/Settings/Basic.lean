import Entitlement.Text.Case

/-!
# Settings

What can be set: the limits of the engine that answers permission queries,
the cache of compiled schemas, the kind of store, and the log. Everything
has a default. `Settings.fault?` finds the first setting that cannot be
worked with; a level of the log is known by its name in letters of either
case.
-/

namespace Entitlement

/-! ## Sections -/

/-- **The limits of permission queries.** -/
structure EngineSettings where
  /-- The depth that no evaluation passes. -/
  maxDepth : UInt32 := 100
  /-- The milliseconds that a query may take. -/
  timeout : UInt64 := 30000
  /-- How many candidates of a lookup are checked at a time. -/
  lookupConcurrency : UInt64 := 16
  /-- The size of a page where a lookup does not ask for one. -/
  defaultPageSize : UInt32 := 50
  deriving DecidableEq, Repr

/-- The cache of compiled schemas. -/
structure SchemaCacheSettings where
  enabled : Bool := true
  capacity : UInt64 := 1000
  /-- The seconds that a schema is kept. -/
  timeToLive : UInt64 := 300
  deriving DecidableEq, Repr

/-- The store. -/
structure StorageSettings where
  backend : String := "memory"
  deriving DecidableEq, Repr

/-- The log. -/
structure LoggingSettings where
  level : String := "info"
  json : Bool := false
  spans : Bool := false
  deriving DecidableEq, Repr

/-- **All settings.** -/
structure Settings where
  engine : EngineSettings := {}
  schemaCache : SchemaCacheSettings := {}
  storage : StorageSettings := {}
  logging : LoggingSettings := {}
  deriving DecidableEq, Repr

/-! ## Levels of the log -/

/-- **How much is logged**, from least to most. -/
inductive LogLevel
  | error | warn | info | debug | trace
  deriving DecidableEq, Repr

namespace LogLevel

/-- The name of a level. -/
def name : LogLevel → String
  | error => "error"
  | warn => "warn"
  | info => "info"
  | debug => "debug"
  | trace => "trace"

/-- The levels, from most to least. -/
def all : List LogLevel := [trace, debug, info, warn, error]

/-- The level of a name in letters of either case. -/
def ofName? (text : String) : Option LogLevel :=
  all.find? fun level => level.name == smallLetters text

@[simp] theorem ofName?_name (level : LogLevel) :
    ofName? level.name = some level := by
  cases level <;> decide

end LogLevel

/-! ## Faults -/

/-- The kinds of store that exist. -/
def storageBackends : List String := ["memory"]

/-- **Why settings cannot be worked with.** -/
inductive SettingsFault
  /-- A limit of the engine is zero. -/
  | zeroLimit (key : String)
  /-- The cache is enabled and holds nothing. -/
  | emptyCache
  | unknownBackend (name : String)
  | unknownLevel (name : String)
  deriving DecidableEq, Repr

/-- A list of names in messages. -/
def quoteNames (names : List String) : String :=
  "[" ++ ", ".intercalate (names.map fun n => "\"" ++ n ++ "\"") ++ "]"

/-- The wording of a fault. -/
def SettingsFault.message : SettingsFault → String
  | zeroLimit key => s!"engine.{key} must be greater than 0"
  | emptyCache =>
    "schema_cache.max_capacity must be greater than 0 when the cache is enabled"
  | unknownBackend name =>
    s!"storage.backend must be one of: {quoteNames storageBackends}, got: {name}"
  | unknownLevel name =>
    s!"logging.level must be one of: {quoteNames (LogLevel.all.map LogLevel.name)}, got: {name}"

namespace Settings

/-- **The first fault of the settings**, if they have one. -/
def fault? (s : Settings) : Option SettingsFault :=
  if s.engine.maxDepth = 0 then some (.zeroLimit "max_depth")
  else if s.engine.timeout = 0 then some (.zeroLimit "check_timeout_ms")
  else if s.engine.lookupConcurrency = 0 then
    some (.zeroLimit "lookup_concurrency")
  else if s.engine.defaultPageSize = 0 then
    some (.zeroLimit "default_page_size")
  else if s.schemaCache.enabled ∧ s.schemaCache.capacity = 0 then
    some .emptyCache
  else if s.storage.backend ∉ storageBackends then
    some (.unknownBackend s.storage.backend)
  else if (LogLevel.ofName? s.logging.level).isNone then
    some (.unknownLevel s.logging.level)
  else none

/-- The default settings have no fault. -/
theorem fault?_default : fault? {} = none := by decide

end Settings

end Entitlement
