import Entitlement.Ordered
import Entitlement.Number.Decimal
import Entitlement.Settings.Basic

/-!
# Layers of settings

Settings come from layers: the defaults, a file, and the variables of the
environment, each of which goes over the one before. What the layers say
is collected in a tree of `SettingValue`s, in which `assign` writes one
value at a path. Names are kept in small letters, so a setting is found in
whatever case its layer writes it, and the later of two values counts.

`Settings.ofLayers?` reads the settings from the tree. A section gives its
settings by their names, or in a list in their order. A value is turned
into the type of its setting where that makes sense: a text that spells a
number is a number, and so on. A name that no setting has means nothing.
-/

namespace Entitlement

/-! ## Trees of values -/

/-- **A value in a layer.** -/
inductive SettingValue
  | null
  | bool (b : Bool)
  | int (n : Int)
  | float (d : Double)
  | text (s : String)
  | list (items : List SettingValue)
  | group (fields : List (String × SettingValue))
  deriving Repr, Inhabited

namespace SettingValue

/-- The named values of a group. -/
def fields : SettingValue → Table SettingValue
  | group fields => fields
  | _ => []

/-- The values of a list. -/
def items : SettingValue → List SettingValue
  | list items => items
  | _ => []

mutual

/-- **The value that is there once another is written** where there was
`old`, if anything. A group goes over what is there, name by name, and the
names are kept in small letters. -/
def overlay (old : Option SettingValue) : SettingValue → SettingValue
  | group entries => overlayAll (old.getD (group [])) entries
  | value => value

/-- The value with named values written into it one by one. What is no
group becomes one. -/
def overlayAll (old : SettingValue) :
    List (String × SettingValue) → SettingValue
  | [] => old
  | (name, value) :: rest =>
    let key := smallLetters name
    let new := overlay (old.fields.find? key) value
    overlayAll (group (Table.insert old.fields key new)) rest

end

/-! ## Paths -/

/-- **A step of a path**: to a name in a group, or to a place in a list,
which is counted from the end if it is negative. -/
inductive PathStep
  | name (s : String)
  | place (i : Int)
  deriving DecidableEq, Repr

/-- A list that has a place, and the index of the place in it: a list that
is too short is filled up with nulls. -/
def withPlace (values : List SettingValue) (i : Int) :
    List SettingValue × Nat :=
  if 0 ≤ i then
    (values ++ List.replicate (i.toNat + 1 - values.length) null, i.toNat)
  else
    (List.replicate (i.natAbs - values.length) null ++ values,
      values.length - i.natAbs)

/-- **The value that is there once another is written at a path** from
`old` on, if that is anything. What stands in the way of the path becomes
a group or a list. -/
def writeAt (old : Option SettingValue) :
    List PathStep → SettingValue → SettingValue
  | [], value => overlay old value
  | .name s :: path, value =>
    let inner := (old.map fields).getD []
    let key := smallLetters s
    group (Table.insert inner key (writeAt (Table.find? inner key) path value))
  | .place i :: path, value =>
    let (values, index) := withPlace ((old.map items).getD []) i
    let inner := if path.isEmpty then none else values[index]?
    list (values.set index (writeAt inner path value))

end SettingValue

open SettingValue (PathStep)

/-- A character of a name in a path. -/
def isPathChar (c : Char) : Bool :=
  ('a' ≤ c && c ≤ 'z') || ('A' ≤ c && c ≤ 'Z') || isDigit c || c == ' ' ||
    c == '_' || c == '-'

/-- The name at the front of a text, and what follows it. -/
def pathName? (cs : List Char) : Option (PathStep × List Char) :=
  let name := cs.takeWhile isPathChar
  if name.isEmpty then none
  else some (.name (String.ofList name), cs.dropWhile isPathChar)

/-- The text without the spaces and tabs at its front. -/
def afterBlanks (cs : List Char) : List Char :=
  cs.dropWhile fun c => c == ' ' || c == '\t'

/-- The place behind an opening bracket, and what follows the closing
one. -/
def pathPlace? (cs : List Char) : Option (PathStep × List Char) := do
  let (negative, digits) := match afterBlanks cs with
    | '-' :: cs => (true, cs)
    | cs => (false, cs)
  let n ← digitsValue? (digits.takeWhile isDigit)
  let i : Int := if negative then -n else n
  match afterBlanks (digits.dropWhile isDigit) with
  | ']' :: rest => if fitsInt64 i then some (.place i, rest) else none
  | _ => none

/-- The steps behind the first name of a path, of which there are at most
`count`. -/
def pathSteps? : Nat → List Char → Option (List PathStep)
  | _, [] => some []
  | 0, _ :: _ => none
  | count + 1, c :: cs => do
    let (step, rest) ←
      if c = '.' then pathName? cs
      else if c = '[' then pathPlace? cs
      else none
    (pathSteps? count rest).map (step :: ·)

/-- **The path that a text spells**: a name, and further names behind
points and places in brackets. Any other text is one name as a whole. -/
def pathOf (cs : List Char) : List PathStep :=
  ((pathName? cs).bind fun (first, rest) =>
    (pathSteps? rest.length rest).map (first :: ·)).getD
      [.name (String.ofList cs)]

/-- **The tree with one value of a layer**, which names it by a path. -/
def assign (fields : Table SettingValue) (name : List Char)
    (value : SettingValue) : Table SettingValue :=
  (SettingValue.writeAt (some (.group fields)) (pathOf name) value).fields

example : pathOf "a.b[-1]".toList = [.name "a", .name "b", .place (-1)] := by
  decide

example : pathOf "a..b".toList = [.name "a..b"] := by decide

/-! ## Values of settings -/

/-- Words for true. -/
def wordsForTrue : List String := ["true", "on", "yes"]

/-- Words for false. -/
def wordsForFalse : List String := ["false", "off", "no"]

/-- The number of values of a word of 64 bits. -/
def wordLimit : Nat := 0x10000000000000000

namespace SettingValue

/-- The whole number nearest to a double, a half going away from zero,
within the natural numbers of 64 bits. -/
def roundedDouble (d : Double) : Nat :=
  if d.isNaN || d.isNegative then 0
  else if d.isFinite then
    let (num, den) := d.ratio
    min ((2 * num + den) / (2 * den)) (wordLimit - 1)
  else wordLimit - 1

/-- The natural number of 64 bits that a value stands for. -/
def toNat? : SettingValue → Option Nat
  | bool b => some b.toNat
  | int n => if 0 ≤ n ∧ n < wordLimit then some n.toNat else none
  | float d => some (roundedDouble d)
  | text s =>
    if smallLetters s ∈ wordsForTrue then some 1
    else if smallLetters s ∈ wordsForFalse then some 0
    else (natOfText? s.toList).filter fun n => n < wordLimit
  | null | list _ | group _ => none

/-- The number of 64 bits that a value stands for. -/
def toWord? (v : SettingValue) : Option UInt64 :=
  v.toNat?.map UInt64.ofNat

/-- The number of 32 bits that a value stands for. -/
def toHalfWord? (v : SettingValue) : Option UInt32 :=
  (v.toNat?.filter fun n => n < 0x100000000).map UInt32.ofNat

/-- The truth value that a value stands for. -/
def toBool? : SettingValue → Option Bool
  | bool b => some b
  | int n => some (n ≠ 0)
  | float d => some !(d.numEq (.ofInt 0))
  | text s =>
    if smallLetters s ∈ "1" :: wordsForTrue then some true
    else if smallLetters s ∈ "0" :: wordsForFalse then some false
    else none
  | null | list _ | group _ => none

/-- The text that a value stands for. -/
def toText? : SettingValue → Option String
  | bool b => some (toString b)
  | int n => some (toString n)
  | float d => some d.render
  | text s => some s
  | null | list _ | group _ => none

end SettingValue

/-! ## Settings from a tree -/

open SettingValue (toWord? toHalfWord? toBool? toText?)

/-- The value of a setting in a section, by its name or its place. -/
def settingAt? (key : String) (place : Nat) :
    SettingValue → Option SettingValue
  | .group fields => Table.find? fields key
  | .list items => items[place]?
  | _ => none

/-- A setting, or its default if the section does not have it. -/
def settingOr {α : Type} (whole : SettingValue) (key : String)
    (place : Nat) (read : SettingValue → Option α) (default : α) :
    Option α :=
  match settingAt? key place whole with
  | none => some default
  | some value => read value

/-- A value that can be a section. -/
def SettingValue.section? (v : SettingValue) : Option SettingValue :=
  match v with
  | group _ | list _ => some v
  | _ => none

/-- The settings of the engine in a section. -/
def EngineSettings.ofValue? (v : SettingValue) : Option EngineSettings := do
  let s ← v.section?
  let d : EngineSettings := {}
  pure {
    maxDepth := ← settingOr s "max_depth" 0 toHalfWord? d.maxDepth
    timeout := ← settingOr s "check_timeout_ms" 1 toWord? d.timeout
    lookupConcurrency :=
      ← settingOr s "lookup_concurrency" 2 toWord? d.lookupConcurrency
    defaultPageSize :=
      ← settingOr s "default_page_size" 3 toHalfWord? d.defaultPageSize }

/-- The settings of the cache in a section. -/
def SchemaCacheSettings.ofValue? (v : SettingValue) :
    Option SchemaCacheSettings := do
  let s ← v.section?
  let d : SchemaCacheSettings := {}
  pure {
    enabled := ← settingOr s "enabled" 0 toBool? d.enabled
    capacity := ← settingOr s "max_capacity" 1 toWord? d.capacity
    timeToLive := ← settingOr s "ttl_secs" 2 toWord? d.timeToLive }

/-- The settings of the store in a section. -/
def StorageSettings.ofValue? (v : SettingValue) : Option StorageSettings := do
  let s ← v.section?
  let d : StorageSettings := {}
  pure { backend := ← settingOr s "backend" 0 toText? d.backend }

/-- The settings of the log in a section. -/
def LoggingSettings.ofValue? (v : SettingValue) : Option LoggingSettings := do
  let s ← v.section?
  let d : LoggingSettings := {}
  pure {
    level := ← settingOr s "level" 0 toText? d.level
    json := ← settingOr s "json" 1 toBool? d.json
    spans := ← settingOr s "spans" 2 toBool? d.spans }

/-- **The settings that a tree says**, with the defaults where it says
nothing; none if a value does not fit its setting. -/
def Settings.ofLayers? (fs : Table SettingValue) : Option Settings := do
  let s := SettingValue.group fs
  pure {
    engine := ← settingOr s "engine" 0 EngineSettings.ofValue? {}
    schemaCache :=
      ← settingOr s "schema_cache" 1 SchemaCacheSettings.ofValue? {}
    storage := ← settingOr s "storage" 2 StorageSettings.ofValue? {}
    logging := ← settingOr s "logging" 3 LoggingSettings.ofValue? {} }

/-- Without layers all settings have their defaults. -/
@[simp] theorem Settings.ofLayers?_nil : Settings.ofLayers? [] = some {} := rfl

end Entitlement
