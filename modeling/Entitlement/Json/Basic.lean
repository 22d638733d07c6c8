import Entitlement.Number.Double
import Entitlement.Ordered

/-!
# JSON values

Attributes are stored as JSON, and schemas and requests are told in it. A
`Json` value is what such a text says: the order of the names in an object
does not count, and of two fields with one name the last does.

The readers with a question mark look at a value and have nothing to say
about one of another sort. What is found in a value is smaller than it,
which is why values within values can be read by recursion.
-/

namespace Entitlement

/-- **A JSON value.** A number is kept as a whole number if it is written
as one, and otherwise as a double. The names of an object ascend. -/
inductive Json
  | null
  | bool (b : Bool)
  | int (n : Int)
  | double (d : Double)
  | string (s : String)
  | array (items : List Json)
  | object (fields : List (String × Json))
  deriving Repr, BEq, Inhabited

namespace Json

/-- Whether a JSON value is null. -/
def isNull : Json → Bool
  | null => true
  | _ => false

/-- The object with some fields, in any order. -/
def ofFields (fields : List (String × Json)) : Json :=
  object (Table.ofPairs fields)

/-- A list of texts. -/
def ofStrings (texts : List String) : Json :=
  array (texts.map string)

/-! ## Reading -/

/-- The truth value that a value is. -/
def bool? : Json → Option Bool
  | bool b => some b
  | _ => none

/-- The whole number that a value is. -/
def int? : Json → Option Int
  | int n => some n
  | _ => none

/-- The natural number below a limit that a value is. -/
def natBelow? (limit : Nat) (j : Json) : Option Nat :=
  j.int?.bind fun n => if 0 ≤ n ∧ n < limit then some n.toNat else none

/-- The text that a value is. -/
def string? : Json → Option String
  | string s => some s
  | _ => none

/-- The items that a value is a list of. -/
def array? : Json → Option (List Json)
  | array items => some items
  | _ => none

/-- The texts that a value is a list of. -/
def strings? (j : Json) : Option (List String) :=
  j.array?.bind fun items => items.mapM string?

/-- The fields that a value is an object of. -/
def object? : Json → Option (Table Json)
  | object fields => some fields
  | _ => none

/-- **The value of a field**, if there is one. -/
def find? (j : Json) (name : String) : Option Json :=
  match j with
  | object fields => List.lookup name fields
  | _ => none

/-- The field of a name, read by `read`. -/
def field? {α : Type} (j : Json) (name : String)
    (read : Json → Option α) : Option α :=
  (j.find? name).bind read

/-- A field that may be missing, and is then the default. -/
def fieldOr? {α : Type} (j : Json) (name : String) (read : Json → Option α)
    (default : α) : Option α :=
  match j.find? name with
  | none => some default
  | some v => read v

/-- A field that may be missing or null. -/
def optional? {α : Type} (j : Json) (name : String)
    (read : Json → Option α) : Option (Option α) :=
  match j.find? name with
  | none | some null => some none
  | some v => (read v).map some

/-- **A record as an object.** A list says the fields of a record in their
order, and may end behind the first `needed` of them. -/
def record? (names : List String) (needed : Nat) : Json → Option Json
  | object fields => some (object fields)
  | array items =>
    if needed ≤ items.length ∧ items.length ≤ names.length then
      some (ofFields (names.zip items))
    else none
  | _ => none

/-- The name of a choice: a text, or an object with the name alone, which
is null there. With `orEmpty` it may also be an empty object. -/
def choice? (orEmpty : Bool) : Json → Option String
  | string name => some name
  | object [(name, null)] => some name
  | object [(name, object [])] => if orEmpty then some name else none
  | _ => none

/-! ## Sizes -/

/-- What a look-up finds is among the fields. -/
theorem mem_of_lookup {fields : List (String × Json)} {v : Json}
    {name : String} (h : List.lookup name fields = some v) :
    (name, v) ∈ fields := by
  induction fields with
  | nil => simp at h
  | cons f rest ih =>
    obtain ⟨key, value⟩ := f
    rw [List.lookup_cons] at h
    split at h
    next hk =>
      obtain rfl := Option.some.inj h
      simp [eq_of_beq hk]
    next => exact List.mem_cons_of_mem _ (ih h)

/-- **A field is smaller than its object.** -/
theorem sizeOf_lt_of_find? {j v : Json} {name : String}
    (h : j.find? name = some v) : sizeOf v < sizeOf j := by
  cases j with
  | object fields =>
    have := List.sizeOf_lt_of_mem (mem_of_lookup h)
    simp only [object.sizeOf_spec, Prod.mk.sizeOf_spec] at this ⊢
    omega
  | _ => simp [find?] at h

/-- **A field is smaller than the record** that says it. -/
theorem sizeOf_lt_of_record? {j r v : Json} {names : List String}
    {needed : Nat} {name : String} (hr : j.record? names needed = some r)
    (h : r.find? name = some v) : sizeOf v < sizeOf j := by
  cases j with
  | object fields =>
    obtain rfl := Option.some.inj hr
    exact sizeOf_lt_of_find? h
  | array items =>
    rw [record?] at hr
    split at hr
    · obtain rfl := Option.some.inj hr
      have hv := (List.of_mem_zip (Table.mem_of_mem_ofPairs (mem_of_lookup h))).2
      have := List.sizeOf_lt_of_mem hv
      simp only [array.sizeOf_spec]
      omega
    · simp at hr
  | _ => simp [record?] at hr

end Json

end Entitlement
