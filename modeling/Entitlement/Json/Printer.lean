import Entitlement.Json.Basic

/-!
# Writing JSON texts

`Json.render` writes a value on one line without blanks. Control
characters, quotes and backslashes are escaped and nothing else is. A
double shows a point, so that it is not read as a whole number again, and
one that is not finite is written as null.
-/

namespace Entitlement

namespace Json

/-- A hexadecimal digit. -/
def hexDigit (n : Nat) : Char :=
  "0123456789abcdef".toList.getD n '0'

/-- A character within quotes. -/
def escape (c : Char) : List Char :=
  if c = '"' then ['\\', '"']
  else if c = '\\' then ['\\', '\\']
  else if c.toNat < 0x20 then
    ['\\', 'u', '0', '0', hexDigit (c.toNat / 16), hexDigit (c.toNat % 16)]
  else [c]

/-- A text in quotes. -/
def quote (s : String) : String :=
  "\"" ++ String.ofList (s.toList.flatMap escape) ++ "\""

/-- A double, with a point. -/
def renderDouble (d : Double) : String :=
  if d.isFinite then
    let text := d.render
    if text.toList.contains '.' then text else text ++ ".0"
  else "null"

mutual

/-- **A value as a text.** -/
def render : Json → String
  | null => "null"
  | bool b => if b then "true" else "false"
  | int n => toString n
  | double d => renderDouble d
  | string s => quote s
  | array items => "[" ++ ",".intercalate (renderItems items) ++ "]"
  | object fields =>
    "\x7b" ++ ",".intercalate (renderFields fields) ++ "\x7d"

/-- The items of a list as texts. -/
def renderItems : List Json → List String
  | [] => []
  | j :: rest => j.render :: renderItems rest

/-- The fields of an object as texts. -/
def renderFields : List (String × Json) → List String
  | [] => []
  | (name, j) :: rest => (quote name ++ ":" ++ j.render) :: renderFields rest

end

end Json

end Entitlement
