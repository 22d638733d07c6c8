import Entitlement.Settings.Layer
import Entitlement.Yaml.Document

/-!
# Settings files

A settings file is a YAML document with a mapping at its root, or says
nothing at all. Its names are texts or whole numbers, which count as their
digits. A number with a fraction has to be one that decimal notation has.
-/

namespace Entitlement

open Yaml (Node)

namespace SettingValue

/-- The name that a node spells. -/
def nameOf? : Node → Option String
  | .text s => some s
  | .int n => some (toString n)
  | _ => none

mutual

/-- **The value that a node says.** -/
def ofNode? : Node → Option SettingValue
  | .null | .invalid => some null
  | .bool b => some (bool b)
  | .int n => some (int n)
  | .real spelling => (doubleOfText? spelling.toList).map float
  | .text s => some (text s)
  | .list items => (ofNodes? items).map list
  | .mapping entries => (ofEntries? entries).map group

/-- The values that nodes say. -/
def ofNodes? : List Node → Option (List SettingValue)
  | [] => some []
  | node :: rest => do
    let value ← ofNode? node
    (ofNodes? rest).map (value :: ·)

/-- The named values of a mapping. What has no name is left out. -/
def ofEntries? : List (Node × Node) → Option (List (String × SettingValue))
  | [] => some []
  | (key, node) :: rest =>
    match nameOf? key with
    | none => ofEntries? rest
    | some name => do
      let value ← ofNode? node
      (ofEntries? rest).map ((name, value) :: ·)

end

end SettingValue

/-- **What a settings file says**, if it has the form of one: names with
their values, in the order of the file. -/
def readSettingsText? (text : String) :
    Option (List (String × SettingValue)) :=
  match Yaml.readDocument? text with
  | none => none
  | some none => some []
  | some (some (.mapping entries)) => SettingValue.ofEntries? entries
  | some (some _) => none

/-- A file without a document says nothing. -/
@[simp] theorem readSettingsText?_empty : readSettingsText? "" = some [] := rfl

end Entitlement
