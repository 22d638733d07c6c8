import Entitlement.Settings.Text

/-!
# Loading settings

Settings are loaded from a file, if one is given, and from the variables
of the environment, which go over it. A variable counts if its name
starts with `RSAUTHZ_` in letters of either case; the rest of the name is
read in small letters and parted at each `__` into a path, so
`RSAUTHZ_ENGINE__MAX_DEPTH` is the setting `max_depth` of the section
`engine`.
-/

namespace Entitlement

/-! ## Variables -/

/-- The start of the names of variables that count, in small letters. -/
def variableStart : List Char := "rsauthz_".toList

/-- A name with a point for each double underscore. -/
def withPoints : List Char → List Char
  | [] => []
  | '_' :: '_' :: cs => '.' :: withPoints cs
  | c :: cs => c :: withPoints cs

/-- **The name that a variable sets**, with points between its parts, if
the variable counts. -/
def variableName? (name : String) : Option (List Char) :=
  let cs := name.toList.map smallLetter
  if variableStart.isPrefixOf cs then
    some (withPoints (cs.drop variableStart.length))
  else none

/-- What the variables of the environment say, over what a file says. -/
def assignVariables (fields : Table SettingValue)
    (environment : List (String × String)) : Table SettingValue :=
  environment.foldl (fun fields (name, value) =>
    match variableName? name with
    | some key => assign fields key (.text value)
    | none => fields) fields

/-! ## Loading -/

/-- **Why there are no settings.** -/
inductive SettingsError
  | fileNotFound (path : String)
  /-- The file is no settings file, or a value does not fit. -/
  | unreadable
  | invalid (fault : SettingsFault)
  deriving DecidableEq, Repr

/-- The wording of an error. -/
def SettingsError.message : SettingsError → String
  | fileNotFound path => s!"configuration file not found: {path}"
  | unreadable => "failed to load configuration"
  | invalid fault => s!"invalid configuration: {fault.message}"

/-- The settings file that is asked for. -/
inductive SettingsFile
  | none
  | missing (path : String)
  | text (content : String)
  deriving DecidableEq, Repr

/-- What a settings file says; no file says nothing. -/
def SettingsFile.fields : SettingsFile → Except SettingsError (Table SettingValue)
  | none => .ok []
  | missing path => .error (.fileNotFound path)
  | text content =>
    match readSettingsText? content with
    | some entries =>
      .ok (entries.foldl (fun fields (name, value) =>
        assign fields name.toList value) [])
    | Option.none => .error .unreadable

namespace Settings

/-- The settings themselves, unless they have a fault. -/
def validated (s : Settings) : Except SettingsError Settings :=
  match s.fault? with
  | none => .ok s
  | some fault => .error (.invalid fault)

/-- **The settings of a file and an environment.** -/
def load (file : SettingsFile) (environment : List (String × String)) :
    Except SettingsError Settings := do
  let fields ← file.fields
  match ofLayers? (assignVariables fields environment) with
  | some settings => settings.validated
  | none => .error .unreadable

/-- Settings that are loaded have no fault. -/
theorem fault?_of_load {file : SettingsFile}
    {environment : List (String × String)} {s : Settings}
    (h : load file environment = .ok s) : s.fault? = none := by
  unfold load at h
  cases hf : file.fields with
  | error e => simp [hf, bind, Except.bind] at h
  | ok fields =>
    simp only [hf, bind, Except.bind, validated] at h
    split at h
    next t _ =>
      split at h
      next hn => cases h; exact hn
      next => cases h
    next => cases h

end Settings

end Entitlement
