import Entitlement.Number.Decimal
import Entitlement.Settings.Basic

/-!
# The log that settings ask for

Settings name a level by its name or by its number, one for errors up to
five for everything. A level that does not exist is read as `info`, which
settings without a fault never need.
-/

namespace Entitlement

/-- The level of a number. -/
def LogLevel.ofNumber? : Nat → Option LogLevel
  | 1 => some error
  | 2 => some warn
  | 3 => some info
  | 4 => some debug
  | 5 => some trace
  | _ => none

/-- The level that a text means, by its number or its name. -/
def LogLevel.ofText? (text : String) : Option LogLevel :=
  ((natOfText? text.toList).bind ofNumber?).orElse fun _ => ofName? text

/-- **What is logged and how.** -/
structure LogOutput where
  json : Bool
  level : LogLevel
  spans : Bool
  deriving DecidableEq, Repr

/-- The log that settings ask for. -/
def LoggingSettings.output (s : LoggingSettings) : LogOutput where
  json := s.json
  level := (LogLevel.ofText? s.level).getD .info
  spans := s.spans

example : LogLevel.ofText? "Warn" = some .warn := by decide
example : LogLevel.ofText? "5" = some .trace := by decide

end Entitlement
