import Entitlement.Condition.Evaluate

/-!
# Conditions

A `Condition` is the text of an expression together with what it was
compiled to. It is evaluated over three maps: the attributes of the entity
(`resource`), those of the subject (`subject`) and the context of the
request (`request`).

What permission queries need of an expression language is an
`ExpressionEngine`: how a text is compiled, and the truth value of what it
was compiled to. `Condition.engine` is the engine of CEL expressions. The
queries work with any engine, so nothing about them rests on this one.
-/

namespace Entitlement

/-- **Why a condition has no truth value.** -/
inductive ConditionError
  /-- The text is no expression. -/
  | notCompiled (expression : String)
  /-- The expression has no value. -/
  | notEvaluated (expression : String)
  /-- The value is of another type than asked for. -/
  | wrongType (expression expected actual : String)
  deriving DecidableEq, Repr

namespace ConditionError

/-- What stands in messages for the particulars of a failure, which are
not told. -/
def particulars : String := "<cel>"

/-- The wording of an error. -/
def message : ConditionError → String
  | notCompiled e => s!"failed to parse CEL expression '{e}': {particulars}"
  | notEvaluated e =>
    s!"failed to evaluate CEL expression '{e}': {particulars}"
  | wrongType e expected actual =>
    s!"type mismatch in '{e}': expected {expected}, got {actual}"

end ConditionError

/-! ## Compiled conditions -/

/-- A compiled condition with its text. -/
structure Condition where
  source : String
  expr : Condition.Expr
  deriving Repr

/-- **What a condition is evaluated over**: the attributes of the entity
and of the subject, and the context of the request. -/
structure ConditionContext where
  resource : Attributes
  subject : Attributes
  request : Attributes

/-- The variables that a condition sees. -/
def ConditionContext.scope (c : ConditionContext) : Condition.Scope :=
  [("resource", .ofAttribute (.map c.resource)),
    ("subject", .ofAttribute (.map c.subject)),
    ("request", .ofAttribute (.map c.request))]

namespace Condition

/-- **The condition of a text.** -/
def compile (source : String) : Except ConditionError Condition :=
  match Expr.parse? source with
  | some expr => .ok ⟨source, expr⟩
  | none => .error (.notCompiled source)

/-- The value of a condition. -/
def evaluate (c : Condition) (scope : Scope) : Except ConditionError Value :=
  match c.expr.value scope [] with
  | .ok v => .ok v
  | .error _ => .error (.notEvaluated c.source)

/-- The truth value of a condition; a value of another type is an error. -/
def holds (c : Condition) (scope : Scope) : Except ConditionError Bool := do
  match ← c.evaluate scope with
  | .bool b => pure b
  | v => throw (.wrongType c.source "bool" v.typeName)

end Condition

/-! ## Engines -/

/-- **An expression language**: how texts are compiled and what compiled
expressions come to. -/
structure ExpressionEngine where
  /-- What texts are compiled to. -/
  Program : Type
  compile : String → Except ConditionError Program
  holds : Program → ConditionContext → Except ConditionError Bool

namespace ExpressionEngine

/-- Compiles and evaluates a text at once. -/
def evaluate (engine : ExpressionEngine) (text : String)
    (context : ConditionContext) : Except ConditionError Bool := do
  engine.holds (← engine.compile text) context

/-- Why a text does not compile, if it does not. -/
def refusal? (engine : ExpressionEngine) (text : String) : Option String :=
  match engine.compile text with
  | .ok _ => none
  | .error e => some e.message

end ExpressionEngine

/-- The engine of CEL expressions. -/
def Condition.engine : ExpressionEngine where
  Program := Condition
  compile := Condition.compile
  holds c context := c.holds context.scope

end Entitlement
