import Entitlement.Condition.Basic

/-!
# Compiled conditions kept by text

Evaluating a permission meets the same few expressions again and again, so
what they were compiled to is kept by their text. A text that does not
compile is not kept. Since compiling depends on the text alone, a kept
program is as good as a fresh one: `getOrCompile_fst` says that a cache of
programs obtained by compiling answers as the compiler does.
-/

namespace Entitlement

/-- **Programs kept by the text they were compiled from**, each text
once. -/
structure ProgramCache (engine : ExpressionEngine) where
  entries : List (String × engine.Program) := []

namespace ProgramCache

variable {engine : ExpressionEngine}

/-- The cache that holds nothing. -/
def empty : ProgramCache engine := {}

/-- The program kept for a text. -/
def find? (cache : ProgramCache engine) (text : String) :
    Option engine.Program :=
  cache.entries.lookup text

/-- **The program of a text**: the one that is kept, or a fresh one, which
is kept from then on. -/
def getOrCompile (cache : ProgramCache engine) (text : String) :
    Except ConditionError engine.Program × ProgramCache engine :=
  match cache.find? text with
  | some program => (.ok program, cache)
  | none =>
    match engine.compile text with
    | .ok program => (.ok program, ⟨(text, program) :: cache.entries⟩)
    | .error e => (.error e, cache)

/-- The number of texts with a kept program. -/
def entryCount (cache : ProgramCache engine) : Nat :=
  cache.entries.length

/-- Whether every kept program is what its text compiles to. -/
def Sound (cache : ProgramCache engine) : Prop :=
  ∀ text program, cache.find? text = some program →
    engine.compile text = .ok program

theorem sound_empty : Sound (empty : ProgramCache engine) := by
  intro text program h
  simp [empty, find?] at h

/-- **A sound cache answers as the compiler does.** -/
theorem getOrCompile_fst {cache : ProgramCache engine} (h : cache.Sound)
    (text : String) : (cache.getOrCompile text).1 = engine.compile text := by
  unfold getOrCompile
  split
  next program hp => exact (h text program hp).symm
  next => split <;> simp_all

/-- A sound cache stays sound. -/
theorem sound_getOrCompile {cache : ProgramCache engine} (h : cache.Sound)
    (text : String) : (cache.getOrCompile text).2.Sound := by
  unfold getOrCompile
  split
  next => exact h
  next =>
    split
    next program hp =>
      intro t p ht
      by_cases htt : t = text
      · subst htt
        simp [find?] at ht
        rw [hp, ht]
      · have hne : (t == text) = false := by simp [htt]
        simp only [find?, List.lookup_cons, hne] at ht
        exact h t p ht
    next => exact h

/-- The truth value of a text by way of a cache. -/
def evaluate (cache : ProgramCache engine) (text : String)
    (context : ConditionContext) : Except ConditionError Bool := do
  engine.holds (← (cache.getOrCompile text).1) context

/-- By way of a sound cache every text has the truth value that it has
without. -/
theorem evaluate_eq {cache : ProgramCache engine} (h : cache.Sound) :
    cache.evaluate = engine.evaluate := by
  funext text context
  rw [evaluate, ExpressionEngine.evaluate, getOrCompile_fst h]

/-- A cache after the programs of some texts were asked for. -/
def warm (cache : ProgramCache engine) (texts : List String) :
    ProgramCache engine :=
  texts.foldl (fun cache text => (cache.getOrCompile text).2) cache

end ProgramCache

end Entitlement
