import Entitlement.Condition.Cache
import Mathlib.Data.Finset.Card
import Mathlib.Data.Finset.Dedup

/-!
# How many programs are kept

A cache of programs is asked for texts and cleared. Whatever calls it has had,
it keeps what its texts compile to, and it keeps a program for each of the
texts that compile and that it was asked for since it was last cleared, once
however often it was asked (`ProgramCache.entryCount_after`).
-/

namespace Entitlement

namespace ProgramCache

variable {engine : ExpressionEngine} {cache : ProgramCache engine}
  {asked : List String}

/-- **A call of a cache of programs.** -/
inductive Call
  | ask (text : String)
  | clear

/-- The cache after a call. -/
def meet (cache : ProgramCache engine) : Call → ProgramCache engine
  | .ask text => (cache.getOrCompile text).2
  | .clear => empty

/-- **The cache after some calls in a row.** -/
def after (cache : ProgramCache engine) (calls : List Call) :
    ProgramCache engine :=
  calls.foldl meet cache

theorem Sound.meet (h : cache.Sound) (call : Call) :
    (cache.meet call).Sound := by
  cases call with
  | ask text => exact sound_getOrCompile h text
  | clear => exact sound_empty

/-- Calls leave a cache sound. -/
theorem Sound.after (h : cache.Sound) (calls : List Call) :
    (cache.after calls).Sound := by
  unfold ProgramCache.after
  induction calls generalizing cache with
  | nil => exact h
  | cons call calls ih => exact ih (h.meet call)

/-! ## What is kept -/

/-- The texts that were asked for since the last clear, behind those that were
asked for before. -/
def askedFor (asked : List String) : List Call → List String
  | [] => asked
  | .ask text :: calls => askedFor (text :: asked) calls
  | .clear :: calls => askedFor [] calls

/-- Whether a text compiles. -/
def compiles (engine : ExpressionEngine) (text : String) : Bool :=
  (engine.compile text).isOk

/-- The texts with a kept program. -/
def texts (cache : ProgramCache engine) : List String :=
  cache.entries.map Prod.fst

theorem find?_eq_none_iff {text : String} :
    cache.find? text = none ↔ text ∉ cache.texts := by
  unfold find? ProgramCache.texts
  rw [List.lookup_eq_none_iff]
  simp only [List.mem_map, not_exists, not_and, bne_iff_ne, ne_eq]
  exact ⟨fun h entry hentry heq => h entry hentry heq.symm,
    fun h entry hentry heq => h entry hentry heq.symm⟩

/-- **Whether a cache keeps those of some texts that compile**, each once. -/
structure Keeps (cache : ProgramCache engine) (asked : List String) :
    Prop where
  nodup : cache.texts.Nodup
  mem_iff : ∀ text, text ∈ cache.texts ↔
    text ∈ asked ∧ compiles engine text = true

theorem keeps_empty : Keeps (empty : ProgramCache engine) [] where
  nodup := List.nodup_nil
  mem_iff text := by simp [ProgramCache.texts, empty]

/-- **A text that is asked for is kept if it compiles.** -/
theorem Keeps.getOrCompile (h : cache.Keeps asked) (text : String) :
    (cache.getOrCompile text).2.Keeps (text :: asked) := by
  unfold ProgramCache.getOrCompile
  cases hfind : cache.find? text with
  | some program =>
    -- it is kept already, so it compiles
    have hkept : text ∈ cache.texts := by
      by_contra hno
      rw [find?_eq_none_iff.mpr hno] at hfind
      cases hfind
    refine ⟨h.nodup, fun other => ?_⟩
    show other ∈ cache.texts ↔ _
    rw [h.mem_iff, List.mem_cons, or_and_right]
    refine ⟨.inr, fun hother => hother.elim (fun heq => ?_) id⟩
    rw [heq.1]
    exact (h.mem_iff text).mp hkept
  | none =>
    have hnew := find?_eq_none_iff.mp hfind
    cases hcompile : engine.compile text with
    | ok program =>
      have hcompiles : compiles engine text = true := by
        rw [compiles, hcompile]
        rfl
      refine ⟨List.nodup_cons.mpr ⟨hnew, h.nodup⟩, fun other => ?_⟩
      show other ∈ text :: cache.texts ↔ _
      rw [List.mem_cons, List.mem_cons, h.mem_iff, or_and_right]
      refine or_congr_left ⟨fun heq => ⟨heq, heq ▸ hcompiles⟩, And.left⟩
    | error e =>
      have hcompiles : compiles engine text = false := by
        rw [compiles, hcompile]
        rfl
      refine ⟨h.nodup, fun other => ?_⟩
      show other ∈ cache.texts ↔ _
      rw [h.mem_iff, List.mem_cons, or_and_right]
      refine ⟨.inr, fun hother => hother.elim (fun ⟨heq, hother⟩ => ?_) id⟩
      rw [heq, hcompiles] at hother
      cases hother

/-- So it goes on from call to call. -/
theorem Keeps.after (h : cache.Keeps asked) (calls : List Call) :
    (cache.after calls).Keeps (askedFor asked calls) := by
  unfold ProgramCache.after
  induction calls generalizing cache asked with
  | nil => exact h
  | cons call calls ih =>
    cases call with
    | ask text => exact ih (h.getOrCompile text)
    | clear => exact ih keeps_empty

/-- A cache keeps as many programs as there are different texts that
compile. -/
theorem Keeps.entryCount_eq (h : cache.Keeps asked) :
    cache.entryCount = (asked.filter (compiles engine)).toFinset.card := by
  have htexts : cache.texts.toFinset
      = (asked.filter (compiles engine)).toFinset := by
    ext text
    rw [List.mem_toFinset, List.mem_toFinset, List.mem_filter, h.mem_iff]
  rw [← htexts, List.toFinset_card_of_nodup h.nodup, ProgramCache.texts,
    List.length_map]
  rfl

/-- **A cache counts the different texts** that it was asked for since the
last clear and that compile. -/
theorem entryCount_after (calls : List Call) :
    ((empty : ProgramCache engine).after calls).entryCount
      = ((askedFor [] calls).filter (compiles engine)).toFinset.card :=
  (keeps_empty.after calls).entryCount_eq

end ProgramCache

end Entitlement
