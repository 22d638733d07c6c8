/-!
# Cutting text at a mark

`cut mark cs` parts a text at the first occurrence of a mark. The marks
of the tuple notation are cut in a fixed order, which is what decides
which of its fields may contain which mark. `cut_eq_some_iff` says that a
cut loses nothing and that the first part is free of the mark.
-/

namespace Entitlement

/-- **The two parts of a text around the first `mark`**, without the mark;
nothing if it does not occur. -/
def cut (mark : Char) : List Char → Option (List Char × List Char)
  | [] => none
  | c :: cs =>
    if c = mark then some ([], cs)
    else (cut mark cs).map fun (before, after) => (c :: before, after)

@[simp] theorem cut_nil (mark : Char) : cut mark [] = none := rfl

@[simp] theorem cut_cons_self (mark : Char) (cs : List Char) :
    cut mark (mark :: cs) = some ([], cs) := by
  simp [cut]

/-- A cut finds the first occurrence and keeps everything else. -/
theorem cut_eq_some_iff {mark : Char} {cs before after : List Char} :
    cut mark cs = some (before, after) ↔
      cs = before ++ mark :: after ∧ mark ∉ before := by
  induction cs generalizing before with
  | nil => simp
  | cons c cs ih =>
    by_cases h : c = mark
    · subst h
      cases before <;> simp [cut, eq_comm]
      intro rfl _
      simp_all
    · cases before with
      | nil => simp [cut, h]
      | cons b bs =>
        have hb : mark ≠ c := fun e => h e.symm
        simp [cut, h, ih, and_assoc, and_left_comm]
        rintro rfl _ _
        exact hb

/-- No cut exactly when the mark does not occur. -/
theorem cut_eq_none_iff {mark : Char} {cs : List Char} :
    cut mark cs = none ↔ mark ∉ cs := by
  induction cs with
  | nil => simp
  | cons c cs ih =>
    by_cases h : c = mark
    · simp [h]
    · have : mark ≠ c := fun e => h e.symm
      simp [cut, h, ih, this]

end Entitlement
