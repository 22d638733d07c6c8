import Entitlement.Proofs.Schema.Uncommented
import Mathlib.Data.List.DropRight

/-!
# Between tokens

What the lexer skips at a place is a gap: blanks, and comments that run to the
end of their line or of the text (`IsGap`). A gap is skipped as a whole where
neither a blank nor a comment follows (`IsGap.spanBlank_eq`), and it stays one
when the text behind it is cut off (`IsGap.truncate`).

Behind a gap there may be no token. `LexFault.IsAt` says why: no token starts
with the character that is there, or it is a quote, and every such quote
behind it on its line is protected by a backslash. It says so in terms of the
text alone, and `scanToken_eq_error_iff` that the lexer means the same.
-/

namespace Entitlement

/-! ## Gaps -/

/-- **What may stand between tokens**, in front of the rest of a text:
separators, and comments as far as the end of their line or of the text. -/
inductive IsGap : List Char → List Char → Prop
  | nil {rest : List Char} : IsGap [] rest
  | separator {c : Char} {cs rest : List Char} :
      isSeparator c = true → IsGap cs rest → IsGap (c :: cs) rest
  | comment {body cs rest : List Char} :
      (∀ c ∈ body, isLineEnd c = false) →
        (∀ c ∈ (cs ++ rest).head?, isLineEnd c = true) → IsGap cs rest →
          IsGap ('/' :: '/' :: (body ++ cs)) rest

/-- What may stand behind the start of a comment. -/
def IsCommentGap (blank rest : List Char) : Prop :=
  ∃ body cs, blank = body ++ cs ∧ (∀ c ∈ body, isLineEnd c = false) ∧
    (∀ c ∈ (cs ++ rest).head?, isLineEnd c = true) ∧ IsGap cs rest

namespace IsCommentGap

variable {c : Char} {blank rest : List Char}

/-- One more character may stand in a comment, unless it ends the line. -/
theorem cons (h : IsCommentGap blank rest) (hc : isLineEnd c = false) :
    IsCommentGap (c :: blank) rest := by
  obtain ⟨body, cs, rfl, hbody, hrest⟩ := h
  exact ⟨c :: body, cs, rfl, List.forall_mem_cons.mpr ⟨hc, hbody⟩, hrest⟩

theorem isGap (h : IsCommentGap blank rest) :
    IsGap ('/' :: '/' :: blank) rest := by
  obtain ⟨body, cs, rfl, hbody, hrest, hcs⟩ := h
  exact .comment hbody hrest hcs

end IsCommentGap

/-- The end of a line separates tokens. -/
theorem isSeparator_of_isLineEnd {c : Char} (h : isLineEnd c = true) :
    isSeparator c = true := by
  simp only [isLineEnd, Bool.or_eq_true, beq_iff_eq] at h
  rcases h with rfl | rfl <;> rfl

/-- **What the lexer skips is a gap.** -/
theorem isGap_spanBlank (inComment : Bool) (cs : List Char) :
    if inComment then
      IsCommentGap (spanBlank inComment cs).1 (spanBlank inComment cs).2
    else IsGap (spanBlank inComment cs).1 (spanBlank inComment cs).2 := by
  fun_induction spanBlank inComment cs with
  | case1 inComment =>
    cases inComment with
    | true => exact ⟨[], [], rfl, by simp, by simp, .nil⟩
    | false => exact .nil
  | case2 inComment cs blank rest heq ih =>
    rw [heq] at ih
    cases inComment with
    | true => exact (IsCommentGap.cons ih rfl).cons rfl
    | false => exact ih.isGap
  | case3 inComment c cs hnot hblank blank rest heq ih =>
    rw [heq] at ih
    cases inComment with
    | false => exact .separator (by simpa using hblank) ih
    | true =>
      cases hc : isLineEnd c with
      | false =>
        rw [hc] at ih
        exact IsCommentGap.cons ih hc
      | true =>
        -- the comment ends here, and the gap goes on
        rw [hc] at ih
        refine ⟨[], c :: blank, rfl, by simp, ?_,
          .separator (isSeparator_of_isLineEnd hc) ih⟩
        intro d hd
        cases hd
        exact hc
  | case4 inComment c cs hnot hblank =>
    cases inComment with
    | true => simp at hblank
    | false => exact .nil

theorem isGap_of_spanBlank {cs blank rest : List Char}
    (h : spanBlank false cs = (blank, rest)) : IsGap blank rest := by
  have hgap : IsGap _ _ := isGap_spanBlank false cs
  rwa [h] at hgap

/-- In a comment any character is skipped that does not end the line. -/
theorem spanBlank_true_cons {c : Char} (hc : isLineEnd c = false)
    (cs : List Char) :
    spanBlank true (c :: cs)
      = (c :: (spanBlank true cs).1, (spanBlank true cs).2) := by
  have hother : ∀ {d : Char} {ds : List Char}, isLineEnd d = false →
      (∀ es, d = '/' → ds = '/' :: es → False) →
      spanBlank true (d :: ds)
        = (d :: (spanBlank true ds).1, (spanBlank true ds).2) := by
    intro d ds hd hnot
    rw [spanBlank.eq_3 _ _ _ hnot, if_pos (Bool.or_true _), hd]
    rfl
  by_cases hslash : c = '/'
  · subst hslash
    -- two slashes are skipped at once, so the next character counts too
    induction cs with
    | nil =>
      exact hother hc fun ds _ heq => absurd heq.symm (List.cons_ne_nil _ _)
    | cons d ds ih =>
      by_cases hd : d = '/'
      · subst hd
        rw [ih]
        rfl
      · exact hother hc fun es _ heq => hd (List.cons.inj heq).1
  · exact hother hc fun es heq => absurd heq hslash

/-- Two slashes start a comment. -/
theorem spanBlank_slashes (inComment : Bool) (cs : List Char) :
    spanBlank inComment ('/' :: '/' :: cs)
      = ('/' :: '/' :: (spanBlank true cs).1, (spanBlank true cs).2) :=
  spanBlank.eq_2 inComment cs

/-- So the body of a comment is skipped, and then the gap goes on. -/
theorem spanBlank_comment {body cs : List Char}
    (hbody : ∀ c ∈ body, isLineEnd c = false)
    (hcs : ∀ c ∈ cs.head?, isLineEnd c = true) :
    spanBlank true (body ++ cs)
      = (body ++ (spanBlank false cs).1, (spanBlank false cs).2) := by
  induction body with
  | nil =>
    cases cs with
    | nil => rfl
    | cons c cs =>
      have hc := hcs c rfl
      have hnot : ∀ ds, c = '/' → cs = '/' :: ds → False := by
        rintro ds rfl
        cases hc
      have hsep := isSeparator_of_isLineEnd hc
      rw [List.nil_append, spanBlank.eq_3 _ _ _ hnot,
        spanBlank.eq_3 _ _ _ hnot, hsep, hc]
      rfl
  | cons c body ih =>
    rw [List.forall_mem_cons] at hbody
    rw [List.cons_append, spanBlank_true_cons hbody.1, ih hbody.2]
    rfl

namespace IsGap

variable {gap rest rest' : List Char}

/-- **A gap is skipped as a whole** in front of what is neither blank nor a
comment. -/
theorem spanBlank_eq (h : IsGap gap rest)
    (hblank : ∀ c ∈ rest.head?, isSeparator c = false)
    (hcomment : ∀ ds, rest ≠ '/' :: '/' :: ds) :
    spanBlank false (gap ++ rest) = (gap, rest) := by
  induction h with
  | nil => exact spanBlank_eq_self hblank hcomment
  | @separator c cs rest hc _ ih =>
    have hseps : AreSeparators [c] := List.forall_mem_singleton.mpr hc
    exact spanBlank_separators hseps (ih hblank hcomment)
  | @comment body cs rest hbody hcs _ ih =>
    rw [List.cons_append, List.cons_append, spanBlank_slashes,
      List.append_assoc, spanBlank_comment hbody hcs, ih hblank hcomment]

/-- A gap depends on what follows only by the first character, and on nothing
if nothing follows. -/
theorem truncate (h : IsGap gap rest)
    (hhead : ∀ c ∈ rest'.head?, c ∈ rest.head?) : IsGap gap rest' := by
  induction h with
  | nil => exact .nil
  | separator hc _ ih => exact .separator hc (ih hhead)
  | @comment body cs rest hbody hcs _ ih =>
    refine .comment hbody ?_ (ih hhead)
    cases cs with
    | nil => exact fun c hc => hcs c (hhead c hc)
    | cons d cs => exact hcs

/-- A gap is skipped on its own. -/
theorem spanBlank_self (h : IsGap gap rest) :
    spanBlank false gap = (gap, []) := by
  have hgap : IsGap gap [] := h.truncate fun c hc => by cases hc
  have hskip := hgap.spanBlank_eq (fun c hc => by cases hc)
    fun ds hds => by cases hds
  rwa [List.append_nil] at hskip

end IsGap

/-! ## Strings that are not closed -/

/-- **Whether a character behind some others is protected** by a backslash
that is not protected itself: an odd number of them stands in front of it. -/
def IsProtectedBehind (body : List Char) : Prop :=
  (body.rtakeWhile (· == '\\')).length % 2 = 1

/-- Whether the character behind some others is protected, if it is known
whether the first of them is. -/
def escapedBehind (escaped : Bool) (body : List Char) : Bool :=
  body.foldl (fun escaped c => c == '\\' && !escaped) escaped

theorem escapedBehind_eq_true_iff (body : List Char) :
    escapedBehind false body = true ↔ IsProtectedBehind body := by
  unfold IsProtectedBehind
  induction body using List.reverseRecOn with
  | nil => decide
  | append_singleton body c ih =>
    rw [escapedBehind, List.foldl_append]
    show (c == '\\' && !escapedBehind false body) = true ↔ _
    by_cases hc : c = '\\'
    · subst hc
      rw [List.rtakeWhile_concat_pos _ _ _ rfl, List.length_append,
        List.length_singleton]
      have hnot : escapedBehind false body = false ↔
          ¬ (body.rtakeWhile (· == '\\')).length % 2 = 1 := by
        rw [← ih, Bool.not_eq_true]
      simp only [beq_self_eq_true, Bool.true_and, Bool.not_eq_true', hnot]
      omega
    · rw [List.rtakeWhile_concat_neg _ _ _ (by simpa using hc)]
      simp [hc]

/-- Whether every quote of a text that stands on its first line is protected,
if it is known whether the first character is. -/
def LeavesOpen (quote : Char) (escaped : Bool) (cs : List Char) : Prop :=
  ∀ body rest, cs = body ++ quote :: rest → '\n' ∉ body →
    escapedBehind escaped body = true

theorem leavesOpen_cons_iff {quote : Char} {escaped : Bool} {c : Char}
    {cs : List Char} :
    LeavesOpen quote escaped (c :: cs) ↔
      (c = quote → escaped = true) ∧
        (c ≠ '\n' → LeavesOpen quote (c == '\\' && !escaped) cs) := by
  constructor
  · intro h
    refine ⟨fun hc => h [] cs (by rw [hc]; rfl) List.not_mem_nil, ?_⟩
    rintro hline body rest rfl hbody
    exact h (c :: body) rest rfl
      (List.not_mem_cons_of_ne_of_not_mem (Ne.symm hline) hbody)
  · rintro ⟨hfirst, hrest⟩ body rest heq hbody
    cases body with
    | nil => exact hfirst (List.cons.inj heq).1
    | cons d body =>
      obtain ⟨rfl, rfl⟩ := List.cons.inj heq
      obtain ⟨hline, hbody⟩ := List.ne_and_not_mem_of_not_mem_cons hbody
      exact hrest (Ne.symm hline) body rest rfl hbody

/-- **A string is not closed exactly if every quote on its line is
protected.** -/
theorem scanString_eq_none_iff {quote : Char} (hslash : quote ≠ '\\')
    (hline : quote ≠ '\n') {escaped : Bool} {cs : List Char} :
    scanString quote escaped cs = none ↔ LeavesOpen quote escaped cs := by
  fun_induction scanString quote escaped cs with
  | case1 =>
    refine iff_of_true rfl fun body rest heq => ?_
    exact absurd heq.symm (List.append_ne_nil_of_right_ne_nil _
      (List.cons_ne_nil _ _))
  | case2 escaped c cs hc ih =>
    obtain ⟨rfl, rfl⟩ := hc
    rw [Option.map_eq_none_iff, ih, leavesOpen_cons_iff]
    exact ⟨fun h => ⟨fun heq => absurd heq.symm hslash, fun _ => h⟩,
      fun h => h.2 (by decide)⟩
  | case3 escaped c cs _ hc =>
    rw [leavesOpen_cons_iff]
    simp [hc]
  | case4 escaped cs _ _ =>
    rw [leavesOpen_cons_iff]
    simp [Ne.symm hline]
  | case5 escaped c cs hbackslash hquote hc ih =>
    have hnext : (c == '\\' && !escaped) = false := by
      simpa using hbackslash
    rw [Option.map_eq_none_iff, ih, leavesOpen_cons_iff, hnext]
    refine ⟨fun h => ⟨fun heq => ?_, fun _ => h⟩, fun h => h.2 hc⟩
    cases escaped with
    | true => rfl
    | false => exact absurd ⟨heq, rfl⟩ hquote

/-! ## Places without a token -/

/-- **Why a text starts with no token**: with the first character none
starts, or it is a quote, and every such quote behind it on its line is
protected. -/
inductive LexFault.IsAt : LexFault → List Char → Prop
  | illegalCharacter {c : Char} {cs : List Char} :
      (∀ kind text, TokenKind.Spells kind text → c ∉ text.head?) →
        IsAt (.illegalCharacter c) (c :: cs)
  | unterminatedString {quote : Char} {cs : List Char} :
      quote = '"' ∨ quote = '\'' →
        (∀ body rest, cs = body ++ quote :: rest → '\n' ∉ body →
          IsProtectedBehind body) →
          IsAt .unterminatedString (quote :: cs)

/-- What begins a mark of two characters is a mark. -/
theorem Mark.exists_ofChar?_of_ofPair? {c d : Char} {m : Mark}
    (h : ofPair? c d = some m) : ∃ m, ofChar? c = some m := by
  unfold ofPair? at h
  split at h <;> first | exact ⟨_, rfl⟩ | cases h

/-- A quote that is not closed ends the reading. -/
theorem scanString_eq_none_iff_isProtectedBehind {quote : Char}
    (hquote : quote = '"' ∨ quote = '\'') {cs : List Char} :
    scanString quote false cs = none ↔
      ∀ body rest, cs = body ++ quote :: rest → '\n' ∉ body →
        IsProtectedBehind body := by
  have hne : quote ≠ '\\' ∧ quote ≠ '\n' := by
    rcases hquote with rfl | rfl <;> decide
  rw [scanString_eq_none_iff hne.1 hne.2]
  unfold LeavesOpen
  simp only [escapedBehind_eq_true_iff]

/-- What the lexer reports is there. -/
theorem isAt_of_scanToken {fault : LexFault} {cs : List Char}
    (h : scanToken cs = .error fault) : fault.IsAt cs := by
  cases cs with
  | nil => cases h
  | cons c cs =>
    simp only [scanToken] at h
    split at h
    next hquote =>
      split at h
      next => cases h
      next hnone =>
        cases h
        exact .unterminatedString hquote
          ((scanString_eq_none_iff_isProtectedBehind hquote).mp hnone)
    next hquote =>
      split at h
      next => cases h
      next hdigit =>
        split at h
        next => cases h
        next hword =>
          split at h
          next => cases h
          next => cases h
          next hpair hchar =>
            cases h
            refine .illegalCharacter fun kind text hspells hhead => ?_
            cases hspells with
            | string hq _ =>
              cases hhead
              exact hquote hq
            | number hd _ =>
              cases hhead
              exact hdigit hd
            | word hw _ =>
              cases hhead
              exact hword hw
            | char hm =>
              cases hhead
              cases hm.symm.trans hchar
            | pair hm =>
              cases hhead
              obtain ⟨m, hm⟩ := Mark.exists_ofChar?_of_ofPair? hm
              cases hm.symm.trans hchar

/-- **The lexer finds no token exactly where there is none**, for the reason
that it gives. -/
theorem scanToken_eq_error_iff {fault : LexFault} {cs : List Char} :
    scanToken cs = .error fault ↔ fault.IsAt cs := by
  refine ⟨isAt_of_scanToken, fun h => ?_⟩
  cases h with
  | @illegalCharacter c cs hnone =>
    cases hscan : scanToken (c :: cs) with
    | error fault =>
      cases isAt_of_scanToken hscan with
      | illegalCharacter => rfl
      | unterminatedString hquote =>
        -- a quote starts the empty string
        have hspells : TokenKind.Spells .string (c :: ([] ++ [c])) := by
          refine .string hquote ?_
          rcases hquote with rfl | rfl <;> rfl
        exact absurd rfl (hnone _ _ hspells)
    | ok found =>
      cases found with
      | none => cases Spot.eq_nil_of_scanToken hscan
      | some found =>
        obtain ⟨kind, text, rest⟩ := found
        have happend := scanToken_append hscan
        obtain ⟨d, ds, rfl⟩ :=
          List.exists_cons_of_ne_nil (scanToken_ne_nil hscan)
        cases (List.cons.inj happend).1
        exact absurd rfl (hnone _ _ (endsBefore_of_scanToken hscan).spells)
  | unterminatedString hquote hopen =>
    rw [scanToken, if_pos hquote,
      (scanString_eq_none_iff_isProtectedBehind hquote).mpr hopen]

end Entitlement
