import Entitlement.Proofs.Schema.Forward

/-!
# The count never ends the reading

The loops of the parser count down, and a loop whose count is used up leaves
off. It never comes to that: each round takes a token, and at the end of the
text every loop stops by itself. So two counts that are larger than the
number of tokens ahead lead to the same outcome (`Step.AgreeBelow`), with
the same declarations, the same errors and the same place where the reading
stopped; and the reading of a document stops at the end of the text
(`readDeclarations_eq_and_ends`).
-/

namespace Entitlement

namespace Cursor

variable {c c' : Cursor} {n : Nat}

/-- Where something other than the end of the text comes next, one token is
fewer ahead behind it. -/
theorem length_advance_lt (hstop : c.stop.kind = .endOfText)
    (hkind : c.kind ≠ .endOfText) (h : c.ahead.length < n + 1) :
    c.advance.ahead.length < n := by
  obtain ⟨ahead, stop⟩ := c
  cases ahead with
  | nil => exact absurd hstop hkind
  | cons t ahead => exact Nat.lt_of_succ_lt_succ h

/-- No more tokens are ahead behind some. -/
theorem length_le_of_before {ts : List Token} (hc : c = c'.before ts) :
    c'.ahead.length ≤ c.ahead.length := by
  rw [hc, length_before]
  exact Nat.le_add_left _ _

end Cursor

namespace Step

variable {α β : Type} {n m : Nat} {x y : Step α} {f g : α → Step β}

/-- To change the result changes no outcome otherwise. -/
theorem map_congr {c : Cursor} (h : x c = y c) {f : α → β} :
    (f <$> x) c = (f <$> y) c := by
  show (x c >>= fun r => pure (f r.1, r.2)) = (f <$> y) c
  rw [h]
  rfl

/-- **Whether two steps have the same outcome** wherever fewer than `n`
tokens are ahead of the end of the text. -/
def AgreeBelow (n : Nat) (x y : Step α) : Prop :=
  ∀ c : Cursor, c.stop.kind = .endOfText → c.ahead.length < n → x c = y c

namespace AgreeBelow

theorem refl (n : Nat) (x : Step α) : AgreeBelow n x x := fun _ _ _ => rfl

/-- Fewer than no tokens are never ahead. -/
theorem zero (x y : Step α) : AgreeBelow 0 x y :=
  fun _ _ hlength => absurd hlength (Nat.not_lt_zero _)

theorem mono (h : AgreeBelow n x y) (hm : m ≤ n) : AgreeBelow m x y :=
  fun c hstop hlength => h c hstop (Nat.lt_of_lt_of_le hlength hm)

/-- Steps that agree can be followed by steps that agree, since the first
one goes forward. -/
theorem bind (h : AgreeBelow n x y) (hx : IsForward x)
    (hf : ∀ a, AgreeBelow n (f a) (g a)) :
    AgreeBelow n (x >>= f) (y >>= g) := by
  intro c hstop hlength
  have hxy : x c = y c := h c hstop hlength
  match hxc : x c with
  | .error broken => rw [bind_error hxc, bind_error (hxy ▸ hxc)]
  | .ok (a, c') =>
    rw [bind_ok hxc, bind_ok (hxy ▸ hxc)]
    have hc : ∃ ts, c = c'.before ts := by
      have hahead := hx c
      rwa [hxc] at hahead
    obtain ⟨ts, hc⟩ := hc
    refine hf a c' ?_ ?_
    · rwa [hc] at hstop
    · exact Nat.lt_of_le_of_lt (Cursor.length_le_of_before hc) hlength

/-- The same step in front. -/
theorem bind_left {x : Step α} (hx : IsForward x)
    (hf : ∀ a, AgreeBelow n (f a) (g a)) :
    AgreeBelow n (x >>= f) (x >>= g) :=
  (refl n x).bind hx hf

theorem peek_bind {f g : TokenKind → Step β}
    (hf : ∀ kind, AgreeBelow n (f kind) (g kind)) :
    AgreeBelow n (peek >>= f) (peek >>= g) :=
  fun c hstop hlength => hf c.kind c hstop hlength

/-- Steps that take a token agree with one more token ahead, unless they
are at the end of the text. -/
theorem take_bind {f g : Token → Step β}
    (hf : ∀ t, AgreeBelow n (f t) (g t)) {c : Cursor}
    (hstop : c.stop.kind = .endOfText) (hkind : c.kind ≠ .endOfText)
    (hlength : c.ahead.length < n + 1) : (take >>= f) c = (take >>= g) c :=
  hf c.current c.advance hstop (Cursor.length_advance_lt hstop hkind hlength)

/-- Two steps that go on at a token of some kind, which they take, agree
with one more token ahead. -/
theorem of_kind {kind : TokenKind} {f g : Token → Step β} {z : Step β}
    (hkind : kind ≠ .endOfText) (hf : ∀ t, AgreeBelow n (f t) (g t)) :
    AgreeBelow (n + 1)
      (peek >>= fun next => if next = kind then take >>= f else z)
      (peek >>= fun next => if next = kind then take >>= g else z) := by
  intro c hstop hlength
  rw [Step.peek_bind, Step.peek_bind]
  split
  next hk =>
    exact take_bind hf hstop (hk ▸ hkind) hlength
  next => rfl

end AgreeBelow

theorem agreeBelow_names (what : String) {n count more : Nat}
    (hcount : n ≤ count) (hmore : n ≤ more) :
    AgreeBelow n (names what count) (names what more) := by
  match n, count, more, hcount, hmore with
  | 0, _, _, _, _ => exact .zero _ _
  | n + 1, count + 1, more + 1, hcount, hmore =>
    have hrest := agreeBelow_names what (Nat.le_of_succ_le_succ hcount)
      (Nat.le_of_succ_le_succ hmore)
    refine .bind_left (isForward_name what) fun first => ?_
    exact .of_kind TokenKind.noConfusion fun _ =>
      hrest.bind (isForward_names what count) fun _ => .refl n _

end Step

open Step

/-! ## Permission expressions -/

namespace PermissionExpr

variable {n count more : Nat} {x y : Step PermissionExpr}

theorem agreeBelow_readChain (op : Connective) {n count more : Nat}
    (h : AgreeBelow n x y) (hx : IsForward x) (hcount : n ≤ count)
    (hmore : n ≤ more) (left : PermissionExpr) :
    AgreeBelow n (readChain op x count left) (readChain op y more left) := by
  match n, count, more, h, hcount, hmore with
  | 0, _, _, _, _, _ => exact .zero _ _
  | n + 1, count + 1, more + 1, h, hcount, hmore =>
    have hn := h.mono (Nat.le_succ n)
    exact .of_kind TokenKind.noConfusion fun _ => hn.bind hx fun right =>
      agreeBelow_readChain op hn hx (Nat.le_of_succ_le_succ hcount)
        (Nat.le_of_succ_le_succ hmore) _

theorem agreeBelow_readUnary (h : AgreeBelow n x y) (hx : IsForward x) :
    AgreeBelow n (readUnary x) (readUnary y) := by
  refine .peek_bind fun kind => ?_
  split
  next =>
    exact .bind_left isForward_take fun _ => h.bind hx fun _ => .refl n _
  next => exact h

theorem agreeBelow_readConjunction (h : AgreeBelow n x y) (hx : IsForward x)
    (hcount : n ≤ count) (hmore : n ≤ more) :
    AgreeBelow n (readConjunction x count) (readConjunction y more) :=
  (agreeBelow_readUnary h hx).bind (isForward_readUnary hx)
    (agreeBelow_readChain .and (agreeBelow_readUnary h hx)
      (isForward_readUnary hx) hcount hmore)

theorem agreeBelow_readDisjunction (h : AgreeBelow n x y) (hx : IsForward x)
    (hcount : n ≤ count) (hmore : n ≤ more) :
    AgreeBelow n (readDisjunction x count) (readDisjunction y more) :=
  (agreeBelow_readConjunction h hx hcount hmore).bind
    (isForward_readConjunction hx)
    (agreeBelow_readChain .or (agreeBelow_readConjunction h hx hcount hmore)
      (isForward_readConjunction hx) hcount hmore)

theorem agreeBelow_readCall (hcount : n ≤ count) (hmore : n ≤ more) :
    AgreeBelow n (readCall count) (readCall more) := by
  refine .bind_left isForward_take fun rule => ?_
  refine .bind_left isForward_take fun _ => .peek_bind fun kind => ?_
  split
  next => exact .refl n _
  next =>
    exact (agreeBelow_names _ hcount hmore).bind (isForward_names _ count)
      fun _ => .refl n _

theorem agreeBelow_readPrimary (h : AgreeBelow n x y) (hx : IsForward x)
    (hcount : n < count) (hmore : n < more) :
    AgreeBelow (n + 1) (readPrimary x count) (readPrimary y more) := by
  intro c hstop hlength
  unfold readPrimary
  split
  next hkind =>
    have hgroup := h.bind hx fun inner => .refl n
      (token (.mark .rParen) "to close parenthesised expression" >>=
        fun _ => pure inner)
    exact AgreeBelow.take_bind (fun _ => hgroup) hstop
      (hkind ▸ TokenKind.noConfusion) hlength
  next => rfl
  next => exact agreeBelow_readCall hcount hmore c hstop hlength
  next => rfl
  next => rfl
  next => rfl

/-- **An expression is read the same with every count** above the number of
tokens ahead. -/
theorem agreeBelow_read {n count more : Nat} (hcount : n < count)
    (hmore : n < more) : AgreeBelow n (read count) (read more) := by
  match n, count, more, hcount, hmore with
  | 0, _, _, _, _ => exact .zero _ _
  | n + 1, count + 1, more + 1, hcount, hmore =>
    have hcount := Nat.lt_of_succ_lt_succ hcount
    have hmore := Nat.lt_of_succ_lt_succ hmore
    have hgroup := isForward_read count
    exact agreeBelow_readDisjunction
      (agreeBelow_readPrimary (agreeBelow_read hcount hmore) hgroup hcount
        hmore) (isForward_readPrimary hgroup) hcount hmore

end PermissionExpr

/-! ## Members -/

variable {n count more : Nat} {c : Cursor}

theorem TargetDecl.agreeBelow_readAll {n count more : Nat} (hcount : n ≤ count)
    (hmore : n ≤ more) : AgreeBelow n (readAll count) (readAll more) := by
  match n, count, more, hcount, hmore with
  | 0, _, _, _, _ => exact .zero _ _
  | n + 1, count + 1, more + 1, hcount, hmore =>
    have hrest (entity : String) (relation : Option String) :
        AgreeBelow n
          (readAll count >>= fun rest => pure (⟨entity, relation⟩ :: rest))
          (readAll more >>= fun rest => pure (⟨entity, relation⟩ :: rest)) :=
      (agreeBelow_readAll (Nat.le_of_succ_le_succ hcount)
        (Nat.le_of_succ_le_succ hmore)).bind (isForward_readAll count)
        fun _ => .refl n _
    refine .of_kind TokenKind.noConfusion fun _ => ?_
    refine .bind_left (isForward_name _) fun entity => .peek_bind fun kind => ?_
    split
    next =>
      exact .bind_left isForward_take fun _ =>
        .bind_left ((isForward_name _).map some) (hrest entity)
    next => exact hrest entity none

theorem RelationDecl.read_eq_read (hstop : c.stop.kind = .endOfText)
    (hkind : c.kind ≠ .endOfText) (hlength : c.ahead.length < n + 1)
    (hcount : n ≤ count) (hmore : n ≤ more) : read count c = read more c := by
  refine AgreeBelow.take_bind (fun _ => ?_) hstop hkind hlength
  refine .bind_left (isForward_name _) fun name => .peek_bind fun kind => ?_
  split
  next =>
    exact (TargetDecl.agreeBelow_readAll hcount hmore).bind
      (TargetDecl.isForward_readAll count) fun _ => .refl n _
  next => exact .refl n _

theorem PermissionDecl.read_eq_read (hstop : c.stop.kind = .endOfText)
    (hkind : c.kind ≠ .endOfText) (hlength : c.ahead.length < n + 1)
    (hcount : n < count) (hmore : n < more) : read count c = read more c := by
  refine AgreeBelow.take_bind (fun _ => ?_) hstop hkind hlength
  refine .bind_left (isForward_name _) fun name => ?_
  refine .bind_left (isForward_token _ _) fun _ => ?_
  exact (PermissionExpr.agreeBelow_read hcount hmore).bind
    (PermissionExpr.isForward_read count) fun _ => .refl n _

theorem RuleDecl.read_eq_read (hstop : c.stop.kind = .endOfText)
    (hkind : c.kind ≠ .endOfText) (hlength : c.ahead.length < n + 1)
    (hcount : n ≤ count) (hmore : n ≤ more) : read count c = read more c := by
  refine AgreeBelow.take_bind (fun _ => ?_) hstop hkind hlength
  refine .bind_left (isForward_name _) fun name => ?_
  refine .bind_left (isForward_token _ _) fun _ => ?_
  exact (agreeBelow_names _ hcount hmore).bind (isForward_names _ count)
    fun _ => .refl n _

/-- The next token announces the same member whatever the count, and it is
read the same. -/
theorem EntityMember.rel_read? (hstop : c.stop.kind = .endOfText)
    (hkind : c.kind ≠ .endOfText) (hlength : c.ahead.length < n + 1)
    (hcount : n < count) (hmore : n < more) :
    Option.Rel (fun x y => x c = y c) (read? count c.kind)
      (read? more c.kind) := by
  have hrelation := RelationDecl.read_eq_read hstop hkind hlength
    (Nat.le_of_lt hcount) (Nat.le_of_lt hmore)
  have hpermission :=
    PermissionDecl.read_eq_read hstop hkind hlength hcount hmore
  unfold read?
  split
  next => exact .some (map_congr hrelation)
  next => exact .some rfl
  next => exact .some (map_congr hpermission)
  next => exact .some (map_congr hpermission)
  next => exact .none

/-! ## Loops over declarations -/

/-- **Whether one cursor is behind another**: before the same end there are
fewer tokens ahead. -/
structure Cursor.IsBehind (c' c : Cursor) : Prop where
  stop : c'.stop = c.stop
  length : c'.ahead.length < c.ahead.length

namespace Cursor

variable {c' : Cursor} {ts : List Token}

theorem IsBehind.of_before (h : c'.IsBehind c) {c₁ : Cursor}
    (hc : c' = c₁.before ts) : c₁.IsBehind c where
  stop := (congrArg Cursor.stop hc).symm.trans h.stop
  length := Nat.lt_of_le_of_lt (length_le_of_before hc) h.length

/-- A jump leads no less far behind. -/
theorem IsBehind.skipTo (h : c'.IsBehind c) (kinds : List TokenKind) :
    (c'.skipTo kinds).IsBehind c := by
  obtain ⟨us, hc⟩ := c'.exists_before_skipTo kinds
  exact h.of_before hc

theorem isBehind_advance (hstop : c.stop.kind = .endOfText)
    (hkind : c.kind ≠ .endOfText) : c.advance.IsBehind c where
  stop := rfl
  length := length_advance_lt hstop hkind (Nat.lt_succ_self _)

end Cursor

section

variable {α : Type} {x : Step α}

/-- What a step leaves that takes a token is behind where it started. -/
theorem Step.TakesFirst.isBehind_of_ok (h : TakesFirst x)
    (hnext : c.advance.IsBehind c) {a : α} {c' : Cursor}
    (hx : x c = .ok (a, c')) : c'.IsBehind c := by
  have hahead := h c
  rw [hx] at hahead
  obtain ⟨ts, hc⟩ := hahead
  exact hnext.of_before hc

theorem Step.TakesFirst.isBehind_of_error (h : TakesFirst x)
    (hnext : c.advance.IsBehind c) {broken : Breakage}
    (hx : x c = .error broken) : broken.rest.IsBehind c := by
  have hahead := h c
  rw [hx] at hahead
  obtain ⟨ts, hc, -⟩ := hahead
  exact hnext.of_before hc

end

/-- **The members of an entity type are read the same with every count**
above the number of tokens ahead. -/
theorem readMembers_eq (entity : String) (hstop : c.stop.kind = .endOfText)
    (hcount : c.ahead.length + 1 < count) (hmore : c.ahead.length + 1 < more) :
    readMembers entity count c = readMembers entity more c := by
  induction count generalizing c more with
  | zero => exact absurd hcount (Nat.not_lt_zero _)
  | succ count ih =>
    obtain ⟨more, rfl⟩ := Nat.exists_eq_succ_of_ne_zero
      (Nat.ne_zero_of_lt hmore)
    have hgo {c' : Cursor} (h : c'.IsBehind c) :
        readMembers entity count c' = readMembers entity more c' := by
      have hlt := h.length
      exact ih (h.stop ▸ hstop) (by omega) (by omega)
    unfold readMembers
    split
    next => rfl
    next => rfl
    next => rfl
    next hend _ =>
      have hnext := Cursor.isBehind_advance hstop hend
      have hrel := EntityMember.rel_read? hstop hend (Nat.lt_succ_self _)
        (Nat.lt_of_succ_lt_succ hcount) (Nat.lt_of_succ_lt_succ hmore)
      generalize hread : EntityMember.read? count c.kind = reading at hrel ⊢
      generalize EntityMember.read? more c.kind = reading' at hrel ⊢
      cases hrel with
      | none => exact congrArg (Harvest.withErrors _) (hgo hnext)
      | @some step _ hstep =>
        have hfirst := EntityMember.takesFirst_of_read? hread
        dsimp only
        rw [← hstep]
        split
        next hs => rw [hgo (hfirst.isBehind_of_ok hnext hs)]
        next hs =>
          rw [Cursor.skipToMember,
            hgo ((hfirst.isBehind_of_error hnext hs).skipTo _)]

/-- **The reading of a document is the same with every count** above the
number of tokens ahead, and it stops at the end of the text. -/
theorem readDeclarations_eq_and_ends (hstop : c.stop.kind = .endOfText)
    (hcount : c.ahead.length + 1 < count) (hmore : c.ahead.length + 1 < more) :
    readDeclarations count c = readDeclarations more c ∧
      (readDeclarations count c).rest.kind = .endOfText := by
  induction count generalizing c more with
  | zero => exact absurd hcount (Nat.not_lt_zero _)
  | succ count ih =>
    obtain ⟨more, rfl⟩ := Nat.exists_eq_succ_of_ne_zero
      (Nat.ne_zero_of_lt hmore)
    have hgo {c' : Cursor} (h : c'.IsBehind c) :
        readDeclarations count c' = readDeclarations more c' ∧
          (readDeclarations count c').rest.kind = .endOfText := by
      have hlt := h.length
      exact ih (h.stop ▸ hstop) (by omega) (by omega)
    unfold readDeclarations
    split
    next hkind => exact ⟨rfl, hkind⟩
    next hkind =>
      have hnext := Cursor.isBehind_advance hstop
        (hkind ▸ TokenKind.noConfusion)
      split
      next name rest hs =>
        have hrest := EntityDecl.takesFirst_readHead.isBehind_of_ok hnext hs
        have hlt := hrest.length
        have hmembers :
            readMembers name count rest = readMembers name more rest :=
          readMembers_eq name (hrest.stop ▸ hstop) (by omega) (by omega)
        obtain ⟨ts, hts⟩ := (trail_readMembers name count rest).exists_before
        obtain ⟨heq, hends⟩ := hgo (hrest.of_before hts)
        refine ⟨?_, hends⟩
        dsimp only
        rw [heq, hmembers]
      next hs =>
        obtain ⟨heq, hends⟩ := hgo
          ((EntityDecl.takesFirst_readHead.isBehind_of_error hnext hs).skipTo _)
        exact ⟨congrArg (Harvest.withErrors _) heq, hends⟩
    next hkind =>
      have hend : c.kind ≠ .endOfText := hkind ▸ TokenKind.noConfusion
      have hnext := Cursor.isBehind_advance hstop hend
      have hfirst := RuleDecl.takesFirst_read count
      have hrule : RuleDecl.read count c = RuleDecl.read more c :=
        RuleDecl.read_eq_read hstop hend (Nat.lt_succ_self _) (by omega)
          (by omega)
      rw [← hrule]
      split
      next hs =>
        obtain ⟨heq, hends⟩ := hgo (hfirst.isBehind_of_ok hnext hs)
        exact ⟨congrArg (Harvest.withItem _) heq, hends⟩
      next hs =>
        obtain ⟨heq, hends⟩ := hgo
          ((hfirst.isBehind_of_error hnext hs).skipTo _)
        exact ⟨congrArg (Harvest.withErrors _) heq, hends⟩
    next hend _ _ =>
      obtain ⟨heq, hends⟩ := hgo (Cursor.isBehind_advance hstop hend)
      exact ⟨congrArg (Harvest.withErrors _) heq, hends⟩

end Entitlement
