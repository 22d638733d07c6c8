import Entitlement.Proofs.Schema.ParserSound

/-!
# Reading goes forward

A reading step never goes back, whether it succeeds or fails. Where it
fails, the error is reported at a token that the step took or at the next
one. The bracket that opens a passage is the reason to say it so: an error
in the passage is reported at the bracket, when the tokens behind it are
taken too. While they are taken the bracket lies behind the cursor, so
`Step.IsAhead` lets an outcome report its error at a few given tokens as
well.

A declaration takes its keyword whatever else it finds, so a broken one
leaves fewer tokens than there were (`Step.TakesFirst`).
-/

namespace Entitlement

/-- Whether an error is reported at the beginning of a token. -/
structure SyntaxError.IsAt (e : SyntaxError) (t : Token) : Prop where
  line : e.line = t.position.line
  column : e.column = t.position.column

theorem SyntaxError.isAt_atToken (t : Token) (fault : SyntaxFault) :
    (atToken t fault).IsAt t := ⟨rfl, rfl⟩

theorem Cursor.exists_before_advance (c : Cursor) :
    ∃ ts, c = c.advance.before ts := by
  obtain ⟨ahead, stop⟩ := c
  cases ahead with
  | nil => exact ⟨[], rfl⟩
  | cons t ahead => exact ⟨[t], rfl⟩

/-- A jump goes forward. -/
theorem Cursor.exists_before_skipTo (c : Cursor) (kinds : List TokenKind) :
    ∃ ts, c = (c.skipTo kinds).before ts := by
  obtain ⟨ahead, stop⟩ := c
  refine ⟨ahead.takeWhile fun t => !kinds.contains t.kind, ?_⟩
  show _ = Cursor.mk _ stop
  rw [skipTo, List.takeWhile_append_dropWhile]

namespace Step

variable {α β : Type} {given given' : List Token} {c c' : Cursor}

/-! ## Outcomes -/

/-- **Whether the outcome of a step lies ahead of the cursor `c`**: it took
some tokens, and an error is reported at one of them, at the next one or at
one of those given. -/
def IsAhead (given : List Token) (c : Cursor) :
    Except Breakage (α × Cursor) → Prop
  | .ok (_, c') => ∃ ts, c = c'.before ts
  | .error broken => ∃ ts, c = broken.rest.before ts ∧
      ∃ t ∈ given ++ (ts ++ [broken.rest.current]), broken.error.IsAt t

variable {outcome : Except Breakage (α × Cursor)}

theorem isAhead_ok (a : α) :
    IsAhead given c (.ok (a, c) : Except Breakage (α × Cursor)) :=
  ⟨[], rfl⟩

/-- An error at the next token lies ahead. -/
theorem isAhead_atToken (fault : SyntaxFault) :
    IsAhead given c
      (.error ⟨.atToken c.current fault, c⟩ :
        Except Breakage (α × Cursor)) :=
  ⟨[], rfl, c.current, List.mem_append_right given List.mem_cons_self,
    SyntaxError.isAt_atToken _ _⟩

theorem IsAhead.mono (h : IsAhead given c outcome)
    (hsub : given ⊆ given') : IsAhead given' c outcome := by
  match outcome, h with
  | .ok (_, c'), h => exact h
  | .error broken, ⟨ts, hc, t, ht, he⟩ =>
    refine ⟨ts, hc, t, ?_, he⟩
    rcases List.mem_append.mp ht with ht | ht
    · exact List.mem_append_left _ (hsub ht)
    · exact List.mem_append_right _ ht

/-- What lies ahead of a cursor lies ahead of those before it. -/
theorem IsAhead.before (h : IsAhead given c' outcome) {ts : List Token}
    (hc : c = c'.before ts) : IsAhead given c outcome := by
  match outcome, h with
  | .ok (_, c''), ⟨us, hc'⟩ =>
    refine ⟨ts ++ us, ?_⟩
    rw [hc, hc', Cursor.before_append]
  | .error broken, ⟨us, hc', t, ht, he⟩ =>
    refine ⟨ts ++ us, ?_, t, ?_, he⟩
    · rw [hc, hc', Cursor.before_append]
    · rw [List.append_assoc]
      rcases List.mem_append.mp ht with ht | ht
      · exact List.mem_append_left _ ht
      · exact List.mem_append_right _ (List.mem_append_right ts ht)

/-- **What lies ahead of the next token lies ahead**, that token given or
not. -/
theorem IsAhead.of_advance (h : IsAhead [c.current] c.advance outcome) :
    IsAhead [] c outcome := by
  obtain ⟨ahead, stop⟩ := c
  match outcome, h with
  | .ok (_, c'), ⟨ts, hc⟩ =>
    obtain ⟨us, hus⟩ := Cursor.exists_before_advance ⟨ahead, stop⟩
    refine ⟨us ++ ts, ?_⟩
    rw [Cursor.before_append, ← hc]
    exact hus
  | .error broken, ⟨ts, hc, t, ht, he⟩ =>
    cases ahead with
    | nil =>
      -- at the end of the text the next token is still the next one
      obtain ⟨hts, hrest⟩ := List.append_eq_nil_iff.mp
        (congrArg Cursor.ahead hc).symm
      have hcurrent : broken.rest.current = stop := by
        rw [Cursor.current, hrest]
        exact (congrArg Cursor.stop hc).symm
      rw [hcurrent] at ht
      refine ⟨ts, hc, stop, ?_, ?_⟩
      · rw [hcurrent]
        exact List.mem_append_right ts List.mem_cons_self
      · rw [hts] at ht
        rcases List.mem_cons.mp ht with rfl | ht
        · exact he
        · rwa [← List.mem_singleton.mp ht]
    | cons first ahead =>
      refine ⟨first :: ts, ?_, t, ht, he⟩
      show Cursor.mk (first :: (Cursor.mk ahead stop).ahead) stop = _
      rw [show Cursor.mk ahead stop = broken.rest.before ts from hc]
      exact congrArg (Cursor.mk _) (congrArg Cursor.stop hc)

/-- A sequence of steps leads ahead if both do. -/
theorem IsAhead.bind {x : Step α} {f : α → Step β} {c₀ : Cursor}
    (hx : IsAhead given c (x c₀)) (hf : ∀ a c', IsAhead [] c' (f a c')) :
    IsAhead given c ((x >>= f) c₀) := by
  match hxc : x c₀, hx with
  | .ok (a, c'), ⟨ts, hc⟩ =>
    rw [bind_ok hxc]
    exact ((hf a c').mono (List.nil_subset given)).before hc
  | .error broken, h =>
    rw [bind_error hxc]
    exact h

/-- The text up to where a passage is closed, and the tokens behind it. -/
theorem exists_append_of_passage {opening closing : TokenKind} {depth : Nat}
    {ts rest : List Token} {text : List Char}
    (h : passage opening closing depth ts = some (text, rest)) :
    ∃ us, ts = us ++ rest := by
  induction ts generalizing depth text with
  | nil => cases h
  | cons t ts ih =>
    have hmore {depth : Nat} {front : List Char}
        (h : (passage opening closing depth ts).map
          (fun kept => (front ++ kept.1, kept.2)) = some (text, rest)) :
        ∃ us, t :: ts = us ++ rest := by
      obtain ⟨⟨inner, rest'⟩, hinner, heq⟩ := Option.map_eq_some_iff.mp h
      cases heq
      obtain ⟨us, rfl⟩ := ih hinner
      exact ⟨t :: us, rfl⟩
    unfold passage at h
    dsimp only at h
    split at h
    next => exact hmore h
    next =>
      split at h
      next =>
        split at h
        next =>
          cases h
          exact ⟨[t], rfl⟩
        next => exact hmore h
      next => exact hmore h

/-- The passage behind a bracket leads ahead of it. -/
theorem isAhead_captured (opening : Token) (closing : TokenKind)
    (what : String) (empty : SyntaxFault) (c : Cursor) :
    IsAhead [opening] c (captured opening closing what empty c) := by
  have hopening : ∀ us, opening ∈ [opening] ++ us :=
    fun us => List.mem_cons_self
  unfold captured
  split
  next =>
    refine ⟨c.ahead, ?_, opening, hopening _, SyntaxError.isAt_atToken _ _⟩
    show c = ⟨c.ahead ++ [], c.stop⟩
    rw [List.append_nil]
  next kept rest hp =>
    obtain ⟨ts, hahead⟩ := exists_append_of_passage hp
    have hc : c = Cursor.before { c with ahead := rest } ts := by
      show c = ⟨ts ++ rest, c.stop⟩
      rw [← hahead]
    dsimp only
    split
    next => exact ⟨_, hc, opening, hopening _, SyntaxError.isAt_atToken _ _⟩
    next => exact ⟨_, hc⟩

/-! ## Steps -/

/-- **Whether a step goes forward**, from wherever it starts. -/
def IsForward (step : Step α) : Prop := ∀ c, IsAhead [] c (step c)

/-- **Whether a step takes the next token and goes forward from there.** -/
def TakesFirst (step : Step α) : Prop := ∀ c, IsAhead [] c.advance (step c)

theorem TakesFirst.isForward {step : Step α} (h : TakesFirst step) :
    IsForward step :=
  fun c => ((h c).mono (List.nil_subset _)).of_advance

theorem isForward_pure (a : α) : IsForward (pure a) :=
  fun _ => isAhead_ok a

theorem isForward_fail (fault : Token → SyntaxFault) :
    IsForward (fail fault : Step α) :=
  fun _ => isAhead_atToken _

theorem takesFirst_take_bind {f : Token → Step α}
    (hf : ∀ t, IsForward (f t)) : TakesFirst (take >>= f) :=
  fun c => hf c.current c.advance

theorem IsForward.bind {x : Step α} {f : α → Step β} (hx : IsForward x)
    (hf : ∀ a, IsForward (f a)) : IsForward (x >>= f) :=
  fun c => (hx c).bind hf

theorem IsForward.map {x : Step α} (hx : IsForward x) (f : α → β) :
    IsForward (f <$> x) := by
  rw [map_eq_pure_bind]
  exact hx.bind fun _ => isForward_pure _

theorem TakesFirst.map {x : Step α} (hx : TakesFirst x) (f : α → β) :
    TakesFirst (f <$> x) := by
  rw [map_eq_pure_bind]
  exact fun c => (hx c).bind fun a => isForward_pure (f a)

/-- To look at the next token and go on takes none. -/
theorem isForward_peek_bind {f : TokenKind → Step α}
    (hf : ∀ kind, IsForward (f kind)) : IsForward (peek >>= f) :=
  fun c => hf c.kind c

theorem isForward_take : IsForward take :=
  fun _ => IsAhead.of_advance (isAhead_ok _)

theorem isForward_take_bind {f : Token → Step α}
    (hf : ∀ t, IsForward (f t)) : IsForward (take >>= f) :=
  (takesFirst_take_bind hf).isForward

/-- A token that is asked for and what follows it go forward, and what
follows may report an error at that token. -/
theorem isForward_token_bind {kind : TokenKind} {role : String}
    {f : Token → Step α} (hf : ∀ t c, IsAhead [t] c (f t c)) :
    IsForward (token kind role >>= f) := by
  intro c
  by_cases hk : c.kind = kind
  · rw [bind_ok (show token kind role c = .ok _ from if_pos hk)]
    exact (hf c.current c.advance).of_advance
  · rw [bind_error (show token kind role c = .error _ from if_neg hk)]
    exact isAhead_atToken _

theorem isForward_token (kind : TokenKind) (role : String) :
    IsForward (token kind role) := by
  rw [← bind_pure (token kind role)]
  exact isForward_token_bind fun _ _ => isAhead_ok _

theorem isForward_name (what : String) : IsForward (name what) := by
  intro c
  unfold name
  split
  next => exact IsAhead.of_advance (isAhead_ok _)
  next => exact isAhead_atToken _

theorem isForward_names (what : String) (count : Nat) :
    IsForward (names what count) := by
  induction count with
  | zero => exact (isForward_name what).bind fun _ => isForward_pure _
  | succ count ih =>
    refine (isForward_name what).bind fun first => ?_
    refine isForward_peek_bind fun kind => ?_
    split
    next =>
      exact isForward_take_bind fun _ => ih.bind fun _ => isForward_pure _
    next => exact isForward_pure _

/-- A bracket and the passage behind it go forward. -/
theorem isForward_token_captured {kind closing : TokenKind} {role what : String}
    {empty : SyntaxFault} {f : String → Step α}
    (hf : ∀ text, IsForward (f text)) :
    IsForward (token kind role >>= fun opening =>
      captured opening closing what empty >>= f) :=
  isForward_token_bind fun opening c =>
    (isAhead_captured opening closing what empty c).bind hf

end Step

open Step

/-! ## Permission expressions -/

namespace PermissionExpr

variable {primary group operand : Step PermissionExpr} {count : Nat}

theorem isForward_readChain (op : Connective) (ho : IsForward operand)
    (left : PermissionExpr) : IsForward (readChain op operand count left) := by
  induction count generalizing left with
  | zero => exact isForward_pure left
  | succ count ih =>
    refine isForward_peek_bind fun kind => ?_
    split
    next =>
      exact isForward_take_bind fun _ => ho.bind fun right => ih _
    next => exact isForward_pure left

theorem isForward_readUnary (hp : IsForward primary) :
    IsForward (readUnary primary) := by
  refine isForward_peek_bind fun kind => ?_
  split
  next =>
    exact isForward_take_bind fun _ => hp.bind fun _ => isForward_pure _
  next => exact hp

theorem isForward_readConjunction (hp : IsForward primary) :
    IsForward (readConjunction primary count) :=
  (isForward_readUnary hp).bind
    (isForward_readChain .and (isForward_readUnary hp))

theorem isForward_readDisjunction (hp : IsForward primary) :
    IsForward (readDisjunction primary count) :=
  (isForward_readConjunction hp).bind
    (isForward_readChain .or (isForward_readConjunction hp))

theorem isForward_readCall : IsForward (readCall count) := by
  have hclose (rule : Token) (arguments : List String) :
      IsForward (token (.mark .rParen) "to close rule call arguments" >>=
        fun _ => pure (PermissionExpr.call rule.value arguments)) :=
    (isForward_token _ _).bind fun _ => isForward_pure _
  refine isForward_take_bind fun rule => isForward_take_bind fun _ => ?_
  refine isForward_peek_bind fun kind => ?_
  split
  next => exact hclose rule []
  next => exact (isForward_names _ count).bind (hclose rule)

theorem isForward_readPrimary (hg : IsForward group) :
    IsForward (readPrimary group count) := by
  intro c
  unfold readPrimary
  split
  next =>
    exact isForward_take_bind (fun _ => hg.bind fun inner =>
      (isForward_token _ _).bind fun _ => isForward_pure inner) c
  next =>
    exact isForward_take_bind (fun _ => isForward_token_captured fun _ =>
      isForward_pure _) c
  next => exact isForward_readCall c
  next =>
    exact isForward_take_bind (fun relation => isForward_take_bind fun _ =>
      (isForward_name _).bind fun _ => isForward_pure _) c
  next => exact isForward_take_bind (fun t => isForward_pure _) c
  next => exact isForward_fail _ c

/-- **An expression is read forward.** -/
theorem isForward_read (count : Nat) : IsForward (read count) := by
  induction count with
  | zero => exact isForward_fail _
  | succ count ih => exact isForward_readDisjunction (isForward_readPrimary ih)

end PermissionExpr

/-! ## Declarations -/

theorem TargetDecl.isForward_readAll (count : Nat) :
    IsForward (readAll count) := by
  induction count with
  | zero => exact isForward_pure []
  | succ count ih =>
    have hrest (entity : String) (relation : Option String) :
        IsForward (readAll count >>= fun rest =>
          pure (⟨entity, relation⟩ :: rest)) :=
      ih.bind fun _ => isForward_pure _
    refine isForward_peek_bind fun kind => ?_
    split
    next =>
      refine isForward_take_bind fun _ => ?_
      refine (isForward_name _).bind fun entity => ?_
      refine isForward_peek_bind fun kind => ?_
      split
      next =>
        exact isForward_take_bind fun _ =>
          ((isForward_name _).map some).bind (hrest entity)
      next => exact hrest entity none
    next => exact isForward_pure []

theorem RelationDecl.takesFirst_read (count : Nat) :
    TakesFirst (read count) := by
  refine takesFirst_take_bind fun _ => (isForward_name _).bind fun name => ?_
  refine isForward_peek_bind fun kind => ?_
  split
  next =>
    exact (TargetDecl.isForward_readAll count).bind fun _ => isForward_pure _
  next => exact isForward_fail _

theorem AttributeDecl.takesFirst_read : TakesFirst read := by
  refine takesFirst_take_bind fun _ => (isForward_name _).bind fun name =>
    (isForward_name _).bind fun typeName => ?_
  refine isForward_peek_bind fun kind => ?_
  split
  next =>
    exact isForward_take_bind fun _ => (isForward_token _ _).bind fun _ =>
      isForward_pure _
  next => exact isForward_pure _

theorem PermissionDecl.takesFirst_read (count : Nat) :
    TakesFirst (read count) :=
  takesFirst_take_bind fun _ => (isForward_name _).bind fun _ =>
    (isForward_token _ _).bind fun _ =>
      (PermissionExpr.isForward_read count).bind fun _ => isForward_pure _

theorem RuleDecl.takesFirst_read (count : Nat) : TakesFirst (read count) :=
  takesFirst_take_bind fun _ => (isForward_name _).bind fun _ =>
    (isForward_token _ _).bind fun _ => (isForward_names _ count).bind
      fun _ => (isForward_token _ _).bind fun _ =>
        isForward_token_captured fun _ => isForward_pure _

theorem EntityDecl.takesFirst_readHead : TakesFirst readHead :=
  takesFirst_take_bind fun _ => (isForward_name _).bind fun name =>
    (isForward_token _ _).bind fun _ => isForward_pure name

/-- **A member takes its keyword and is read forward.** -/
theorem EntityMember.takesFirst_of_read? {count : Nat} {kind : TokenKind}
    {step : Step EntityMember} (h : read? count kind = some step) :
    TakesFirst step := by
  unfold read? at h
  split at h
  next =>
    cases h
    exact (RelationDecl.takesFirst_read count).map relation
  next =>
    cases h
    exact AttributeDecl.takesFirst_read.map attr
  next =>
    cases h
    exact (PermissionDecl.takesFirst_read count).map permission
  next =>
    cases h
    exact (PermissionDecl.takesFirst_read count).map permission
  next => cases h

/-! ## Loops over declarations -/

/-- **The way from one cursor forward to another**, with the errors that are
reported on it. Each is at a token that was taken since the one before, or
at the next one. -/
inductive Trail : Cursor → List SyntaxError → Cursor → Prop
  | clear {c c' : Cursor} {ts : List Token} :
      c = c'.before ts → Trail c [] c'
  | error {c c₁ c' : Cursor} {ts : List Token} {t : Token} {e : SyntaxError}
      {errors : List SyntaxError} :
      c = c₁.before ts → t ∈ ts ++ [c₁.current] → e.IsAt t →
      Trail c₁ errors c' → Trail c (e :: errors) c'

namespace Trail

variable {c c₁ c' : Cursor} {errors others : List SyntaxError}

theorem refl (c : Cursor) : Trail c [] c :=
  .clear c.before_nil.symm

/-- A way that starts later. -/
theorem before (h : Trail c₁ errors c') {ts : List Token}
    (hc : c = c₁.before ts) : Trail c errors c' := by
  cases h with
  | clear hc₁ => exact .clear (by rw [hc, hc₁, Cursor.before_append])
  | @error _ _ _ us t _ _ hc₁ ht he hrest =>
    rw [hc₁, ← Cursor.before_append] at hc
    refine .error hc ?_ he hrest
    rw [List.append_assoc]
    exact List.mem_append_right ts ht

/-- One way after the other. -/
theorem trans (h : Trail c errors c₁) (h' : Trail c₁ others c') :
    Trail c (errors ++ others) c' := by
  induction h with
  | clear hc => exact h'.before hc
  | error hc ht he _ ih => exact .error hc ht he (ih h')

/-- The way goes forward. -/
theorem exists_before (h : Trail c errors c') : ∃ ts, c = c'.before ts := by
  induction h with
  | clear hc => exact ⟨_, hc⟩
  | error hc _ _ _ ih =>
    obtain ⟨us, hus⟩ := ih
    exact ⟨_ ++ us, by rw [hc, hus, Cursor.before_append]⟩

/-- An error at the next token and the way behind it. -/
theorem at_current (fault : SyntaxFault) (h : Trail c errors c') :
    Trail c (.atToken c.current fault :: errors) c' :=
  .error c.before_nil.symm List.mem_cons_self (SyntaxError.isAt_atToken _ _) h

theorem of_advance (h : Trail c.advance errors c') : Trail c errors c' := by
  obtain ⟨ts, hc⟩ := c.exists_before_advance
  exact h.before hc

theorem of_skipTo {kinds : List TokenKind}
    (h : Trail (c.skipTo kinds) errors c') : Trail c errors c' := by
  obtain ⟨ts, hc⟩ := c.exists_before_skipTo kinds
  exact h.before hc

/-- The way behind a step that succeeds. -/
theorem of_ok {α : Type} {step : Step α} (hs : IsForward step) {a : α}
    (hc : step c = .ok (a, c₁)) (h : Trail c₁ errors c') :
    Trail c errors c' := by
  have hahead := hs c
  rw [hc] at hahead
  obtain ⟨ts, hts⟩ := hahead
  exact h.before hts

/-- The way behind a step that fails. -/
theorem of_error {α : Type} {step : Step α} (hs : IsForward step)
    {broken : Breakage} (hc : step c = .error broken)
    (h : Trail broken.rest errors c') :
    Trail c (broken.error :: errors) c' := by
  have hahead := hs c
  rw [hc] at hahead
  obtain ⟨ts, hts, t, ht, he⟩ := hahead
  exact .error hts ht he h

end Trail

/-- **The members of an entity type are read forward**, and so are the
errors in them. -/
theorem trail_readMembers (entity : String) (count : Nat) (c : Cursor) :
    Trail c (readMembers entity count c).errors
      (readMembers entity count c).rest := by
  induction count generalizing c with
  | zero => exact .refl c
  | succ count ih =>
    unfold readMembers
    split
    next => exact .of_advance (.refl c.advance)
    next => exact .at_current _ (.refl c)
    next => exact .at_current _ (.refl c)
    next =>
      split
      next => exact .at_current _ (.of_advance (ih c.advance))
      next step hstep =>
        have hforward := (EntityMember.takesFirst_of_read? hstep).isForward
        split
        next item rest hs => exact .of_ok hforward hs (ih rest)
        next broken hs => exact .of_error hforward hs (.of_skipTo (ih _))

/-- **A document is read forward**, and so are the errors in it. -/
theorem trail_readDeclarations (count : Nat) (c : Cursor) :
    Trail c (readDeclarations count c).errors
      (readDeclarations count c).rest := by
  induction count generalizing c with
  | zero => exact .refl c
  | succ count ih =>
    unfold readDeclarations
    split
    next => exact .refl c
    next =>
      have hforward := EntityDecl.takesFirst_readHead.isForward
      split
      next name rest hs =>
        exact .of_ok hforward hs
          ((trail_readMembers name count rest).trans (ih _))
      next broken hs => exact .of_error hforward hs (.of_skipTo (ih _))
    next =>
      have hforward := (RuleDecl.takesFirst_read count).isForward
      split
      next decl rest hs => exact .of_ok hforward hs (ih rest)
      next broken hs => exact .of_error hforward hs (.of_skipTo (ih _))
    next => exact .at_current _ (.of_advance (ih c.advance))

end Entitlement
