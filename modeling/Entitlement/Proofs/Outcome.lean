/-!
# Outcomes put together from parts

A query either has an answer or a failure, and both come from its parts:
a sequence answers if every step of it does, and fails as the first step
that fails. The lemmas here say so for the ways in which queries are put
together, so that a proof about a query takes it apart by rewriting and
never by unfolding a monad.

Two queries are compared in the same way. `Outcome.Settles` says that one
outcome is also the other, unless it is a failure of a sort that does not
count, and `Outcome.Related` that two outcomes correspond. Both pass from
the steps of two sequences to the sequences.
-/

namespace Entitlement

namespace Outcome

variable {ε ε' α β : Type}

/-- A sequence answers exactly if both of its steps do. -/
theorem bind_eq_ok_iff {x : Except ε α} {f : α → Except ε β} {b : β} :
    (x >>= f) = .ok b ↔ ∃ a, x = .ok a ∧ f a = .ok b := by
  cases x <;> simp [bind, Except.bind]

/-- A sequence fails as the first of its steps that fails. -/
theorem bind_eq_error_iff {x : Except ε α} {f : α → Except ε β} {e : ε} :
    (x >>= f) = .error e ↔
      x = .error e ∨ ∃ a, x = .ok a ∧ f a = .error e := by
  cases x <;> simp [bind, Except.bind]

theorem pure_eq_ok_iff {a b : α} :
    (pure a : Except ε α) = .ok b ↔ a = b := by
  simp [pure, Except.pure]

theorem pure_ne_error {a : α} {e : ε} :
    (pure a : Except ε α) ≠ .error e := by
  simp [pure, Except.pure]

theorem map_eq_ok_iff {x : Except ε α} {f : α → β} {b : β} :
    x.map f = .ok b ↔ ∃ a, x = .ok a ∧ f a = b := by
  cases x <;> simp [Except.map]

theorem map_eq_error_iff {x : Except ε α} {f : α → β} {e : ε} :
    x.map f = .error e ↔ x = .error e := by
  cases x <;> simp [Except.map]

/-- Wording a failure anew changes no answer. -/
theorem mapError_eq_ok_iff {x : Except ε α} {f : ε → ε'} {a : α} :
    x.mapError f = .ok a ↔ x = .ok a := by
  cases x with
  | ok b =>
    show Except.ok b = .ok a ↔ _
    simp
  | error e =>
    show Except.error (f e) = .ok a ↔ _
    simp

theorem mapError_eq_error_iff {x : Except ε α} {f : ε → ε'} {e : ε'} :
    x.mapError f = .error e ↔ ∃ d, x = .error d ∧ f d = e := by
  cases x with
  | ok a =>
    show Except.ok a = .error e ↔ _
    simp
  | error d =>
    show Except.error (f d) = .error e ↔ _
    simp

/-- An outcome that keeps its answer when the failure is forgotten. -/
theorem eq_ok_of_toOption {x : Except ε α} {a : α}
    (h : x.toOption = some a) : x = .ok a := by
  cases x with
  | ok b => exact congrArg Except.ok (Option.some.inj h)
  | error e => cases h

/-! ## Searches

`List.anyM` asks the elements one by one and stops at the first that says
yes, so of an answer no one knows whether the later elements have one. -/

variable {p : α → Except ε Bool} {xs : List α}

/-- A search that says yes met an element that does. -/
theorem exists_of_anyM (h : xs.anyM p = .ok true) :
    ∃ x ∈ xs, p x = .ok true := by
  induction xs with
  | nil => simp [pure, Except.pure] at h
  | cons x xs ih =>
    rw [List.anyM_cons, bind_eq_ok_iff] at h
    obtain ⟨found, hx, h⟩ := h
    cases found with
    | true => exact ⟨x, List.mem_cons_self, hx⟩
    | false =>
      obtain ⟨y, hy, hpy⟩ := ih h
      exact ⟨y, List.mem_cons_of_mem x hy, hpy⟩

/-- A search that says no went through all elements. -/
theorem forall_of_anyM (h : xs.anyM p = .ok false) :
    ∀ x ∈ xs, p x = .ok false := by
  induction xs with
  | nil => exact fun x hx => absurd hx List.not_mem_nil
  | cons x xs ih =>
    rw [List.anyM_cons, bind_eq_ok_iff] at h
    obtain ⟨found, hx, h⟩ := h
    cases found with
    | true => simp [pure, Except.pure] at h
    | false =>
      intro y hy
      rcases List.mem_cons.mp hy with rfl | hy
      · exact hx
      · exact ih h y hy

/-- A search fails only at an element. -/
theorem exists_of_anyM_eq_error {e : ε} (h : xs.anyM p = .error e) :
    ∃ x ∈ xs, p x = .error e := by
  induction xs with
  | nil => simp [pure, Except.pure] at h
  | cons x xs ih =>
    rw [List.anyM_cons, bind_eq_error_iff] at h
    rcases h with h | ⟨found, -, h⟩
    · exact ⟨x, List.mem_cons_self, h⟩
    · cases found with
      | true => simp [pure, Except.pure] at h
      | false =>
        obtain ⟨y, hy, hpy⟩ := ih h
        exact ⟨y, List.mem_cons_of_mem x hy, hpy⟩

/-- **A search among elements that have an answer finds what there is.** -/
theorem anyM_eq_ok_any {g : α → Bool} (h : ∀ x ∈ xs, p x = .ok (g x)) :
    xs.anyM p = .ok (xs.any g) := by
  induction xs with
  | nil => rfl
  | cons x xs ih =>
    rw [List.anyM_cons, h x List.mem_cons_self, List.any_cons]
    have hrest := ih fun y hy => h y (List.mem_cons_of_mem x hy)
    cases hx : g x with
    | true => rfl
    | false => exact hrest

/-- A list is converted element by element. -/
theorem exists_of_mapM {f : α → Except ε β} {ys : List β}
  (h : xs.mapM f = .ok ys) :
    ∀ y ∈ ys, ∃ x ∈ xs, f x = .ok y := by
  induction xs generalizing ys with
  | nil =>
    rw [List.mapM_nil, pure_eq_ok_iff] at h
    subst h
    exact fun y hy => absurd hy List.not_mem_nil
  | cons x xs ih =>
    rw [List.mapM_cons] at h
    obtain ⟨z, hz, h⟩ := bind_eq_ok_iff.mp h
    obtain ⟨zs, hzs, h⟩ := bind_eq_ok_iff.mp h
    rw [pure_eq_ok_iff] at h
    subst h
    intro y hy
    rcases List.mem_cons.mp hy with rfl | hy
    · exact ⟨x, List.mem_cons_self, hz⟩
    · obtain ⟨x', hx', hy⟩ := ih hzs y hy
      exact ⟨x', List.mem_cons_of_mem x hx', hy⟩

/-- A list is converted only if all its elements are. -/
theorem forall_exists_of_mapM {f : α → Except ε β} {ys : List β}
    (h : xs.mapM f = .ok ys) : ∀ x ∈ xs, ∃ y, f x = .ok y := by
  induction xs generalizing ys with
  | nil => exact fun x hx => absurd hx List.not_mem_nil
  | cons x xs ih =>
    rw [List.mapM_cons] at h
    obtain ⟨z, hz, h⟩ := bind_eq_ok_iff.mp h
    obtain ⟨zs, hzs, -⟩ := bind_eq_ok_iff.mp h
    exact List.forall_mem_cons.mpr ⟨⟨z, hz⟩, ih hzs⟩

/-- A conversion of a list fails only at an element. -/
theorem exists_of_mapM_eq_error {f : α → Except ε β} {e : ε}
    (h : xs.mapM f = .error e) : ∃ x ∈ xs, f x = .error e := by
  induction xs with
  | nil => exact absurd h pure_ne_error
  | cons x xs ih =>
    rw [List.mapM_cons, bind_eq_error_iff] at h
    rcases h with h | ⟨y, -, h⟩
    · exact ⟨x, List.mem_cons_self, h⟩
    rcases bind_eq_error_iff.mp h with h | ⟨ys, -, h⟩
    · obtain ⟨x', hx', h⟩ := ih h
      exact ⟨x', List.mem_cons_of_mem x hx', h⟩
    · exact absurd h pure_ne_error

/-- What is found in a list is found converted in the list that it is
converted to, if the conversion keeps what is looked for. -/
theorem exists_find?_of_mapM {f : α → Except ε β} {p : α → Bool}
    {p' : β → Bool} (hp : ∀ {x y}, f x = .ok y → p' y = p x) {ys : List β}
    (h : xs.mapM f = .ok ys) {x : α} (hx : xs.find? p = some x) :
    ∃ y, ys.find? p' = some y ∧ f x = .ok y := by
  induction xs generalizing ys with
  | nil => cases hx
  | cons first rest ih =>
    rw [List.mapM_cons] at h
    obtain ⟨z, hz, h⟩ := bind_eq_ok_iff.mp h
    obtain ⟨zs, hzs, h⟩ := bind_eq_ok_iff.mp h
    rw [pure_eq_ok_iff] at h
    subst h
    rw [List.find?_cons] at hx ⊢
    rw [hp hz]
    cases hfirst : p first with
    | true =>
      rw [hfirst] at hx
      cases hx
      exact ⟨z, rfl, hz⟩
    | false =>
      rw [hfirst] at hx
      exact ih hzs hx

/-- A list passes a check if each of its elements does. -/
theorem forM_eq_ok_iff {f : α → Except ε Unit} :
    xs.forM f = .ok () ↔ ∀ x ∈ xs, f x = .ok () := by
  induction xs with
  | nil => exact iff_of_true rfl fun _ h => absurd h List.not_mem_nil
  | cons x xs ih =>
    show (f x >>= fun _ => xs.forM f) = _ ↔ _
    rw [bind_eq_ok_iff, List.forall_mem_cons, ← ih]
    exact ⟨fun ⟨_, hx, hxs⟩ => ⟨hx, hxs⟩, fun ⟨hx, hxs⟩ => ⟨(), hx, hxs⟩⟩

/-- **A list of elements that are converted is converted.** -/
theorem mapM_eq_ok_map {f : α → Except ε β} {g : α → β}
    (h : ∀ x ∈ xs, f x = .ok (g x)) : xs.mapM f = .ok (xs.map g) := by
  induction xs with
  | nil => rfl
  | cons x xs ih =>
    obtain ⟨hx, hxs⟩ := List.forall_mem_cons.mp h
    rw [List.mapM_cons, hx, ih hxs]
    rfl

/-- A list that is converted is converted back, if its elements are. -/
theorem mapM_eq_ok_of_mapM {f : α → Except ε β} {g : β → Except ε' α}
    (hg : ∀ {x y}, f x = .ok y → g y = .ok x) {ys : List β}
    (h : xs.mapM f = .ok ys) : ys.mapM g = .ok xs := by
  induction xs generalizing ys with
  | nil =>
    rw [List.mapM_nil, pure_eq_ok_iff] at h
    subst h
    rfl
  | cons x xs ih =>
    rw [List.mapM_cons] at h
    obtain ⟨z, hz, h⟩ := bind_eq_ok_iff.mp h
    obtain ⟨zs, hzs, h⟩ := bind_eq_ok_iff.mp h
    rw [pure_eq_ok_iff] at h
    subst h
    rw [List.mapM_cons, hg hz, ih hzs]
    rfl

/-- **What every step of a fold keeps holds at its end**, and what every
step shows of its element is true of all elements. -/
theorem forall_of_foldlM {f : β → α → Except ε β} {I : β → Prop}
    {P : α → Prop} {b b' : β}
    (hstep : ∀ x ∈ xs, ∀ b b', I b → f b x = .ok b' → I b' ∧ P x)
    (h : xs.foldlM f b = .ok b') (hb : I b) : I b' ∧ ∀ x ∈ xs, P x := by
  induction xs generalizing b with
  | nil =>
    rw [List.foldlM_nil, pure_eq_ok_iff] at h
    subst h
    exact ⟨hb, fun x hx => absurd hx List.not_mem_nil⟩
  | cons x xs ih =>
    rw [List.foldlM_cons] at h
    obtain ⟨c, hc, h⟩ := bind_eq_ok_iff.mp h
    obtain ⟨hI, hx⟩ := hstep x List.mem_cons_self b c hb hc
    obtain ⟨hI', hxs⟩ :=
      ih (fun y hy => hstep y (List.mem_cons_of_mem x hy)) h hI
    exact ⟨hI', List.forall_mem_cons.mpr ⟨hx, hxs⟩⟩

/-- A fold fails only at one of its steps. -/
theorem exists_of_foldlM_eq_error {f : β → α → Except ε β} {b : β} {e : ε}
    (h : xs.foldlM f b = .error e) : ∃ x ∈ xs, ∃ b, f b x = .error e := by
  induction xs generalizing b with
  | nil => exact absurd h pure_ne_error
  | cons x xs ih =>
    rw [List.foldlM_cons, bind_eq_error_iff] at h
    rcases h with h | ⟨c, -, h⟩
    · exact ⟨x, List.mem_cons_self, b, h⟩
    · obtain ⟨y, hy, hstep⟩ := ih h
      exact ⟨y, List.mem_cons_of_mem x hy, hstep⟩

/-! ## Outcomes side by side

Of two ways to put an outcome together, one may fail where the other goes
on. It is enough to know this of the parts. -/

/-- **Whether an outcome settles another one**: the other is the same,
unless the first is a failure that is excused. -/
def Settles (excused : ε → Prop) (x y : Except ε α) : Prop :=
  x = y ∨ ∃ e, excused e ∧ x = .error e

namespace Settles

variable {excused : ε → Prop} {x y : Except ε α}

@[refl, simp] theorem refl (x : Except ε α) : Settles excused x x :=
  Or.inl rfl

/-- What is excused settles anything. -/
theorem of_excused {e : ε} (he : excused e) (y : Except ε α) :
    Settles excused (.error e) y :=
  Or.inr ⟨e, he, rfl⟩

/-- What is not excused is the same. -/
theorem eq (h : Settles excused x y)
    (hx : ∀ e, x = .error e → ¬ excused e) : x = y := by
  rcases h with h | ⟨e, he, rfl⟩
  · exact h
  · exact absurd he (hx e rfl)

/-- An answer is the same. -/
theorem eq_ok (h : Settles excused x y) {a : α} (hx : x = .ok a) :
    y = .ok a := by
  subst hx
  exact (h.eq fun _ he => nomatch he).symm

/-- What keeps its answers settles if every failure is excused. -/
theorem of_ok (h : ∀ a, x = .ok a → y = .ok a) :
    Settles (fun _ => True) x y := by
  cases x with
  | ok a => exact .inl (h a rfl).symm
  | error e => exact of_excused trivial y

/-- If nothing is excused, two outcomes are one. -/
theorem eq_of_none (h : Settles (fun _ => False) x y) : x = y :=
  h.eq fun _ _ => id

/-- A sequence settles another one if its steps do. -/
theorem bind {f g : α → Except ε β} (h : Settles excused x y)
    (hf : ∀ a, y = .ok a → Settles excused (f a) (g a)) :
    Settles excused (x >>= f) (y >>= g) := by
  rcases h with rfl | ⟨e, he, rfl⟩
  · cases x with
    | ok a => exact hf a rfl
    | error e => exact refl _
  · exact of_excused he _

theorem map (h : Settles excused x y) (f : α → β) :
    Settles excused (x.map f) (y.map f) := by
  rcases h with rfl | ⟨e, he, rfl⟩
  · exact refl _
  · exact of_excused he _

/-- Failures that are worded anew settle if the new words are excused for
what was excused before. -/
theorem mapError {excused' : ε' → Prop} {f : ε → ε'}
    (h : Settles excused x y) (hf : ∀ e, excused e → excused' (f e)) :
    Settles excused' (x.mapError f) (y.mapError f) := by
  rcases h with rfl | ⟨e, he, rfl⟩
  · exact refl _
  · exact of_excused (hf e he) _

/-- A search settles another one among the same elements. -/
theorem anyM {p p' : α → Except ε Bool} {xs : List α}
    (h : ∀ a ∈ xs, Settles excused (p a) (p' a)) :
    Settles excused (xs.anyM p) (xs.anyM p') := by
  induction xs with
  | nil => exact refl _
  | cons a xs ih =>
    rw [List.anyM_cons, List.anyM_cons]
    refine (h a List.mem_cons_self).bind fun found _ => ?_
    cases found with
    | true => exact refl _
    | false => exact ih fun b hb => h b (List.mem_cons_of_mem a hb)

/-- A list that is converted settles another one if its elements do. -/
theorem mapM {f g : α → Except ε β} {xs : List α}
    (h : ∀ a ∈ xs, Settles excused (f a) (g a)) :
    Settles excused (xs.mapM f) (xs.mapM g) := by
  induction xs with
  | nil => exact refl _
  | cons a xs ih =>
    rw [List.mapM_cons, List.mapM_cons]
    refine (h a List.mem_cons_self).bind fun _ _ => ?_
    refine (ih fun b hb => h b (List.mem_cons_of_mem a hb)).bind fun _ _ => ?_
    exact refl _

end Settles

/-! ## Outcomes that correspond

Where the same is done to different things, what comes out is not the same,
but it corresponds. -/

/-- **Whether two outcomes correspond**: either both fail in the same way,
or both have an answer, and the answers correspond. -/
inductive Related (R : α → β → Prop) : Except ε α → Except ε β → Prop
  | ok {a : α} {b : β} : R a b → Related R (.ok a) (.ok b)
  | error (e : ε) : Related R (.error e) (.error e)

namespace Related

variable {γ δ : Type} {R : α → β → Prop} {S : γ → δ → Prop}
  {x : Except ε α} {y : Except ε β}

theorem refl (x : Except ε α) : Related Eq x x := by
  cases x with
  | ok a => exact .ok rfl
  | error e => exact .error e

/-- What has an answer corresponds to what has one. -/
theorem exists_of_ok (h : Related R x y) {a : α} (hx : x = .ok a) :
    ∃ b, y = .ok b ∧ R a b := by
  subst hx
  cases h with
  | ok hab => exact ⟨_, rfl, hab⟩

/-- Sequences correspond if their steps do. -/
theorem bind {f : α → Except ε γ} {g : β → Except ε δ} (h : Related R x y)
    (hf : ∀ {a b}, R a b → Related S (f a) (g b)) :
    Related S (x >>= f) (y >>= g) := by
  cases h with
  | ok hab => exact hf hab
  | error e => exact .error e

theorem map {f : α → γ} {g : β → δ} (h : Related R x y)
    (hf : ∀ {a b}, R a b → S (f a) (g b)) :
    Related S (x.map f) (y.map g) := by
  cases h with
  | ok hab => exact .ok (hf hab)
  | error e => exact .error e

theorem mapError (h : Related R x y) (f : ε → ε') :
    Related R (x.mapError f) (y.mapError f) := by
  cases h with
  | ok hab => exact .ok hab
  | error e => exact .error (f e)

end Related

end Outcome

end Entitlement
