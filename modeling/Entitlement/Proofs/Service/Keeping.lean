import Entitlement.Proofs.Service.Afresh
import Entitlement.Proofs.Service.Programs

/-!
# Caches at work

While an operation runs it looks at what is kept ready again and again: for
the schema, twice if it is named and not found at once, and for the program of
every expression that it evaluates. What it does not find it compiles and
keeps. Between two looks anything may happen to what is kept: schemas are
evicted or expire, and others have the cache of programs compile something for
them or clear it. A service that is `Working` meets such `Upkeep` before each
look, as a schedule has it that may be any.

`Keeping` is what works in this way, and `Keeping.serve` makes the lookups of
an inquiry. The argument is the same for all of it (`Keeping.Ends`): what is
kept is sound, so each lookup comes to what it comes to afresh, and it leaves
what is kept sound. A lookup is a few looks, an operation is some lookups, and
a run is some operations.
-/

namespace Entitlement

/-! ## Upkeep -/

/-- **What happens to what is kept ready** while nobody looks: schemas are
evicted or expire, and others call the cache of programs. -/
inductive Upkeep
  | evict (keeps : String × String → Bool)
  | call (call : ProgramCache.Call)

variable {engine : ExpressionEngine} {α β : Type}

/-- The service after some upkeep. -/
def Service.keepUp (s : Service engine) : Upkeep → Service engine
  | .evict keeps => { s with schemas := s.schemas.evict keeps }
  | .call call => { s with programs := s.programs.meet call }

/-- **A service at work**, with the upkeep that happens to it before each of
its next looks at what it keeps ready. -/
structure Working (engine : ExpressionEngine) where
  service : Service engine
  upkeep : Nat → List Upkeep

/-- **What works on a service**, and looks at what it keeps ready. -/
abbrev Keeping (engine : ExpressionEngine) := StateM (Working engine)

namespace Keeping

/-- The service as it is. -/
def service : Keeping engine (Service engine) := do
  pure (← get).service

/-- Changes the service. -/
def update (f : Service engine → Service engine) : Keeping engine Unit :=
  modify fun x => { x with service := f x.service }

/-- Lets the next upkeep happen. -/
def rest : Keeping engine Unit :=
  modify fun x =>
    ⟨(x.upkeep 0).foldl Service.keepUp x.service, fun n => x.upkeep (n + 1)⟩

/-! ### Schemas -/

/-- Looks for a kept schema, if schemas are kept. -/
def findSchema (tenant version : String) : Keeping engine (Option Schema) := do
  rest
  let s ← service
  pure <| if s.settings.schemaCache.enabled then s.schemas.find? tenant version
    else none

/-- Keeps a schema, if schemas are kept. -/
def keepSchema (tenant version : String) (schema : Schema) :
    Keeping engine Unit :=
  update fun s =>
    let cache := s.settings.schemaCache
    if cache.enabled then
      { s with schemas :=
          s.schemas.insert cache.capacity.toNat tenant version schema }
    else s

/-- **The compiled form of a stored version**: the one that is kept, or a
fresh one, which is kept from then on. What does not compile is not kept. -/
def compiled (tenant : String) (stored : StoredSchema) :
    Keeping engine (Except Failure Schema) := do
  match ← findSchema tenant stored.version with
  | some schema => pure (.ok schema)
  | none =>
    match stored.compile engine.refusal? tenant with
    | .error e => pure (.error e)
    | .ok schema => do
      keepSchema tenant stored.version schema
      pure (.ok schema)

/-- The compiled form of what the store reads. -/
def compiledOf (tenant : String) (version : Option String) :
    Keeping engine (Except Failure Schema) := do
  match (← service).store.readVersion tenant version with
  | .error e => pure (.error (.ofStoreError e))
  | .ok stored => compiled tenant stored

/-- **Looks up a schema.** Which one is the latest is always asked of the
store. -/
def schema (tenant : String) :
    Option String → Keeping engine (Except Failure Schema)
  | some version => do
    match ← findSchema tenant version with
    | some schema => pure (.ok schema)
    | none => compiledOf tenant (some version)
  | none => compiledOf tenant none

/-! ### Expressions -/

/-- **The program of a text**: the one that is kept, or else, after one more
look, a fresh one, which is kept from then on. -/
def program (text : String) :
    Keeping engine (Except ConditionError engine.Program) := do
  rest
  match (← service).programs.find? text with
  | some program => pure (.ok program)
  | none => do
    rest
    let s ← service
    update fun s => { s with programs := (s.programs.getOrCompile text).2 }
    pure (s.programs.getOrCompile text).1

/-- Looks up the truth value of an expression. -/
def truth (text : String) (context : ConditionContext) :
    Keeping engine (Except ConditionError Bool) := do
  match ← program text with
  | .error e => pure (.error e)
  | .ok program => pure (engine.holds program context)

/-! ### Operations -/

/-- **Makes the lookups of an inquiry**, one after the other. -/
def serve : Inquiry α → Keeping engine α
  | .done a => pure a
  | .schema tenant version next => do
    serve (next (← schema tenant version))
  | .truth text context next => do
    serve (next (← truth text context))

/-- **Carries out an operation.** -/
def carryOut (operation : Operation) : Keeping engine Answer := do
  let s ← service
  let outcome ← serve (s.inquire operation).run
  let (answer, store) := Service.conclude s.store outcome
  update fun s => { s with store }
  pure answer

/-- Meets an event, and answers if it is an operation. -/
def meet : Service.Event → Keeping engine (List Answer)
  | .operation operation => do
    pure [← carryOut operation]
  | event => do
    update (·.meet event)
    pure []

/-- **Answers all operations** among the events that happen. -/
def answers : List Service.Event → Keeping engine (List Answer)
  | [] => pure []
  | event :: events => do
    let first ← meet event
    let others ← answers events
    pure (first ++ others)

end Keeping

/-! ## What upkeep leaves as it is -/

namespace Service

variable {s b : Service engine}

/-- Upkeep happens only to what is kept ready. -/
theorem Mirrors.keepUp (h : s.Mirrors b) (upkeep : Upkeep) :
    (s.keepUp upkeep).Mirrors b := by
  obtain ⟨⟨hreads, hschemas, hprograms⟩, hbare⟩ := h
  cases upkeep with
  | evict keeps => exact ⟨⟨hreads, hschemas.evict keeps, hprograms⟩, hbare⟩
  | call call => exact ⟨⟨hreads, hschemas, hprograms.meet call⟩, hbare⟩

theorem Mirrors.foldl_keepUp (h : s.Mirrors b) (upkeep : List Upkeep) :
    (upkeep.foldl Service.keepUp s).Mirrors b := by
  induction upkeep generalizing s with
  | nil => exact h
  | cons first upkeep ih => exact ih (h.keepUp first)

end Service

namespace Keeping

variable {b : Service engine}

/-- **Whether something always comes to what is wanted**, with whatever is
kept ready and whatever upkeep, and leaves the service that it found. -/
def Ends (p : Keeping engine α) (b : Service engine) (wanted : α → Prop) :
    Prop :=
  ∀ x : Working engine, x.service.Mirrors b →
    wanted (p.run x).1 ∧ (p.run x).2.service.Mirrors b

theorem ends_pure {wanted : α → Prop} {a : α} (h : wanted a) :
    Ends (pure a) b wanted :=
  fun _ hx => ⟨h, hx⟩

theorem Ends.bind {p : Keeping engine α} {f : α → Keeping engine β}
    {between : α → Prop} {wanted : β → Prop} (hp : Ends p b between)
    (hf : ∀ a, between a → Ends (f a) b wanted) :
    Ends (p >>= f) b wanted := by
  intro x hx
  obtain ⟨hbetween, hx'⟩ := hp x hx
  exact hf (p.run x).1 hbetween (p.run x).2 hx'

theorem ends_service : Ends service b (·.Mirrors b) :=
  fun _ hx => ⟨hx, hx⟩

theorem ends_update {f : Service engine → Service engine}
    (h : ∀ s, s.Mirrors b → (f s).Mirrors b) :
    Ends (update f) b fun _ => True :=
  fun x hx => ⟨trivial, h x.service hx⟩

theorem ends_rest : Ends rest b fun _ => True :=
  fun x hx => ⟨trivial, hx.foldl_keepUp (x.upkeep 0)⟩

/-! ### Lookups -/

/-- **A schema that is found is what its stored version compiles to.** -/
theorem ends_findSchema (tenant version : String) :
    Ends (findSchema tenant version) b fun found =>
      ∀ schema, found = some schema →
        ∃ stored, b.store.readSchema tenant version = .ok stored ∧
          stored.compile engine.refusal? tenant = .ok schema := by
  refine ends_rest.bind fun _ _ => ends_service.bind fun s hs => ends_pure ?_
  intro schema hfound
  rw [← hs.store_eq]
  split at hfound
  · exact hs.coherent.schemas tenant version schema hfound
  · cases hfound

theorem ends_keepSchema {tenant version : String} {stored : StoredSchema}
    {schema : Schema} (hread : b.store.readSchema tenant version = .ok stored)
    (hcompile : stored.compile engine.refusal? tenant = .ok schema) :
    Ends (keepSchema tenant version schema) b fun _ => True := by
  refine ends_update fun s hs => ?_
  rw [← hs.store_eq] at hread
  obtain ⟨⟨hreads, hschemas, hprograms⟩, hbare⟩ := hs
  simp only
  split
  · exact ⟨⟨hreads, hschemas.insert _ hread hcompile, hprograms⟩, hbare⟩
  · exact ⟨⟨hreads, hschemas, hprograms⟩, hbare⟩

/-- **A stored version comes to what it compiles to**, kept or not. -/
theorem ends_compiled {tenant : String} {stored : StoredSchema}
    (hread : b.store.readSchema tenant stored.version = .ok stored) :
    Ends (compiled tenant stored) b
      (· = stored.compile engine.refusal? tenant) := by
  refine (ends_findSchema tenant stored.version).bind fun found hfound => ?_
  cases found with
  | some schema =>
    obtain ⟨kept, hkept, hcompile⟩ := hfound schema rfl
    cases hread.symm.trans hkept
    exact ends_pure hcompile.symm
  | none =>
    simp only
    cases hcompile : stored.compile engine.refusal? tenant with
    | error e => exact ends_pure rfl
    | ok schema =>
      exact (ends_keepSchema hread hcompile).bind fun _ _ => ends_pure rfl

theorem ends_compiledOf (hb : b.store.ReadsBack) (tenant : String)
    (version : Option String) :
    Ends (compiledOf tenant version) b
      (· = b.afresh.schema tenant version) := by
  refine ends_service.bind fun s hs => ?_
  rw [hs.store_eq]
  show Ends _ b (· = ((b.store.readVersion tenant version).mapError _ >>= _))
  cases hread : b.store.readVersion tenant version with
  | error e => exact ends_pure rfl
  | ok stored =>
    have hmem : stored ∈ (b.store.tenant tenant).schemas := by
      cases version with
      | some version => exact (Store.mem_of_readSchema hread).1
      | none => exact Store.mem_of_latestSchema hread
    exact ends_compiled (hb tenant stored hmem)

/-- **A lookup of a schema comes to what it comes to afresh.** -/
theorem ends_schema (hb : b.store.ReadsBack) (tenant : String)
    (version : Option String) :
    Ends (schema tenant version) b (· = b.afresh.schema tenant version) := by
  cases version with
  | none => exact ends_compiledOf hb tenant none
  | some version =>
    refine (ends_findSchema tenant version).bind fun found hfound => ?_
    cases found with
    | none => exact ends_compiledOf hb tenant (some version)
    | some schema =>
      obtain ⟨stored, hread, hcompile⟩ := hfound schema rfl
      refine ends_pure ?_
      show _ = ((b.store.readSchema tenant version).mapError _ >>= _)
      rw [hread]
      exact hcompile.symm

/-- **A text has the program that it compiles to**, kept or not. -/
theorem ends_program (text : String) :
    Ends (program text) b (· = engine.compile text) := by
  refine ends_rest.bind fun _ _ => ends_service.bind fun s hs => ?_
  cases hfind : s.programs.find? text with
  | some program =>
    exact ends_pure (hs.coherent.programs text program hfind).symm
  | none =>
    refine ends_rest.bind fun _ _ => ends_service.bind fun s hs =>
      (ends_update fun s hs => ?_).bind fun _ _ =>
        ends_pure (ProgramCache.getOrCompile_fst hs.coherent.programs text)
    obtain ⟨⟨hreads, hschemas, hprograms⟩, hbare⟩ := hs
    exact ⟨⟨hreads, hschemas,
      ProgramCache.sound_getOrCompile hprograms text⟩, hbare⟩

/-- **A lookup of a truth value comes to what it comes to afresh.** -/
theorem ends_truth (text : String) (context : ConditionContext) :
    Ends (truth text context) b (· = b.afresh.truth text context) := by
  refine (ends_program text).bind fun outcome houtcome => ?_
  subst houtcome
  show Ends _ b (· = (engine.compile text >>= _))
  cases engine.compile text with
  | error e => exact ends_pure rfl
  | ok program => exact ends_pure rfl

/-- **An inquiry comes to what it comes to afresh**, whatever is kept ready
and whatever gets lost on the way. -/
theorem ends_serve (hb : b.store.ReadsBack) (inquiry : Inquiry α) :
    Ends (serve inquiry) b (· = inquiry.result b.afresh) := by
  induction inquiry with
  | done a => exact ends_pure rfl
  | schema tenant version next ih =>
    refine (ends_schema hb tenant version).bind fun outcome houtcome => ?_
    subst houtcome
    exact ih _
  | truth text context next ih =>
    refine (ends_truth text context).bind fun outcome houtcome => ?_
    subst houtcome
    exact ih _

/-! ### Operations -/

/-- **An operation goes as it goes afresh**, whatever is kept ready and
whatever gets lost on the way. -/
theorem run_carryOut (hb : b.Coherent) (operation : Operation)
    {x : Working engine} (hx : x.service.Mirrors b) :
    ((carryOut operation).run x).1 = (b.applyAfresh operation).1 ∧
      ((carryOut operation).run x).2.service.Mirrors
        { b with store := (b.applyAfresh operation).2 } := by
  have hinquire : x.service.inquire operation = b.inquire operation := by
    rw [← Service.inquire_bare, hx.bare, Service.inquire_bare]
  obtain ⟨houtcome, hserved⟩ :=
    ends_serve hb.readsBack (b.inquire operation).run x hx
  have hconclude : Service.conclude x.service.store
        ((serve (b.inquire operation).run).run x).1
      = b.applyAfresh operation := by
    rw [houtcome, hx.store_eq]
    rfl
  have hrun : (carryOut operation).run x
      = ((b.applyAfresh operation).1,
          { ((serve (b.inquire operation).run).run x).2 with
            service :=
              { ((serve (b.inquire operation).run).run x).2.service with
                store := (b.applyAfresh operation).2 } }) := by
    rw [← hconclude, ← hinquire]
    rfl
  rw [hrun]
  exact ⟨rfl, hserved.withStore (hb.keepsVersions_applyAfresh operation)
    (hb.readsBack_applyAfresh operation)⟩

/-- An event is met as it is met afresh. -/
theorem run_meet (hb : b.Coherent) (event : Service.Event)
    {x : Working engine} (hx : x.service.Mirrors b) :
    ((meet event).run x).1 = (b.meetAfresh event).1 ∧
      ((meet event).run x).2.service.Mirrors (b.meetAfresh event).2 := by
  by_cases hevent : ∃ operation, event = .operation operation
  · obtain ⟨operation, rfl⟩ := hevent
    obtain ⟨hanswer, hmirrors⟩ := run_carryOut hb operation hx
    exact ⟨congrArg (fun answer => [answer]) hanswer, hmirrors⟩
  · rw [not_exists] at hevent
    have hmeet : (meet event : Keeping engine (List Answer)).run x
        = ([], { x with service := x.service.meet event }) := by
      cases event with
      | operation operation => exact absurd rfl (hevent operation)
      | _ => rfl
    rw [hmeet, Service.meetAfresh_of_ne hevent]
    exact ⟨rfl, hx.meet hevent⟩

/-- **All operations are answered as they are answered afresh.** -/
theorem run_answers (hb : b.Coherent) (events : List Service.Event)
    {x : Working engine} (hx : x.service.Mirrors b) :
    ((answers events).run x).1 = b.answersAfresh events := by
  induction events generalizing b x with
  | nil => rfl
  | cons event events ih =>
    obtain ⟨hfirst, hmirrors⟩ := run_meet hb event hx
    have hothers := ih (hb.meetAfresh event) hmirrors
    rw [Service.answersAfresh, ← hfirst, ← hothers]
    rfl

/-- **What is kept ready does not show.** A service that keeps schemas or does
not, with a cache of programs that was called before in any way, answers as a
service does that compiles a schema whenever it reads one, and an expression
whenever it evaluates one. It does so whatever gets lost, and whoever else
calls the cache of programs, before any of its looks. So does `Service.apply`,
which makes ready at once all that an operation may use. The cache of programs
counts the different texts that compile among those that it was asked for
since it was cleared. -/
theorem caches_are_transparent (settings : Settings)
    (calls : List ProgramCache.Call) (upkeep : Nat → List Upkeep)
    (events : List Service.Event) :
    let start : Service engine :=
      { settings, programs := ProgramCache.empty.after calls }
    let afresh := ({ settings } : Service engine).answersAfresh events
    ((answers events).run ⟨start, upkeep⟩).1 = afresh ∧
    start.answers events = afresh ∧
    start.programs.entryCount
      = ((ProgramCache.askedFor [] calls).filter
          (ProgramCache.compiles engine)).toFinset.card := by
  intro start afresh
  have hnew : ({ settings } : Service engine).Coherent :=
    Service.coherent_new settings
  have hmirrors : start.Mirrors { settings } :=
    ⟨⟨hnew.readsBack, hnew.schemas, ProgramCache.sound_empty.after calls⟩, rfl⟩
  exact ⟨run_answers hnew events hmirrors, hmirrors.answers_eq events,
    ProgramCache.entryCount_after calls⟩

/-- A permission with an expression is checked. -/
def conditionalEvents : List Service.Event :=
  [.operation (.writeSchema "t"
      "entity user {} entity document { permission view = rule(1 < 2) }" "v" 0),
    .operation (.check {
      tenant := "t"
      entity := ⟨"document", "d"⟩
      permission := "view"
      subject := ⟨"user", "u"⟩ })]

/-- Its schema and its expression are kept. -/
example :
    (fun s => (s.schemas.entries.length, s.programs.entryCount))
      ((answers conditionalEvents).run
        (⟨{}, fun _ => []⟩ : Working Condition.engine)).2.service
      = (1, 1) := by
  decide +kernel

end Keeping

end Entitlement
