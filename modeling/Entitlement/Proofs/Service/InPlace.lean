import Entitlement.Proofs.Service.Queries
import Entitlement.Proofs.Service.Tenants

/-!
# Changes that fail

An operation of the service comes to an answer and to the service that goes
on, so that it is a matter of course that one that fails changes nothing.
What runs is no such function: it goes through its arguments one by one,
refuses some of them, and writes to the store element by element. A
`Procedure` is of this kind. It works on the service in place, and what it
has changed stays changed when it fails.

`Change.procedure` says how each of the five changes is carried out. Each
checks all that it is given before it writes anything, and so it does what the
operation says or nothing at all (`Change.perform_procedure`). Whoever uses
the service after a change that failed does not notice that there was one.
-/

namespace Entitlement

/-! ## Procedures -/

/-- **What works on a service in place.** It may fail, and then the service
is what has become of it so far. -/
abbrev Procedure (engine : ExpressionEngine) :=
  ExceptT ServiceError (StateM (Service engine))

namespace Procedure

variable {engine : ExpressionEngine} {α β : Type}

/-- To look at the service. What is looked for may be missing. -/
def ask (look : Service engine → Except ServiceError α) :
    Procedure engine α :=
  ExceptT.mk fun s => (look s, s)

/-- To go on unless something is refused. -/
def check (outcome : Except ServiceError Unit) : Procedure engine Unit :=
  ask fun _ => outcome

/-- To go on unless the store refuses something. -/
def checkStored (outcome : Except StoreError Unit) : Procedure engine Unit :=
  check (outcome.mapError .store)

/-- To change the service. -/
def update (f : Service engine → Service engine) : Procedure engine Unit :=
  ExceptT.mk fun s => (.ok (), f s)

/-- To change the data of a tenant. -/
def updateData (tenant : String) (f : TenantData → TenantData) :
    Procedure engine Unit :=
  update fun s => s.withData tenant (f (s.store.tenant tenant))

/-- The answer that a procedure comes to, and the service behind it. -/
def perform (p : Procedure engine Answer) (s : Service engine) :
    Answer × Service engine :=
  match p.run.run s with
  | (.ok answer, s') => (answer, s')
  | (.error e, s') => (.error e, s')

/-- What is left of a service: what it has become, or after a failure the
service that it was. -/
def allOrNothing (s : Service engine) :
    Except ServiceError (α × Service engine) →
      Except ServiceError α × Service engine
  | .ok (a, s') => (.ok a, s')
  | .error e => (.error e, s)

/-- **Whether a procedure does what a function says, or nothing.** -/
def Does (p : Procedure engine α)
    (f : Service engine → Except ServiceError (α × Service engine)) : Prop :=
  ∀ s, p.run.run s = allOrNothing s (f s)

section

variable {look : Service engine → Except ServiceError α}
  (p : α → Procedure engine β) {s : Service engine}

theorem run_ask_bind_of_ok {a : α} (h : look s = .ok a) :
    (ask look >>= p).run.run s = (p a).run.run s := by
  have hask : (ask look).run.run s = (.ok a, s) := congrArg (·, s) h
  rw [ExceptT.run_bind, StateT.run_bind, hask]
  rfl

theorem run_ask_bind_of_error {e : ServiceError} (h : look s = .error e) :
    (ask look >>= p).run.run s = (.error e, s) := by
  have hask : (ask look).run.run s = (.error e, s) := congrArg (·, s) h
  rw [ExceptT.run_bind, StateT.run_bind, hask]
  rfl

end

/-- **To look at the service first is to do all or nothing**, if the rest
is. -/
theorem does_ask_bind {look : Service engine → Except ServiceError α}
    {p : α → Procedure engine β}
    {f : α → Service engine → Except ServiceError (β × Service engine)}
    (h : ∀ a, (p a).Does (f a)) :
    (ask look >>= p).Does fun s => look s >>= fun a => f a s := by
  intro s
  show _ = allOrNothing s (look s >>= fun a => f a s)
  cases hlook : look s with
  | ok a => exact (run_ask_bind_of_ok p hlook).trans (h a s)
  | error e => exact run_ask_bind_of_error p hlook

theorem does_check_bind {outcome : Except ServiceError Unit}
    {p : Unit → Procedure engine β}
    {f : Service engine → Except ServiceError (β × Service engine)}
    (h : (p ()).Does f) :
    (check outcome >>= p).Does fun s => outcome >>= fun _ => f s :=
  does_ask_bind fun _ => h

theorem does_checkStored_bind {outcome : Except StoreError Unit}
    {p : Unit → Procedure engine β}
    {f : Service engine → Except ServiceError (β × Service engine)}
    (h : (p ()).Does f) :
    (checkStored outcome >>= p).Does fun s =>
      outcome.mapError .store >>= fun _ => f s :=
  does_check_bind h

theorem Does.congr {p : Procedure engine α}
    {f g : Service engine → Except ServiceError (α × Service engine)}
    (h : p.Does f) (hfg : ∀ s, f s = g s) : p.Does g :=
  fun s => hfg s ▸ h s

/-- **What does all or nothing makes a change of the service.** -/
theorem Does.perform_eq {p : Procedure engine Answer}
    {result : Service engine → Except ServiceError (α × Service engine)}
    {shown : α → Answer}
    (h : p.Does fun s => (result s).map fun x => (shown x.1, x.2))
    (s : Service engine) : p.perform s = s.change (result s) shown := by
  unfold perform Service.change
  have hs : p.run.run s
      = allOrNothing s ((result s).map fun x => (shown x.1, x.2)) := h s
  rw [hs]
  cases result s <;> rfl

/-- To check elements one by one is to check the list. -/
theorem forM_check (f : α → Except ServiceError Unit) (xs : List α) :
    (xs.forM fun x => (check (f x) : Procedure engine Unit))
      = check (xs.forM f) := by
  induction xs with
  | nil => rfl
  | cons x xs ih =>
    show (check (f x) >>= fun _ => xs.forM fun x => check (f x))
      = check (f x >>= fun _ => xs.forM f)
    rw [ih]
    cases f x <;> rfl

theorem forM_checkStored (f : α → Except StoreError Unit) (xs : List α) :
    (xs.forM fun x => (checkStored (f x) : Procedure engine Unit))
      = checkStored (xs.forM f) := by
  unfold checkStored
  rw [forM_check]
  congr 1
  induction xs with
  | nil => rfl
  | cons x xs ih =>
    show ((f x).mapError _ >>= fun _ => xs.forM _)
      = (f x >>= fun _ => xs.forM f).mapError _
    rw [ih]
    cases f x <;> rfl

end Procedure

/-! ## Writing in place -/

/-- What is written for a tenant last is what counts. -/
theorem Store.setTenant_setTenant (s : Store) (tenant : String)
    (data data' : TenantData) :
    (s.setTenant tenant data).setTenant tenant data'
      = s.setTenant tenant data' :=
  congrArg Store.mk (@insertBy_insertBy _ _ _ _ _ Prod.fst (tenant, data)
    (tenant, data') rfl s.tenants)

namespace Service

variable {engine : ExpressionEngine}

theorem withData_withData (s : Service engine) (tenant : String)
    (data data' : TenantData) :
    (s.withData tenant data).withData tenant data'
      = s.withData tenant data' := by
  unfold withData
  rw [Store.setTenant_setTenant]

end Service

namespace Procedure

variable {engine : ExpressionEngine} {α : Type}

/-- **To change data for elements one by one**, when the tenant has an
entry, is to change it for all of them. -/
theorem run_forM_updateData (tenant : String)
    (f : α → TenantData → TenantData) (xs : List α) (s : Service engine)
    (data : TenantData) :
    (xs.forM fun x => updateData tenant (f x)).run.run (s.withData tenant data)
      = (.ok (),
          s.withData tenant (xs.foldl (fun data x => f x data) data)) := by
  induction xs generalizing data with
  | nil => rfl
  | cons x xs ih =>
    show (xs.forM fun x => updateData tenant (f x)).run.run
      ((s.withData tenant data).withData tenant
        (f x ((s.withData tenant data).store.tenant tenant))) = _
    rw [Service.withData_withData]
    show (xs.forM fun x => updateData tenant (f x)).run.run
      (s.withData tenant (f x ((s.store.setTenant tenant data).tenant tenant)))
      = _
    rw [Store.tenant_setTenant_self, ih, List.foldl_cons]

/-- So is to enter the tenant and then to change its data. -/
theorem does_forM_updateData (tenant : String)
    (f : α → TenantData → TenantData) (xs : List α) (answer : Answer) :
    @Does engine _
      (do
        updateData tenant id
        xs.forM fun x => updateData tenant (f x)
        pure answer)
      fun s => .ok (answer, s.withData tenant
        (xs.foldl (fun data x => f x data) (s.store.tenant tenant))) := by
  intro s
  have hloop := run_forM_updateData tenant f xs s (s.store.tenant tenant)
  show ((do
    xs.forM fun x => updateData tenant (f x)
    pure answer : Procedure engine Answer)).run.run
      (s.withData tenant (s.store.tenant tenant)) = _
  rw [ExceptT.run_bind, StateT.run_bind, hloop]
  rfl

end Procedure

/-! ## Changes -/

/-- **A change of what is stored.** -/
inductive Change
  | writeSchema (tenant source version : String) (createdAt : Int)
  | writeRelationships (tenant : String) (tuples : List Tuple)
  | deleteRelationships (tenant : String) (filter : TupleFilter)
  | writeAttributes (tenant : String)
      (attributes : List (Attribute AttributeValue))
  | deleteAttributes (tenant : String) (entity : EntityRef)
      (name : Option String)

namespace Change

/-- The operation that makes a change. -/
def operation : Change → Operation
  | writeSchema tenant source version createdAt =>
    .writeSchema tenant source version createdAt
  | writeRelationships tenant tuples => .writeRelationships tenant tuples
  | deleteRelationships tenant filter => .deleteRelationships tenant filter
  | writeAttributes tenant attributes => .writeAttributes tenant attributes
  | deleteAttributes tenant entity name => .deleteAttributes tenant entity name

variable {engine : ExpressionEngine}

open Procedure

/-- The data with a tuple. -/
def addTuple (t : Tuple) (data : TenantData) : TenantData :=
  { data with tuples := insertBy Tuple.sortKey t data.tuples }

/-- The data with the value of an attribute. -/
def addAttribute (a : Attribute Json) (data : TenantData) : TenantData :=
  { data with attributes := insertBy Attribute.sortKey a data.attributes }

/-- Reads the latest schema, which is kept ready from then on. -/
def readLatest (tenant : String) : Procedure engine Schema := do
  update (·.remember tenant none)
  ask (·.readSchema tenant none)

/-- Writes a batch: every element is admitted, and then made ready and checked
for the store, before the first of them is added. -/
def writeBatch {α β : Type} (tenant : String)
    (allows : α → Except ServiceError Unit) (ready : α → β)
    (fits : β → Except StoreError Unit) (add : β → TenantData → TenantData)
    (xs : List α) : Procedure engine Answer := do
  xs.forM fun x => check (allows x)
  checkStored (Store.checkTenant tenant)
  (xs.map ready).forM fun y => checkStored (fits y)
  updateData tenant id
  (xs.map ready).forM fun y => updateData tenant (add y)
  pure .done

/-- Changes the data of a tenant, and answers how much shorter a part of it
has become. -/
def remove {α : Type} (tenant : String) (part : TenantData → List α)
    (f : TenantData → TenantData) : Procedure engine Answer := do
  let before ← ask fun s => .ok (part (s.store.tenant tenant)).length
  updateData tenant f
  let after ← ask fun s => .ok (part (s.store.tenant tenant)).length
  pure (.removed (before - after))

/-- **How a change is carried out**: with all checks first, one element after
the other, and then what there is to write, element by element. -/
def procedure : Change → Procedure engine Answer
  | writeSchema tenant source version createdAt => do
    check (Service.requireTenant tenant)
    let _ ← ask fun _ => (compileSchema engine.refusal? tenant version source
      createdAt).mapError .failure
    checkStored (Store.checkTenant tenant)
    checkStored (checkIdentifier "version" version)
    ask fun s =>
      if (s.store.tenant tenant).schemas.any fun t => t.version == version then
        .error (.store (.versionExists tenant version))
      else .ok ()
    updateData tenant fun data =>
      { data with schemas := data.schemas ++ [⟨version, source, createdAt⟩] }
    pure (.version version)
  | writeRelationships tenant tuples => do
    let schema ← readLatest tenant
    writeBatch tenant (Service.checkRelationship schema) Tuple.normalize
      Tuple.checkFields addTuple tuples
  | deleteRelationships tenant filter => do
    check (Service.requireTenant tenant)
    checkStored (Store.checkTenant tenant)
    checkStored (if filter.isEmpty then .error .emptyFilter else .ok ())
    remove tenant TenantData.tuples fun data =>
      { data with tuples := data.tuples.filter fun t => !filter.admits t }
  | writeAttributes tenant attributes => do
    let schema ← readLatest tenant
    writeBatch tenant (Service.checkAttribute schema) Attribute.toJson
      Attribute.checkFields addAttribute attributes
  | deleteAttributes tenant entity name => do
    check (Service.requireTenant tenant)
    remove tenant TenantData.attributes fun data =>
      { data with attributes := data.attributes.filter fun a =>
          !(a.isOf entity && agrees name a.name) }

/-! ### What the changes do -/

theorem foldl_addTuple (tuples : List Tuple) (data : TenantData) :
    tuples.foldl (fun data t => addTuple t data) data
      = { data with
          tuples := insertAllBy Tuple.sortKey data.tuples tuples } := by
  induction tuples generalizing data with
  | nil => rfl
  | cons t tuples ih => exact ih _

theorem foldl_addAttribute (attributes : List (Attribute Json))
    (data : TenantData) :
    attributes.foldl (fun data a => addAttribute a data) data
      = { data with attributes :=
            insertAllBy Attribute.sortKey data.attributes attributes } := by
  induction attributes generalizing data with
  | nil => rfl
  | cons a attributes ih => exact ih _

theorem does_writeSchema (tenant source version : String)
    (createdAt : Int) :
    (writeSchema tenant source version createdAt).procedure.Does
      fun s : Service engine =>
        ((s.writeSchema tenant source version createdAt).map
          ((), ·)).map fun x => (.version version, x.2) := by
  refine (does_check_bind <| does_ask_bind fun _ => does_checkStored_bind <|
    does_checkStored_bind <| does_ask_bind (f := fun _ s => .ok (_, _))
      fun _ s => rfl).congr fun s => ?_
  unfold Service.writeSchema Store.writeSchema
  cases Service.requireTenant tenant with
  | error e => rfl
  | ok =>
    cases compileSchema engine.refusal? tenant version source createdAt with
    | error e => rfl
    | ok schema =>
      cases Store.checkTenant tenant with
      | error e => rfl
      | ok =>
        cases checkIdentifier "version" version with
        | error e => rfl
        | ok =>
          cases hexists : (s.store.tenant tenant).schemas.any fun t =>
              t.version == version with
          | true =>
            simp only [hexists, if_true]
            rfl
          | false =>
            simp only [hexists, Bool.false_eq_true, if_false]
            rfl

/-- **A batch is written as a whole or not at all.** -/
theorem does_writeBatch {α β : Type} (tenant : String)
    (allows : α → Except ServiceError Unit) (ready : α → β)
    (fits : β → Except StoreError Unit) (add : β → TenantData → TenantData)
    (xs : List α) :
    (writeBatch tenant allows ready fits add xs).Does
      (fun s : Service engine => do
        xs.forM allows
        (Store.checkTenant tenant).mapError .store
        ((xs.map ready).forM fits).mapError .store
        pure (.done, s.withData tenant ((xs.map ready).foldl
          (fun data y => add y data) (s.store.tenant tenant)))) := by
  unfold writeBatch
  rw [forM_check, forM_checkStored]
  exact does_check_bind <| does_checkStored_bind <| does_checkStored_bind <|
    does_forM_updateData tenant add (xs.map ready) .done

theorem does_writeRelationships (tenant : String) (tuples : List Tuple) :
    (ask (·.readSchema tenant none) >>= fun schema =>
        writeBatch tenant (Service.checkRelationship schema) Tuple.normalize
          Tuple.checkFields addTuple tuples).Does
      fun s : Service engine =>
        ((s.writeRelationships tenant tuples).map ((), ·)).map
          fun x => (.done, x.2) := by
  refine (does_ask_bind fun schema => does_writeBatch _ _ _ _ _ _).congr
    fun s => ?_
  unfold Service.writeRelationships Store.writeTuples
  cases s.readSchema tenant none with
  | error e => rfl
  | ok schema =>
    simp only [foldl_addTuple, bind, Except.bind]
    cases tuples.forM (Service.checkRelationship schema) with
    | error e => rfl
    | ok =>
      cases Store.checkTenant tenant with
      | error e => rfl
      | ok =>
        cases (tuples.map Tuple.normalize).forM Tuple.checkFields <;> rfl

theorem does_writeAttributes (tenant : String)
    (attributes : List (Attribute AttributeValue)) :
    (ask (·.readSchema tenant none) >>= fun schema =>
        writeBatch tenant (Service.checkAttribute schema) Attribute.toJson
          Attribute.checkFields addAttribute attributes).Does
      fun s : Service engine =>
        ((s.writeAttributes tenant attributes).map ((), ·)).map
          fun x => (.done, x.2) := by
  refine (does_ask_bind fun schema => does_writeBatch _ _ _ _ _ _).congr
    fun s => ?_
  unfold Service.writeAttributes Store.writeAttributes
  cases s.readSchema tenant none with
  | error e => rfl
  | ok schema =>
    simp only [foldl_addAttribute, bind, Except.bind]
    cases attributes.forM (Service.checkAttribute schema) with
    | error e => rfl
    | ok =>
      cases Store.checkTenant tenant with
      | error e => rfl
      | ok =>
        cases (attributes.map Attribute.toJson).forM
          Attribute.checkFields <;> rfl

/-- What a list loses is what is not kept of it. -/
theorem length_sub_length_filter {α : Type} (p : α → Bool) (xs : List α) :
    xs.length - (xs.filter fun x => !p x).length = (xs.filter p).length := by
  have hlength := List.length_eq_length_filter_add (l := xs) p
  omega

theorem does_remove {α : Type} (tenant : String)
    (part : TenantData → List α) (f : TenantData → TenantData) :
    (remove tenant part f).Does fun s : Service engine =>
      let data := s.store.tenant tenant
      .ok (.removed ((part data).length - (part (f data)).length),
        s.withData tenant (f data)) := by
  intro s
  show (Except.ok (Answer.removed (_ - (part
    ((s.store.setTenant tenant (f (s.store.tenant tenant))).tenant
      tenant)).length)), _) = _
  rw [Store.tenant_setTenant_self]
  rfl

theorem does_deleteRelationships (tenant : String) (filter : TupleFilter) :
    (deleteRelationships tenant filter).procedure.Does
      fun s : Service engine =>
        (s.deleteRelationships tenant filter).map
          fun x => (.removed x.1, x.2) := by
  refine (does_check_bind <| does_checkStored_bind <| does_checkStored_bind <|
    does_remove _ _ _).congr fun s => ?_
  unfold Service.deleteRelationships Store.deleteTuples
  simp only [length_sub_length_filter, List.partition_eq_filter_filter]
  cases Service.requireTenant tenant with
  | error e => rfl
  | ok =>
    cases Store.checkTenant tenant with
    | error e => rfl
    | ok => cases filter.isEmpty <;> rfl

theorem does_deleteAttributes (tenant : String) (entity : EntityRef)
    (name : Option String) :
    (deleteAttributes tenant entity name).procedure.Does
      fun s : Service engine =>
        (s.deleteAttributes tenant entity name).map
          fun x => (.removed x.1, x.2) := by
  refine (does_check_bind <| does_remove _ _ _).congr fun s => ?_
  unfold Service.deleteAttributes Store.deleteAttributes
  simp only [length_sub_length_filter, List.partition_eq_filter_filter]
  cases Service.requireTenant tenant <;> rfl

/-- What has the latest schema to read goes on with the service that keeps it
ready. -/
theorem perform_readLatest_bind (tenant : String)
    (p : Schema → Procedure engine Answer) (s : Service engine) :
    (readLatest tenant >>= p).perform s
      = (ask (·.readSchema tenant none) >>= p).perform
          (s.remember tenant none) := rfl

/-- **A change that is carried out in place is the operation.** -/
theorem perform_procedure (c : Change) (s : Service engine) :
    c.procedure.perform s = s.apply c.operation := by
  cases c with
  | writeSchema tenant source version createdAt =>
    exact @Does.perform_eq _ _ _ _ (fun _ => .version version)
      (does_writeSchema tenant source version createdAt) s
  | writeRelationships tenant tuples =>
    exact (perform_readLatest_bind tenant _ s).trans
      (@Does.perform_eq _ _ _ _ (fun _ => .done)
        (does_writeRelationships tenant tuples) _)
  | deleteRelationships => exact (does_deleteRelationships _ _).perform_eq s
  | writeAttributes tenant attributes =>
    exact (perform_readLatest_bind tenant _ s).trans
      (@Does.perform_eq _ _ _ _ (fun _ => .done)
        (does_writeAttributes tenant attributes) _)
  | deleteAttributes => exact (does_deleteAttributes _ _ _).perform_eq s

end Change

/-! ## After a change that failed -/

namespace Service

variable {engine : ExpressionEngine} {s s' : Service engine}

/-- Whether every tenant sees the same of two services. -/
def Alike (s s' : Service engine) : Prop :=
  ∀ tenant, s'.view tenant = s.view tenant

/-- What differs only in what is kept ready is alike. -/
theorem alike_of_bare_eq (h : s'.bare = s.bare) : Alike s s' := by
  intro tenant
  show s'.bare.view tenant = s.bare.view tenant
  rw [h]

/-- **Services that are alike stay so**, whatever happens to both. -/
theorem Alike.meet (h : Alike s s') (hs : s.Coherent) (hs' : s'.Coherent)
    (event : Event) : Alike (s.meet event) (s'.meet event) := by
  intro tenant
  cases hevent : event.isOf tenant with
  | true => exact view_meet_of_isOf hs hs' (h tenant) hevent
  | false =>
    rw [view_meet_of_not_isOf hs hevent, view_meet_of_not_isOf hs' hevent,
      h tenant]

theorem Alike.after (h : Alike s s') (hs : s.Coherent) (hs' : s'.Coherent)
    (events : List Event) : Alike (s.after events) (s'.after events) := by
  unfold Service.after
  induction events generalizing s s' with
  | nil => exact h
  | cons event events ih =>
    exact ih (h.meet hs hs' event) (hs.meet event) (hs'.meet event)

/-- **Services that are alike answer alike.** -/
theorem Alike.fst_apply_eq (h : Alike s s') (hs : s.Coherent)
    (hs' : s'.Coherent) (operation : Operation) :
    (s'.apply operation).1 = (s.apply operation).1 :=
  (unwinds_apply hs hs' operation (h operation.tenant)).answer

theorem snd_change_of_error {α : Type}
    {result : Except ServiceError (α × Service engine)} {shown : α → Answer}
    {e : ServiceError} (h : (s.change result shown).1 = .error e)
    (hshown : ∀ a e, shown a ≠ .error e) :
    (s.change result shown).2 = s := by
  cases result with
  | ok p => exact absurd h (hshown p.1 e)
  | error => rfl

/-- **A change that fails adds at most to what is kept ready.** -/
theorem bare_of_apply_error {c : Change} {e : ServiceError}
    (h : (s.apply c.operation).1 = .error e) :
    (s.apply c.operation).2.bare = s.bare := by
  cases c with
  | writeSchema =>
    exact congrArg bare (snd_change_of_error h fun _ _ => nofun)
  | deleteRelationships =>
    exact congrArg bare (snd_change_of_error h fun _ _ => nofun)
  | deleteAttributes =>
    exact congrArg bare (snd_change_of_error h fun _ _ => nofun)
  | writeRelationships tenant =>
    exact (congrArg bare (snd_change_of_error h fun _ _ => nofun)).trans
      (bare_remember s tenant none)
  | writeAttributes tenant =>
    exact (congrArg bare (snd_change_of_error h fun _ _ => nofun)).trans
      (bare_remember s tenant none)

/-- Tuples are written for one tenant, and none are lost. -/
theorem mem_tuples_of_apply_write {tenant : String} {tuples : List Tuple}
    (h : (s.apply (.writeRelationships tenant tuples)).1 = .done)
    (other : String) (t : Tuple) :
    t ∈ ((s.apply (.writeRelationships tenant tuples)).2.store.tenant
        other).tuples ↔
      t ∈ (s.store.tenant other).tuples ∨
        other = tenant ∧ t ∈ tuples.map Tuple.normalize := by
  rw [withTuples_of_apply_write h]
  show t ∈ (((s.remember tenant none).store.setTenant tenant _).tenant
    other).tuples ↔ _
  rw [store_remember]
  by_cases hother : other = tenant
  · subst hother
    rw [Store.tenant_setTenant_self]
    simp only [true_and]
    exact mem_insertAllBy_iff Tuple.isFaithfulKey
  · rw [Store.tenant_setTenant_of_ne _ _ hother]
    simp [hother]

/-- **Changes that fail leave no trace.** Whatever has happened to a service,
a change that is carried out on it in place, element by element, does what
the operation says, and if it fails then nobody notices: whatever happens
further, each operation of any tenant is answered as if the change had not
been tried. A batch of tuples that is written is stored as a whole, and no
other tuple of any tenant comes or goes. -/
theorem failed_changes_leave_no_trace (settings : Settings)
    (events : List Event) (c : Change) :
    let s := ({ settings } : Service engine).after events
    c.procedure.perform s = s.apply c.operation ∧
    (∀ e, (c.procedure.perform s).1 = .error e →
      ∀ (further : List Event) (next : Operation),
        (((c.procedure.perform s).2.after further).apply next).1
          = ((s.after further).apply next).1) ∧
    (∀ tenant tuples, c = .writeRelationships tenant tuples →
      (c.procedure.perform s).1 = .done → ∀ (other : String) (t : Tuple),
        t ∈ ((c.procedure.perform s).2.store.tenant other).tuples ↔
          t ∈ (s.store.tenant other).tuples ∨
            other = tenant ∧ t ∈ tuples.map Tuple.normalize) := by
  intro s
  have hs : s.Coherent := (coherent_new settings).after events
  have hs' : (s.apply c.operation).2.Coherent := hs.apply c.operation
  rw [c.perform_procedure s]
  refine ⟨rfl, fun e he further next => ?_, fun tenant tuples hc hdone => ?_⟩
  · have halike : Alike s (s.apply c.operation).2 :=
      alike_of_bare_eq (bare_of_apply_error he)
    exact (halike.after hs hs' further).fst_apply_eq (hs.after further)
      (hs'.after further) next
  · subst hc
    exact mem_tuples_of_apply_write hdone

/-- A document gets its owner, and so does one without an identifier. -/
def batchWithoutId : Change :=
  .writeRelationships "t" [⟨"document", "d", "owner", "user", "u", none⟩,
    ⟨"document", "", "owner", "user", "u", none⟩]

/-- A document gets its owner. -/
def batchWithId : Change :=
  .writeRelationships "t" [⟨"document", "d", "owner", "user", "u", some ""⟩]

/-- Whether an answer is an error. -/
def isError : Answer → Bool
  | .error _ => true
  | _ => false

theorem isError_iff {answer : Answer} :
    isError answer = true ↔ ∃ e, answer = .error e := by
  cases answer <;> simp [isError]

/-- The schema admits the tuple without an identifier and the store does not,
and then the owner views nothing. Alone, the other tuple is stored. -/
theorem batchWithoutId_leaves_no_trace :
    let s := ({} : Service Condition.engine).after
      [.operation (.writeSchema "t" ownedSource "v" 0)]
    (∃ e, (batchWithoutId.procedure.perform s).1 = .error e ∧
      ((batchWithoutId.procedure.perform s).2.apply (.check (viewOf "t"))).1
        = (s.apply (.check (viewOf "t"))).1) ∧
    ⟨"document", "d", "owner", "user", "u", none⟩
      ∈ ((batchWithId.procedure.perform s).2.store.tenant "t").tuples := by
  intro s
  constructor
  · obtain ⟨e, he⟩ : ∃ e, (batchWithoutId.procedure.perform s).1 = .error e :=
      isError_iff.mp (by decide +kernel)
    exact ⟨e, he, (failed_changes_leave_no_trace {} _ batchWithoutId).2.1 e he
      [] (.check (viewOf "t"))⟩
  · have hdone : (batchWithId.procedure.perform s).1 = .done :=
      isDone_iff.mp (by decide +kernel)
    refine ((failed_changes_leave_no_trace {} _ batchWithId).2.2 "t" _ rfl hdone
      "t" _).mpr (.inr ⟨rfl, ?_⟩)
    decide +kernel

end Service

end Entitlement
