import Entitlement.Proofs.Access.Pages
import Entitlement.Proofs.Service.Transparency

/-!
# What a lookup lists is what a check allows

Someone who follows the tokens of a lookup of a service to the end has the
answers to many checks at once. `Service.Follows` is such a sequence of
operations. Queries change nothing but what the service keeps ready, so in
every state that a service can come to the sequence is a chain of calls to
one resolver (`Service.Coherent.follows_iff`), the same that a single check
is answered from.

Still the two do not agree on identifiers that are blank. A check refuses
them, but tuples may have them, and a lookup passes them to its checks
without asking whether they are blank. On all other identifiers they agree.
-/

namespace Entitlement

/-! ## Lookups as operations -/

namespace Lookup

/-- The tenant that is asked about. -/
def tenant : Lookup → String
  | entities request => request.tenant
  | subjects request => request.tenant

/-- The operation that asks for a page. -/
def operation (l : Lookup) (page : PageRequest) : Operation :=
  match l with
  | entities request => .lookupEntity { request with page }
  | subjects request => .lookupSubject { request with page }

variable {l : Lookup} {r : Resolver} {id : String}

/-- In a lookup without blank fields, the identifier alone decides whether
a check of it makes sense. -/
theorem validate_toCheck_iff (hv : l.validate = .ok ()) :
    (l.toCheck id).validate = .ok () ↔ isBlankText id = false := by
  cases l with
  | entities request =>
    have hv : request.validate = .ok () := hv
    rw [LookupEntityRequest.validate, requireFields_eq_ok_iff] at hv
    show (request.toCheck id).validate = .ok () ↔ _
    rw [CheckRequest.validate, requireFields_eq_ok_iff]
    simp_all [LookupEntityRequest.toCheck]
  | subjects request =>
    have hv : request.validate = .ok () := hv
    rw [LookupSubjectRequest.validate, requireFields_eq_ok_iff] at hv
    show (request.toCheck id).validate = .ok () ↔ _
    rw [CheckRequest.validate, requireFields_eq_ok_iff]
    simp_all [LookupSubjectRequest.toCheck]

/-- **A check allows what the lookup allows, unless it is blank.** -/
theorem check_toCheck_eq_ok_true_iff (hv : l.validate = .ok ()) :
    r.check (l.toCheck id) = .ok true ↔
      isBlankText id = false ∧ l.Allows r id := by
  have hversion : (l.toCheck id).version = l.version := by
    cases l <;> rfl
  unfold Resolver.check Allows
  rw [Outcome.bind_eq_ok_iff, ← validate_toCheck_iff hv]
  simp only [Outcome.bind_eq_ok_iff, hversion]
  constructor
  · rintro ⟨⟨⟩, hvalid, hallowed⟩
    exact ⟨hvalid, hallowed⟩
  · rintro ⟨hvalid, hallowed⟩
    exact ⟨(), hvalid, hallowed⟩

end Lookup

namespace Service

variable {engine : ExpressionEngine} {s s' : Service engine} {l : Lookup}
  {token : Option String} {sizes : List Nat} {ids : List String}

/-! ## Following the tokens -/

/-- **The identifiers that a service lists** when a lookup is asked for
pages of the given sizes, the first with a token or none and each next one
with the token of the page before, until a page has no token. -/
inductive Follows (l : Lookup) :
    Service engine → Option String → List Nat → List String → Prop
  | last {s : Service engine} {token : Option String} {size : Nat}
      {ids : List String} :
      (s.apply (l.operation ⟨size, token⟩)).1 = .page ⟨ids, none⟩ →
        Follows l s token [size] ids
  | more {s : Service engine} {token : Option String} {next : String}
      {size : Nat} {sizes : List Nat} {ids rest : List String} :
      (s.apply (l.operation ⟨size, token⟩)).1 = .page ⟨ids, some next⟩ →
        Follows l (s.apply (l.operation ⟨size, token⟩)).2 (some next) sizes
          rest →
        Follows l s token (size :: sizes) (ids ++ rest)

/-- A coherent service answers a lookup from its store. -/
theorem Coherent.apply_operation_eq (h : s.Coherent) (l : Lookup)
    (page : PageRequest) :
    s.apply (l.operation page)
      = (showQuery .page (l.ask (s.bare.resolver l.tenant) page),
          s.remember l.tenant l.version) := by
  rw [← h.answer_eq l.tenant l.version (l.ask · page) .page]
  cases l <;> rfl

theorem showQuery_page_eq_iff {x : Except Failure Page} {page : Page} :
    showQuery .page x = .page page ↔ x = .ok page :=
  showQuery_eq_iff (by simp) (by simp)

theorem showQuery_allowed_eq_iff {x : Except Failure Bool} {b : Bool} :
    showQuery .allowed x = .allowed b ↔ x = .ok b :=
  showQuery_eq_iff (by simp) (by simp)

theorem Coherent.apply_operation_eq_page_iff (h : s.Coherent)
    {page : PageRequest} {answer : Page} :
    (s.apply (l.operation page)).1 = .page answer ↔
      l.ask (s.bare.resolver l.tenant) page = .ok answer := by
  rw [h.apply_operation_eq, showQuery_page_eq_iff]

/-- Whoever follows a service calls its resolver in a row. -/
theorem Coherent.exists_calls_of_follows (h : s.Coherent)
    (hf : s.Follows l token sizes ids) :
    ∃ visits, l.Calls token visits none ∧
      Visit.AllMeet (s.bare.resolver l.tenant)
        (s.bare.facts l.tenant).tuples visits ∧
      visits.map Visit.size = sizes ∧ Visit.allIds visits = ids := by
  have hreads : ∀ s : Service engine, (s.bare.resolver l.tenant).ReadsTuples
      (s.bare.facts l.tenant).tuples :=
    fun s => (s.bare.reads_facts l.tenant).readsTuples
  induction hf with
  | @last s token size ids hpage =>
    rw [h.apply_operation_eq_page_iff] at hpage
    refine ⟨[⟨_, _, size, ⟨ids, none⟩⟩], .one ⟨hreads s, hpage⟩,
      List.forall_mem_singleton.mpr ⟨rfl, rfl⟩, rfl, ?_⟩
    rw [Visit.allIds, List.flatMap_singleton]
  | @more s token next size sizes ids rest hpage _ ih =>
    rw [h.apply_operation_eq_page_iff] at hpage
    rw [h.apply_operation_eq] at ih
    -- the service behind the page answers from the same store
    obtain ⟨visits, hcalls, hmeet, hsizes, hids⟩ := ih (h.remember _ _)
    rw [bare_remember] at hmeet
    refine ⟨⟨_, _, size, ⟨ids, some next⟩⟩ :: visits,
      .more ⟨hreads s, hpage⟩ rfl hcalls,
      List.forall_mem_cons.mpr ⟨⟨rfl, rfl⟩, hmeet⟩, ?_, ?_⟩
    · rw [List.map_cons, hsizes]
    · rw [← hids, Visit.allIds, List.flatMap_cons]
      rfl

/-- Whoever calls the resolver of a service in a row follows the
service. -/
theorem Coherent.follows_of_calls (h : s.Coherent) {visits : List Visit}
    (hcalls : l.Calls token visits none)
    (hmeet : Visit.AllMeet (s.bare.resolver l.tenant)
      (s.bare.facts l.tenant).tuples visits) :
    s.Follows l token (visits.map Visit.size) (Visit.allIds visits) := by
  generalize hfinal : (none : Option String) = final at hcalls
  induction hcalls generalizing s with
  | @one token v hv =>
    obtain ⟨hr, -⟩ := hmeet v (List.mem_singleton_self v)
    rw [Visit.allIds, List.flatMap_singleton]
    refine .last ?_
    rw [h.apply_operation_eq_page_iff, ← hr, hfinal]
    exact hv.ask
  | @more token final next v visits hv hnext _ ih =>
    obtain ⟨⟨hr, -⟩, hmeet⟩ := List.forall_mem_cons.mp hmeet
    rw [Visit.allIds, List.flatMap_cons, List.map_cons]
    have hpage : (s.apply (l.operation ⟨v.size, token⟩)).1
        = .page ⟨v.page.ids, some next⟩ := by
      rw [h.apply_operation_eq_page_iff, ← hr, ← hnext]
      exact hv.ask
    refine .more hpage ?_
    rw [h.apply_operation_eq]
    refine ih (h.remember _ _) ?_ hfinal
    rwa [bare_remember]

/-- **Following a service is calling its resolver in a row.** -/
theorem Coherent.follows_iff (h : s.Coherent) :
    s.Follows l token sizes ids ↔ ∃ visits, l.Calls token visits none ∧
      Visit.AllMeet (s.bare.resolver l.tenant)
        (s.bare.facts l.tenant).tuples visits ∧
      visits.map Visit.size = sizes ∧ Visit.allIds visits = ids := by
  constructor
  · exact h.exists_calls_of_follows
  · rintro ⟨visits, hcalls, hmeet, rfl, rfl⟩
    exact h.follows_of_calls hcalls hmeet

/-- A coherent service allows a check if its resolver does. -/
theorem Coherent.apply_check_eq_allowed_iff (h : s.Coherent)
    {request : CheckRequest} {b : Bool} :
    (s.apply (.check request)).1 = .allowed b ↔
      (s.bare.resolver request.tenant).check request = .ok b := by
  rw [h.fst_apply_check, showQuery_allowed_eq_iff, h.resolver_eq]

/-! ## Lookups and checks -/

/-- **What a service lists is what it checks.** Whatever has happened to
it, a lookup that it answers can be followed to its end in pages of any
sizes if no read is disturbed. What it lists then ascends, and but for
blank identifiers it lists exactly the candidates that it allows when it is
asked for each of them. -/
theorem follows_lists_checked (settings : Settings)
    (events : List Event) :
    let s := ({ settings } : Service engine).after events
    s.faults = {} → ∀ (l : Lookup) page answer,
      (s.apply (l.operation page)).1 = .page answer →
        (∀ sizes : Nat → Nat, ∃ n ids,
          s.Follows l none ((List.range n).map sizes) ids) ∧
        ∀ sizes ids, s.Follows l none sizes ids →
          ids.Pairwise (· < ·) ∧
          ∀ id, (id ∈ ids ∧ isBlankText id = false) ↔
            l.IsCandidate (s.facts l.tenant).tuples id ∧
              (s.apply (.check (l.toCheck id))).1 = .allowed true := by
  intro s hf l page answer hpage
  have hs : s.Coherent := (coherent_new settings).after events
  rw [hs.apply_operation_eq_page_iff] at hpage
  constructor
  · intro sizes
    have hreads := (s.bare.reads_facts l.tenant).readsTuples
    obtain ⟨visits, hcalls, hmeet, hsizes⟩ :=
      Lookup.exists_calls (inTime_resolver (s := s.bare) hf l.tenant) hreads
        hpage sizes
    exact ⟨visits.length, Visit.allIds visits,
      hs.follows_iff.mpr ⟨visits, hcalls, hmeet, hsizes, rfl⟩⟩
  · intro sizes ids hfollows
    obtain ⟨visits, hcalls, hmeet, -, rfl⟩ := hs.follows_iff.mp hfollows
    have hv := (Lookup.ask_eq_ok_iff.mp hpage).1
    refine ⟨hcalls.pairwise, fun id => ?_⟩
    have htenant : (l.toCheck id).tenant = l.tenant := by
      cases l <;> rfl
    rw [hcalls.mem_allIds_iff hmeet, hs.apply_check_eq_allowed_iff, htenant,
      Lookup.check_toCheck_eq_ok_true_iff hv, and_assoc,
      and_comm (a := l.Allows _ id)]
    rfl

/-- Owners view documents. -/
def ownedSource : String :=
  "entity user {} " ++
    "entity document { relation owner @user permission view = owner }"

/-- Someone owns a document, and another one with a blank name. -/
def blankEvents : List Event :=
  [.operation (.writeSchema "t" ownedSource "v" 0),
    .operation (.writeRelationships "t"
      [⟨"document", " ", "owner", "user", "u", none⟩,
        ⟨"document", "d", "owner", "user", "u", none⟩])]

/-- The service that they were written to. -/
def blankService : Service Condition.engine :=
  ({} : Service _).after blankEvents

/-- Which documents they view. -/
def viewedDocuments : Lookup :=
  .entities {
    tenant := "t"
    entityType := "document"
    permission := "view"
    subject := ⟨"user", "u"⟩ }

/-- The page that is answered, if one is. -/
def pageOf? : Answer → Option Page
  | .page page => some page
  | _ => none

theorem pageOf?_eq_some_iff {answer : Answer} {page : Page} :
    pageOf? answer = some page ↔ answer = .page page := by
  cases answer <;> simp [pageOf?]

theorem faults_blankService : blankService.faults = {} := by
  decide +kernel

theorem page_blankService :
    (blankService.apply (viewedDocuments.operation {})).1
      = .page ⟨[" ", "d"], none⟩ :=
  pageOf?_eq_some_iff.mp (by decide +kernel)

/-- They are allowed to view the document that has a name. -/
theorem blankService_lists_checked :
    blankService.Follows viewedDocuments none [0] [" ", "d"] ∧
      (blankService.apply (.check (viewedDocuments.toCheck "d"))).1
        = .allowed true := by
  have hfollows : blankService.Follows viewedDocuments none [0] [" ", "d"] :=
    .last page_blankService
  have hlisted := (follows_lists_checked {} blankEvents faults_blankService
    viewedDocuments {} _ page_blankService).2 _ _ hfollows
  exact ⟨hfollows, ((hlisted.2 "d").mp (by decide)).2⟩

/-- **A blank identifier is listed and refused.** The document with the
blank name is listed as one that they view, but when the service is asked
whether they view it, it refuses the question. -/
theorem blankService_lists_refused :
    blankService.faults = {} ∧
      blankService.Follows viewedDocuments none [0] [" ", "d"] ∧
      (blankService.apply (.check (viewedDocuments.toCheck " "))).1
        = .error (.failure (.blankField "entity_id")) := by
  have hs : blankService.Coherent := (coherent_new {}).after blankEvents
  refine ⟨faults_blankService, .last page_blankService, ?_⟩
  show (blankService.answer "t" none
    (·.check (viewedDocuments.toCheck " ")) .allowed).1 = _
  rw [hs.answer_eq]
  rfl

end Service

end Entitlement
