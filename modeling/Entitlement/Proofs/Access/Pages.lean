import Entitlement.Proofs.Access.Descent
import Entitlement.Proofs.Access.Lookup
import Entitlement.Proofs.Access.Value
import Mathlib.Data.List.Nodup
import Mathlib.Data.List.Perm.Subperm

/-!
# Lookups page by page

A lookup is asked for one page after another, each time with the token
that the page before ended with. Between two calls anything may happen to
what is stored, so a chain of calls knows nothing of its past but the
token.

That is enough, because a token says what it means in terms of identifiers
and not of a position: a page shows, in ascending order, exactly the
candidates behind its token that are allowed, as far as the token that it
ends with (`Lookup.Visits.mem_ids_iff`). The windows of the pages of a
chain therefore lie behind each other and leave no gap, whatever the
candidates are at the time of each page. That nothing is lost and nothing
repeated follows by going along the chain.
-/

namespace Entitlement

/-! ## Calls in a row -/

/-- **One call of a lookup** and what it met: the resolver that answered,
the tuples that were stored, the size of page that was asked for and the
page that was answered. -/
structure Visit where
  resolver : Resolver
  stored : List Tuple
  /-- The size that was asked for, where zero leaves it open. -/
  size : Nat
  page : Page

/-- The size that the page is to have. -/
def Visit.pageSize (v : Visit) : Nat :=
  v.resolver.pageSize ⟨v.size, none⟩

/-- The identifiers that calls in a row return. -/
def Visit.allIds (visits : List Visit) : List String :=
  visits.flatMap fun v => v.page.ids

/-- Whether nothing changes between calls: they all meet one resolver and
the same stored tuples. -/
def Visit.AllMeet (r : Resolver) (stored : List Tuple)
    (visits : List Visit) : Prop :=
  ∀ v ∈ visits, v.resolver = r ∧ v.stored = stored

namespace Lookup

/-- **Whether a lookup was called with a token** and answered. -/
structure Visits (l : Lookup) (token : Option String) (v : Visit) : Prop where
  reads : v.resolver.ReadsTuples v.stored
  ask : l.ask v.resolver ⟨v.size, token⟩ = .ok v.page

/-- **Calls in a row**: the first with a token, or none, and each next one
with the token of the page before, as far as a page that ends with
`final`. They need not meet the same resolver or the same tuples. -/
inductive Calls (l : Lookup) :
    Option String → List Visit → Option String → Prop
  | one {token : Option String} {v : Visit} :
      l.Visits token v → Calls l token [v] v.page.next
  | more {token final : Option String} {next : String} {v : Visit}
      {visits : List Visit} :
      l.Visits token v → v.page.next = some next →
        Calls l (some next) visits final → Calls l token (v :: visits) final

variable {l : Lookup} {token final : Option String} {v : Visit}
  {visits : List Visit} {id : String}

/-- A page shows what a scan of the candidates shows. -/
theorem Visits.exists_shows (h : l.Visits token v) :
    ∃ schema candidates,
      v.resolver.resolveSchema l.version = .ok schema ∧
      candidates.Pairwise (· < ·) ∧
      (∀ id, id ∈ candidates ↔ l.IsCandidate v.stored id) ∧
      v.page.Shows
        (fun id => Failure.deny false
          (v.resolver.checkInSchema schema (l.toCheck id)))
        (max v.pageSize 1) (behindToken token candidates) := by
  obtain ⟨-, schema, hs, -, candidates, hc, hscan⟩ := ask_eq_ok_iff.mp h.ask
  obtain ⟨hlt, hmem⟩ := candidates_eq_ok h.reads hc
  exact ⟨schema, candidates, hs, hlt, hmem,
    Page.shows_of_scanPage (hlt.sublist (behindToken_sublist token _)) hscan⟩

/-- **A page shows the allowed candidates of its window**: those behind the
token that it was asked for with, as far as the token that it ends with. -/
theorem Visits.mem_ids_iff (h : l.Visits token v) :
    id ∈ v.page.ids ↔ IsBehind token id ∧ IsWithin v.page.next id ∧
      l.IsCandidate v.stored id ∧ l.Allows v.resolver id := by
  obtain ⟨schema, candidates, hs, -, hmem, hshows⟩ := h.exists_shows
  have hallows : l.Allows v.resolver id ↔
      v.resolver.checkInSchema schema (l.toCheck id) = .ok true := by
    unfold Allows
    simp [hs]
  rw [hshows.mem_ids_iff, mem_behindToken_iff, hmem,
    Failure.deny_eq_ok_true_iff, hallows]
  constructor
  · exact fun ⟨⟨hc, hb⟩, ha, hw⟩ => ⟨hb, hw, hc, ha⟩
  · exact fun ⟨hb, hw, hc, ha⟩ => ⟨⟨hc, hb⟩, ha, hw⟩

theorem Visits.pairwise (h : l.Visits token v) :
    v.page.ids.Pairwise (· < ·) := by
  obtain ⟨_, _, -, hlt, -, hshows⟩ := h.exists_shows
  exact hlt.sublist (hshows.sublist.trans (behindToken_sublist token _))

/-- A page that ends with a token ends with an identifier that it shows. -/
theorem Visits.next_mem (h : l.Visits token v) {next : String}
    (hnext : v.page.next = some next) : next ∈ v.page.ids := by
  obtain ⟨_, _, -, -, -, hshows⟩ := h.exists_shows
  exact hshows.next_mem next hnext

/-- **A page is no longer than it is to be**, and as long if it ends with a
token. -/
theorem Visits.length (h : l.Visits token v) (hpos : 0 < v.pageSize) :
    v.page.ids.length ≤ v.pageSize ∧
      (v.page.next ≠ none → v.page.ids.length = v.pageSize) := by
  obtain ⟨_, _, -, -, -, hshows⟩ := h.exists_shows
  rw [Nat.max_eq_left hpos] at hshows
  exact ⟨hshows.length_le, hshows.length_eq⟩

/-! ### What holds along a chain -/

/-- Each of the calls was answered. -/
theorem Calls.forall_visits (h : l.Calls token visits final) :
    ∀ v ∈ visits, ∃ token, l.Visits token v := by
  induction h with
  | one hv =>
    intro v hmem
    cases List.mem_singleton.mp hmem
    exact ⟨_, hv⟩
  | more hv _ _ ih =>
    intro v hmem
    rcases List.mem_cons.mp hmem with rfl | hmem
    · exact ⟨_, hv⟩
    · exact ih v hmem

/-- What the calls return lies behind the first token. -/
theorem Calls.isBehind (h : l.Calls token visits final) :
    ∀ id ∈ Visit.allIds visits, IsBehind token id := by
  induction h with
  | one hv =>
    intro id hmem
    simp only [Visit.allIds, List.flatMap_singleton] at hmem
    exact (hv.mem_ids_iff.mp hmem).1
  | more hv hnext _ ih =>
    intro id hmem
    rw [Visit.allIds, List.flatMap_cons, List.mem_append] at hmem
    rcases hmem with hmem | hmem
    · exact (hv.mem_ids_iff.mp hmem).1
    · -- the tokens ascend
      have hb := (hv.mem_ids_iff.mp (hv.next_mem hnext)).1
      have hlt := isBehind_some.mp (ih id hmem)
      exact fun t ht => String.lt_trans (hb t ht) hlt

/-- **What calls in a row return ascends**, over all their pages. -/
theorem Calls.pairwise (h : l.Calls token visits final) :
    (Visit.allIds visits).Pairwise (· < ·) := by
  induction h with
  | one hv =>
    rw [Visit.allIds, List.flatMap_singleton]
    exact hv.pairwise
  | more hv hnext hcalls ih =>
    rw [Visit.allIds, List.flatMap_cons]
    refine List.pairwise_append.mpr ⟨hv.pairwise, ih, fun id hid other ho => ?_⟩
    have hwithin := (hv.mem_ids_iff.mp hid).2.1
    rw [hnext, isWithin_some] at hwithin
    exact Std.lt_of_le_of_lt hwithin
      (isBehind_some.mp (hcalls.isBehind other ho))

/-- Nothing is returned twice. -/
theorem Calls.nodup (h : l.Calls token visits final) :
    (Visit.allIds visits).Nodup :=
  h.pairwise.imp String.ne_of_lt

/-- **What is allowed all along is returned**: a candidate that every call
finds and finds to be allowed, if the calls go as far as it. -/
theorem Calls.mem_allIds (h : l.Calls token visits final)
    (hbehind : IsBehind token id) (hwithin : IsWithin final id)
    (hall : ∀ v ∈ visits, l.IsCandidate v.stored id ∧ l.Allows v.resolver id) :
    id ∈ Visit.allIds visits := by
  induction h with
  | one hv =>
    rw [Visit.allIds, List.flatMap_singleton]
    exact hv.mem_ids_iff.mpr
      ⟨hbehind, hwithin, hall _ (List.mem_singleton_self _)⟩
  | @more token final next v visits hv hnext _ ih =>
    rw [Visit.allIds, List.flatMap_cons, List.mem_append]
    obtain ⟨hv', hrest⟩ := List.forall_mem_cons.mp hall
    -- either the first page covers it, or it lies behind its token
    by_cases hle : id ≤ next
    · refine Or.inl (hv.mem_ids_iff.mpr ⟨hbehind, ?_, hv'⟩)
      rwa [hnext, isWithin_some]
    · exact Or.inr
        (ih (isBehind_some.mpr (String.not_le.mp hle)) hwithin hrest)

/-- What is returned was an allowed candidate at the time of its page. -/
theorem Calls.exists_of_mem (h : l.Calls token visits final)
    (hid : id ∈ Visit.allIds visits) :
    ∃ v ∈ visits, id ∈ v.page.ids ∧ l.IsCandidate v.stored id ∧
      l.Allows v.resolver id := by
  obtain ⟨v, hv, hid⟩ := List.mem_flatMap.mp hid
  obtain ⟨_, hvisits⟩ := h.forall_visits v hv
  exact ⟨v, hv, hid, (hvisits.mem_ids_iff.mp hid).2.2⟩

/-- Every page but the last shows something. -/
theorem Calls.length_le (h : l.Calls token visits final) :
    visits.length ≤ (Visit.allIds visits).length + 1 := by
  induction h with
  | one => simp
  | @more token final next v visits hv hnext _ ih =>
    have hpos := List.length_pos_of_mem (hv.next_mem hnext)
    rw [Visit.allIds, List.flatMap_cons, List.length_append, List.length_cons]
    unfold Visit.allIds at ih
    omega

/-! ### Calls without writes in between -/

/-- Calls with another one behind them. -/
theorem Calls.concat {next : String} (h : l.Calls token visits (some next))
    (hv : l.Visits (some next) v) :
    l.Calls token (visits ++ [v]) v.page.next := by
  generalize hfinal : some next = final at h
  induction h with
  | one hw => exact .more hw hfinal.symm (.one hv)
  | more hw hnext _ ih => exact .more hw hnext (ih hfinal)

variable {r : Resolver} {stored : List Tuple}

/-- **Without writes the pages together show the allowed candidates.** -/
theorem Calls.mem_allIds_iff (h : l.Calls none visits none)
    (hsame : Visit.AllMeet r stored visits) :
    id ∈ Visit.allIds visits ↔ l.IsCandidate stored id ∧ l.Allows r id := by
  constructor
  · intro hid
    obtain ⟨v, hv, -, hgranted⟩ := h.exists_of_mem hid
    obtain ⟨rfl, rfl⟩ := hsame v hv
    exact hgranted
  · intro hgranted
    refine h.mem_allIds (isBehind_none id) (isWithin_none id) fun v hv => ?_
    obtain ⟨rfl, rfl⟩ := hsame v hv
    exact hgranted

/-- Different identifiers are returned for different tuples. -/
theorem Calls.length_allIds_le (h : l.Calls token visits final)
    (hsame : Visit.AllMeet r stored visits) :
    (Visit.allIds visits).length ≤ stored.length + l.contextual.length := by
  have hsubset : Visit.allIds visits
      ⊆ (stored ++ l.contextual).filterMap l.extract := by
    intro id hid
    obtain ⟨v, hv, -, ⟨t, ht, hnamed⟩, -⟩ := h.exists_of_mem hid
    rw [(hsame v hv).2] at ht
    exact List.mem_filterMap.mpr ⟨t, ht, (isNamedBy_iff.mp hnamed).2⟩
  have hle := (h.nodup.subperm hsubset).length_le
  rw [← List.length_append]
  exact Nat.le_trans hle (List.length_filterMap_le _ _)

/-- **Without writes a chain is finite**: there are no more calls in it
than tuples, and one. -/
theorem Calls.length_le_of_allMeet (h : l.Calls token visits final)
    (hsame : Visit.AllMeet r stored visits) :
    visits.length ≤ stored.length + l.contextual.length + 1 :=
  Nat.le_trans h.length_le (Nat.succ_le_succ (h.length_allIds_le hsame))

/-- A resolver in time that finds the candidates answers every page. -/
theorem exists_ask (hr : r.InTime) (hv : l.validate = .ok ())
    {schema : Schema} (hs : r.resolveSchema l.version = .ok schema)
    {p : Permission} (hp : l.findPermission schema = .ok p)
    {candidates : List String}
    (hc : r.candidates l.filter l.contextual l.extract = .ok candidates)
    (page : PageRequest) : ∃ answer, l.ask r page = .ok answer := by
  have hchecks : ∀ id ∈ behindToken page.token candidates, ∃ b,
      Failure.deny false (r.checkInSchema schema (l.toCheck id)) = .ok b :=
    fun id _ =>
      Failure.exists_deny (r.checkInSchema_ne_timeout hr schema _)
  obtain ⟨answer, hscan⟩ := exists_scanPage hchecks (r.pageSize page)
  exact ⟨answer, ask_eq_ok_iff.mpr
    ⟨hv, schema, hs, ⟨p, hp⟩, candidates, hc, hscan⟩⟩

/-- A resolver in time that answers one page is called with every token. -/
theorem exists_visit (hr : r.InTime) (hreads : r.ReadsTuples stored)
    {page : PageRequest} {answer : Page} (h : l.ask r page = .ok answer)
    (token : Option String) (size : Nat) :
    ∃ v, l.Visits token v ∧ v.resolver = r ∧ v.stored = stored ∧
      v.size = size := by
  obtain ⟨hv, schema, hs, ⟨p, hp⟩, candidates, hc, -⟩ := ask_eq_ok_iff.mp h
  obtain ⟨answer, hanswer⟩ := exists_ask hr hv hs hp hc ⟨size, token⟩
  exact ⟨⟨r, stored, size, answer⟩, ⟨hreads, hanswer⟩, rfl, rfl, rfl⟩

/-- As long as there is a token, the calls can be continued. -/
theorem exists_calls_of_length
    (hvisit : ∀ token size, ∃ v, l.Visits token v ∧ v.resolver = r ∧
      v.stored = stored ∧ v.size = size) (sizes : Nat → Nat) (n : Nat) :
    ∃ visits final, l.Calls none visits final ∧
      Visit.AllMeet r stored visits ∧
      visits.map Visit.size = (List.range visits.length).map sizes ∧
      (final = none ∨ n < visits.length) := by
  induction n with
  | zero =>
    obtain ⟨v, hv, hvr, hvs, hsize⟩ := hvisit none (sizes 0)
    exact ⟨[v], _, .one hv, List.forall_mem_singleton.mpr ⟨hvr, hvs⟩,
      by simp [hsize], Or.inr Nat.one_pos⟩
  | succ n ih =>
    obtain ⟨visits, final, hcalls, hsame, hsizes, hlen⟩ := ih
    cases final with
    | none => exact ⟨visits, none, hcalls, hsame, hsizes, Or.inl rfl⟩
    | some next =>
      obtain ⟨v, hv, hvr, hvs, hsize⟩ :=
        hvisit (some next) (sizes visits.length)
      refine ⟨visits ++ [v], _, hcalls.concat hv, ?_, ?_, Or.inr ?_⟩
      · exact List.forall_mem_append.mpr
          ⟨hsame, List.forall_mem_singleton.mpr ⟨hvr, hvs⟩⟩
      · rw [List.map_append, hsizes, List.length_append,
          List.length_singleton, List.range_succ, List.map_append,
          List.map_singleton, List.map_singleton, hsize]
      · rw [List.length_append, List.length_singleton]
        exact Nat.succ_lt_succ (hlen.resolve_left (Option.some_ne_none next))

/-- **A resolver in time is followed to the last page**, with whatever
sizes of pages. -/
theorem exists_calls (hr : r.InTime) (hreads : r.ReadsTuples stored)
    {page : PageRequest} {answer : Page} (h : l.ask r page = .ok answer)
    (sizes : Nat → Nat) :
    ∃ visits, l.Calls none visits none ∧ Visit.AllMeet r stored visits ∧
      visits.map Visit.size = (List.range visits.length).map sizes := by
  -- there is no room for more calls than tuples, so the last has no token
  obtain ⟨visits, final, hcalls, hsame, hsizes, hend⟩ :=
    exists_calls_of_length (exists_visit hr hreads h) sizes
      (stored.length + l.contextual.length + 1)
  have hle := hcalls.length_le_of_allMeet hsame
  cases hend.resolve_right (Nat.not_lt.mpr hle)
  exact ⟨visits, hcalls, hsame, hsizes⟩

/-! ### The whole of a lookup -/

/-- **A lookup loses and repeats nothing**, whatever is written between
its calls and whatever sizes of pages it asks for. What it returns over all
pages ascends in the order of bytes, and every page shows what is a
candidate and allowed at its time, in the size that it is to have. A
candidate that is allowed all along is returned exactly once when the last
page has no token. Without writes the chain is finite, what it returns are
all allowed candidates, and if no read is late it can always be followed to
its end. -/
theorem calls_lose_and_repeat_nothing (h : l.Calls none visits final)
    (hdefault : ∀ v ∈ visits, 0 < v.resolver.defaultPageSize) :
    (Visit.allIds visits).Pairwise (· < ·) ∧
    (∀ v ∈ visits,
      (∀ id ∈ v.page.ids,
        l.IsCandidate v.stored id ∧ l.Allows v.resolver id) ∧
      v.page.ids.length ≤ v.pageSize ∧
      (v.page.next ≠ none → v.page.ids.length = v.pageSize)) ∧
    (final = none → ∀ id,
      (∀ v ∈ visits, l.IsCandidate v.stored id ∧ l.Allows v.resolver id) →
        (Visit.allIds visits).count id = 1) ∧
    (∀ r stored, Visit.AllMeet r stored visits →
      visits.length ≤ stored.length + l.contextual.length + 1 ∧
      (final = none → ∀ id, id ∈ Visit.allIds visits ↔
        l.IsCandidate stored id ∧ l.Allows r id) ∧
      (r.InTime → ∀ sizes : Nat → Nat, ∃ visits,
        l.Calls none visits none ∧ Visit.AllMeet r stored visits ∧
        visits.map Visit.size = (List.range visits.length).map sizes)) := by
  refine ⟨h.pairwise, fun v hv => ?_, ?_, fun r stored hsame => ⟨?_, ?_, ?_⟩⟩
  · obtain ⟨token, hvisits⟩ := h.forall_visits v hv
    have hpos : 0 < v.pageSize := by
      unfold Visit.pageSize Resolver.pageSize
      split
      · exact hdefault v hv
      next hsize => exact Nat.pos_of_ne_zero hsize
    exact ⟨fun id hid => (hvisits.mem_ids_iff.mp hid).2.2,
      hvisits.length hpos⟩
  · rintro rfl id hall
    exact List.count_eq_one_of_mem h.nodup
      (h.mem_allIds (isBehind_none id) (isWithin_none id) hall)
  · exact h.length_le_of_allMeet hsame
  · rintro rfl id
    exact h.mem_allIds_iff hsame
  · intro hr sizes
    obtain ⟨v, hv, hvisits⟩ : ∃ v ∈ visits, ∃ token, l.Visits token v := by
      cases h with
      | one hv => exact ⟨_, List.mem_cons_self, _, hv⟩
      | more hv _ _ => exact ⟨_, List.mem_cons_self, _, hv⟩
    obtain ⟨token, hvisits⟩ := hvisits
    obtain ⟨rfl, rfl⟩ := hsame v hv
    exact exists_calls hr hvisits.reads hvisits.ask sizes

/-- Someone owns folders. -/
def ownedFacts (ids : List String) : Facts where
  tuples := ids.map fun id => ⟨"folder", id, "owner", "user", "u", none⟩
  attributes _ := []

/-- Which folders they view. -/
def viewedFolders : Lookup :=
  .entities {
    tenant := "t"
    entityType := "folder"
    permission := "view"
    subject := ⟨"user", "u"⟩ }

/-- A call while they own folders. -/
def ownedVisit (ids : List String) (size : Nat) (page : Page) : Visit where
  resolver := (ownedFacts ids).resolver Evaluation.folderSchema 3
    fun text _ => .error (.notEvaluated text)
  stored := (ownedFacts ids).tuples
  size := size
  page := page

/-- Between two calls they lose one folder and get another one. -/
def ownedVisits : List Visit :=
  [ownedVisit ["a", "b", "d"] 1 ⟨["a"], some "a"⟩,
    ownedVisit ["a", "c", "d"] 2 ⟨["c", "d"], none⟩]

/-- The folder that they own all along is returned once. -/
theorem ownedVisits_lose_nothing :
    viewedFolders.Calls none ownedVisits none ∧
      Visit.allIds ownedVisits = ["a", "c", "d"] ∧
      (Visit.allIds ownedVisits).count "d" = 1 := by
  have hreads : ∀ ids size page,
      (ownedVisit ids size page).resolver.ReadsTuples
        (ownedVisit ids size page).stored := fun ids _ _ =>
    ((ownedFacts ids).reads_resolver ..).readsTuples
  have hcalls : viewedFolders.Calls none ownedVisits none :=
    .more ⟨hreads _ _ _, Outcome.eq_ok_of_toOption (by decide +kernel)⟩ rfl
      (.one ⟨hreads _ _ _, Outcome.eq_ok_of_toOption (by decide +kernel)⟩)
  have hcandidate : ∀ v ∈ ownedVisits, viewedFolders.IsCandidate v.stored "d" :=
    fun v hv => ⟨⟨"folder", "d", "owner", "user", "u", none⟩,
      List.mem_append_left _ (by revert v; decide), rfl, rfl⟩
  have hallows : ∀ v ∈ ownedVisits, viewedFolders.Allows v.resolver "d" :=
    List.forall_mem_cons.mpr ⟨⟨_, rfl, Resolver.checkInSchema_eq ..⟩,
      List.forall_mem_singleton.mpr ⟨_, rfl, Resolver.checkInSchema_eq ..⟩⟩
  exact ⟨hcalls, rfl,
    (calls_lose_and_repeat_nothing hcalls (by decide)).2.2.1 rfl "d"
      fun v hv => ⟨hcandidate v hv, hallows v hv⟩⟩

end Lookup

end Entitlement
