import Mathlib.Data.Set.Function
import Entitlement.Tuple
import Entitlement.Proofs.Outcome

/-!
# Tuples and their texts

A tuple is read from its text by cutting at the first `@`, on its left at
the first `#`, and in each reference at the first `:`; on its right the
first `#` begins the relation of the subject. So a field must be free of
those marks at which the text would be cut too early, and may contain the
others: what a relation contains of `#`, or an identifier of `:`, comes
behind the cut.

`Tuple.IsSpellable` says which marks these are for each field, and
`Tuple.parse_eq_ok_iff` that the texts which are read are the texts of
exactly these tuples. So both are in bijection
(`spellable_tuples_and_their_texts`).
-/

namespace Entitlement

/-! ## Which tuples have a text of their own -/

/-- **Whether a field can be told from what stands around it**: it is not
empty and free of the marks at which it would be cut. -/
def IsFree (marks : List Char) (field : String) : Prop :=
  field ≠ "" ∧ ∀ mark ∈ marks, mark ∉ field.toList

instance (marks : List Char) (field : String) :
    Decidable (IsFree marks field) :=
  decidable_of_iff
    (field ≠ "" ∧ marks.all (fun mark => !field.toList.contains mark) = true)
    (by simp [IsFree])

@[simp] theorem isFree_nil {field : String} :
    IsFree [] field ↔ field ≠ "" := by
  simp [IsFree]

@[simp] theorem isFree_cons {mark : Char} {marks : List Char} {field : String} :
    IsFree (mark :: marks) field ↔
      mark ∉ field.toList ∧ IsFree marks field := by
  simp [IsFree, and_left_comm]

/-- **The tuples that can be read from their text.** The fields that come
first are searched for the most marks. -/
structure Tuple.IsSpellable (t : Tuple) : Prop where
  entityType : IsFree [':', '#', '@'] t.entityType
  entityId : IsFree ['#', '@'] t.entityId
  relation : IsFree ['@'] t.relation
  subjectType : IsFree [':', '#'] t.subjectType
  subjectId : IsFree ['#'] t.subjectId
  subjectRelation : t.subjectRelation ≠ some ""

/-- What the cuts ask of the fields: the first mark of each sort is the one
that was written between them. -/
theorem Tuple.isSpellable_iff_cuts {t : Tuple} :
    t.IsSpellable ↔
      '@' ∉ t.entityType.toList ++ ':' :: t.entityId.toList ++
          '#' :: t.relation.toList ∧
        '#' ∉ t.entityType.toList ++ ':' :: t.entityId.toList ∧
        t.relation ≠ "" ∧
        (IsFree [':'] t.entityType ∧ t.entityId ≠ "") ∧
        ('#' ∉ t.subjectType.toList ++ ':' :: t.subjectId.toList ∧
          t.subjectRelation ≠ some "") ∧
        IsFree [':'] t.subjectType ∧ t.subjectId ≠ "" := by
  constructor
  · rintro ⟨htype, hid, hrelation, htype', hid', hgiven⟩
    simp_all
  · intro h
    constructor <;> simp_all

/-! ## References and subjects -/

variable {text type id : String} {cs subject : List Char}
  {relation : Option String} {t : Tuple}

/-- **A reference is a type and an identifier around the first colon.** -/
theorem readReference_eq_ok_iff :
    readReference cs = .ok (type, id) ↔
      cs = type.toList ++ ':' :: id.toList ∧ IsFree [':'] type ∧ id ≠ "" := by
  unfold readReference
  constructor
  · intro h
    split at h
    next before after hcut =>
      obtain ⟨rfl, hbefore⟩ := cut_eq_some_iff.mp hcut
      split at h
      · cases h
      next hfilled =>
        cases h
        simp_all [IsFree]
    next => cases h
  · rintro ⟨rfl, ⟨htype, hfree⟩, hid⟩
    have hcut : cut ':' (type.toList ++ ':' :: id.toList)
        = some (type.toList, id.toList) :=
      cut_eq_some_iff.mpr ⟨rfl, hfree ':' (by simp)⟩
    simp [hcut, htype, hid]

/-- **The relation of a subject begins behind its first mark**, and is not
empty. -/
theorem readSubject_eq_ok_iff :
    readSubject cs = .ok (subject, relation) ↔
      cs = subject ++ (renderRelation relation).toList ∧ '#' ∉ subject ∧
        relation ≠ some "" := by
  unfold readSubject
  constructor
  · intro h
    split at h
    next hcut =>
      cases h
      exact ⟨by simp [renderRelation], cut_eq_none_iff.mp hcut, by simp⟩
    next => cases h
    next before after hafter hcut =>
      cases h
      obtain ⟨rfl, hbefore⟩ := cut_eq_some_iff.mp hcut
      exact ⟨by simp [renderRelation], hbefore, by simpa using hafter⟩
  · rintro ⟨rfl, hsubject, hrelation⟩
    cases relation with
    | none => simp [renderRelation, cut_eq_none_iff.mpr hsubject]
    | some relation =>
      have hcut : cut '#' (subject ++ (renderRelation (some relation)).toList)
          = some (subject, relation.toList) :=
        cut_eq_some_iff.mpr ⟨by simp [renderRelation], hsubject⟩
      obtain ⟨c, cs, hcs⟩ := List.exists_cons_of_ne_nil
        (show relation.toList ≠ [] by simpa using hrelation)
      rw [hcut, hcs]
      show Except.ok (subject, some (String.ofList (c :: cs))) = _
      rw [← hcs, String.ofList_toList]

/-! ## Tuples -/

/-- The characters of a tuple's text, part by part. -/
theorem Tuple.toList_render (t : Tuple) :
    t.render.toList
      = (t.entityType.toList ++ ':' :: t.entityId.toList ++
          '#' :: t.relation.toList) ++
        '@' :: (t.subjectType.toList ++ ':' :: t.subjectId.toList ++
          (renderRelation t.subjectRelation).toList) := by
  simp [render]

/-- **How a text is cut**: at the first `@`, to its left at the first `#`,
and the references and the subject from what is left. -/
theorem Tuple.parse_eq_ok_iff_exists :
    Tuple.parse text = .ok t ↔
      ∃ entity subject bare,
        cut '@' text.toList
          = some (entity ++ '#' :: t.relation.toList, subject) ∧
        '#' ∉ entity ∧ t.relation ≠ "" ∧
        readReference entity = .ok (t.entityType, t.entityId) ∧
        readSubject subject = .ok (bare, t.subjectRelation) ∧
        readReference bare = .ok (t.subjectType, t.subjectId) := by
  unfold Tuple.parse
  constructor
  · intro h
    split at h
    next => cases h
    next side subject hat =>
    split at h
    next => cases h
    next entity relation hhash =>
    obtain ⟨⟨type, id⟩, href, h⟩ := Outcome.bind_eq_ok_iff.mp h
    dsimp only at h
    split at h
    next => cases h
    next hfilled =>
    obtain ⟨⟨bare, subjectRelation⟩, hsubject, h⟩ :=
      Outcome.bind_eq_ok_iff.mp h
    obtain ⟨⟨subjectType, subjectId⟩, href', h⟩ := Outcome.bind_eq_ok_iff.mp h
    cases h
    obtain ⟨rfl, hentity⟩ := cut_eq_some_iff.mp hhash
    exact ⟨entity, subject, bare, by simpa using hat, hentity,
      by simpa using hfilled, href, hsubject, href'⟩
  · rintro ⟨entity, subject, bare, hat, hentity, hrelation, href, hsubject,
      href'⟩
    have hhash : cut '#' (entity ++ '#' :: t.relation.toList)
        = some (entity, t.relation.toList) :=
      cut_eq_some_iff.mpr ⟨rfl, hentity⟩
    have hfilled : t.relation.toList.isEmpty = false := by simpa using hrelation
    simp only [hat, hhash, href, hsubject, href', hfilled, bind, Except.bind]
    simp [pure, Except.pure]

/-- **The texts that are read are those of the tuples that have one of their
own.** -/
theorem Tuple.parse_eq_ok_iff :
    Tuple.parse text = .ok t ↔ t.render = text ∧ t.IsSpellable := by
  rw [parse_eq_ok_iff_exists, ← String.toList_inj, toList_render,
    isSpellable_iff_cuts]
  constructor
  · rintro ⟨entity, subject, bare, hat, hentity, hrelation, href, hsubject,
      href'⟩
    obtain ⟨htext, hside⟩ := cut_eq_some_iff.mp hat
    obtain ⟨rfl, hentityRef⟩ := readReference_eq_ok_iff.mp href
    obtain ⟨rfl, hgiven⟩ := readSubject_eq_ok_iff.mp hsubject
    obtain ⟨rfl, hsubjectRef⟩ := readReference_eq_ok_iff.mp href'
    exact ⟨htext.symm, hside, hentity, hrelation, hentityRef, hgiven,
      hsubjectRef⟩
  · rintro ⟨htext, hside, hentity, hrelation, hentityRef, hgiven, hsubjectRef⟩
    exact ⟨_, _, _, cut_eq_some_iff.mpr ⟨htext.symm, hside⟩, hentity, hrelation,
      readReference_eq_ok_iff.mpr ⟨rfl, hentityRef⟩,
      readSubject_eq_ok_iff.mpr ⟨rfl, hgiven⟩,
      readReference_eq_ok_iff.mpr ⟨rfl, hsubjectRef⟩⟩

/-- **Tuples and their texts are in bijection** where either can be read: a
text that is read is the text of what is read from it, and a tuple is read
from its text exactly if its fields are free of the marks at which they would
be cut. -/
theorem spellable_tuples_and_their_texts :
    (∀ text t, Tuple.parse text = .ok t → t.render = text) ∧
      (∀ t : Tuple, Tuple.parse t.render = .ok t ↔ t.IsSpellable) ∧
      Set.BijOn Tuple.render {t | t.IsSpellable}
        {text | ∃ t, Tuple.parse text = .ok t} := by
  have hback (t : Tuple) : Tuple.parse t.render = .ok t ↔ t.IsSpellable := by
    rw [Tuple.parse_eq_ok_iff, and_iff_right rfl]
  refine ⟨fun text t h => (Tuple.parse_eq_ok_iff.mp h).1, hback, ?_, ?_, ?_⟩
  · intro t ht
    exact ⟨t, (hback t).mpr ht⟩
  · intro t ht t' ht' heq
    have hread : Tuple.parse t.render = .ok t' := heq ▸ (hback t').mpr ht'
    exact Except.ok.inj (((hback t).mpr ht).symm.trans hread)
  · rintro text ⟨t, h⟩
    obtain ⟨hrender, ht⟩ := Tuple.parse_eq_ok_iff.mp h
    exact ⟨t, ht, hrender⟩

/-- A tuple with marks in every field that may contain one. -/
def markedTuple : Tuple where
  entityType := "document"
  entityId := "2024:plan"
  relation := "owner#past"
  subjectType := "team@home"
  subjectId := "a:b@c"
  subjectRelation := some "member@:#"

/-- Marks behind the cuts are read as parts of the fields. -/
theorem markedTuple_is_read :
    Tuple.parse "document:2024:plan#owner#past@team@home:a:b@c#member@:#"
        = .ok markedTuple ∧
      markedTuple.IsSpellable ∧
      Tuple.parse markedTuple.render = .ok markedTuple ∧
      markedTuple.render
        = "document:2024:plan#owner#past@team@home:a:b@c#member@:#" := by
  have hread : Tuple.parse
      "document:2024:plan#owner#past@team@home:a:b@c#member@:#"
        = .ok markedTuple := by decide +kernel
  have hspellable : markedTuple.IsSpellable := by
    constructor <;> decide +kernel
  obtain ⟨hrender, hback, -⟩ := spellable_tuples_and_their_texts
  exact ⟨hread, hspellable, (hback markedTuple).mpr hspellable,
    hrender _ _ hread⟩

end Entitlement
