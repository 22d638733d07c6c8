import Entitlement.Ordered
import Entitlement.Text.Cut

/-!
# Relation tuples

A relation tuple is a stored fact: a subject stands in a relation to an
entity. The subject is an entity, or with a relation the holders of that
relation on it, a *userset*.

A tuple is written `type:id#relation@type:id`, and a userset with its
relation behind another `#`. `Tuple.parse` reads this form by cutting at
the first mark of each sort, in a fixed order, so some fields may contain
some of the marks. Tuples are ordered field by field, and one without a
subject relation comes before those that differ from it only there.
-/

namespace Entitlement

/-! ## Tuples -/

/-- **An entity**, by its type and its identifier. -/
structure EntityRef where
  type : String
  id : String
  deriving DecidableEq, Repr, Inhabited

/-- What entities are ordered by. -/
def EntityRef.sortKey (e : EntityRef) : List String := [e.type, e.id]

/-- **A relation tuple.** An absent and an empty subject relation both
mean that the subject is a plain entity. -/
structure Tuple where
  entityType : String
  entityId : String
  relation : String
  subjectType : String
  subjectId : String
  subjectRelation : Option String := none
  deriving DecidableEq, Repr, Inhabited

/-- A subject as it is shown: an entity, or with a relation a userset. -/
structure SubjectRef where
  type : String
  id : String
  relation : Option String := none
  deriving DecidableEq, Repr, Inhabited

/-- A relation behind its mark, if there is one. -/
def renderRelation : Option String → String
  | none => ""
  | some relation => "#" ++ relation

namespace SubjectRef

/-- How a subject is written. -/
def render (s : SubjectRef) : String :=
  s.type ++ ":" ++ s.id ++ renderRelation s.relation

/-- What subjects are ordered by. -/
def sortKey (s : SubjectRef) : List String :=
  [s.type, s.id] ++ s.relation.toList

end SubjectRef

namespace Tuple

/-- Whether the subject is a userset. -/
def isUserset (t : Tuple) : Bool :=
  match t.subjectRelation with
  | none => false
  | some relation => !relation.isEmpty

/-- The entity that a tuple is about. -/
def entity (t : Tuple) : EntityRef := ⟨t.entityType, t.entityId⟩

/-- The entity that the subject is, or whose relation it is. -/
def subjectEntity (t : Tuple) : EntityRef := ⟨t.subjectType, t.subjectId⟩

/-- The subject of a tuple. -/
def subject (t : Tuple) : SubjectRef :=
  ⟨t.subjectType, t.subjectId, t.subjectRelation⟩

/-- How a tuple is written. -/
def render (t : Tuple) : String :=
  t.entityType ++ ":" ++ t.entityId ++ "#" ++ t.relation ++ "@" ++
    t.subjectType ++ ":" ++ t.subjectId ++ renderRelation t.subjectRelation

/-- What tuples are ordered by. -/
def sortKey (t : Tuple) : List String :=
  [t.entityType, t.entityId, t.relation, t.subjectType, t.subjectId] ++
    t.subjectRelation.toList

/-- The tuples in ascending order. -/
def sort (tuples : List Tuple) : List Tuple :=
  tuples.mergeSort fun a b => decide (¬ b.sortKey < a.sortKey)

/-- The same tuple with an empty subject relation left out. -/
def normalize (t : Tuple) : Tuple :=
  { t with subjectRelation := t.subjectRelation.filter fun r => !r.isEmpty }

end Tuple

/-! ## Reading -/

/-- Why a text is no tuple. -/
inductive TupleFault
  | noSubject
  | noRelation
  | badReference
  | emptyRelation
  | emptySubjectRelation
  deriving DecidableEq, Repr

/-- The wording of a fault. -/
def TupleFault.message : TupleFault → String
  | noSubject => "tuple must contain '@' between entity and subject"
  | noRelation => "entity must be in 'type:id#relation' format"
  | badReference => "reference must be in 'type:id' format"
  | emptyRelation => "relation cannot be empty"
  | emptySubjectRelation => "subject relation cannot be empty"

/-- The type and the identifier of a reference, neither of them empty. -/
def readReference (cs : List Char) : Except TupleFault (String × String) :=
  match cut ':' cs with
  | some (type, id) =>
    if type.isEmpty || id.isEmpty then .error .badReference
    else .ok (String.ofList type, String.ofList id)
  | none => .error .badReference

/-- The subject of a tuple and its relation, which is not empty. -/
def readSubject (cs : List Char) :
    Except TupleFault (List Char × Option String) :=
  match cut '#' cs with
  | none => .ok (cs, none)
  | some (_, []) => .error .emptySubjectRelation
  | some (subject, relation) => .ok (subject, some (String.ofList relation))

/-- **The tuple that a text spells.** -/
def Tuple.parse (text : String) : Except TupleFault Tuple := do
  match cut '@' text.toList with
  | none => throw .noSubject
  | some (entity, subject) =>
    match cut '#' entity with
    | none => throw .noRelation
    | some (entity, relation) =>
      let (entityType, entityId) ← readReference entity
      if relation.isEmpty then throw .emptyRelation
      let (subject, subjectRelation) ← readSubject subject
      let (subjectType, subjectId) ← readReference subject
      pure {
        entityType, entityId, relation := String.ofList relation, subjectType,
        subjectId, subjectRelation }

/-! ## Filters -/

/-- **A condition on tuples**: fields that are given must agree. -/
structure TupleFilter where
  entityType : Option String := none
  entityId : Option String := none
  relation : Option String := none
  subjectType : Option String := none
  subjectId : Option String := none
  deriving DecidableEq, Repr

/-- Whether a field agrees with what is asked of it. -/
def agrees (asked : Option String) (value : String) : Bool :=
  match asked with
  | none => true
  | some v => v == value

namespace TupleFilter

/-- Whether a filter asks for nothing. -/
def isEmpty (f : TupleFilter) : Bool :=
  f.entityType.isNone && f.entityId.isNone && f.relation.isNone &&
    f.subjectType.isNone && f.subjectId.isNone

/-- Whether a tuple is one of those that are asked for. -/
def admits (f : TupleFilter) (t : Tuple) : Bool :=
  agrees f.entityType t.entityType && agrees f.entityId t.entityId &&
    agrees f.relation t.relation && agrees f.subjectType t.subjectType &&
    agrees f.subjectId t.subjectId

/-- The tuples on a relation of an entity. -/
def onRelation (entity : EntityRef) (relation : String) : TupleFilter where
  entityType := some entity.type
  entityId := some entity.id
  relation := some relation

/-- The tuples on a relation of an entity with a certain subject. -/
def grantsTo (entity : EntityRef) (relation : String) (subject : EntityRef) :
    TupleFilter :=
  { onRelation entity relation with
    subjectType := some subject.type
    subjectId := some subject.id }

end TupleFilter

end Entitlement
