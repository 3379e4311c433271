import Mathlib.Logic.Function.Basic
import Mathlib.Tactic.SplitIfs

/-!
# Secondary indexes

A secondary index is told about every change of the objects of a primary index.  The callback of a
modification may modify further objects; the secondary index then sees the calls of the inner
modifications between the two calls of the outer one.
-/

namespace Graphene.Db

/-- `secondary_index`: the four calls, for an object with the given id and value. -/
structure SecondaryIndex (V S : Type) where
  objectInserted : Nat → V → S → S
  objectRemoved : Nat → V → S → S
  aboutToModify : Nat → V → S → S
  objectModified : Nat → V → S → S

/-- The objects of a primary index and the state of a secondary index on it. -/
structure Indexed (V S : Type) where
  objects : Nat → Option V
  secondary : S

/-- A modification: the object, what the callback modifies besides, in order, and the value it
leaves in the object. -/
inductive Edit (V : Type) where
  | mk (id : Nat) (nested : List (Edit V)) (after : V)

namespace Indexed

variable {V S : Type}

def empty (s : S) : Indexed V S where
  objects := fun _ => none
  secondary := s

section

variable (w : Indexed V S)

def tell (f : S → S) : Indexed V S :=
  { w with secondary := f w.secondary }

def setObject (id : Nat) (obj : Option V) : Indexed V S :=
  { w with objects := Function.update w.objects id obj }

variable (f : S → S) (id : Nat)

@[simp] lemma tell_objects : (w.tell f).objects = w.objects := rfl

lemma setObject_objects (id' : Nat) (obj : Option V) :
    (w.setObject id obj).objects id' = if id' = id then obj else w.objects id' := by
  simp [setObject, Function.update_apply]

end

/-- `primary_index::insert`, and `create` with the id that is next.  It throws when the id is in
use. -/
def insert (I : SecondaryIndex V S) (id : Nat) (obj : V) (w : Indexed V S) : Indexed V S :=
  match w.objects id with
  | some _ => w
  | none => (w.setObject id (some obj)).tell (I.objectInserted id obj)

def remove (I : SecondaryIndex V S) (id : Nat) (w : Indexed V S) : Indexed V S :=
  match w.objects id with
  | none => w
  | some obj => (w.tell (I.objectRemoved id obj)).setObject id none

end Indexed

namespace Edit

variable {V S : Type}

mutual

/-- `primary_index::modify` of an object that exists. -/
def run (I : SecondaryIndex V S) : Edit V → Indexed V S → Indexed V S
  | mk id nested after, w =>
    match w.objects id with
    | none => w
    | some before =>
      -- the callback runs between the two calls
      let w := runAll I nested (w.tell (I.aboutToModify id before))
      (w.setObject id (some after)).tell (I.objectModified id after)

def runAll (I : SecondaryIndex V S) : List (Edit V) → Indexed V S → Indexed V S
  | [], w => w
  | e :: es, w => runAll I es (run I e w)

end

mutual

variable {id : Nat}

/-- No modification removes an object. -/
theorem run_objects_ne_none (I : SecondaryIndex V S) (e : Edit V) {w : Indexed V S}
    (h : w.objects id ≠ none) : (e.run I w).objects id ≠ none := by
  cases e with
  | mk id' nested after =>
    unfold run
    cases hid : w.objects id' with
    | none => exact h
    | some before =>
      rw [Indexed.tell_objects, Indexed.setObject_objects]
      split_ifs
      · exact Option.some_ne_none after
      · exact runAll_objects_ne_none I nested _ h

theorem runAll_objects_ne_none (I : SecondaryIndex V S) (es : List (Edit V)) (w : Indexed V S)
    (h : w.objects id ≠ none) : (runAll I es w).objects id ≠ none := by
  cases es with
  | nil => exact h
  | cons e es => exact runAll_objects_ne_none I es _ (run_objects_ne_none I e h)

end

end Edit

inductive IndexCall (V : Type) where
  | insert (id : Nat) (obj : V)
  | modify (e : Edit V)
  | remove (id : Nat)
  /-- `undo_database::undo`, as far as this index is concerned: old values are written back, new
  objects removed and removed ones inserted, each in the order of the container -/
  | undo (oldValues : List (Nat × V)) (newIds : List Nat) (removed : List (Nat × V))

namespace IndexCall

variable {V S : Type}

def run (I : SecondaryIndex V S) : IndexCall V → Indexed V S → Indexed V S
  | insert id obj, w => w.insert I id obj
  | modify e, w => e.run I w
  | remove id, w => w.remove I id
  | undo oldValues newIds removed, w =>
    let w := oldValues.foldl (fun w e => (Edit.mk e.1 [] e.2).run I w) w
    let w := newIds.foldl (fun w id => w.remove I id) w
    removed.foldl (fun w e => w.insert I e.1 e.2) w

def runAll (I : SecondaryIndex V S) (calls : List (IndexCall V)) (w : Indexed V S) : Indexed V S :=
  calls.foldl (fun w c => c.run I w) w

end IndexCall

end Graphene.Db
