import Graphene.Db.UndoState

/-!
# The object database

`object_database` owns one index per space and type.  A `primary_index` wraps a multi-index container
and intercepts `create`, `modify` and `remove`, so that the undo database records each change.

Fallible calls live in `EStateM`: an exception keeps the changes made before it was thrown.
-/

namespace Graphene.Db

open Lib MultiIndex Function

/-- The assertions and exceptions of the object database. -/
inductive DbError where
  /-- "Database index ${space_id}.${type_id} does not exist" -/
  | indexDoesNotExist (i : IndexId)
  /-- "Unable to find Object ${id}" -/
  | unableToFindObject (id : ObjectId)
  /-- "Could not insert object, most likely a uniqueness constraint was violated" -/
  | couldNotInsertObject
  /-- "Could not create object! Most likely a uniqueness constraint is violated." -/
  | couldNotCreateObject
  /-- "Could not modify object, most likely an index constraint was violated" -/
  | couldNotModifyObject
  /-- thrown by the function that was passed to `create` or `modify` -/
  | callback
  | undoDisabled
  | noActiveSession
  | activeSessions
  | emptyUndoStack
  | undoStackTooSmall
deriving DecidableEq

/-- The unique keys of each index besides the object id. -/
abbrev Schema (κ V : Type) := IndexId → List (V → κ)

/-- `primary_index`: the next instance number and the objects of one space and type. -/
structure PrimaryIndex {κ V : Type} (keys : List (V → κ)) where
  nextId : Nat
  indices : MultiIndex Nat keys

structure ObjectDatabase {κ V : Type} (schema : Schema κ V) where
  index : (i : IndexId) → Option (PrimaryIndex (schema i))
  undoDb : UndoDatabase V

structure Modified (V : Type) where
  value : V
  threw : Bool := false

variable (i : IndexId)

namespace ObjectDatabase

variable {κ V : Type} [DecidableEq κ] {schema : Schema κ V}

abbrev DbM (schema : Schema κ V) (α : Type) := EStateM DbError (ObjectDatabase schema) α

section

variable (db : ObjectDatabase schema)

def findObject (id : ObjectId) : Option V :=
  (db.index id.index).bind (·.indices.find id.inst)

def getNextId (i : IndexId) : Option Nat :=
  (db.index i).map (·.nextId)

def setIndex (i : IndexId) (idx : PrimaryIndex (schema i)) :
    ObjectDatabase schema :=
  { db with index := update db.index i (some idx) }

def mapUndo (f : UndoDatabase V → UndoDatabase V) :
    ObjectDatabase schema :=
  { db with undoDb := f db.undoDb }

end

/-- `primary_index::create`.  The constructor sees the id of the new object. -/
def create (i : IndexId) (constructor : ObjectId → Option V) : DbM schema ObjectId := fun db =>
  match db.index i with
  | none => .error (.indexDoesNotExist i) db
  | some idx =>
    let id : ObjectId := ⟨i, idx.nextId⟩
    match constructor id with
    | none => .error .callback db
    | some item =>
      match idx.indices.insert? id.inst item with
      | none => .error .couldNotCreateObject db
      | some indices =>
        let db := db.setIndex i { nextId := idx.nextId + 1, indices := indices }
        .ok id (db.mapUndo (·.onCreate id))

/-- `primary_index::insert`, which keeps the id the object already has. -/
def insert (id : ObjectId) (obj : V) : DbM schema Unit := fun db =>
  match db.index id.index with
  | none => .error (.indexDoesNotExist id.index) db
  | some idx =>
    match idx.indices.insert? id.inst obj with
    | none => .error .couldNotInsertObject db
    | some indices =>
      let db := db.setIndex id.index { idx with indices := indices }
      .ok () (db.mapUndo (·.onCreate id))

/-- `primary_index::modify` of the object `get_object` finds. -/
def modify (id : ObjectId) (m : V → Modified V) : DbM schema Unit := fun db =>
  match db.index id.index with
  | none => .error (.indexDoesNotExist id.index) db
  | some idx =>
    match idx.indices.find id.inst with
    | none => .error (.unableToFindObject id) db
    | some obj =>
      let db := db.mapUndo (·.onModify id obj)
      let r := idx.indices.modify? id.inst (m obj).value
      let db := db.setIndex id.index { idx with indices := r.1 }
      -- an exception of the callback wins over the uniqueness assertion
      if (m obj).threw then .error .callback db
      else if r.2 then .ok () db
      else .error .couldNotModifyObject db

/-- `primary_index::remove` of the object `get_object` finds. -/
def remove (id : ObjectId) : DbM schema Unit := fun db =>
  match db.index id.index with
  | none => .error (.indexDoesNotExist id.index) db
  | some idx =>
    match idx.indices.find id.inst with
    | none => .error (.unableToFindObject id) db
    | some obj =>
      let db := db.mapUndo (·.onRemove id obj)
      .ok () (db.setIndex id.index { idx with indices := idx.indices.erase id.inst })

/-- `set_next_id` of the index `get_mutable_index` finds. -/
def setNextId (i : IndexId) (n : Nat) : DbM schema Unit := fun db =>
  match db.index i with
  | none => .error (.indexDoesNotExist i) db
  | some idx => .ok () (db.setIndex i { idx with nextId := n })

section Reads

omit [DecidableEq κ]

variable (db : ObjectDatabase schema) (f : UndoDatabase V → UndoDatabase V)
  (idx : PrimaryIndex (schema i))

@[simp] lemma undoDb_mapUndo : (db.mapUndo f).undoDb = f db.undoDb := rfl

@[simp] lemma setIndex_setIndex (a b : PrimaryIndex (schema i)) :
    (db.setIndex i a).setIndex i b = db.setIndex i b := by
  simp [setIndex]

lemma findObject_setIndex (id : ObjectId) : (db.setIndex i idx).findObject id =
      if id.index = i then idx.indices.find id.inst else db.findObject id := by
  obtain ⟨j, n⟩ := id
  by_cases h : j = i
  · subst h
    simp [findObject, setIndex]
  · simp [findObject, setIndex, h]

lemma getNextId_setIndex (j : IndexId) (idx : PrimaryIndex (schema i)) :
    (db.setIndex i idx).getNextId j = if j = i then some idx.nextId else db.getNextId j := by
  by_cases h : j = i
  · subst h
    simp [getNextId, setIndex]
  · simp [getNextId, setIndex, h]

lemma findObject_unique {i : IndexId} {m n : Nat} {v w : V}
    (hmn : m ≠ n) (hv : db.findObject ⟨i, m⟩ = some v) (hw : db.findObject ⟨i, n⟩ = some w) :
    ¬ Clash (schema i) v w := by
  simp only [findObject, Option.bind_eq_some_iff] at hv hw
  obtain ⟨idx, hidx, hv⟩ := hv
  obtain ⟨idx', hidx', hw⟩ := hw
  rw [hidx, Option.some_inj] at hidx'
  subst hidx'
  exact idx.indices.unique _ _ _ _ hmn hv hw

end Reads

/-! ## Snapshots -/

end ObjectDatabase

/-- What the database holds: the objects and the next id of every index. -/
@[ext] structure Snapshot (V : Type) where
  find : ObjectId → Option V
  nextId : IndexId → Option Nat

namespace Snapshot

variable {V : Type}

section

variable (s : Snapshot V)

def setObject (id : ObjectId) (obj : Option V) : Snapshot V :=
  { s with find := update s.find id obj }

def setNextId (i : IndexId) (n : Nat) : Snapshot V :=
  { s with nextId := update s.nextId i (some n) }

lemma find_setObject (id id' : ObjectId) (obj : Option V) :
    (s.setObject id obj).find id' = if id' = id then obj else s.find id' := by
  simp [setObject, update_apply]

@[simp] lemma nextId_setObject (id : ObjectId) (obj : Option V) :
    (s.setObject id obj).nextId = s.nextId := rfl

@[simp] lemma find_setNextId (n : Nat) : (s.setNextId i n).find = s.find := rfl

lemma nextId_setNextId (j : IndexId) (n : Nat) :
    (s.setNextId i n).nextId j = if j = i then some n else s.nextId j := by
  simp [setNextId, update_apply]

end

/-- Another object of the same index holds a unique key of `v`. -/
def KeyTaken {κ : Type} (schema : Schema κ V) (s : Snapshot V) (id : ObjectId) (v : V) : Prop :=
  ∃ n w, n ≠ id.inst ∧ s.find ⟨id.index, n⟩ = some w ∧ Clash (schema id.index) v w

/-- No two objects of one index share a unique key. -/
def UniqueKeys {κ : Type} (schema : Schema κ V) (s : Snapshot V) : Prop :=
  ∀ id v, s.find id = some v → ¬ s.KeyTaken schema id v

end Snapshot

variable {id : ObjectId}

namespace ObjectDatabase

variable {κ V : Type} {schema : Schema κ V}

section

variable (db : ObjectDatabase schema)

def snapshot : Snapshot V where
  find := db.findObject
  nextId := db.getNextId

@[simp] lemma find_snapshot :
    db.snapshot.find id = db.findObject id := rfl

@[simp] lemma nextId_snapshot : db.snapshot.nextId i = db.getNextId i := rfl

@[simp] lemma snapshot_mapUndo
    (f : UndoDatabase V → UndoDatabase V) : (db.mapUndo f).snapshot = db.snapshot := rfl

lemma snapshot_uniqueKeys : db.snapshot.UniqueKeys schema := by
  rintro ⟨i, n⟩ v hv ⟨m, w, hmn, hw, hc⟩
  exact db.findObject_unique (Ne.symm hmn) hv hw hc

lemma snapshot_setIndex (id : ObjectId) {idx : PrimaryIndex (schema id.index)}
    {c : MultiIndex Nat (schema id.index)} {obj : Option V} (hidx : db.index id.index = some idx)
    (hc : ∀ n, c.find n = if n = id.inst then obj else idx.indices.find n) :
    (db.setIndex id.index { idx with indices := c }).snapshot = db.snapshot.setObject id obj := by
  ext id' v
  · obtain ⟨j, m⟩ := id'
    obtain ⟨i, n⟩ := id
    simp only [find_snapshot, findObject_setIndex, Snapshot.find_setObject, hc, ObjectId.mk.injEq]
    by_cases hj : j = i
    · subst hj
      by_cases hm : m = n <;> simp [hm, findObject, hidx]
    · simp [hj]
  · simp only [nextId_snapshot, getNextId_setIndex, Snapshot.nextId_setObject]
    split_ifs with hi
    · subst hi
      simp [getNextId, hidx]
    · rfl

end

variable {db : ObjectDatabase schema} {i : IndexId}

lemma snapshot_setNextId {idx : PrimaryIndex (schema i)} (hidx : db.index i = some idx) (n : Nat) :
    (db.setIndex i { idx with nextId := n }).snapshot = db.snapshot.setNextId i n := by
  ext id v
  · obtain ⟨j, m⟩ := id
    simp only [find_snapshot, findObject_setIndex, Snapshot.find_setNextId]
    split_ifs with hi
    · subst hi
      simp [findObject, hidx]
    · rfl
  · simp only [nextId_snapshot, getNextId_setIndex, Snapshot.nextId_setNextId]

lemma occupied_iff_keyTaken {idx : PrimaryIndex (schema id.index)}
    (hidx : db.index id.index = some idx) (v : V) :
    idx.indices.Occupied id.inst v ↔ db.snapshot.KeyTaken schema id v := by
  simp [occupied_iff, Snapshot.KeyTaken, findObject, hidx]

/-! ## What each call can do -/

variable [DecidableEq κ]

lemma create_cases (constructor : ObjectId → Option V) (db : ObjectDatabase schema) :
    (∃ e, create i constructor db = .error e db) ∨
    (∃ n item db', create i constructor db = .ok ⟨i, n⟩ db' ∧
      db.snapshot.nextId i = some n ∧ db.snapshot.find ⟨i, n⟩ = none ∧
      db'.snapshot = (db.snapshot.setObject ⟨i, n⟩ (some item)).setNextId i (n + 1) ∧
      db'.undoDb = db.undoDb.onCreate ⟨i, n⟩) := by
  unfold create
  cases hidx : db.index i with
  | none => exact .inl ⟨_, rfl⟩
  | some idx =>
    cases hctor : constructor ⟨i, idx.nextId⟩ with
    | none => exact .inl ⟨.callback, by simp [hctor]⟩
    | some item =>
      cases hins : idx.indices.insert? idx.nextId item with
      | none => exact .inl ⟨.couldNotCreateObject, by simp [hctor, hins]⟩
      | some c =>
        obtain ⟨hnone, -, hfind⟩ := insert?_eq_some hins
        refine .inr ⟨idx.nextId, item, _, by simp [hctor, hins]; rfl, ?_, ?_, ?_, rfl⟩
        · simp [getNextId, hidx]
        · simp [findObject, hidx, hnone]
        · -- first the new object, then the next id of the index it was added to
          have hobj := snapshot_setIndex db ⟨i, idx.nextId⟩ hidx hfind
          have hset : (db.setIndex i { idx with indices := c }).index i =
              some { idx with indices := c } := by simp [setIndex]
          have hnext := snapshot_setNextId hset (idx.nextId + 1)
          rw [hobj, setIndex_setIndex] at hnext
          rw [← hnext, snapshot_mapUndo]

/-- `modify` of a missing object throws.  Otherwise the undo database is told first, and the new
value is stored unless another object holds one of its keys: then the object is gone. -/
lemma modify_cases (id : ObjectId) (m : V → Modified V) (db : ObjectDatabase schema) :
    (∃ e, modify id m db = .error e db ∧ db.snapshot.find id = none) ∨
    (∃ obj db', db.snapshot.find id = some obj ∧ db'.undoDb = db.undoDb.onModify id obj ∧
      ((¬ db.snapshot.KeyTaken schema id (m obj).value ∧
          db'.snapshot = db.snapshot.setObject id (some (m obj).value) ∧
          modify id m db = if (m obj).threw then .error .callback db' else .ok () db') ∨
        (db.snapshot.KeyTaken schema id (m obj).value ∧
          db'.snapshot = db.snapshot.setObject id none ∧ ∃ e, modify id m db = .error e db'))) := by
  unfold modify
  cases hidx : db.index id.index with
  | none => exact .inl ⟨_, rfl, by simp [findObject, hidx]⟩
  | some idx =>
    cases hfind : idx.indices.find id.inst with
    | none => exact .inl ⟨.unableToFindObject id, by simp [hfind], by simp [findObject, hidx, hfind]⟩
    | some obj =>
      have hold : db.snapshot.find id = some obj := by simp [findObject, hidx, hfind]
      have htaken := occupied_iff_keyTaken hidx (m obj).value
      let db1 := db.mapUndo (·.onModify id obj)
      let c := idx.indices.modify? id.inst (m obj).value
      have hmod : ∀ n, c.1.find n = if n = id.inst then
          (if idx.indices.Occupied id.inst (m obj).value then none else some (m obj).value)
          else idx.indices.find n :=
        fun n => idx.indices.find_modify? id.inst n (m obj).value
      have hsnap := snapshot_setIndex db1 id hidx hmod
      refine .inr ⟨obj, db1.setIndex id.index { idx with indices := c.1 }, hold, rfl, ?_⟩
      by_cases hocc : idx.indices.Occupied id.inst (m obj).value
      · refine .inr ⟨htaken.1 hocc, by simpa [hocc, db1] using hsnap, ?_⟩
        have hflag : c.2 = false := by simp [c, modify?, hocc]
        by_cases hthrew : (m obj).threw
        · exact ⟨.callback, by simp [hfind, hthrew, db1, c]⟩
        · exact ⟨.couldNotModifyObject, by simp [hfind, hthrew, db1, c, hflag]⟩
      · refine .inl ⟨fun h => hocc (htaken.2 h), by simpa [hocc, db1] using hsnap, ?_⟩
        have hflag : c.2 = true := by simp [c, modify?, hocc]
        simp [hfind, db1, c, hflag]

omit [DecidableEq κ] in
lemma remove_cases (id : ObjectId) (db : ObjectDatabase schema) :
    (∃ e, remove id db = .error e db ∧ db.snapshot.find id = none) ∨
    (∃ obj db', remove id db = .ok () db' ∧ db.snapshot.find id = some obj ∧
      db'.undoDb = db.undoDb.onRemove id obj ∧ db'.snapshot = db.snapshot.setObject id none) := by
  unfold remove
  cases hidx : db.index id.index with
  | none => exact .inl ⟨_, rfl, by simp [findObject, hidx]⟩
  | some idx =>
    cases hfind : idx.indices.find id.inst with
    | none =>
      exact .inl ⟨.unableToFindObject id, by simp [hfind], by simp [findObject, hidx, hfind]⟩
    | some obj =>
      let db1 := db.mapUndo (·.onRemove id obj)
      have hsnap := snapshot_setIndex db1 id hidx (idx.indices.find_erase id.inst)
      refine .inr ⟨obj, _, by simp [hfind]; rfl, by simp [findObject, hidx, hfind], rfl, ?_⟩
      simpa [db1] using hsnap

lemma insert_ok {obj : V} (hidx : db.snapshot.nextId id.index ≠ none)
    (hfree : db.snapshot.find id = none) (hkeys : ¬ db.snapshot.KeyTaken schema id obj) :
    ∃ db', insert id obj db = .ok () db' ∧ db'.undoDb = db.undoDb.onCreate id ∧
      db'.snapshot = db.snapshot.setObject id (some obj) := by
  cases h : db.index id.index with
  | none => simp [getNextId, h] at hidx
  | some idx =>
    have hnone : idx.indices.find id.inst = none := by simpa [findObject, h] using hfree
    obtain ⟨c, hc⟩ := insert?_isSome hnone
      (fun hocc => hkeys ((occupied_iff_keyTaken h obj).1 hocc))
    obtain ⟨-, -, hfind⟩ := insert?_eq_some hc
    refine ⟨_, by simp only [insert, h, hc]; rfl, rfl, ?_⟩
    exact snapshot_setIndex db id h hfind

omit [DecidableEq κ] in
lemma setNextId_ok {n : Nat} (hidx : db.snapshot.nextId i ≠ none) :
    ∃ db', setNextId i n db = .ok () db' ∧ db'.undoDb = db.undoDb ∧
      db'.snapshot = db.snapshot.setNextId i n := by
  cases h : db.index i with
  | none => simp [getNextId, h] at hidx
  | some idx =>
    refine ⟨db.setIndex i { idx with nextId := n }, ?_, rfl, snapshot_setNextId h n⟩
    simp only [setNextId, h]

end ObjectDatabase

end Graphene.Db
