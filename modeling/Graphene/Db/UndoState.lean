import Graphene.Lib.MultiIndex

/-!
# Undo states and the undo stack

`undo_state` records what one undo session has changed, and `undo_database` keeps a stack of such
states.  The hooks `onCreate`, `onModify` and `onRemove` write into the newest state.
-/

namespace Graphene.Db

/-- The space and type of an object id; one index holds the objects of one space and type. -/
structure IndexId where
  space : Nat
  type : Nat
deriving DecidableEq

/-- `object_id_type`: space, type and instance number. -/
structure ObjectId where
  index : IndexId
  inst : Nat
deriving DecidableEq

abbrev ObjectMap (V : Type) := AList fun _ : ObjectId => V

/-- `unordered_map` from indexes to the instance number of their next id. -/
abbrev NextIdMap := AList fun _ : IndexId => Nat

structure UndoState (V : Type) where
  oldValues : ObjectMap V
  oldIndexNextIds : NextIdMap
  newIds : List ObjectId
  removed : ObjectMap V
  newIds_nodup : newIds.Nodup

namespace UndoState

variable {V : Type}

def empty : UndoState V where
  oldValues := ∅
  oldIndexNextIds := ∅
  newIds := []
  removed := ∅
  newIds_nodup := List.nodup_nil

def insertNewId (u : UndoState V) (id : ObjectId) : UndoState V :=
  { u with
    newIds := u.newIds.insert id
    newIds_nodup := u.newIds_nodup.insert }

def eraseNewId (u : UndoState V) (id : ObjectId) : UndoState V :=
  { u with
    newIds := u.newIds.erase id
    newIds_nodup := u.newIds_nodup.erase id }

def onCreate (u : UndoState V) (id : ObjectId) : UndoState V :=
  let u' := if id.index ∈ u.oldIndexNextIds then u
    else { u with oldIndexNextIds := u.oldIndexNextIds.insert id.index id.inst }
  u'.insertNewId id

/-- Body of `undo_database::on_modify`; `obj` is the value before the modification. -/
def onModify (u : UndoState V) (id : ObjectId) (obj : V) : UndoState V :=
  if id ∈ u.newIds then u
  else if id ∈ u.oldValues then u
  else { u with oldValues := u.oldValues.insert id obj }

/-- Body of `undo_database::on_remove`; `obj` is the value that is about to be removed. -/
def onRemove (u : UndoState V) (id : ObjectId) (obj : V) : UndoState V :=
  if id ∈ u.newIds then u.eraseNewId id
  else match u.oldValues.lookup id with
    | some old =>
      { u with
        removed := u.removed.insert id old
        oldValues := u.oldValues.erase id }
    | none =>
      if id ∈ u.removed then u
      else { u with removed := u.removed.insert id obj }

/-! ## Merging a state into the one below it -/

/-- `*+upd`: one iteration over the old values of the newer state. -/
def mergeOldValue (prev : UndoState V) (id : ObjectId) (obj : V) : UndoState V :=
  if id ∈ prev.newIds then prev
  else if id ∈ prev.oldValues then prev
  else { prev with oldValues := prev.oldValues.insert id obj }

/-- One iteration over `old_index_next_ids` of the newer state. -/
def mergeNextId (prev : UndoState V) (i : IndexId) (n : Nat) : UndoState V :=
  if i ∈ prev.oldIndexNextIds then prev
  else { prev with oldIndexNextIds := prev.oldIndexNextIds.insert i n }

/-- `*+del`: one iteration over the removed objects of the newer state. -/
def mergeRemoved (prev : UndoState V) (id : ObjectId) (obj : V) : UndoState V :=
  if id ∈ prev.newIds then prev.eraseNewId id
  else match prev.oldValues.lookup id with
    | some old =>
      { prev with
        removed := prev.removed.insert id old
        oldValues := prev.oldValues.erase id }
    | none => { prev with removed := prev.removed.insert id obj }

/-- The four loops of `undo_database::merge`, from `state` into `prev_state`. -/
def merge (prev state : UndoState V) : UndoState V :=
  let p := state.oldValues.entries.foldl (fun p e => p.mergeOldValue e.1 e.2) prev
  let p := state.newIds.foldl insertNewId p
  let p := state.oldIndexNextIds.entries.foldl (fun p e => p.mergeNextId e.1 e.2) p
  state.removed.entries.foldl (fun p e => p.mergeRemoved e.1 e.2) p

end UndoState

/-- `undo_database`; the list holds `_stack` with its back first. -/
structure UndoDatabase (V : Type) where
  stack : List (UndoState V) := []
  disabled : Bool := true
  activeSessions : Nat := 0
  maxSize : Nat := 256

namespace UndoDatabase

variable {V : Type}

section

variable (u : UndoDatabase V)

def size : Nat :=
  u.stack.length

def enable : UndoDatabase V :=
  { u with disabled := false }

def disable : UndoDatabase V :=
  { u with disabled := true }

def setMaxSize (newMaxSize : Nat) : UndoDatabase V :=
  { u with maxSize := newMaxSize }

/-- Apply a hook to the newest state; a state is created when the stack is empty, and nothing is
recorded while undo is disabled. -/
def record (hook : UndoState V → UndoState V) : UndoDatabase V :=
  if u.disabled then u
  else match u.stack with
    | [] => { u with stack := [hook UndoState.empty] }
    | top :: rest => { u with stack := hook top :: rest }

def onCreate (id : ObjectId) : UndoDatabase V :=
  u.record (·.onCreate id)

def onModify (id : ObjectId) (obj : V) : UndoDatabase V :=
  u.record (·.onModify id obj)

def onRemove (id : ObjectId) (obj : V) : UndoDatabase V :=
  u.record (·.onRemove id obj)

/-- `start_undo_session` of an enabled undo database.  The oldest states are dropped while there
are more than `max_size` of them, then a fresh state is pushed. -/
def startUndoSession : UndoDatabase V :=
  { u with
    -- the front of the deque is the end of the list
    stack := UndoState.empty :: u.stack.take u.maxSize
    activeSessions := u.activeSessions + 1 }

variable (hook : UndoState V → UndoState V)

@[simp] lemma record_settings : (u.record hook).maxSize = u.maxSize ∧
    (u.record hook).activeSessions = u.activeSessions ∧ (u.record hook).disabled = u.disabled := by
  unfold record
  split_ifs
  · exact ⟨rfl, rfl, rfl⟩
  · split <;> exact ⟨rfl, rfl, rfl⟩

end

variable {u : UndoDatabase V}

lemma record_of_disabled (h : u.disabled = true) (hook : UndoState V → UndoState V) :
    u.record hook = u := by
  simp [record, h]

lemma record_cons {top : UndoState V} {rest : List (UndoState V)} (hen : u.disabled = false)
    (hst : u.stack = top :: rest) (hook : UndoState V → UndoState V) :
    u.record hook = { u with stack := hook top :: rest } := by
  simp [record, hen, hst]

end UndoDatabase

end Graphene.Db
