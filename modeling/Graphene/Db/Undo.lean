import Graphene.Db.ObjectDatabase

/-!
# Undo sessions

The functions of `undo_database` that change the object database: starting,
undoing, committing and merging a session, and popping a committed one.

`undo` and `pop_commit` walk four unordered containers.  The order of each walk is
unspecified, so it is a parameter (`IterationOrder`).
-/

namespace Graphene.Db

open Lib UndoDatabase

/-- The orders in which the four containers of an undo state are walked. -/
structure IterationOrder (V : Type) where
  oldValues : Traversal (Σ _ : ObjectId, V)
  newIds : Traversal ObjectId
  nextIds : Traversal (Σ _ : IndexId, Nat)
  removed : Traversal (Σ _ : ObjectId, V)

def IterationOrder.forward (V : Type) : IterationOrder V where
  oldValues := .forward
  newIds := .forward
  nextIds := .forward
  removed := .forward

namespace ObjectDatabase

variable {κ V : Type} [DecidableEq κ] {schema : Schema κ V}

/-- First loop of `undo`: write the saved values back. -/
def restoreOldValues : List (Σ _ : ObjectId, V) → DbM schema Unit
  | [] => pure ()
  | item :: rest => do
    modify item.1 (fun _ => { value := item.2 })
    restoreOldValues rest

/-- Second loop of `undo`: remove the objects the session created. -/
def removeNewIds : List ObjectId → DbM schema Unit
  | [] => pure ()
  | id :: rest => do
    remove id
    removeNewIds rest

/-- Third loop of `undo`: reset the next ids. -/
def restoreNextIds : List (Σ _ : IndexId, Nat) → DbM schema Unit
  | [] => pure ()
  | item :: rest => do
    setNextId item.1 item.2
    restoreNextIds rest

/-- Fourth loop of `undo`: put the removed objects back. -/
def insertRemoved : List (Σ _ : ObjectId, V) → DbM schema Unit
  | [] => pure ()
  | item :: rest => do
    insert item.1 item.2
    insertRemoved rest

/-- The loops that `undo` and `pop_commit` share. -/
def revert (order : IterationOrder V) (state : UndoState V) : DbM schema Unit := do
  restoreOldValues (order.oldValues.order state.oldValues.entries)
  removeNewIds (order.newIds.order state.newIds)
  restoreNextIds (order.nextIds.order state.oldIndexNextIds.entries)
  insertRemoved (order.removed.order state.removed.entries)

def startUndoSession (db : ObjectDatabase schema) : ObjectDatabase schema :=
  db.mapUndo UndoDatabase.startUndoSession

/-- `undo_database::undo`.  When a loop throws, undo stays disabled and the state on the stack. -/
def undo (order : IterationOrder V) : DbM schema Unit := fun db =>
  if db.undoDb.disabled then .error .undoDisabled db
  else if db.undoDb.activeSessions = 0 then .error .noActiveSession db
  else match db.undoDb.stack with
    | [] => .error .emptyUndoStack db
    | state :: rest =>
      match revert order state (db.mapUndo disable) with
      | .error e db => .error e db
      | .ok _ db => .ok () (db.mapUndo fun u =>
        { u with stack := rest, disabled := false, activeSessions := u.activeSessions - 1 })

/-- `undo_database::commit`: the state stays on the stack, the session ends. -/
def commit : DbM schema Unit := fun db =>
  if db.undoDb.activeSessions = 0 then .error .noActiveSession db
  else .ok () (db.mapUndo fun u => { u with activeSessions := u.activeSessions - 1 })

def popCommit (order : IterationOrder V) : DbM schema Unit := fun db =>
  if db.undoDb.activeSessions ≠ 0 then .error .activeSessions db
  else match db.undoDb.stack with
    | [] => .error .emptyUndoStack db
    | state :: rest =>
      match revert order state (db.mapUndo disable) with
      | .error e db => .error e (db.mapUndo enable)
      | .ok _ db => .ok () (db.mapUndo fun u => { u with stack := rest, disabled := false })

/-- `undo_database::merge`: the newest state is folded into the one below it. -/
def merge : DbM schema Unit := fun db =>
  if db.undoDb.activeSessions = 0 then .error .noActiveSession db
  else match db.undoDb.stack with
    | state :: prev :: rest =>
      .ok () (db.mapUndo fun u =>
        { u with stack := prev.merge state :: rest, activeSessions := u.activeSessions - 1 })
    | stack =>
      if db.undoDb.activeSessions = 1 ∧ stack.length = 1 then
        .ok () (db.mapUndo fun u => { u with stack := [], activeSessions := u.activeSessions - 1 })
      else .error .undoStackTooSmall db

def final {ε σ α : Type} : EStateM.Result ε σ α → σ
  | .ok _ s => s
  | .error _ s => s

inductive Call (V : Type) where
  | create (i : IndexId) (constructor : ObjectId → Option V)
  | modify (id : ObjectId) (m : V → Modified V)
  | remove (id : ObjectId)

namespace Call

def exec : Call V → DbM schema Unit
  | create i constructor => do
    let _ ← ObjectDatabase.create i constructor
    pure ()
  | modify id m => ObjectDatabase.modify id m
  | remove id => ObjectDatabase.remove id

def execAll : List (Call V) → DbM schema Unit
  | [] => pure ()
  | c :: cs => do
    c.exec
    execAll cs

/-- Run calls one after the other; a call that throws leaves its partial changes and the next one
runs. -/
def performAll (cs : List (Call V)) (db : ObjectDatabase schema) : ObjectDatabase schema :=
  cs.foldl (fun db c => final (c.exec db)) db

end Call

end ObjectDatabase

end Graphene.Db
