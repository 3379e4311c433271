import Graphene.Chain.ApplyBlock

/-!
# The fork database

`fork_database` holds the recent blocks of all branches.  The index and the head own the items, and an
item refers to its predecessor by a weak pointer, so each item has an address.  A weak pointer can be
locked while its target is owned by the index, by the head or by a local variable.
-/

namespace Graphene.Chain

open Lib

/-- `fork_item`; `addr` identifies the object, `prev` is the weak pointer. -/
structure ForkItem (H Tx Sched : Type) where
  addr : Nat
  prev : Option Nat
  data : SignedBlock H Tx
  scheduled : Option Sched := none

namespace ForkItem

variable {H Tx Sched : Type}

def id (i : ForkItem H Tx Sched) : BlockId H :=
  i.data.id

def num (i : ForkItem H Tx Sched) : Nat :=
  i.data.blockNum

def previousId (i : ForkItem H Tx Sched) : BlockId H :=
  i.data.previous

end ForkItem

structure ForkDatabase (H Tx Sched : Type) where
  index : List (ForkItem H Tx Sched) := []
  head : Option (ForkItem H Tx Sched) := none
  maxSize : Nat := 1024
  nextAddr : Nat := 0

namespace ForkDatabase

variable {H Tx Sched : Type} [DecidableEq H]

def fetchBlock (db : ForkDatabase H Tx Sched) (id : BlockId H) : Option (ForkItem H Tx Sched) :=
  db.index.find? fun i => decide (i.id = id)

/-- `weak_ptr::lock`, while the items of `locals` are owned by local variables. -/
def lock (db : ForkDatabase H Tx Sched) (locals : List (ForkItem H Tx Sched)) (addr : Nat) :
    Option (ForkItem H Tx Sched) :=
  (db.index ++ db.head.toList ++ locals).find? fun i => decide (i.addr = addr)

def lockPrev (db : ForkDatabase H Tx Sched) (locals : List (ForkItem H Tx Sched))
    (i : ForkItem H Tx Sched) : Option (ForkItem H Tx Sched) :=
  i.prev.bind (db.lock locals)

/-- `_index.insert`: the index is unique by id. -/
def insertItem (item : ForkItem H Tx Sched) (index : List (ForkItem H Tx Sched)) :
    List (ForkItem H Tx Sched) :=
  if index.any fun i => decide (i.id = item.id) then index else item :: index

/-- The loops that erase the items with the smallest numbers while these lie below `minNum`. -/
def eraseBelow (minNum : Nat) (index : List (ForkItem H Tx Sched)) : List (ForkItem H Tx Sched) :=
  index.filter fun i => decide (minNum ≤ i.num)

section

variable (db : ForkDatabase H Tx Sched)

/-- The weak pointer to the predecessor, looked up by `_push_block` when there is a head. -/
def linkPrevious (b : SignedBlock H Tx) :
    Except ChainError (Option Nat) :=
  if b.previous = [] then .ok none
  else match db.fetchBlock b.previous with
    | none => .error .unlinkableBlock
    | some p => .ok (some p.addr)

/-- `push_block`; returns the head. -/
def pushBlock (b : SignedBlock H Tx) :
    Except ChainError (ForkItem H Tx Sched × ForkDatabase H Tx Sched) :=
  match db.head with
  | none =>
    let item : ForkItem H Tx Sched := { addr := db.nextAddr, prev := none, data := b }
    .ok (item, { db with
      index := insertItem item db.index
      head := some item
      nextAddr := db.nextAddr + 1 })
  | some head =>
    if head.num - db.maxSize < b.blockNum then do
      let prev ← db.linkPrevious b
      let item : ForkItem H Tx Sched := { addr := db.nextAddr, prev := prev, data := b }
      let index := insertItem item db.index
      if head.num < item.num then
        .ok (item, { db with
          index := eraseBelow (item.num - db.maxSize) index
          head := some item
          nextAddr := db.nextAddr + 1 })
      else .ok (head, { db with index := index, nextAddr := db.nextAddr + 1 })
    else .error .blockTooOld

def setMaxSize (s : Nat) : ForkDatabase H Tx Sched :=
  match db.head with
  | none => { db with maxSize := s }
  | some head => { db with maxSize := s, index := eraseBelow (head.num - s) db.index }

def popBlock (locals : List (ForkItem H Tx Sched)) :
    Except ChainError (ForkDatabase H Tx Sched) :=
  match db.head with
  | none => .error .popFromEmptyForkDatabase
  | some head =>
    match db.lockPrev locals head with
    | none => .error .popLeavesHeadNull
    | some prev => .ok { db with head := some prev }

def setHead (h : ForkItem H Tx Sched) : ForkDatabase H Tx Sched :=
  { db with head := some h }

/-- `remove`: the block is erased, and when it is the head, the head is popped or reset. -/
def remove (locals : List (ForkItem H Tx Sched)) (id : BlockId H) :
    ForkDatabase H Tx Sched :=
  let db := { db with index := db.index.filter fun i => decide (i.id ≠ id) }
  match db.head with
  | none => db
  | some head =>
    if head.id = id then
      match db.popBlock locals with
      | .ok db' => db'
      | .error _ => { db with head := none }
    else db

def setScheduled (addr : Nat) (sched : Sched) :
    ForkDatabase H Tx Sched :=
  let f := fun i : ForkItem H Tx Sched =>
    if i.addr = addr then { i with scheduled := some sched } else i
  { db with index := db.index.map f, head := db.head.map f }

end

/-- The first two loops of `fetch_branch_from`: walk back while the number is above `target`.
Each step goes to a smaller number, so the number of the first item bounds the steps. -/
def descend (db : ForkDatabase H Tx Sched) (target : Nat) :
    Nat → ForkItem H Tx Sched → Except ChainError (List (ForkItem H Tx Sched) × ForkItem H Tx Sched)
  | 0, item => if target < item.num then .error .branchNotFound else .ok ([], item)
  | fuel + 1, item =>
    if target < item.num then
      match db.lockPrev [] item with
      | none => .error .branchNotFound
      | some prev => do
        let (branch, last) ← descend db target fuel prev
        .ok (item :: branch, last)
    else .ok ([], item)

/-- The third loop of `fetch_branch_from`, and the items pushed after it. -/
def descendBoth (db : ForkDatabase H Tx Sched) : Nat → ForkItem H Tx Sched → ForkItem H Tx Sched →
      Except ChainError (List (ForkItem H Tx Sched) × List (ForkItem H Tx Sched))
  | 0, a, b => if a.previousId = b.previousId then .ok ([a], [b]) else .error .branchNotFound
  | fuel + 1, a, b =>
    if a.previousId = b.previousId then .ok ([a], [b])
    else match db.lockPrev [] a, db.lockPrev [] b with
      | some a', some b' => do
        let (as, bs) ← descendBoth db fuel a' b'
        .ok (a :: as, b :: bs)
      | _, _ => .error .branchNotFound

/-- `fetch_branch_from`.  The items on the way are distinct from the ones behind them, so no item is
kept alive by the branches alone. -/
def fetchBranchFrom (db : ForkDatabase H Tx Sched) (first second : BlockId H) :
    Except ChainError (List (ForkItem H Tx Sched) × List (ForkItem H Tx Sched)) :=
  match db.fetchBlock first, db.fetchBlock second with
  | some a, some b => do
    let (firstTop, a) ← db.descend b.num a.num a
    let (secondTop, b) ← db.descend a.num b.num b
    let (firstRest, secondRest) ← db.descendBoth a.num a b
    .ok (firstTop ++ firstRest, secondTop ++ secondRest)
  | _, _ => .error .branchNotFound

end ForkDatabase

end Graphene.Chain
