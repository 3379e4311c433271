import Graphene.Chain.ForkDatabase
import Graphene.Lib.Journal

/-!
# Pushing a block

`database::push_block` on a node: the chain state with its undo stack (a journal of chain states), the
fork database and the block store.  A call that throws keeps the changes it has made so far, so every
function returns the node it leaves behind.

The transactions that were pending are pushed again after the call.  This does not change the state at
head, but it may drop the oldest undo states and raise the bound of the stack (`PendingEffect`).
-/

namespace Graphene.Chain

open Lib

/-- Block processing together with what a node adds to it. -/
structure NodeRules (H Tx TxId W R Sched : Type) extends Rules H Tx TxId W R where
  /-- how deep undo sessions were nested before and after the undo stack was resized -/
  nestedBefore : ChainState H Tx W R → SignedBlock H Tx → Nat
  nestedAfter : ChainState H Tx W R → SignedBlock H Tx → Nat
  /-- `update_witnesses` -/
  schedule : ChainState H Tx W R → Sched
  /-- `verify_signing_witness` -/
  verifySigningWitness : ChainState H Tx W R → SignedBlock H Tx → Sched → Bool

structure Node (H Tx W R Sched : Type) where
  journal : Journal (ChainState H Tx W R)
  forkDb : ForkDatabase H Tx Sched
  /-- `_block_id_to_block`, by block number -/
  blockStore : Nat → Option (SignedBlock H Tx)
  /-- `_popped_tx`: the transactions of popped blocks, a block popped later before -/
  poppedTx : List Tx := []

/-- Calls on a node; the node is kept when an exception is thrown. -/
abbrev NodeM (H Tx W R Sched ε α : Type) :=
  Node H Tx W R Sched → EStateM.Result ε (Node H Tx W R Sched) α

variable (depth : Nat) (j : Journal (ChainState H Tx W R))

namespace Node

variable {H Tx TxId W R Sched : Type} [DecidableEq H] [DecidableEq TxId] [DecidableEq W]

variable (n : Node H Tx W R Sched)

def state : ChainState H Tx W R :=
  n.journal.current

def headBlockId (n : Node H Tx W R Sched) : BlockId H :=
  n.state.headBlockId

def headBlockNum : Nat :=
  n.state.headBlockNumber

/-- A nested undo session makes room for itself: the bound is raised when the stack is full. -/
def raiseBound (depth : Nat) (j : Journal (ChainState H Tx W R)) : Journal (ChainState H Tx W R) :=
  if depth = 0 then j else { j with bound := max j.bound (j.saved.length + depth) }

section

variable (rules : NodeRules H Tx TxId W R Sched)

/-- The size that `update_global_dynamic_data` gives to the undo stack and the fork database, if the
block gets so far. -/
def newMaxSize (s : ChainState H Tx W R)
    (b : SignedBlock H Tx) : Option Nat :=
  match rules.applyTransactionsOf s b with
  | .error _ => none
  | .ok s =>
    match rules.updateGlobalDynamicData s b with
    | .error _ => none
    | .ok s => some (s.headBlockNumber - s.lastIrreversibleBlockNum + 1)

def sessionJournal (j : Journal (ChainState H Tx W R))
    (b : SignedBlock H Tx) : Journal (ChainState H Tx W R) :=
  let s := j.current
  let j := raiseBound (rules.nestedBefore s b) j.start
  match newMaxSize rules s b with
  | none => j
  | some size => raiseBound (rules.nestedAfter s b) { j with bound := size }

def sessionForkDb (s : ChainState H Tx W R)
    (db : ForkDatabase H Tx Sched) (b : SignedBlock H Tx) : ForkDatabase H Tx Sched :=
  match newMaxSize rules s b with
  | none => db
  | some size => db.setMaxSize size

/-- `start_undo_session`, `apply_block` and `commit`; the session is undone when the block fails. -/
def applyInSession (b : SignedBlock H Tx) :
    NodeM H Tx W R Sched ChainError Unit := fun n =>
  let j := sessionJournal rules n.journal b
  let forkDb := sessionForkDb rules n.state n.forkDb b
  match rules.applyBlock n.state b with
  | .ok s => .ok () { n with journal := j.write s, forkDb := forkDb }
  | .error e =>
    .error e { n with
      journal := { j with current := n.state, saved := j.saved.tail }
      forkDb := forkDb }

end

def store (b : SignedBlock H Tx) : Node H Tx W R Sched :=
  { n with blockStore := Function.update n.blockStore b.blockNum (some b) }

def updateWitnesses (rules : NodeRules H Tx TxId W R Sched) (n : Node H Tx W R Sched)
    (addr : Nat) : Node H Tx W R Sched :=
  { n with forkDb := n.forkDb.setScheduled addr (rules.schedule n.state) }

def popBlock (locals : List (ForkItem H Tx Sched)) : NodeM H Tx W R Sched ChainError Unit := fun n =>
  match n.forkDb.head with
  | none => .error .popFromEmptyForkDatabase n
  | some head =>
    let popped : Except ChainError (SignedBlock H Tx × ForkDatabase H Tx Sched) :=
      if head.id = n.headBlockId then (n.forkDb.popBlock locals).map (head.data, ·)
      else match n.forkDb.fetchBlock n.headBlockId with
        | none => .error .popNotInForkDatabase
        | some item => .ok (item.data, n.forkDb)
    match popped with
    | .error e => .error e n
    | .ok (data, forkDb) =>
      match n.journal.restore with
      | none => .error .emptyUndoStack { n with forkDb := forkDb }
      | some j => .ok () { n with
          journal := j
          forkDb := forkDb
          poppedTx := data.transactions ++ n.poppedTx }

/-- `while( head_block_id() != target ) pop_block();` The undo stack bounds the number of rounds. -/
def popUntil (locals : List (ForkItem H Tx Sched)) (target : BlockId H) :
    Nat → NodeM H Tx W R Sched ChainError Unit
  | 0 => fun n => if n.headBlockId = target then .ok () n else popBlock locals n
  | fuel + 1 => fun n =>
    if n.headBlockId = target then .ok () n
    else match popBlock locals n with
      | .error e n => .error e n
      | .ok _ n => popUntil locals target fuel n

/-- Push the blocks of the new fork, oldest first.  On an exception the blocks from the failing one
on are left over. -/
def pushFork (rules : NodeRules H Tx TxId W R Sched) : List (ForkItem H Tx Sched) →
      NodeM H Tx W R Sched (ChainError × List (ForkItem H Tx Sched)) Unit
  | [] => fun n => .ok () n
  | item :: rest => fun n =>
    match applyInSession rules item.data n with
    | .error e n => .error (e, item :: rest) n
    | .ok _ n => pushFork rules rest ((n.updateWitnesses rules item.addr).store item.data)

def restoreFork (rules : NodeRules H Tx TxId W R Sched) :
    List (ForkItem H Tx Sched) → NodeM H Tx W R Sched ChainError Unit
  | [] => fun n => .ok () n
  | item :: rest => fun n =>
    match applyInSession rules item.data n with
    | .error e n => .error e n
    | .ok _ n => restoreFork rules rest (n.store item.data)

/-- Remove the invalid blocks from the fork database and make the old head its head again. -/
def dropInvalid (locals invalid : List (ForkItem H Tx Sched)) (front : ForkItem H Tx Sched)
    (n : Node H Tx W R Sched) : Node H Tx W R Sched :=
  { n with
    forkDb := (invalid.foldl (fun db i => db.remove locals i.id) n.forkDb).setHead front }

section

variable (rules : NodeRules H Tx TxId W R Sched)

def switchBack
    (first second invalid : List (ForkItem H Tx Sched)) (front : ForkItem H Tx Sched)
    (target : BlockId H) (e : ChainError) : NodeM H Tx W R Sched ChainError Bool := fun n =>
  match popUntil (first ++ second) target n.journal.saved.length
      (n.dropInvalid (first ++ second) invalid front) with
  | .error e n => .error e n
  | .ok _ n =>
    match restoreFork rules second.reverse n with
    | .error e n => .error e n
    | .ok _ n => .error e n

def switchTo (first second : List (ForkItem H Tx Sched))
    (front : ForkItem H Tx Sched) (target : BlockId H) : NodeM H Tx W R Sched ChainError Bool :=
  fun n =>
    match popUntil (first ++ second) target n.journal.saved.length n with
    | .error e n => .error e n
    | .ok _ n =>
      match pushFork rules first.reverse n with
      | .ok _ n => .ok true n
      | .error (e, invalid) n => switchBack rules first second invalid front target e n

/-- The branch of `_push_block` that switches forks. -/
def switchForks (newHead : ForkItem H Tx Sched) :
    NodeM H Tx W R Sched ChainError Bool := fun n =>
  match n.forkDb.fetchBranchFrom newHead.id n.headBlockId with
  | .error e => .error e n
  | .ok (first, second) =>
    match second.head?, second.getLast? with
    | some front, some back => switchTo rules first second front back.previousId n
    | _, _ => .error .branchNotFound n

def earlyCheck (n : Node H Tx W R Sched) (now : Nat)
    (b : SignedBlock H Tx) : Except ChainError Unit :=
  if n.forkDb.head.isSome ∧ now - 86400 < rules.timestamp b.header then
    match n.forkDb.fetchBlock b.previous with
    | none => .error .unlinkableBlock
    | some prev =>
      match prev.scheduled with
      | none => .ok ()
      | some sched => check (rules.verifySigningWitness n.state b sched) .rejected
  else .ok ()

/-- The branch of `_push_block` for a block on top of the head. -/
def pushOnHead (now : Nat) (b : SignedBlock H Tx)
    (newHead : ForkItem H Tx Sched) : NodeM H Tx W R Sched ChainError Bool := fun n =>
  match applyInSession rules b n with
  | .error e n => .error e { n with forkDb := n.forkDb.remove [newHead] b.id }
  | .ok _ n =>
    let n := if now - 86400 < rules.timestamp b.header
      then n.updateWitnesses rules newHead.addr else n
    .ok false (n.store b)

/-- `_push_block` at the wall-clock time `now`; returns whether forks were switched. -/
def pushBlock (now : Nat) (b : SignedBlock H Tx) :
    NodeM H Tx W R Sched ChainError Bool := fun n =>
  match n.earlyCheck rules now b with
  | .error e => .error e n
  | .ok _ =>
    match n.forkDb.pushBlock b with
    | .error e => .error e n
    | .ok (newHead, forkDb) =>
      let n := { n with forkDb := forkDb }
      if newHead.previousId ≠ n.headBlockId then
        if n.headBlockNum < newHead.num then switchForks rules newHead n
        else .ok false n
      else pushOnHead rules now b newHead n

end

@[simp] lemma raiseBound_saved : (raiseBound depth j).saved = j.saved := by
  unfold raiseBound
  split_ifs <;> rfl

@[simp] lemma raiseBound_current : (raiseBound depth j).current = j.current := by
  unfold raiseBound
  split_ifs <;> rfl

lemma bound_le_raiseBound : j.bound ≤ (raiseBound depth j).bound := by
  unfold raiseBound
  split_ifs
  · exact le_rfl
  · exact le_max_left _ _

omit [DecidableEq W] in
@[simp] lemma sessionJournal_saved (rules : NodeRules H Tx TxId W R Sched)
    (j : Journal (ChainState H Tx W R)) (b : SignedBlock H Tx) :
    (sessionJournal rules j b).saved = j.current :: j.saved.take j.bound := by
  simp only [sessionJournal]
  cases newMaxSize rules j.current b <;> simp [Journal.start]

variable {rules : NodeRules H Tx TxId W R Sched} {b : SignedBlock H Tx}

omit [DecidableEq W] in
lemma le_sessionJournal_bound {j : Journal (ChainState H Tx W R)} {size : Nat}
    (h : newMaxSize rules j.current b = some size) : size ≤ (sessionJournal rules j b).bound := by
  simp only [sessionJournal, h]
  exact bound_le_raiseBound (rules.nestedAfter j.current b)
    { raiseBound (rules.nestedBefore j.current b) j.start with bound := size }

lemma newMaxSize_of_ok {s s' : ChainState H Tx W R} (h : rules.applyBlock s b = .ok s') :
    newMaxSize rules s b = some (b.blockNum - s.lastIrreversibleBlockNum + 1) := by
  simp only [Rules.applyBlock, bind_eq_ok] at h
  obtain ⟨s1, h1, s2, h2, -⟩ := h
  have hlib : s1.lastIrreversibleBlockNum = s.lastIrreversibleBlockNum := by
    simp only [Rules.applyTransactionsOf, bind_eq_ok] at h1
    obtain ⟨_, -, _, -, s0, h0, h1⟩ := h1
    cases h1
    rw [Rules.applyTransactions_frame h0]
  simp only [newMaxSize, h1, h2]
  simp only [Rules.updateGlobalDynamicData, bind_eq_ok] at h2
  obtain ⟨_, -, h2⟩ := h2
  cases h2
  rw [hlib]

/-- What pushing the pending transactions again does to the undo stack. -/
structure PendingEffect where
  /-- how many undo states are kept -/
  keep : Nat
  /-- what the bound is raised to -/
  bound : Nat

/-- One call of `push_block`: the time, the block, and the effect of the pending transactions. -/
structure Push (H Tx : Type) where
  now : Nat
  block : SignedBlock H Tx
  pending : PendingEffect

def restorePending (p : PendingEffect) (n : Node H Tx W R Sched) : Node H Tx W R Sched :=
  { n with
    journal := { n.journal with
      saved := n.journal.saved.take p.keep
      bound := max n.journal.bound p.bound }
    poppedTx := [] }

/-- `push_block`: the exception, if any, and the node afterwards. -/
def step (rules : NodeRules H Tx TxId W R Sched) (n : Node H Tx W R Sched) (p : Push H Tx) :
    Option ChainError × Node H Tx W R Sched :=
  match pushBlock rules p.now p.block n with
  | .ok _ n => (none, n.restorePending p.pending)
  | .error e n => (some e, n.restorePending p.pending)

def run (rules : NodeRules H Tx TxId W R Sched) (n : Node H Tx W R Sched) (ps : List (Push H Tx)) :
    Node H Tx W R Sched :=
  ps.foldl (fun n p => (n.step rules p).2) n

/-- A new node: the undo stack is bounded by `GRAPHENE_MIN_UNDO_HISTORY`. -/
def initial (genesis : ChainState H Tx W R) : Node H Tx W R Sched where
  journal := { current := genesis, saved := [], bound := 10 }
  forkDb := {}
  blockStore := fun _ => none

def plainNodeRules : NodeRules PlainHeader (Nat × Nat) (Nat × Nat) Nat Unit Unit :=
  { plainRules with
    nestedBefore := fun _ _ => 0
    nestedAfter := fun _ _ => 0
    schedule := fun _ => ()
    verifySigningWitness := fun _ _ _ => true }

def plainBlock (header : PlainHeader) (previous : BlockId PlainHeader) :
    SignedBlock PlainHeader (Nat × Nat) :=
  ⟨header, previous, []⟩

def plainPush (b : SignedBlock PlainHeader (Nat × Nat)) : Push PlainHeader (Nat × Nat) :=
  ⟨0, b, ⟨1000, 0⟩⟩

abbrev plainNode : Node PlainHeader (Nat × Nat) Nat Unit Unit :=
  initial (plainGenesis [0, 1, 2])

end Node

end Graphene.Chain
