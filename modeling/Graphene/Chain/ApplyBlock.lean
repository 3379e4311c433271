import Graphene.Lib.Outcome

/-!
# Applying a block to the chain state

The chain state is what `_apply_block` reads and writes: head block, time, last irreversible block,
the active witnesses with the last block each has confirmed, the deduplication index of transactions,
and the rest of the object database, which stays opaque.  The parts of block processing that no result
depends on are the fields of `Rules`, each of which returns exactly what it may change.

A block id is a hash of the header, which contains the previous id.  Without collisions it is therefore
the list of the headers back to genesis.
-/

namespace Graphene.Chain

open Lib

/-- `block_id_type`: the headers of the block and of its ancestors; the empty list is the null id. -/
abbrev BlockId (H : Type) := List H

def numFromId {H : Type} (id : BlockId H) : Nat :=
  id.length

/-- `signed_block`; the header holds the timestamp, the witness, the merkle root and the
signature. -/
structure SignedBlock (H Tx : Type) where
  header : H
  previous : BlockId H
  transactions : List Tx
deriving DecidableEq

namespace SignedBlock

variable {H Tx : Type}

def id (b : SignedBlock H Tx) : BlockId H :=
  b.header :: b.previous

def blockNum (b : SignedBlock H Tx) : Nat :=
  numFromId b.previous + 1

@[simp] lemma numFromId_id (b : SignedBlock H Tx) : numFromId b.id = b.blockNum := rfl

end SignedBlock

/-- What `_apply_block` reads and writes. -/
structure ChainState (H Tx W R : Type) where
  headBlockId : BlockId H
  headBlockNumber : Nat
  time : Nat
  lastIrreversibleBlockNum : Nat
  activeWitnesses : List W
  lastConfirmedBlockNum : W → Nat
  transactionIndex : List Tx
  rest : R

inductive ChainError where
  /-- a check or an evaluator outside the model failed -/
  | rejected
  | duplicateTransaction
  /-- `trx.expiration <= now + maximum_time_until_expiration` -/
  | expirationTooFar
  /-- `now <= trx.expiration` -/
  | expired
  /-- `head_block_id() == next_block.previous` -/
  | previousNotHead
  /-- `head_block_time() < next_block.timestamp` -/
  | timeNotIncreasing
  /-- "The database does not have enough undo history ..." -/
  | notEnoughUndoHistory
  /-- "block does not link to known chain" -/
  | unlinkableBlock
  /-- "attempting to push a block that is too old" -/
  | blockTooOld
  /-- an assertion of `fetch_branch_from` -/
  | branchNotFound
  /-- "Trying to pop() from empty fork database!?" -/
  | popFromEmptyForkDatabase
  /-- "Trying to pop() block that's not in fork database!?" -/
  | popNotInForkDatabase
  /-- "popping block would leave head block null" -/
  | popLeavesHeadNull
  | emptyUndoStack
  /-- `_stack.size() >=2` in `merge` -/
  | undoStackTooSmall
  /-- "Block ... not contained in block database" -/
  | notInBlockDatabase
  /-- "Empty block_id in block_database (maybe corrupt on disk?)" -/
  | emptyBlockId
deriving DecidableEq

/-- The parts of block processing outside the model. -/
structure Rules (H Tx TxId W R : Type) where
  timestamp : H → Nat
  witness : H → W
  txId : Tx → TxId
  expiration : Tx → Nat
  maximumTimeUntilExpiration : R → Nat
  /-- block size and merkle root -/
  checkBlock : ChainState H Tx W R → SignedBlock H Tx → Bool
  /-- signature and slot in `validate_block_header` -/
  checkWitness : ChainState H Tx W R → SignedBlock H Tx → Bool
  /-- `validate` and `verify_authority` of a transaction -/
  checkTransaction : ChainState H Tx W R → Tx → Bool
  /-- TaPoS and packed size of a transaction -/
  checkTapos : ChainState H Tx W R → Tx → Bool
  /-- the operations of a transaction and the check that follows them -/
  applyOperations : ChainState H Tx W R → Tx → Except ChainError R
  /-- `update_witness_missed_blocks` and the other dynamic global properties -/
  updateMissedBlocks : ChainState H Tx W R → SignedBlock H Tx → R
  /-- the pay of the signing witness -/
  payWitness : ChainState H Tx W R → SignedBlock H Tx → Except ChainError R
  /-- tickets, chain maintenance and block summary; maintenance elects the active witnesses -/
  maintain : ChainState H Tx W R → SignedBlock H Tx → Except ChainError (R × List W)
  /-- the periodic updates after `clear_expired_transactions` -/
  updateRest : ChainState H Tx W R → SignedBlock H Tx → Except ChainError R

def graphene100Percent : Nat := 10000

def grapheneIrreversibleThreshold : Nat := 70 * (graphene100Percent / 100)

def grapheneMaxUndoHistory : Nat := 10000

namespace Rules

variable {H Tx TxId W R : Type} [DecidableEq H] [DecidableEq TxId] [DecidableEq W]

section

variable (rules : Rules H Tx TxId W R) (s : ChainState H Tx W R)

/-- The checks of `_apply_transaction` on a transaction's expiration and TaPoS.  They are skipped in
block 1. -/
def checkExpiration (trx : Tx) : Except ChainError Unit :=
  if 0 < s.headBlockNumber then do
    check (rules.expiration trx ≤ s.time + rules.maximumTimeUntilExpiration s.rest)
      .expirationTooFar
    check (s.time ≤ rules.expiration trx) .expired
    check (rules.checkTapos s trx) .rejected
  else .ok ()

def applyTransaction (trx : Tx) : Except ChainError (ChainState H Tx W R) := do
  check (decide (rules.txId trx ∉ s.transactionIndex.map rules.txId)) .duplicateTransaction
  check (rules.checkTransaction s trx) .rejected
  rules.checkExpiration s trx
  let s := { s with transactionIndex := trx :: s.transactionIndex }
  let rest ← rules.applyOperations s trx
  .ok { s with rest := rest }

def applyTransactions (rules : Rules H Tx TxId W R) :
    ChainState H Tx W R → List Tx → Except ChainError (ChainState H Tx W R)
  | s, [] => .ok s
  | s, trx :: trxs => do
    let s ← rules.applyTransaction s trx
    applyTransactions rules s trxs

def validateBlockHeader (b : SignedBlock H Tx) : Except ChainError Unit := do
  check (decide (s.headBlockId = b.previous)) .previousNotHead
  check (decide (s.time < rules.timestamp b.header)) .timeNotIncreasing
  check (rules.checkWitness s b) .rejected

/-- `_apply_block` up to `update_witness_missed_blocks`. -/
def applyTransactionsOf (b : SignedBlock H Tx) : Except ChainError (ChainState H Tx W R) := do
  check (rules.checkBlock s b) .rejected
  rules.validateBlockHeader s b
  let s ← rules.applyTransactions s b.transactions
  .ok { s with rest := rules.updateMissedBlocks s b }

def updateGlobalDynamicData (b : SignedBlock H Tx) : Except ChainError (ChainState H Tx W R) := do
  check (decide (b.blockNum - s.lastIrreversibleBlockNum < grapheneMaxUndoHistory))
    .notEnoughUndoHistory
  .ok { s with
    headBlockNumber := b.blockNum
    headBlockId := b.id
    time := rules.timestamp b.header }

def updateSigningWitness (b : SignedBlock H Tx) : Except ChainError (ChainState H Tx W R) := do
  let rest ← rules.payWitness s b
  .ok { s with
    rest := rest
    lastConfirmedBlockNum :=
      Function.update s.lastConfirmedBlockNum (rules.witness b.header) b.blockNum }

/-- `std::nth_element`: the element at a position of the sorted sequence. -/
def nthElement (l : List Nat) (n : Nat) : Option Nat :=
  (l.insertionSort (· ≤ ·))[n]?

def irreversibleOffset (n : Nat) : Nat :=
  (graphene100Percent - grapheneIrreversibleThreshold) * n / graphene100Percent

/-- The number that all but `offset` of the active witnesses have confirmed. -/
def confirmedBySupermajority : Option Nat :=
  nthElement (s.activeWitnesses.map s.lastConfirmedBlockNum)
    (irreversibleOffset s.activeWitnesses.length)

def updateLastIrreversibleBlock : ChainState H Tx W R :=
  match confirmedBySupermajority s with
  | some n => if s.lastIrreversibleBlockNum < n then { s with lastIrreversibleBlockNum := n } else s
  | none => s

/-- `clear_expired_transactions`: the loop removes the entries in the order of their expiration
until one has not expired. -/
def clearExpiredTransactions : ChainState H Tx W R :=
  { s with
    transactionIndex := s.transactionIndex.filter fun trx => ¬ rules.expiration trx < s.time }

/-- `_apply_block` from `update_signing_witness` on. -/
def finishBlock (b : SignedBlock H Tx) : Except ChainError (ChainState H Tx W R) := do
  let s ← rules.updateSigningWitness s b
  let s := updateLastIrreversibleBlock s
  let (rest, active) ← rules.maintain s b
  let s := rules.clearExpiredTransactions { s with rest := rest, activeWitnesses := active }
  let rest ← rules.updateRest s b
  .ok { s with rest := rest }

/-- `_apply_block` without skip flags. -/
def applyBlock (b : SignedBlock H Tx) : Except ChainError (ChainState H Tx W R) := do
  let s ← rules.applyTransactionsOf s b
  let s ← rules.updateGlobalDynamicData s b
  rules.finishBlock s b

def applyBlocks (rules : Rules H Tx TxId W R) :
    ChainState H Tx W R → List (SignedBlock H Tx) → Except ChainError (ChainState H Tx W R)
  | s, [] => .ok s
  | s, b :: bs => do
    let s ← rules.applyBlock s b
    applyBlocks rules s bs

/-! ## What a block that applies has done -/

/-- What `_apply_transaction` requires of a transaction and does to the modelled data. -/
structure TransactionApplied (trx : Tx) (s' : ChainState H Tx W R) : Prop where
  notKnown : rules.txId trx ∉ s.transactionIndex.map rules.txId
  notExpired : 0 < s.headBlockNumber → s.time ≤ rules.expiration trx
  frame : s' = { s with transactionIndex := trx :: s.transactionIndex, rest := s'.rest }

end

variable {rules : Rules H Tx TxId W R} {s s' : ChainState H Tx W R}

section

omit [DecidableEq H] [DecidableEq W]

lemma applyTransaction_ok {trx : Tx} (h : rules.applyTransaction s trx = .ok s') :
    rules.TransactionApplied s trx s' := by
  simp only [applyTransaction, bind_eq_ok, check_eq_ok] at h
  obtain ⟨_, hdupe, _, -, _, hexp, rest, -, h⟩ := h
  cases h
  refine ⟨by simpa using hdupe, ?_, rfl⟩
  intro hpos
  simp only [checkExpiration, hpos, if_true, bind_eq_ok, check_eq_ok] at hexp
  obtain ⟨_, -, _, hexp, -⟩ := hexp
  simpa using hexp

lemma applyTransactions_frame {trxs : List Tx} (h : rules.applyTransactions s trxs = .ok s') :
    s' = { s with transactionIndex := s'.transactionIndex, rest := s'.rest } := by
  induction trxs generalizing s with
  | nil =>
    cases h
    rfl
  | cons trx trxs ih =>
    simp only [applyTransactions, bind_eq_ok] at h
    obtain ⟨s1, h1, h⟩ := h
    have hfrm := (applyTransaction_ok h1).frame
    rw [ih h, hfrm]

lemma updateLastIrreversibleBlock_frame (s : ChainState H Tx W R) :
    updateLastIrreversibleBlock s = { s with
      lastIrreversibleBlockNum := (updateLastIrreversibleBlock s).lastIrreversibleBlockNum } := by
  unfold updateLastIrreversibleBlock
  cases confirmedBySupermajority s with
  | none => rfl
  | some n => by_cases h : s.lastIrreversibleBlockNum < n <;> simp [h]

lemma le_updateLastIrreversibleBlock (s : ChainState H Tx W R) :
    s.lastIrreversibleBlockNum ≤ (updateLastIrreversibleBlock s).lastIrreversibleBlockNum := by
  unfold updateLastIrreversibleBlock
  cases confirmedBySupermajority s with
  | none => exact le_rfl
  | some n =>
    by_cases h : s.lastIrreversibleBlockNum < n
    · simpa [h] using le_of_lt h
    · simp [h]

lemma updateLastIrreversibleBlock_congr {t : ChainState H Tx W R}
    (hact : s.activeWitnesses = t.activeWitnesses)
    (hconf : s.lastConfirmedBlockNum = t.lastConfirmedBlockNum)
    (hlib : s.lastIrreversibleBlockNum = t.lastIrreversibleBlockNum) :
    (updateLastIrreversibleBlock s).lastIrreversibleBlockNum =
      (updateLastIrreversibleBlock t).lastIrreversibleBlockNum := by
  have hsuper : confirmedBySupermajority s = confirmedBySupermajority t := by
    simp [confirmedBySupermajority, hact, hconf]
  unfold updateLastIrreversibleBlock
  rw [hsuper, hlib]
  cases confirmedBySupermajority t with
  | none => exact hlib
  | some n => by_cases h : t.lastIrreversibleBlockNum < n <;> simp [h, hlib]

end

/-- The state in which `update_last_irreversible_block` runs. -/
def confirmedBy (rules : Rules H Tx TxId W R) (s : ChainState H Tx W R) (b : SignedBlock H Tx) :
    ChainState H Tx W R :=
  { s with
    lastConfirmedBlockNum :=
      Function.update s.lastConfirmedBlockNum (rules.witness b.header) b.blockNum }

/-- What `_apply_block` requires of a block and does to the modelled data. -/
structure BlockApplied (rules : Rules H Tx TxId W R) (s : ChainState H Tx W R)
    (b : SignedBlock H Tx) (s' : ChainState H Tx W R) : Prop where
  previous : s.headBlockId = b.previous
  time_lt : s.time < rules.timestamp b.header
  history : b.blockNum - s.lastIrreversibleBlockNum < grapheneMaxUndoHistory
  headBlockId : s'.headBlockId = b.id
  headBlockNumber : s'.headBlockNumber = b.blockNum
  time : s'.time = rules.timestamp b.header
  lastConfirmed : s'.lastConfirmedBlockNum =
    Function.update s.lastConfirmedBlockNum (rules.witness b.header) b.blockNum
  irreversible : s'.lastIrreversibleBlockNum =
    (updateLastIrreversibleBlock (rules.confirmedBy s b)).lastIrreversibleBlockNum
  transactions : ∃ s1, rules.applyTransactions s b.transactions = .ok s1 ∧
    s'.transactionIndex =
      s1.transactionIndex.filter fun trx => ¬ rules.expiration trx < rules.timestamp b.header

lemma applyBlock_ok {b : SignedBlock H Tx} (h : rules.applyBlock s b = .ok s') :
    rules.BlockApplied s b s' := by
  simp only [applyBlock, applyTransactionsOf, validateBlockHeader, updateGlobalDynamicData,
    finishBlock, updateSigningWitness, bind_eq_ok, check_eq_ok] at h
  rcases h with ⟨s2, ⟨_, -, _, ⟨_, hprev, _, htime, -⟩, s1, h1, h2⟩, s3, ⟨_, hhist, h3⟩, s4,
    ⟨rest, hpay, h4⟩, ⟨rest', active⟩, hmaint, rest'', hrest, h⟩
  cases h2
  cases h3
  cases h4
  cases h
  have hfrm := applyTransactions_frame h1
  -- everything after the transactions reads these fields unchanged
  have hlib : s1.lastIrreversibleBlockNum = s.lastIrreversibleBlockNum := by rw [hfrm]
  have hact : s1.activeWitnesses = s.activeWitnesses := by rw [hfrm]
  have hconf : s1.lastConfirmedBlockNum = s.lastConfirmedBlockNum := by rw [hfrm]
  refine ⟨by simpa using hprev, by simpa using htime, by simpa [hlib] using hhist, ?_, ?_, ?_, ?_,
    ?_, s1, h1, ?_⟩
  all_goals simp only [clearExpiredTransactions]
  · rw [updateLastIrreversibleBlock_frame]
  · rw [updateLastIrreversibleBlock_frame]
  · rw [updateLastIrreversibleBlock_frame]
  · rw [updateLastIrreversibleBlock_frame, hconf]
  · exact updateLastIrreversibleBlock_congr hact (by simp [confirmedBy, hconf]) hlib
  · rw [updateLastIrreversibleBlock_frame]

end Rules

/-- A header with a flag that tells whether the parts outside the model accept the block. -/
structure PlainHeader where
  timestamp : Nat
  witness : Nat
  valid : Bool := true
deriving DecidableEq

/-- Transactions are pairs of a number and an expiration time; nothing else is checked or
changed. -/
def plainRules : Rules PlainHeader (Nat × Nat) (Nat × Nat) Nat Unit where
  timestamp := PlainHeader.timestamp
  witness := PlainHeader.witness
  txId := id
  expiration := Prod.snd
  maximumTimeUntilExpiration := fun _ => 86400
  checkBlock := fun _ b => b.header.valid
  checkWitness := fun _ _ => true
  checkTransaction := fun _ _ => true
  checkTapos := fun _ _ => true
  applyOperations := fun s _ => .ok s.rest
  updateMissedBlocks := fun s _ => s.rest
  payWitness := fun s _ => .ok s.rest
  maintain := fun s _ => .ok (s.rest, s.activeWitnesses)
  updateRest := fun s _ => .ok s.rest

structure ChainState.IsGenesis {H Tx W R : Type} (s : ChainState H Tx W R) : Prop where
  headBlockId : s.headBlockId = []
  headBlockNumber : s.headBlockNumber = 0
  lastIrreversibleBlockNum : s.lastIrreversibleBlockNum = 0
  lastConfirmedBlockNum : ∀ w, s.lastConfirmedBlockNum w = 0
  transactionIndex : s.transactionIndex = []

def plainGenesis (witnesses : List Nat) : ChainState PlainHeader (Nat × Nat) Nat Unit where
  headBlockId := []
  headBlockNumber := 0
  time := 0
  lastIrreversibleBlockNum := 0
  activeWitnesses := witnesses
  lastConfirmedBlockNum := fun _ => 0
  transactionIndex := []
  rest := ()

lemma plainGenesis_isGenesis (witnesses : List Nat) : (plainGenesis witnesses).IsGenesis :=
  ⟨rfl, rfl, rfl, fun _ => rfl, rfl⟩

end Graphene.Chain
