import Graphene.Chain.PendingTransactions

/-!
# Producing a block

`_generate_block` takes the session of the pending transactions off and applies them again, one by one:
a transaction that fails, or with which the block would become too big, is left out.  Then everything
is undone, and the block with the transactions that were kept is pushed on the same head, without the
check of signatures.  The estimated size of the block has room for a count of three bytes.
-/

namespace Graphene.Chain

open Lib List

/-! ## Packed sizes -/

/-- The number of bytes of a packed `unsigned_int`: seven bits in each. -/
def varintSize (n : Nat) : Nat :=
  if n / 128 = 0 then 1 else varintSize (n / 128) + 1
termination_by n
decreasing_by omega

lemma varintSize_le {k : Nat} {n : Nat} (h : n < 128 ^ (k + 1)) : varintSize n ≤ k + 1 := by
  induction k generalizing n with
  | zero =>
    have hsmall : n / 128 = 0 := Nat.div_eq_of_lt (by simpa using h)
    rw [varintSize, if_pos hsmall]
  | succ k ih =>
    rw [varintSize]
    split_ifs
    · omega
    · have hdiv : n / 128 < 128 ^ (k + 1) := by
        apply Nat.div_lt_of_lt_mul
        rwa [Nat.pow_succ, Nat.mul_comm] at h
      exact Nat.succ_le_succ (ih hdiv)

/-- `signed_block_header` without `previous`, which the block holds. -/
structure BlockHeader (W C Sig : Type) where
  timestamp : Nat
  witness : W
  transactionMerkleRoot : C
  witnessSignature : Sig
deriving DecidableEq

/-- The packed size of a header whose witness has this instance number: two ids of 20 bytes, a time, a
witness, an empty set of extensions and a signature. -/
def packSizeHeader (witnessInstance : Nat) : Nat :=
  20 + 4 + varintSize witnessInstance + 20 + 1 + 65

/-- Room for the header apart from the witness, and for the number of transactions. -/
def maxPartialBlockHeaderSize : Nat :=
  packSizeHeader 0 - varintSize 0 + 3

def grapheneMinTransactionSizeLimit : Nat := 1024

/-- The least `maximum_block_size` that `chain_parameters::validate` accepts. -/
def grapheneMinBlockSizeLimit : Nat := grapheneMinTransactionSizeLimit * 5

/-- One round of `calculate_merkle_root`; a digest without a partner is kept. -/
def hashPairs {D : Type} (hashPair : D → D → D) : List D → List D
  | a :: b :: rest => hashPair a b :: hashPairs hashPair rest
  | ids => ids

def merkleLoop {D : Type} (hashPair : D → D → D) : Nat → List D → List D
  | 0, ids => ids
  | fuel + 1, ids =>
    if 1 < ids.length then merkleLoop hashPair fuel (hashPairs hashPair ids) else ids

def calculateMerkleRoot {T D C : Type} (merkleDigest : T → D) (hashPair : D → D → D)
    (checksum : D → C) (emptyChecksum : C) (transactions : List T) : C :=
  match merkleLoop hashPair transactions.length (transactions.map merkleDigest) with
  | [] => emptyChecksum
  | id :: _ => checksum id

section MerkleRoot

variable {T D C : Type} (hashPair : D → D → D) {ids ids' : List D} {fuel : Nat}

/-- The pairs that one round hashes. -/
def pairsIn : List D → List (D × D)
  | a :: b :: rest => (a, b) :: pairsIn rest
  | _ => []

/-- The pairs that all rounds hash. -/
def hashedPairs : Nat → List D → List (D × D)
  | 0, _ => []
  | fuel + 1, ids =>
    if 1 < ids.length then pairsIn ids ++ hashedPairs fuel (hashPairs hashPair ids) else []

/-- Different pairs, one of each list, have the same hash. -/
def Collide (l l' : List (D × D)) : Prop :=
  ∃ p ∈ l, ∃ p' ∈ l', p ≠ p' ∧ hashPair p.1 p.2 = hashPair p'.1 p'.2

variable {hashPair}

lemma Collide.mono {l₁ l₁' l l' : List (D × D)} (h : Collide hashPair l l') (hl : l ⊆ l₁) (hl' : l' ⊆ l₁') :
    Collide hashPair l₁ l₁' := by
  obtain ⟨p, hp, p', hp', hne⟩ := h
  exact ⟨p, hl hp, p', hl' hp', hne⟩

lemma length_hashPairs : ∀ ids : List D, (hashPairs hashPair ids).length = (ids.length + 1) / 2
  | [] | [_] => by simp [hashPairs]
  | a :: b :: rest => by
    rw [hashPairs, length_cons, length_hashPairs rest, length_cons, length_cons]
    omega

lemma hashPairs_inj : ∀ {ids ids' : List D}, ids.length = ids'.length →
    hashPairs hashPair ids = hashPairs hashPair ids' →
    ids = ids' ∨ Collide hashPair (pairsIn ids) (pairsIn ids')
  | [], [], _, h | [_], [_], _, h => .inl h
  | a :: b :: rest, a' :: b' :: rest', hlen, h => by
    obtain ⟨hhash, hrest⟩ := cons_eq_cons.1 h
    -- either the first pairs are equal, or they collide
    by_cases hp : (a, b) = (a', b')
    · cases hp
      refine (hashPairs_inj (by simpa using hlen) hrest).imp (congrArg (a :: b :: ·)) fun hc => ?_
      exact hc.mono (subset_cons_self _ _) (subset_cons_self _ _)
    · exact .inr ⟨_, mem_cons_self, _, mem_cons_self, hp, hhash⟩

lemma merkleLoop_inj (hlen : ids.length = ids'.length)
    (h : merkleLoop hashPair fuel ids = merkleLoop hashPair fuel ids') :
    ids = ids' ∨ Collide hashPair (hashedPairs hashPair fuel ids) (hashedPairs hashPair fuel ids') := by
  induction fuel generalizing ids ids' with
  | zero => exact .inl h
  | succ fuel ih =>
    simp only [merkleLoop, hashedPairs, ← hlen] at h ⊢
    split_ifs at h ⊢ with hmore
    · rcases ih (by rw [length_hashPairs, length_hashPairs, hlen]) h with heq | hc
      · refine (hashPairs_inj hlen heq).imp_right fun hc => ?_
        exact hc.mono (subset_append_left _ _) (subset_append_left _ _)
      · exact .inr (hc.mono (subset_append_right _ _) (subset_append_right _ _))
    · exact .inl h

lemma exists_merkleLoop (hpos : 0 < ids.length) (hfuel : ids.length ≤ fuel + 1) :
    ∃ id, merkleLoop hashPair fuel ids = [id] := by
  induction fuel generalizing ids with
  | zero => exact length_eq_one_iff.1 (le_antisymm hfuel hpos)
  | succ fuel ih =>
    rw [merkleLoop]
    have hlen : (hashPairs hashPair ids).length = _ := length_hashPairs ids
    split_ifs with hmore
    · exact ih (by omega) (by omega)
    · exact length_eq_one_iff.1 (by omega)

/-- Lists of equal length with the same root have the same digests, or among the inputs of the pair hash
or the last hash that were computed are different ones with the same hash. -/
theorem merkle_root_binds (merkleDigest : T → D) (checksum : D → C) (emptyChecksum : C)
    {transactions transactions' : List T} (hpos : 0 < transactions.length)
    (hlen : transactions.length = transactions'.length)
    (h : calculateMerkleRoot merkleDigest hashPair checksum emptyChecksum transactions
      = calculateMerkleRoot merkleDigest hashPair checksum emptyChecksum transactions') :
    let n := transactions.length
    let ids := transactions.map merkleDigest
    let ids' := transactions'.map merkleDigest
    ids = ids' ∨ Collide hashPair (hashedPairs hashPair n ids) (hashedPairs hashPair n ids') ∨
      ∃ id id', merkleLoop hashPair n ids = [id] ∧ merkleLoop hashPair n ids' = [id'] ∧
        id ≠ id' ∧ checksum id = checksum id' := by
  have hids : (transactions.map merkleDigest).length = transactions.length := length_map _
  have hids' : (transactions'.map merkleDigest).length = transactions.length :=
    (length_map _).trans hlen.symm
  obtain ⟨id, hid⟩ := exists_merkleLoop (by rwa [hids]) (hids.le.trans (Nat.le_succ _))
  obtain ⟨id', hid'⟩ := exists_merkleLoop (by rwa [hids']) (hids'.le.trans (Nat.le_succ _))
  rw [calculateMerkleRoot, calculateMerkleRoot, ← hlen, hid, hid'] at h
  by_cases heq : id = id'
  · subst heq
    exact (merkleLoop_inj (hids.trans hids'.symm) (hid.trans hid'.symm)).imp_right .inl
  · exact .inr (.inr ⟨id, id', hid, hid', heq, h⟩)

/-- Three transactions, in two orders, with the same root when pairs are hashed to their sum. -/
theorem merkle_root_binds_sums : Collide (· + ·) (hashedPairs (· + ·) 3 [1, 2, 5])
    (hashedPairs (· + ·) 3 [2, 1, 5]) := by
  have hroot : calculateMerkleRoot id (· + ·) (2 * ·) 0 [1, 2, 5] =
      calculateMerkleRoot id (· + ·) (2 * ·) 0 [2, 1, 5] := rfl
  rcases merkle_root_binds id (2 * ·) 0 (by decide) (by rfl) hroot with h | h | ⟨_, _, h, h', hne, -⟩
  · cases h
  · exact h
  · cases h
    cases h'
    exact absurd rfl hne

end MerkleRoot
section Selection

variable {H Tx TxId W R Sched Res : Type} [DecidableEq H] [DecidableEq TxId] [DecidableEq W]

structure Selection (H Tx W R : Type) where
  journal : Journal (ChainState H Tx W R)
  totalBlockSize : Nat
  transactions : List Tx := []
  postponedTxCount : Nat := 0

namespace LiveNode

variable (rules : LiveRules H Tx TxId W R Sched Res)

def selectTransaction (maximumBlockSize : Nat) (sel : Selection H Tx W R)
    (tx : ProcessedTransaction Tx Res) : Selection H Tx W R :=
  if maximumBlockSize < sel.totalBlockSize + rules.packSize tx then
    { sel with postponedTxCount := sel.postponedTxCount + 1 }
  else
    let s := sel.journal.current
    let j := Node.raiseBound (rules.nestedInTransaction s tx.trx) sel.journal.start
    match rules.applyTransaction s tx.trx with
    | .error _ => { sel with journal := j.undo }
    | .ok s' =>
      -- the results are cleared, which changes the size
      let newTotalSize := sel.totalBlockSize + rules.packSize { trx := tx.trx }
      if maximumBlockSize < newTotalSize then
        { sel with
          journal := (j.write s').undo
          postponedTxCount := sel.postponedTxCount + 1 }
      else match (j.write s').merge with
        | none => { sel with journal := (j.write s').undo }
        | some j =>
          { sel with
            journal := j
            totalBlockSize := newTotalSize
            transactions := sel.transactions ++ [tx.trx] }

/-- The loop over the pending transactions, in a new session at the head. -/
def selectTransactions (maxBlockHeaderSize : Nat) (l : LiveNode H Tx W R Sched Res) :
    Selection H Tx W R :=
  l.pendingTx.foldl (selectTransaction rules (rules.maximumBlockSize l.headNode.state.rest))
    { journal := l.headJournal.start, totalBlockSize := maxBlockHeaderSize }

/-! ## What the loop has selected -/

/-- The selected transactions apply one after the other to the state at head, and their sizes are
counted. -/
structure Selected (base : Journal (ChainState H Tx W R))
    (maxBlockHeaderSize maximumBlockSize : Nat) (sel : Selection H Tx W R) : Prop where
  session : Journal.OnTop base sel.journal
  applied : rules.applyTransactions base.current sel.transactions = .ok sel.journal.current
  size : sel.totalBlockSize = maxBlockHeaderSize +
    (sel.transactions.map fun trx => rules.packSize { trx := trx }).sum
  size_le : sel.totalBlockSize ≤ max maxBlockHeaderSize maximumBlockSize

variable {rules} {base : Journal (ChainState H Tx W R)}
  {maxBlockHeaderSize maximumBlockSize : Nat} {sel : Selection H Tx W R}

omit [DecidableEq H] [DecidableEq W]

section

variable (hpos : 0 < base.bound) (h : Selected rules base maxBlockHeaderSize maximumBlockSize sel)
include hpos h

lemma Selected.selectTransaction
    (tx : ProcessedTransaction Tx Res) : Selected rules base maxBlockHeaderSize maximumBlockSize
      (selectTransaction rules maximumBlockSize sel tx) := by
  let j := Node.raiseBound (rules.nestedInTransaction sel.journal.current tx.trx) sel.journal.start
  have hsaved : j.saved = sel.journal.start.saved := by simp [j]
  have hbound : sel.journal.bound ≤ j.bound := Node.bound_le_raiseBound _ sel.journal.start
  -- a temporary session that is given up leaves the selection as it was
  have hgiu : ∀ (t : Journal (ChainState H Tx W R)) (postponed : Nat), t.saved = j.saved →
      t.bound = j.bound → Selected rules base maxBlockHeaderSize maximumBlockSize
        { sel with journal := t.undo, postponedTxCount := postponed } := by
    intro t postponed ht htb
    obtain ⟨hundo, hst, -⟩ := h.session.temporary hpos (ht.trans hsaved) (hbound.trans htb.ge)
    exact ⟨hundo, by rw [hst]; exact h.applied, h.size, h.size_le⟩
  unfold LiveNode.selectTransaction
  split_ifs with hbig
  · exact ⟨h.session, h.applied, h.size, h.size_le⟩
  · dsimp only
    cases happly : rules.applyTransaction sel.journal.current tx.trx with
    | error e => exact hgiu j _ rfl rfl
    | ok s =>
      dsimp only
      split_ifs with hbig'
      · exact hgiu (j.write s) _ rfl rfl
      · rcases h.session.temporary (t := j.write s) hpos hsaved hbound with
          ⟨-, -, m, hmrg, htop, hst⟩
        rw [hmrg]
        refine ⟨htop, ?_, ?_, (Nat.le_of_not_lt hbig').trans (le_max_right _ _)⟩
        · rw [hst]
          exact applyTransactions_concat h.applied happly
        · -- the new transaction is counted with its own size
          simp only [map_append, sum_append, map_cons, map_nil, sum_singleton]
          rw [h.size, Nat.add_assoc]

lemma Selected.foldl (txs : List (ProcessedTransaction Tx Res)) :
    Selected rules base maxBlockHeaderSize maximumBlockSize
      (txs.foldl (LiveNode.selectTransaction rules maximumBlockSize) sel) := by
  induction txs generalizing sel with
  | nil => exact h
  | cons tx txs ih => exact ih (h.selectTransaction hpos tx)

end

lemma selected_selectTransactions {l : LiveNode H Tx W R Sched Res} (hpos : 0 < l.headJournal.bound) :
    Selected rules l.headJournal maxBlockHeaderSize (rules.maximumBlockSize l.headNode.state.rest)
      (l.selectTransactions rules maxBlockHeaderSize) := by
  have hsta : Selected rules l.headJournal maxBlockHeaderSize
      (rules.maximumBlockSize l.headNode.state.rest)
      { journal := l.headJournal.start, totalBlockSize := maxBlockHeaderSize } :=
    ⟨(Journal.Trims.refl l.headJournal).start, rfl, rfl, le_max_left _ _⟩
  exact hsta.foldl hpos l.pendingTx

end LiveNode

end Selection

/-! ## Generating a block -/

/-- Block processing with the size check, the merkle check and the check of signatures written out.
The fields `checkBlock` and `checkTransaction` of `base` are not used. -/
structure ProductionRules (Tx TxId W R Sched Res D C Sig Key : Type) where
  base : LiveRules (BlockHeader W C Sig) Tx TxId W R Sched Res
  validate : Tx → Bool
  verifyAuthority : ChainState (BlockHeader W C Sig) Tx W R → Tx → Bool
  transactionSize : Tx → Nat
  witnessInstance : W → Nat
  /-- an object id has 48 bits for the instance -/
  witnessInstance_lt : ∀ w, witnessInstance w < 2 ^ 48
  merkleDigest : ProcessedTransaction Tx Res → D
  hashPair : D → D → D
  checksum : D → C
  emptyChecksum : C
  getSlotAtTime : ChainState (BlockHeader W C Sig) Tx W R → Nat → Nat
  getScheduledWitness : ChainState (BlockHeader W C Sig) Tx W R → Nat → W
  /-- the key is the signing key of the witness -/
  isSigningKey : ChainState (BlockHeader W C Sig) Tx W R → W → Key → Bool
  /-- the signature of the digest of a block header -/
  sign : Key → BlockId (BlockHeader W C Sig) → Nat → W → C → Sig

namespace ProductionRules

variable {Tx TxId W R Sched Res D C Sig Key : Type} [DecidableEq TxId] [DecidableEq W]
  [DecidableEq C] [DecidableEq Sig]

section

variable (rules : ProductionRules Tx TxId W R Sched Res D C Sig Key)

def merkleRootOf
    (transactions : List Tx) : C :=
  calculateMerkleRoot (fun trx => rules.merkleDigest { trx := trx }) rules.hashPair rules.checksum
    rules.emptyChecksum transactions

def packSizeBlock
    (b : SignedBlock (BlockHeader W C Sig) Tx) : Nat :=
  packSizeHeader (rules.witnessInstance b.header.witness) + varintSize b.transactions.length +
    (b.transactions.map fun trx => rules.base.packSize { trx := trx }).sum

def checkBlock
    (s : ChainState (BlockHeader W C Sig) Tx W R) (b : SignedBlock (BlockHeader W C Sig) Tx) : Bool :=
  decide (rules.packSizeBlock b ≤ rules.base.maximumBlockSize s.rest) &&
    decide (b.header.transactionMerkleRoot = rules.merkleRootOf b.transactions)

/-- The rules of a node, with or without the flag `skip_transaction_signatures`. -/
def liveRules
    (skipTransactionSignatures : Bool) : LiveRules (BlockHeader W C Sig) Tx TxId W R Sched Res :=
  { rules.base with
    timestamp := BlockHeader.timestamp
    witness := BlockHeader.witness
    checkBlock := rules.checkBlock
    checkTransaction := fun s trx =>
      rules.validate trx && (skipTransactionSignatures || rules.verifyAuthority s trx) }

end

variable {rules : ProductionRules Tx TxId W R Sched Res D C Sig Key}
  {s s' : ChainState (BlockHeader W C Sig) Tx W R}

section

omit [DecidableEq W] [DecidableEq Sig]

lemma applyTransaction_skip {trx : Tx}
    (h : (rules.liveRules false).applyTransaction s trx = .ok s') :
    (rules.liveRules true).applyTransaction s trx = .ok s' := by
  simp only [Rules.applyTransaction, bind_eq_ok, check_eq_ok] at h ⊢
  obtain ⟨u, hdupe, v, hchk, hrest⟩ := h
  refine ⟨u, hdupe, v, ?_, hrest⟩
  have hvalid : rules.validate trx = true := (Bool.and_eq_true_iff.1 hchk).1
  simpa [liveRules] using hvalid

lemma applyTransactions_skip {trxs : List Tx}
    (h : (rules.liveRules false).applyTransactions s trxs = .ok s') :
    (rules.liveRules true).applyTransactions s trxs = .ok s' := by
  induction trxs generalizing s with
  | nil => exact h
  | cons trx trxs ih =>
    simp only [Rules.applyTransactions, bind_eq_ok] at h ⊢
    obtain ⟨s1, h1, h⟩ := h
    exact ⟨s1, applyTransaction_skip h1, ih h⟩

end

omit [DecidableEq TxId] [DecidableEq W] [DecidableEq C] [DecidableEq Sig] in
lemma maxBlockHeaderSize_le (rules : ProductionRules Tx TxId W R Sched Res D C Sig Key) (w : W) :
    maxPartialBlockHeaderSize + varintSize (rules.witnessInstance w) ≤ grapheneMinBlockSizeLimit := by
  have hsize : varintSize (rules.witnessInstance w) ≤ 7 :=
    varintSize_le (lt_of_lt_of_le (rules.witnessInstance_lt w) (by decide))
  have hpar : maxPartialBlockHeaderSize = 113 := by
    unfold maxPartialBlockHeaderSize packSizeHeader
    omega
  have hmin : grapheneMinBlockSizeLimit = 5120 := rfl
  omega

end ProductionRules

/-- What `_generate_block` is asked for, at the wall-clock time `now`. -/
structure ProductionRequest (W Key : Type) where
  now : Nat
  when : Nat
  witnessId : W
  signingKey : Key

namespace LiveNode

variable {Tx TxId W R Sched Res D C Sig Key : Type} [DecidableEq TxId] [DecidableEq C]

section

variable (rules : ProductionRules Tx TxId W R Sched Res D C Sig Key)
  (request : ProductionRequest W Key) (l : LiveNode (BlockHeader W C Sig) Tx W R Sched Res)

/-- The loop of `_generate_block` with the room it has reserved for the header. -/
def pendingBlock : Selection (BlockHeader W C Sig) Tx W R :=
  l.selectTransactions (rules.liveRules false)
    (maxPartialBlockHeaderSize + varintSize (rules.witnessInstance request.witnessId))

def assembleBlock : SignedBlock (BlockHeader W C Sig) Tx :=
  let transactions := (l.pendingBlock rules request).transactions
  let previous := l.headNode.headBlockId
  let merkleRoot := rules.merkleRootOf transactions
  { header := {
      timestamp := request.when
      witness := request.witnessId
      transactionMerkleRoot := merkleRoot
      witnessSignature := rules.sign request.signingKey previous request.when request.witnessId
        merkleRoot }
    previous := previous
    transactions := transactions }

variable [DecidableEq W] [DecidableEq Sig]

/-- `_generate_block`.  The list of pending transactions stays while their session is taken off. -/
def generateBlock :
    LiveM (BlockHeader W C Sig) Tx W R Sched Res (SignedBlock (BlockHeader W C Sig) Tx) := fun l =>
  let slotNum := rules.getSlotAtTime l.state request.when
  if slotNum = 0 ∨ rules.getScheduledWitness l.state slotNum ≠ request.witnessId then
    .error .rejected l
  -- the session of the pending transactions has been reset
  else if ¬ rules.isSigningKey l.headNode.state request.witnessId request.signingKey then
    .error .rejected { l with node := l.headNode, pendingSession := false }
  else
    let b := l.assembleBlock rules request
    let l' : LiveNode (BlockHeader W C Sig) Tx W R Sched Res :=
      { l with
        node := { l.node with journal := (l.pendingBlock rules request).journal.undo }
        pendingSession := false }
    match pushBlock (rules.liveRules true) request.now b l' with
    | .ok _ l'' => .ok b l''
    | .error e l'' => .error e l''

end

/-- The assembled block passes the size check, the merkle check and the application of its
transactions. -/
theorem generated_block_valid (rules : ProductionRules Tx TxId W R Sched Res D C Sig Key)
    (request : ProductionRequest W Key) (l : LiveNode (BlockHeader W C Sig) Tx W R Sched Res)
    (hbound : 0 < l.headJournal.bound)
    (hlimit : grapheneMinBlockSizeLimit ≤ rules.base.maximumBlockSize l.headNode.state.rest)
    (hcount : (l.assembleBlock rules request).transactions.length < 2 ^ 21) :
    rules.packSizeBlock (l.assembleBlock rules request) ≤
        rules.base.maximumBlockSize l.headNode.state.rest ∧
      (l.assembleBlock rules request).header.transactionMerkleRoot =
        rules.merkleRootOf (l.assembleBlock rules request).transactions ∧
      (l.assembleBlock rules request).previous = l.headNode.state.headBlockId ∧
      (rules.liveRules true).applyTransactions l.headNode.state
        (l.assembleBlock rules request).transactions =
          .ok (l.pendingBlock rules request).journal.current := by
  have hselected : Selected (rules.liveRules false) l.headJournal _ _
      (l.pendingBlock rules request) :=
    selected_selectTransactions hbound
  have hroom := (rules.maxBlockHeaderSize_le request.witnessId).trans hlimit
  refine ⟨?_, rfl, rfl, ProductionRules.applyTransactions_skip hselected.applied⟩
  have hthree : varintSize (l.assembleBlock rules request).transactions.length ≤ 3 :=
    varintSize_le (lt_of_lt_of_le hcount (by decide))
  calc rules.packSizeBlock (l.assembleBlock rules request)
      ≤ packSizeHeader (rules.witnessInstance request.witnessId) + 3 +
          ((l.pendingBlock rules request).transactions.map fun trx =>
            rules.base.packSize { trx := trx }).sum :=
        Nat.add_le_add_right (Nat.add_le_add_left hthree _) _
    _ = (l.pendingBlock rules request).totalBlockSize := by
        rw [hselected.size]
        congr 1
        unfold maxPartialBlockHeaderSize packSizeHeader
        omega
    _ ≤ rules.base.maximumBlockSize l.headNode.state.rest :=
        hselected.size_le.trans (max_le hroom le_rfl)

/-- Digests are lists of transactions, and every block may have the least size allowed. -/
def sampleProduction : ProductionRules (Nat × Nat) (Nat × Nat) Nat Unit Unit Unit
    (List (Nat × Nat)) (List (Nat × Nat)) Unit Unit where
  base :=
    { timestamp := BlockHeader.timestamp
      witness := BlockHeader.witness
      txId := id
      expiration := Prod.snd
      maximumTimeUntilExpiration := fun _ => 86400
      checkBlock := fun _ _ => true
      checkWitness := fun _ _ => true
      checkTransaction := fun _ _ => true
      checkTapos := fun _ _ => true
      applyOperations := fun s _ => .ok s.rest
      updateMissedBlocks := fun s _ => s.rest
      payWitness := fun s _ => .ok s.rest
      maintain := fun s _ => .ok (s.rest, s.activeWitnesses)
      updateRest := fun s _ => .ok s.rest
      nestedBefore := fun _ _ => 0
      nestedAfter := fun _ _ => 0
      schedule := fun _ => ()
      verifySigningWitness := fun _ _ _ => true
      nestedInTransaction := fun _ _ => 0
      operationResults := fun _ _ => [()]
      packSize := fun ptx => ptx.trx.1 + ptx.operationResults.length
      maximumBlockSize := fun _ => 5120 }
  validate := fun _ => true
  verifyAuthority := fun _ trx => trx.1 != 0
  transactionSize := fun trx => trx.1
  witnessInstance := fun w => w % 2 ^ 48
  witnessInstance_lt := fun w => Nat.mod_lt w (by decide)
  merkleDigest := fun ptx => [ptx.trx]
  hashPair := fun a b => a ++ b
  checksum := id
  emptyChecksum := []
  getSlotAtTime := fun s t => t - s.time
  getScheduledWitness := fun _ slot => slot
  isSigningKey := fun _ _ _ => true
  sign := fun _ _ _ _ _ => ()

def sampleGenesis : ChainState (BlockHeader Nat (List (Nat × Nat)) Unit) (Nat × Nat) Nat Unit where
  headBlockId := []
  headBlockNumber := 0
  time := 0
  lastIrreversibleBlockNum := 0
  activeWitnesses := [0, 1, 2]
  lastConfirmedBlockNum := fun _ => 0
  transactionIndex := []
  rest := ()

lemma sampleGenesis_isGenesis : sampleGenesis.IsGenesis := ⟨rfl, rfl, rfl, fun _ => rfl, rfl⟩

/-- Pending are transactions of which one is not authorised, one comes twice and one is too big for
what is left of the block. -/
def samplePending :
    LiveNode (BlockHeader Nat (List (Nat × Nat)) Unit) (Nat × Nat) Nat Unit Unit Unit where
  node := Node.initial sampleGenesis
  pendingTx := [⟨(1000, 5), []⟩, ⟨(0, 5), []⟩, ⟨(1000, 5), []⟩, ⟨(4100, 5), []⟩, ⟨(2000, 5), []⟩]

theorem generated_block_valid_sample :
    (samplePending.assembleBlock sampleProduction ⟨1, 1, 1, ()⟩).transactions =
        [(1000, 5), (2000, 5)] ∧
      sampleProduction.packSizeBlock (samplePending.assembleBlock sampleProduction ⟨1, 1, 1, ()⟩) ≤
        5120 :=
  have htransactions : (samplePending.assembleBlock sampleProduction ⟨1, 1, 1, ()⟩).transactions =
      [(1000, 5), (2000, 5)] := by decide +kernel
  ⟨htransactions, (generated_block_valid sampleProduction ⟨1, 1, 1, ()⟩ samplePending (by decide)
    le_rfl (by rw [htransactions]; decide)).1⟩

end LiveNode
end Graphene.Chain
