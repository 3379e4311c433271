import Graphene.Chain.NodeSteps

/-!
# Pending transactions

A node holds the transactions it has received since the head block in `_pending_tx`, and their effects
in an undo session on top of the states of the blocks.  `push_block` takes the session off first, and
afterwards `pending_transactions_restorer` pushes the transactions of the popped blocks and then the
ones that were pending, as far as they are not known and still apply (`Selects`).
-/

namespace Graphene.Chain

open Lib List

structure ProcessedTransaction (Tx Res : Type) where
  trx : Tx
  operationResults : List Res := []

open ProcessedTransaction (trx)

/-- What a node with pending transactions adds to the rules of a node. -/
structure LiveRules (H Tx TxId W R Sched Res : Type) extends NodeRules H Tx TxId W R Sched where
  /-- how deep undo sessions are nested while a transaction is applied -/
  nestedInTransaction : ChainState H Tx W R → Tx → Nat
  /-- the results of the operations of a transaction -/
  operationResults : ChainState H Tx W R → Tx → List Res
  packSize : ProcessedTransaction Tx Res → Nat
  maximumBlockSize : R → Nat

/-- A node with its pending transactions.  While `_pending_tx_session` is valid, the newest state on
the undo stack is the one at head. -/
structure LiveNode (H Tx W R Sched Res : Type) where
  node : Node H Tx W R Sched
  pendingTx : List (ProcessedTransaction Tx Res) := []
  pendingSession : Bool := false

abbrev LiveM (H Tx W R Sched Res α : Type) :=
  LiveNode H Tx W R Sched Res → EStateM.Result ChainError (LiveNode H Tx W R Sched Res) α

namespace LiveNode

variable {H Tx TxId W R Sched Res : Type} [DecidableEq H] [DecidableEq TxId] [DecidableEq W]

/-- The object database, with the effects of the pending transactions. -/
def state (l : LiveNode H Tx W R Sched Res) : ChainState H Tx W R :=
  l.node.state

def after {α : Type} :
    EStateM.Result ChainError (LiveNode H Tx W R Sched Res) α → LiveNode H Tx W R Sched Res
  | .ok _ l => l
  | .error _ l => l

section

variable (l : LiveNode H Tx W R Sched Res)

/-- `_pending_tx_session.reset()` on the undo stack. -/
def headJournal : Journal (ChainState H Tx W R) :=
  if l.pendingSession then l.node.journal.undo else l.node.journal

def headNode : Node H Tx W R Sched :=
  { l.node with journal := l.headJournal }

def clearPending : LiveNode H Tx W R Sched Res :=
  { node := l.headNode }

def pendingJournal : Journal (ChainState H Tx W R) :=
  if l.pendingSession then l.node.journal else l.node.journal.start

/-- The node with another undo stack, on which there is a session for pending transactions. -/
def withPending (j : Journal (ChainState H Tx W R))
    (pendingTx : List (ProcessedTransaction Tx Res)) : LiveNode H Tx W R Sched Res :=
  { node := { l.node with journal := j }, pendingTx := pendingTx, pendingSession := true }

end

section

variable (rules : LiveRules H Tx TxId W R Sched Res)

/-- `_push_transaction`.  The transaction is applied in a temporary session, which is undone by an
exception and otherwise merged into the session of the pending transactions. -/
def pushTransaction (trx : Tx) :
    LiveM H Tx W R Sched Res Unit := fun l =>
  let s := l.pendingJournal.current
  let j := Node.raiseBound (rules.nestedInTransaction s trx) l.pendingJournal.start
  match rules.applyTransaction s trx with
  | .error e => .error e (l.withPending j.undo l.pendingTx)
  | .ok s' =>
    let pendingTx := l.pendingTx ++ [⟨trx, rules.operationResults s trx⟩]
    match (j.write s').merge with
    | some j => .ok () (l.withPending j pendingTx)
    -- the assertion of `merge` fails after the transaction was added to the list
    | none => .error .undoStackTooSmall (l.withPending (j.write s').undo pendingTx)

def isKnownTransaction
    (l : LiveNode H Tx W R Sched Res) (trx : Tx) : Bool :=
  decide (rules.txId trx ∈ l.state.transactionIndex.map rules.txId)

/-- One round of the loops in `pending_transactions_restorer`; exceptions are ignored. -/
def repush (l : LiveNode H Tx W R Sched Res)
    (trx : Tx) : LiveNode H Tx W R Sched Res :=
  if l.isKnownTransaction rules trx then l else after (pushTransaction rules trx l)

/-- The destructor of `pending_transactions_restorer`. -/
def restorePending (pending : List Tx)
    (l : LiveNode H Tx W R Sched Res) : LiveNode H Tx W R Sched Res :=
  let l := l.node.poppedTx.foldl (repush rules) l
  let l := { l with node := { l.node with poppedTx := [] } }
  pending.foldl (repush rules) l

/-- `push_block` at the wall-clock time `now`. -/
def pushBlock (now : Nat) (b : SignedBlock H Tx) :
    LiveM H Tx W R Sched Res Bool := fun l =>
  let pending := l.pendingTx.map ProcessedTransaction.trx
  match Node.pushBlock rules.toNodeRules now b l.clearPending.node with
  | .ok switched n =>
    .ok switched (({ node := n } : LiveNode H Tx W R Sched Res).restorePending rules pending)
  | .error e n => .error e (({ node := n } : LiveNode H Tx W R Sched Res).restorePending rules pending)

end

/-- Of the transactions in the list, pushed one after the other on the state `s`, those that are kept.
The others were known, or did not apply, on the state reached by those kept before them. -/
inductive Selects (rules : Rules H Tx TxId W R) :
    ChainState H Tx W R → List Tx → List Tx → ChainState H Tx W R → Prop
  | nil (s : ChainState H Tx W R) : Selects rules s [] [] s
  | keep {s s1 s' : ChainState H Tx W R} {trx : Tx} {trxs kept : List Tx}
      (hnew : rules.txId trx ∉ s.transactionIndex.map rules.txId)
      (happly : rules.applyTransaction s trx = .ok s1) (h : Selects rules s1 trxs kept s') :
      Selects rules s (trx :: trxs) (trx :: kept) s'
  | known {s s' : ChainState H Tx W R} {trx : Tx} {trxs kept : List Tx}
      (hknown : rules.txId trx ∈ s.transactionIndex.map rules.txId)
      (h : Selects rules s trxs kept s') : Selects rules s (trx :: trxs) kept s'
  | fails {s s' : ChainState H Tx W R} {trx : Tx} {trxs kept : List Tx} {e : ChainError}
      (hfails : rules.applyTransaction s trx = .error e)
      (h : Selects rules s trxs kept s') : Selects rules s (trx :: trxs) kept s'

namespace Selects

variable {rules : Rules H Tx TxId W R} {s s1 s' : ChainState H Tx W R} {trxs kept : List Tx}

omit [DecidableEq H] [DecidableEq W]

lemma append {trxs' kept' : List Tx} (h : Selects rules s trxs kept s1)
    (h' : Selects rules s1 trxs' kept' s') : Selects rules s (trxs ++ trxs') (kept ++ kept') s' := by
  induction h with
  | nil s => exact h'
  | keep hnew happly _ ih => exact .keep hnew happly (ih h')
  | known hknown _ ih => exact .known hknown (ih h')
  | fails hfails _ ih => exact .fails hfails (ih h')

variable (h : Selects rules s trxs kept s')
include h

lemma sublist : kept.Sublist trxs := by
  induction h with
  | nil s => exact .slnil
  | keep _ _ _ ih => exact ih.cons_cons _
  | known _ _ ih | fails _ _ ih => exact ih.cons _

lemma applies : rules.applyTransactions s kept = .ok s' := by
  induction h with
  | nil s => rfl
  | keep _ happly _ ih =>
    simp only [Rules.applyTransactions, happly]
    exact ih
  | known _ _ ih => exact ih
  | fails _ _ ih => exact ih

/-- What is known stays known while transactions are applied, so nothing kept was known before. -/
lemma not_known : ∀ trx ∈ kept, rules.txId trx ∉ s.transactionIndex.map rules.txId := by
  induction h with
  | nil s => exact fun trx htrx => absurd htrx not_mem_nil
  | @keep s s1 s' trx trxs kept hnew happly _ ih =>
    intro trx' htrx'
    rcases mem_cons.1 htrx' with rfl | hlater
    · exact hnew
    · intro hknown
      refine ih trx' hlater ?_
      rw [(Rules.applyTransaction_ok happly).frame, map_cons]
      exact mem_cons_of_mem _ hknown
  | known _ _ ih => exact ih
  | fails _ _ ih => exact ih

end Selects

/-! ## Pushing transactions -/

/-- The session of the pending transactions lies on top of the journal `base` at head. -/
structure SessionOn (base : Journal (ChainState H Tx W R)) (l : LiveNode H Tx W R Sched Res) :
    Prop where
  active : l.pendingSession = true → Journal.OnTop base l.node.journal
  idle : l.pendingSession = false → Journal.Trims base l.node.journal

namespace SessionOn

variable {base : Journal (ChainState H Tx W R)} {l : LiveNode H Tx W R Sched Res}

omit [DecidableEq H] [DecidableEq W]

lemma of_head (n : Node H Tx W R Sched) :
    SessionOn n.journal ({ node := n } : LiveNode H Tx W R Sched Res) where
  active := fun h => by cases h
  idle := fun _ => .refl n.journal

lemma withPending {j : Journal (ChainState H Tx W R)} (h : Journal.OnTop base j)
    (pendingTx : List (ProcessedTransaction Tx Res)) : SessionOn base (l.withPending j pendingTx) where
  active := fun _ => h
  idle := fun hidle => by cases hidle

lemma headJournal (h : SessionOn base l) : Journal.Trims base l.headJournal := by
  unfold LiveNode.headJournal
  cases hs : l.pendingSession with
  | true => exact (h.active hs).undo
  | false => exact h.idle hs

lemma pendingJournal (h : SessionOn base l) : Journal.OnTop base l.pendingJournal := by
  unfold LiveNode.pendingJournal
  cases hs : l.pendingSession with
  | true => exact h.active hs
  | false => exact (h.idle hs).start

end SessionOn

structure SameBlocks (l l' : LiveNode H Tx W R Sched Res) : Prop where
  forkDb : l'.node.forkDb = l.node.forkDb
  poppedTx : l'.node.poppedTx = l.node.poppedTx

variable {l : LiveNode H Tx W R Sched Res}

section

omit [DecidableEq H] [DecidableEq W]

lemma SameBlocks.trans {l' l'' : LiveNode H Tx W R Sched Res} (h : SameBlocks l l')
    (h' : SameBlocks l' l'') : SameBlocks l l'' :=
  ⟨h'.forkDb.trans h.forkDb, h'.poppedTx.trans h.poppedTx⟩

lemma pendingJournal_current (l : LiveNode H Tx W R Sched Res) :
    l.pendingJournal.current = l.state := by
  unfold pendingJournal
  split_ifs <;> rfl

lemma applyTransactions_concat {rules : Rules H Tx TxId W R} {s s1 s' : ChainState H Tx W R}
    {trxs : List Tx} {trx : Tx} (h : rules.applyTransactions s trxs = .ok s1)
    (happly : rules.applyTransaction s1 trx = .ok s') :
    rules.applyTransactions s (trxs ++ [trx]) = .ok s' := by
  induction trxs generalizing s with
  | nil =>
    cases h
    simp [Rules.applyTransactions, happly]
  | cons t trxs ih =>
    simp only [Rules.applyTransactions, bind_eq_ok] at h
    obtain ⟨s2, h2, h⟩ := h
    simp only [cons_append, Rules.applyTransactions, h2]
    exact ih h

end

variable {rules : LiveRules H Tx TxId W R Sched Res} {base : Journal (ChainState H Tx W R)}

section

variable (rules : LiveRules H Tx TxId W R Sched Res)

section

omit [DecidableEq H] [DecidableEq W]

lemma pushTransaction_cases (hpos : 0 < base.bound)
    (h : SessionOn base l) (trx : Tx) : (∃ e l', pushTransaction rules trx l = .error e l' ∧
      rules.applyTransaction l.state trx = .error e ∧ SessionOn base l' ∧
      SameBlocks l l' ∧ l'.state = l.state ∧ l'.pendingTx = l.pendingTx) ∨
    (∃ s l', pushTransaction rules trx l = .ok () l' ∧
      rules.applyTransaction l.state trx = .ok s ∧ SessionOn base l' ∧
      SameBlocks l l' ∧ l'.state = s ∧
      l'.pendingTx = l.pendingTx ++ [⟨trx, rules.operationResults l.state trx⟩]) := by
  have hcur := l.pendingJournal_current
  let j := Node.raiseBound (rules.nestedInTransaction l.state trx) l.pendingJournal.start
  have hsaved : j.saved = l.pendingJournal.start.saved := by simp [j]
  have hbnd : l.pendingJournal.bound ≤ j.bound :=
    Node.bound_le_raiseBound _ l.pendingJournal.start
  cases happly : rules.applyTransaction l.state trx with
  | error e =>
    obtain ⟨hundo, hst, -⟩ := h.pendingJournal.temporary hpos hsaved hbnd
    have hrun : pushTransaction rules trx l = .error e (l.withPending j.undo l.pendingTx) := by
      simp only [pushTransaction, hcur, happly, j]
    exact Or.inl ⟨e, _, hrun, rfl, .withPending hundo _, ⟨rfl, rfl⟩,
      hst.trans hcur, rfl⟩
  | ok s =>
    rcases h.pendingJournal.temporary (t := j.write s) hpos hsaved hbnd with
      ⟨-, -, m, hmrg, htop, hst⟩
    have hrun : pushTransaction rules trx l = .ok () (l.withPending m
        (l.pendingTx ++ [⟨trx, rules.operationResults l.state trx⟩])) := by
      simp only [j] at hmrg
      simp only [pushTransaction, hcur, happly, hmrg]
    exact Or.inr ⟨s, _, hrun, rfl, .withPending htop _, ⟨rfl, rfl⟩, hst, rfl⟩

lemma foldl_repush (hpos : 0 < base.bound)
    (h : SessionOn base l) (trxs : List Tx) :
    ∃ kept, Selects rules.toRules l.state trxs kept (trxs.foldl (repush rules) l).state ∧
      SessionOn base (trxs.foldl (repush rules) l) ∧ SameBlocks l (trxs.foldl (repush rules) l) ∧
      (trxs.foldl (repush rules) l).pendingTx.map trx =
        l.pendingTx.map trx ++ kept := by
  induction trxs generalizing l with
  | nil => exact ⟨[], .nil _, h, ⟨rfl, rfl⟩, (append_nil _).symm⟩
  | cons trx trxs ih =>
    rw [foldl_cons]
    by_cases hknown : rules.txId trx ∈ l.state.transactionIndex.map rules.txId
    · have hskip : repush rules l trx = l := if_pos (decide_eq_true hknown)
      rw [hskip]
      obtain ⟨kept, hsel, hrest⟩ := ih h
      exact ⟨kept, .known hknown hsel, hrest⟩
    · have hpush : repush rules l trx = after (pushTransaction rules trx l) :=
        if_neg (by simpa [isKnownTransaction] using hknown)
      rcases pushTransaction_cases rules hpos h trx with
        ⟨e, l', hrun, hfails, h', hsame, hst, htx⟩ | ⟨s, l', hrun, hok, h', hsame, hst, htx⟩
      · rw [hpush, hrun]
        obtain ⟨kept, hsel, hon, hsame', hkept⟩ := ih h'
        rw [hst] at hsel
        refine ⟨kept, .fails hfails hsel, hon, hsame.trans hsame', ?_⟩
        exact hkept.trans (by rw [htx])
      · rw [hpush, hrun]
        obtain ⟨kept, hsel, hon, hsame', hkept⟩ := ih h'
        rw [hst] at hsel
        refine ⟨trx :: kept, .keep hknown hok hsel, hon, hsame.trans hsame', ?_⟩
        refine hkept.trans ?_
        rw [htx]
        simp

end

/-- What the restorer leaves behind, on a node whose pending transactions were cleared. -/
structure Restored (rules : LiveRules H Tx TxId W R Sched Res) (n : Node H Tx W R Sched)
    (pending : List Tx) (l : LiveNode H Tx W R Sched Res) : Prop where
  selects : Selects rules.toRules n.state (n.poppedTx ++ pending)
    (l.pendingTx.map ProcessedTransaction.trx) l.state
  session : SessionOn n.journal l
  forkDb : l.node.forkDb = n.forkDb
  poppedTx : l.node.poppedTx = []

omit [DecidableEq H] [DecidableEq W] in
lemma restored_restorePending {n : Node H Tx W R Sched} (hpos : 0 < n.journal.bound)
    (pending : List Tx) : Restored rules n pending
      (({ node := n } : LiveNode H Tx W R Sched Res).restorePending rules pending) := by
  rcases foldl_repush rules hpos (SessionOn.of_head n) n.poppedTx with
    ⟨kept1, hsel1, hon1, hsame1, htx1⟩
  -- clearing `_popped_tx` between the loops touches nothing else
  let l1 := n.poppedTx.foldl (repush rules) ({ node := n } : LiveNode H Tx W R Sched Res)
  let l2 : LiveNode H Tx W R Sched Res := { l1 with node := { l1.node with poppedTx := [] } }
  have hon2 : SessionOn n.journal l2 := ⟨hon1.active, hon1.idle⟩
  obtain ⟨kept2, hsel2, hon3, hsame2, htx2⟩ := foldl_repush rules hpos hon2 pending
  refine ⟨?_, hon3, hsame2.forkDb.trans hsame1.forkDb, hsame2.poppedTx⟩
  change Selects rules.toRules n.state _ ((pending.foldl (repush rules) l2).pendingTx.map trx) _
  rw [htx2]
  rw [htx1]
  exact hsel1.append hsel2

end

lemma after_pushBlock (now : Nat) (b : SignedBlock H Tx) :
    after (pushBlock rules now b l) =
      ({ node := Node.after (Node.pushBlock rules.toNodeRules now b l.headNode) } :
        LiveNode H Tx W R Sched Res).restorePending rules
          (l.pendingTx.map trx) := by
  unfold pushBlock clearPending
  cases Node.pushBlock rules.toNodeRules now b l.headNode <;> rfl

end LiveNode
end Graphene.Chain
