import Graphene.Chain.BlockProduction

/-!
# Runs of a node with pending transactions

A node is driven by `push_block`, `push_transaction`, `validate_transaction` and `generate_block`, in
any order.  These calls act at head by the steps of `NodeStep`; before and after them sessions above the
head are given up, which can cost the oldest undo states (`Journal.Trims`).
-/

namespace Graphene.Chain

open Lib List Node SignedBlock ProcessedTransaction

variable {Tx TxId W R Sched Res D C Sig Key : Type} [DecidableEq TxId] [DecidableEq W]
  [DecidableEq C] [DecidableEq Sig]

inductive Action (Tx W C Sig Key : Type)
  | pushBlock (now : Nat) (b : SignedBlock (BlockHeader W C Sig) Tx)
  | pushTransaction (trx : Tx)
  | validateTransaction (trx : Tx)
  | generateBlock (request : ProductionRequest W Key)

variable {n : Node (BlockHeader W C Sig) Tx W R Sched} {b : SignedBlock (BlockHeader W C Sig) Tx}
  {base : Journal (ChainState (BlockHeader W C Sig) Tx W R)}
  {genesis : ChainState (BlockHeader W C Sig) Tx W R}

namespace LiveNode

section

variable (rules : ProductionRules Tx TxId W R Sched Res D C Sig Key)

/-- `push_transaction`: the size is checked first. -/
def pushTransactionChecked (trx : Tx) :
    LiveM (BlockHeader W C Sig) Tx W R Sched Res Unit := fun l =>
  if rules.transactionSize trx < 1024 * 1024 then pushTransaction (rules.liveRules false) trx l
  else .error .rejected l

/-- `validate_transaction`: the transaction is applied in a session that is always undone. -/
def validateTransaction (trx : Tx) :
    LiveM (BlockHeader W C Sig) Tx W R Sched Res Unit := fun l =>
  let j := Node.raiseBound (rules.base.nestedInTransaction l.state trx) l.node.journal.start
  match (rules.liveRules false).applyTransaction l.state trx with
  | .error e => .error e { l with node := { l.node with journal := j.undo } }
  | .ok s => .ok () { l with node := { l.node with journal := (j.write s).undo } }

variable (l : LiveNode (BlockHeader W C Sig) Tx W R Sched Res)

def perform : Action Tx W C Sig Key → LiveNode (BlockHeader W C Sig) Tx W R Sched Res
  | .pushBlock now b => after (pushBlock (rules.liveRules false) now b l)
  | .pushTransaction trx => after (pushTransactionChecked rules trx l)
  | .validateTransaction trx => after (validateTransaction rules trx l)
  | .generateBlock request => after (generateBlock rules request l)

def blocksOf : Action Tx W C Sig Key → List (SignedBlock (BlockHeader W C Sig) Tx)
  | .pushBlock _ b => [b]
  | .generateBlock request => [l.assembleBlock rules request]
  | _ => []

end

/-- Runs from genesis, with the blocks handed to `push_block` so far. -/
inductive Run (rules : ProductionRules Tx TxId W R Sched Res D C Sig Key)
    (genesis : ChainState (BlockHeader W C Sig) Tx W R) :
    List (SignedBlock (BlockHeader W C Sig) Tx) →
      LiveNode (BlockHeader W C Sig) Tx W R Sched Res → Prop
  | start : Run rules genesis [] { node := Node.initial genesis }
  | step {received : List (SignedBlock (BlockHeader W C Sig) Tx)}
      {l : LiveNode (BlockHeader W C Sig) Tx W R Sched Res} (action : Action Tx W C Sig Key)
      (h : Run rules genesis received l) :
      Run rules genesis (l.blocksOf rules action ++ received) (l.perform rules action)

/-! ## What a call does at head -/

def FedBy (received : SignedBlock (BlockHeader W C Sig) Tx → Prop)
    (db : ForkDatabase (BlockHeader W C Sig) Tx Sched) : Prop :=
  ∃ heap, db.LivesIn heap ∧ ∀ ⦃a v⦄, heap a = some v → received v.2

/-- A call gives up sessions above the head, moves the head by steps, and leaves a session on top of
it. -/
structure Moves (rules : ProductionRules Tx TxId W R Sched Res D C Sig Key)
    (received : SignedBlock (BlockHeader W C Sig) Tx → Prop)
    (l l' : LiveNode (BlockHeader W C Sig) Tx W R Sched Res)
    (n n' : Node (BlockHeader W C Sig) Tx W R Sched) : Prop where
  before : Journal.Trims l.headJournal n.journal
  forkDb_before : n.forkDb = l.node.forkDb
  steps : ∃ skip, Node.NodeSteps (rules.liveRules skip).toNodeRules received n n'
  fed : FedBy received n.forkDb → FedBy received n'.forkDb
  session : SessionOn n'.journal l'
  forkDb_after : l'.node.forkDb = n'.forkDb
  poppedTx : l'.node.poppedTx = []

structure Ready (l : LiveNode (BlockHeader W C Sig) Tx W R Sched Res) : Prop where
  bound_pos : 0 < l.headJournal.bound
  session : l.pendingSession = true → l.node.journal.saved ≠ []
  stacked : Stacked l.headJournal.current l.headJournal.saved
  poppedTx : l.node.poppedTx = []

variable {rules : ProductionRules Tx TxId W R Sched Res D C Sig Key}
  {received : SignedBlock (BlockHeader W C Sig) Tx → Prop}
  {l l' : LiveNode (BlockHeader W C Sig) Tx W R Sched Res}
  {blocks : List (SignedBlock (BlockHeader W C Sig) Tx)}

section

omit [DecidableEq W] [DecidableEq C] [DecidableEq Sig]

lemma Ready.sessionOn (h : l.Ready) : SessionOn l.headJournal l where
  active := by
    intro hs
    rw [LiveNode.headJournal, if_pos hs]
    exact Journal.onTop_undo (h.session hs)
  idle := by
    intro hs
    rw [LiveNode.headJournal, if_neg (by simp [hs])]
    exact .refl _

lemma stacked_trims {j j' : Journal (ChainState (BlockHeader W C Sig) Tx W R)}
    (h : Journal.Trims j j') (hj : Stacked j.current j.saved) : Stacked j'.current j'.saved := by
  obtain ⟨keep, -, hsaved⟩ := h.saved
  rw [h.current, hsaved]
  exact hj.take keep

lemma SessionOn.ready (h : SessionOn base l) (hpos : 0 < base.bound)
    (hstacked : Stacked base.current base.saved) (hpopped : l.node.poppedTx = []) : l.Ready where
  bound_pos := lt_of_lt_of_le hpos h.headJournal.bound_le
  session := by
    intro hs hnil
    obtain ⟨keep, -, hsaved⟩ := (h.active hs).saved
    rw [hnil] at hsaved
    cases hsaved
  stacked := stacked_trims h.headJournal hstacked
  poppedTx := hpopped

lemma ready_initial (h : genesis.IsGenesis) :
    ({ node := initial genesis } : LiveNode (BlockHeader W C Sig) Tx W R Sched Res).Ready := by
  refine (SessionOn.of_head (initial genesis)).ready (Nat.succ_pos 9) ?_ rfl
  exact (initial_valid h).stacked

lemma SessionOn.givenUp {t : Journal (ChainState (BlockHeader W C Sig) Tx W R)}
    (h : SessionOn base l) (hpos : 0 < base.bound) (hsaved : t.saved = l.node.journal.start.saved)
    (hbnd : l.node.journal.bound ≤ t.bound) :
    SessionOn base { l with node := { l.node with journal := t.undo } } where
  active := fun hs => ((h.active hs).temporary hpos hsaved hbnd).1
  idle := by
    intro hs
    obtain ⟨keep, hkeep, hsta⟩ := ((h.idle hs).start).saved
    refine Journal.OnTop.undo ⟨⟨keep, hkeep, hsaved.trans hsta⟩, ?_⟩
    exact (h.idle hs).bound_le.trans hbnd

lemma fedBy_initial (received : SignedBlock (BlockHeader W C Sig) Tx → Prop) :
    FedBy received (initial genesis : Node (BlockHeader W C Sig) Tx W R Sched).forkDb := by
  refine ⟨fun _ => none, ⟨?_, ?_, fun _ _ => rfl⟩, ?_⟩
  · intro a p b hab
    cases hab
  · intro i hi
    simp [initial, ForkDatabase.owned] at hi
  · intro a v hv
    cases hv

end

lemma Moves.ready {n' : Node (BlockHeader W C Sig) Tx W R Sched}
    (h : Moves rules received l l' n n') (hl : l.Ready) : l'.Ready := by
  obtain ⟨skip, hsteps⟩ := h.steps
  refine h.session.ready ?_ ?_ h.poppedTx
  · exact hsteps.bound_pos (lt_of_lt_of_le hl.bound_pos h.before.bound_le)
  · exact hsteps.stacked (stacked_trims h.before hl.stacked)

lemma Moves.atHead (hses : SessionOn l.headJournal l') (hfork : l'.node.forkDb = l.node.forkDb)
    (hpopped : l'.node.poppedTx = []) : Moves rules received l l' l.headNode l.headNode where
  before := .refl _
  forkDb_before := rfl
  steps := ⟨false, .refl⟩
  fed := id
  session := hses
  forkDb_after := hfork
  poppedTx := hpopped

/-- The blocks of the branches that a push of `b` looks up have been received. -/
def PushReceived (received : SignedBlock (BlockHeader W C Sig) Tx → Prop)
    (n : Node (BlockHeader W C Sig) Tx W R Sched) (b : SignedBlock (BlockHeader W C Sig) Tx) : Prop :=
  received b ∧ ∀ newHead db, n.forkDb.pushBlock b = .ok (newHead, db) →
    Node.FetchesReceived received db newHead n.headBlockId

lemma FedBy.pushReceived (h : FedBy received n.forkDb) (hb : received b) :
    PushReceived received n b := by
  obtain ⟨heap, hlives, hheap⟩ := h
  refine ⟨hb, ?_⟩
  intro newHead db hpush first second hfetch i hi
  obtain ⟨heap', hadds, hdb⟩ := hlives.pushBlock hpush
  have hheld : heap'.Holds i := hdb.items i ((ForkDatabase.fetchBranchFrom_ok hdb hfetch).owned i hi)
  rcases hadds hheld with hold | hnew
  · exact hheap hold
  · have hdata : i.data = b := hnew
    rw [hdata]
    exact hb

lemma FedBy.pushBlock (rules : NodeRules (BlockHeader W C Sig) Tx TxId W R Sched)
    (h : FedBy received n.forkDb) (hb : received b) (now : Nat) :
    FedBy received (Node.after (Node.pushBlock rules now b n)).forkDb := by
  obtain ⟨heap, hlives, hheap⟩ := h
  obtain ⟨heap', hadds, hlives'⟩ := pushBlock_lives rules hlives now
  refine ⟨heap', hlives', ?_⟩
  intro a v hv
  rcases hadds hv with hold | hnew
  · exact hheap hold
  · exact hnew ▸ hb

lemma pushBlock_moves (rules : ProductionRules Tx TxId W R Sched Res D C Sig Key) (skip : Bool)
    (now : Nat) (hb : PushReceived received l.headNode b) (hpos : 0 < l.headJournal.bound) :
    Moves rules received l (after (pushBlock (rules.liveRules skip) now b l)) l.headNode
      (Node.after (Node.pushBlock (rules.liveRules skip).toNodeRules now b l.headNode)) := by
  have hsteps := pushBlock_steps (rules.liveRules skip).toNodeRules now hb.1 hb.2
  have hrestored := restored_restorePending (rules.liveRules skip)
    (hsteps.bound_pos hpos) (l.pendingTx.map trx)
  rw [after_pushBlock]
  exact ⟨.refl _, rfl, ⟨skip, hsteps⟩, fun hfed => hfed.pushBlock _ hb.1 now, hrestored.session,
    hrestored.forkDb, hrestored.poppedTx⟩

lemma pushTransactionChecked_moves (hl : l.Ready) (trx : Tx) :
    Moves rules received l (after (pushTransactionChecked rules trx l)) l.headNode l.headNode := by
  unfold pushTransactionChecked
  split_ifs
  · rcases pushTransaction_cases (rules.liveRules false) hl.bound_pos hl.sessionOn trx with
      ⟨e, l', hrun, -, hses, hsame, -⟩ | ⟨s, l', hrun, -, hses, hsame, -⟩
    all_goals
      rw [hrun]
      exact .atHead hses hsame.forkDb (hsame.poppedTx.trans hl.poppedTx)
  · exact .atHead hl.sessionOn rfl hl.poppedTx

lemma validateTransaction_moves (hl : l.Ready) (trx : Tx) :
    Moves rules received l (after (validateTransaction rules trx l)) l.headNode l.headNode := by
  have hbnd := bound_le_raiseBound (rules.base.nestedInTransaction l.state trx)
    l.node.journal.start
  unfold validateTransaction
  cases (rules.liveRules false).applyTransaction l.state trx with
  | error _ | ok _ =>
    exact .atHead (hl.sessionOn.givenUp hl.bound_pos (raiseBound_saved _ _) hbnd) rfl hl.poppedTx

lemma generateBlock_moves (hl : l.Ready) {request : ProductionRequest W Key}
    (hb : PushReceived received l.headNode (l.assembleBlock rules request)) :
    ∃ n n', Moves rules received l (after (generateBlock rules request l)) n n' := by
  unfold generateBlock
  dsimp only
  split_ifs
  · exact ⟨_, _, .atHead hl.sessionOn rfl hl.poppedTx⟩
  · -- the loop is over and its session was reset
    let l1 : LiveNode (BlockHeader W C Sig) Tx W R Sched Res :=
      { l with
        node := { l.node with journal := (l.pendingBlock rules request).journal.undo }
        pendingSession := false }
    have htrims : Journal.Trims l.headJournal l1.headJournal :=
      (selected_selectTransactions hl.bound_pos).session.undo
    have hb1 : PushReceived received l1.headNode (l.assembleBlock rules request) := by
      have hid : l1.headNode.headBlockId = l.headNode.headBlockId :=
        congrArg ChainState.headBlockId htrims.current
      unfold PushReceived
      rw [hid]
      exact hb
    have hmov := pushBlock_moves rules true request.now hb1
      (lt_of_lt_of_le hl.bound_pos htrims.bound_le)
    cases hres : pushBlock (rules.liveRules true) request.now (l.assembleBlock rules request) l1 with
    | ok _ l2 | error _ l2 =>
      rw [hres] at hmov
      exact ⟨l1.headNode, _, htrims.trans hmov.before, rfl, hmov.steps, hmov.fed,
        hmov.session, hmov.forkDb_after, hmov.poppedTx⟩
  · -- the session was reset before the key was checked
    exact ⟨_, _, .atHead ⟨fun hs => (by cases hs), fun _ => .refl _⟩ rfl hl.poppedTx⟩

/-- Every call moves the head by steps. -/
lemma perform_moves (hl : l.Ready) {action : Action Tx W C Sig Key}
    (hb : ∀ b ∈ l.blocksOf rules action, PushReceived received l.headNode b) :
    ∃ n n', Moves rules received l (l.perform rules action) n n' := by
  cases action with
  | pushBlock now b => exact ⟨_, _, pushBlock_moves rules false now (hb b (by simp [blocksOf])) hl.bound_pos⟩
  | pushTransaction trx => exact ⟨_, _, pushTransactionChecked_moves hl trx⟩
  | validateTransaction trx => exact ⟨_, _, validateTransaction_moves hl trx⟩
  | generateBlock request => exact generateBlock_moves hl (hb _ (by simp [blocksOf]))

theorem Run.ready (hg : genesis.IsGenesis) (h : Run rules genesis blocks l) : l.Ready := by
  induction h with
  | start => exact ready_initial hg
  | @step blocks l action _ ih =>
    have hany : ∀ b ∈ l.blocksOf rules action, PushReceived (fun _ => True) l.headNode b :=
      fun b _ => ⟨trivial, fun _ _ _ _ _ _ _ _ => trivial⟩
    obtain ⟨n, n', hmov⟩ := perform_moves ih hany
    exact hmov.ready ih

def pendingTrx (l : LiveNode (BlockHeader W C Sig) Tx W R Sched Res) : List Tx :=
  l.pendingTx.map trx

/-- After every call of `push_block`, returning or throwing, the pending transactions are those of the
popped blocks and the former pending ones that were not known and applied when their turn came.  The
popped blocks of the old branch stand oldest first; before them stand those of a new branch that was
given up, which happens only in a call that throws. -/
theorem pending_transactions_survive (rules : ProductionRules Tx TxId W R Sched Res D C Sig Key)
    (hg : genesis.IsGenesis) (hrun : Run rules genesis blocks l) (now : Nat)
    (b : SignedBlock (BlockHeader W C Sig) Tx) : ∃ old new,
      Node.PoppedBranches l.headNode old new
        (Node.pushBlock (rules.liveRules false).toNodeRules now b l.headNode) ∧ ∃ head, head =
          (Node.after (Node.pushBlock (rules.liveRules false).toNodeRules now b l.headNode)).state ∧
        (l.perform rules (.pushBlock now b)).headNode.state = head ∧
        Selects (rules.liveRules false).toRules head
          ((new ++ old).flatMap transactions ++ l.pendingTrx)
          (l.perform rules (.pushBlock now b)).pendingTrx
          (l.perform rules (.pushBlock now b)).state ∧
        (l.perform rules (.pushBlock now b)).pendingTrx.Sublist
          ((new ++ old).flatMap transactions ++ l.pendingTrx) ∧
        (∀ trx ∈ (l.perform rules (.pushBlock now b)).pendingTrx,
          rules.base.txId trx ∉ head.transactionIndex.map rules.base.txId) ∧
        (rules.liveRules false).applyTransactions head
          (l.perform rules (.pushBlock now b)).pendingTrx =
            .ok (l.perform rules (.pushBlock now b)).state := by
  have hready := hrun.ready hg
  have hsteps : Node.NodeSteps (rules.liveRules false).toNodeRules (fun _ => True) l.headNode
      (Node.after (Node.pushBlock (rules.liveRules false).toNodeRules now b l.headNode)) :=
    pushBlock_steps _ now trivial fun _ _ _ _ _ _ _ _ => trivial
  have hstacked : Stacked l.headNode.state l.headNode.journal.saved := hready.stacked
  rcases pushBlock_popped (rules.liveRules false).toNodeRules now b hstacked with
    ⟨old, new, hpopped⟩
  have hrestored := restored_restorePending (rules.liveRules false)
    (hsteps.bound_pos hready.bound_pos) (l.pendingTx.map trx)
  rw [← after_pushBlock] at hrestored
  have hselects := hrestored.selects
  rw [hpopped.poppedTx, show l.headNode.poppedTx = [] from hready.poppedTx, append_nil] at hselects
  exact ⟨old, new, hpopped, _, rfl, hrestored.session.headJournal.current, hselects,
    hselects.sublist, hselects.not_known, hselects.applies⟩

/-! ### A switch that cannot be taken back -/

namespace LostFork

abbrev Block := SignedBlock (BlockHeader Nat (List (Nat × Nat)) Unit) (Nat × Nat)

def block (time witness : Nat) (previous : BlockId (BlockHeader Nat (List (Nat × Nat)) Unit))
    (transactions : List (Nat × Nat)) : Block :=
  ⟨⟨time, witness, transactions, ()⟩, previous, transactions⟩

def a1 := block 1 0 [] []

def b2 := block 2 0 a1.id [(7, 100)]
def b3 := block 3 0 b2.id []
def b4 := block 4 0 b3.id []
def b5 := block 5 0 b4.id []
def b6 := block 6 0 b5.id []

def c2 := block 12 1 a1.id []
def c3 := block 13 2 c2.id []
def c4 := block 14 0 c3.id [(8, 100)]
def c5 := block 15 1 c4.id []
def c6 := block 16 2 c5.id []
def c7 : Block := ⟨⟨17, 0, [(9, 9)], ()⟩, c6.id, []⟩

abbrev Live := LiveNode (BlockHeader Nat (List (Nat × Nat)) Unit) (Nat × Nat) Nat Unit Unit Unit

def pushAll (l : Live) (bs : List Block) : Live :=
  bs.foldl (fun l b => l.perform sampleProduction (.pushBlock 0 b)) l

def before : Live :=
  pushAll { node := Node.initial sampleGenesis } [a1, b2, b3, b4, b5, b6, c2, c3, c4, c5, c6]

def result : Live :=
  before.perform sampleProduction (.pushBlock 0 c7)

lemma run_pushAll {received : List Block} {l : Live} (h : Run sampleProduction sampleGenesis received l)
    (bs : List Block) : ∃ received', Run sampleProduction sampleGenesis received' (pushAll l bs) := by
  induction bs generalizing received l with
  | nil => exact ⟨received, h⟩
  | cons b bs ih => exact ih (Run.step (.pushBlock 0 b) h)

theorem pending_transactions_survive_lostFork : result.pendingTrx = [(8, 100), (7, 100)] ∧
      ∃ old new, Node.PoppedBranches before.headNode old new
          (Node.pushBlock (sampleProduction.liveRules false).toNodeRules 0 c7 before.headNode) ∧
        result.pendingTrx.Sublist
          ((new ++ old).flatMap transactions ++ before.pendingTrx) := by
  refine ⟨by decide +kernel, ?_⟩
  obtain ⟨received, hrun⟩ := run_pushAll .start [a1, b2, b3, b4, b5, b6, c2, c3, c4, c5, c6]
  rcases pending_transactions_survive sampleProduction sampleGenesis_isGenesis hrun 0 c7 with
    ⟨old, new, hpopped, head, -, -, -, hsublist, -⟩
  exact ⟨old, new, hpopped, hsublist⟩

def throws : Bool :=
  match pushBlock (sampleProduction.liveRules false) 0 c7 before with
  | .ok _ _ => false
  | .error _ _ => true

lemma flatMap_transactions (bs : List Block) : bs.flatMap transactions =
    (bs.filter fun b => decide (b.transactions ≠ [])).flatMap transactions := by
  induction bs with
  | nil => rfl
  | cons b bs ih =>
    rw [flatMap_cons, ih, filter_cons]
    split_ifs with h
    · rw [flatMap_cons]
    · simp only [ne_eq, decide_not, Bool.not_eq_eq_eq_not, Bool.not_true, decide_eq_false_iff_not,
        Decidable.not_not] at h
      rw [h, nil_append]

lemma oldestFirst_transactions {oldestFirst : List Block}
    (hperm : oldestFirst.Perm [c4, c5, c6, b2, b3, b4, b5, b6])
    (hsorted : oldestFirst.Pairwise fun b c => b.blockNum ≤ c.blockNum) :
    oldestFirst.flatMap transactions = [(7, 100), (8, 100)] := by
  have hcarry : (oldestFirst.filter fun b => decide (b.transactions ≠ [])).Perm [b2, c4] := by
    refine (hperm.filter _).trans ?_
    decide
  have heq : oldestFirst.filter (fun b => decide (b.transactions ≠ [])) = [b2, c4] := by
    refine hcarry.eq_of_pairwise ?_ (hsorted.filter _) (by decide)
    intro b c hb hc hle hge
    have hb' := hcarry.subset hb
    simp only [mem_cons, not_mem_nil, or_false] at hb' hc
    rcases hb' with rfl | rfl <;> rcases hc with rfl | rfl
    · rfl
    · exact absurd hge (by decide)
    · exact absurd hle (by decide)
    · rfl
  rw [flatMap_transactions, heq]
  decide

/-- The first blocks of the new branch shrink the fork database, which loses `c3`, so the switch cannot
be taken back when `c7` fails; `b2` to `b6` and `c4` to `c6` were popped.  The transaction of `c4` now
stands before the one of `b2`, though `b2` is the older block. -/
theorem popped_blocks_not_oldest_first :
    (∃ received, Run sampleProduction sampleGenesis received before) ∧
      before.pendingTrx = [] ∧ before.headNode.headBlockId = b6.id ∧ throws = true ∧
      (Node.after (Node.pushBlock (sampleProduction.liveRules false).toNodeRules 0 c7
        before.headNode)).poppedTx =
          [c4, c5, c6, b2, b3, b4, b5, b6].flatMap transactions ∧
      result.headNode.headBlockId = c3.id ∧
      ∀ oldestFirst : List Block, oldestFirst.Perm [c4, c5, c6, b2, b3, b4, b5, b6] →
        oldestFirst.Pairwise (fun b c => b.blockNum ≤ c.blockNum) →
        ¬ result.pendingTrx.Sublist (oldestFirst.flatMap transactions) := by
  refine ⟨run_pushAll .start _, by decide +kernel, by decide +kernel, by decide +kernel,
    by decide +kernel, by decide +kernel, ?_⟩
  intro oldestFirst hperm hsorted
  rw [oldestFirst_transactions hperm hsorted]
  decide +kernel

end LostFork

end LiveNode
end Graphene.Chain
