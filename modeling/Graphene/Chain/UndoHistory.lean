import Graphene.Chain.LiveRuns
import Graphene.Chain.Unwinding

/-!
# How far the undo history reaches

The undo stack is trimmed to a bound that `update_global_dynamic_data` sets to `head - irreversible + 1`
with the irreversible number before the block.  Popping a block takes the irreversible number back, but
not the states that were trimmed while it was higher.  What holds in every run is a bound by the highest
irreversible number among the chains of received blocks (`History`).
-/

namespace Graphene.Chain

open Lib List Node Rules Journal

section Sizes

variable {H Tx TxId W R Sched : Type} [DecidableEq H] [DecidableEq TxId] [DecidableEq W]

omit [DecidableEq W] in
lemma Node.newMaxSize_eq_some {rules : NodeRules H Tx TxId W R Sched} {s : ChainState H Tx W R}
    {b : SignedBlock H Tx} {size : Nat} (h : newMaxSize rules s b = some size) :
    b.previous = s.headBlockId ∧ size = b.blockNum - s.lastIrreversibleBlockNum + 1 := by
  unfold newMaxSize at h
  split at h
  · cases h
  · next s1 h1 =>
      split at h
      · cases h
      · next s2 h2 =>
          cases h
          simp only [applyTransactionsOf, validateBlockHeader, bind_eq_ok, check_eq_ok]
            at h1
          obtain ⟨_, -, _, ⟨_, hprev, -⟩, s0, h0, h1⟩ := h1
          cases h1
          simp only [updateGlobalDynamicData, bind_eq_ok] at h2
          obtain ⟨_, -, h2⟩ := h2
          cases h2
          rw [applyTransactions_frame h0]
          exact ⟨(of_decide_eq_true hprev).symm, rfl⟩

end Sizes

variable {Tx TxId W R Sched Res D C Sig Key : Type} [DecidableEq TxId] [DecidableEq W]
  [DecidableEq C] [DecidableEq Sig]

/-- The state is the one after a chain of received blocks, applied without the check of
signatures. -/
def Replayed (rules : ProductionRules Tx TxId W R Sched Res D C Sig Key)
    (genesis : ChainState (BlockHeader W C Sig) Tx W R)
    (received : SignedBlock (BlockHeader W C Sig) Tx → Prop)
    (s : ChainState (BlockHeader W C Sig) Tx W R) : Prop :=
  ∃ bs, (∀ b ∈ bs, received b) ∧ (rules.liveRules true).applyBlocks genesis bs = .ok s

variable {skip : Bool} {b : SignedBlock (BlockHeader W C Sig) Tx}

section Replay

variable {rules : ProductionRules Tx TxId W R Sched Res D C Sig Key}
  {genesis s s' : ChainState (BlockHeader W C Sig) Tx W R}
  {received : SignedBlock (BlockHeader W C Sig) Tx → Prop}

lemma applyBlock_skip (h : (rules.liveRules skip).applyBlock s b = .ok s') :
    (rules.liveRules true).applyBlock s b = .ok s' := by
  cases skip with
  | true => exact h
  | false =>
    simp only [applyBlock, applyTransactionsOf, bind_eq_ok] at h ⊢
    obtain ⟨s1, ⟨u, hchk, v, hhea, s0, htrxs, hmis⟩, hrest⟩ := h
    exact ⟨s1, ⟨u, hchk, v, hhea, s0, ProductionRules.applyTransactions_skip htrxs, hmis⟩,
      hrest⟩

lemma Replayed.applyBlock (h : Replayed rules genesis received s) (hb : received b)
    (happly : (rules.liveRules skip).applyBlock s b = .ok s') :
    Replayed rules genesis received s' := by
  obtain ⟨bs, hbs, hs⟩ := h
  refine ⟨bs ++ [b], ?_, ?_⟩
  · intro c hc
    rcases mem_append.1 hc with hc | hc
    · exact hbs c hc
    · rwa [mem_singleton.1 hc]
  · rw [applyBlocks_append, hs]
    change ((rules.liveRules true).applyBlock s b >>= _) = _
    rw [applyBlock_skip happly]
    rfl

/-! ## The invariant -/

/-- Above `m` the stack has a state for every block, and its bound has room for one more. -/
structure History (rules : ProductionRules Tx TxId W R Sched Res D C Sig Key)
    (genesis : ChainState (BlockHeader W C Sig) Tx W R)
    (received : SignedBlock (BlockHeader W C Sig) Tx → Prop) (m : Nat)
    (j : Journal (ChainState (BlockHeader W C Sig) Tx W R)) : Prop where
  stacked : Stacked j.current j.saved
  replayed : ∀ s ∈ j.current :: j.saved, Replayed rules genesis received s
  enough : j.current.headBlockNumber - m ≤ j.saved.length
  bound : j.current.headBlockNumber - m < j.bound

namespace History

variable {m : Nat} {j : Journal (ChainState (BlockHeader W C Sig) Tx W R)}

lemma take (h : History rules genesis received m j) {keep bound : Nat}
    (hkeep : j.current.headBlockNumber - m ≤ keep) (hbnd : j.current.headBlockNumber - m < bound) :
    History rules genesis received m ⟨j.current, j.saved.take keep, bound⟩ where
  stacked := h.stacked.take keep
  replayed := by
    intro s hs
    rcases mem_cons.1 hs with rfl | hs
    · exact h.replayed _ mem_cons_self
    · exact h.replayed s (mem_cons_of_mem _ (mem_of_mem_take hs))
  enough := by
    rw [length_take]
    exact le_min hkeep h.enough
  bound := hbnd

lemma trims {j' : Journal (ChainState (BlockHeader W C Sig) Tx W R)}
    (h : History rules genesis received m j) (htrims : Journal.Trims j j') :
    History rules genesis received m j' := by
  obtain ⟨keep, hkeep, hsaved⟩ := htrims.saved
  have hroom := h.bound
  have htake : History rules genesis received m ⟨j.current, j.saved.take keep, j'.bound⟩ :=
    h.take (by omega) (lt_of_lt_of_le hroom htrims.bound_le)
  rwa [← hsaved, ← htrims.current] at htake

variable (hm : ∀ s, Replayed rules genesis received s → s.lastIrreversibleBlockNum ≤ m)
include hm

/-- While a block is tried the bound has room: it stays at least as it was, or it is set for the
number of the block. -/
lemma sessionJournal_bound (skip : Bool) (h : History rules genesis received m j)
    (b : SignedBlock (BlockHeader W C Sig) Tx) : j.current.headBlockNumber - m <
        (sessionJournal (rules.liveRules skip).toNodeRules j b).bound ∧
      (newMaxSize (rules.liveRules skip).toNodeRules j.current b ≠ none →
        j.current.headBlockNumber + 1 - m <
          (sessionJournal (rules.liveRules skip).toNodeRules j b).bound) := by
  have hlib := hm j.current (h.replayed _ mem_cons_self)
  have hnum := h.stacked.num
  cases hsize : newMaxSize (rules.liveRules skip).toNodeRules j.current b with
  | none =>
    refine ⟨?_, fun hne => absurd rfl hne⟩
    simp only [sessionJournal, hsize]
    exact lt_of_lt_of_le h.bound (bound_le_raiseBound _ j.start)
  | some =>
    have hle := le_sessionJournal_bound hsize
    obtain ⟨hprev, heq⟩ := newMaxSize_eq_some hsize
    have hblock : b.blockNum = j.current.headBlockNumber + 1 := by
      rw [hnum, SignedBlock.blockNum, hprev]
      rfl
    exact ⟨by omega, fun _ => by omega⟩

variable {n n' : Node (BlockHeader W C Sig) Tx W R Sched}
  (h : History rules genesis received m n.journal)
include h

lemma step (hstep : Node.NodeStep (rules.liveRules skip).toNodeRules received n n') :
    History rules genesis received m n'.journal := by
  cases hstep with
  | @tried b hb =>
    obtain ⟨hbnd, hchild⟩ := h.sessionJournal_bound hm skip b
    have hkeep : n.state.headBlockNumber - m ≤ n.journal.bound := h.bound.le
    unfold Node.applyInSession
    cases happ : (rules.liveRules skip).applyBlock n.state b with
    | error =>
      have htaken := h.take hkeep hbnd
      simpa [Node.after, Node.state] using htaken
    | ok s =>
      have hap := applyBlock_ok happ
      have hsize : Node.newMaxSize (rules.liveRules skip).toNodeRules n.journal.current b = some _ :=
        newMaxSize_of_ok happ
      have hnum : s.headBlockNumber = n.journal.current.headBlockNumber + 1 := by
        rw [hap.headBlockNumber, SignedBlock.blockNum, ← hap.previous, h.stacked.num]
        rfl
      have htaken := h.take hkeep h.bound
      refine ⟨?_, ?_, ?_, ?_⟩
      · simp only [Node.after, write, sessionJournal_saved]
        exact stacked_applyBlock htaken.stacked happ
      · simp only [Node.after, write, sessionJournal_saved]
        intro t ht
        rcases mem_cons.1 ht with rfl | ht
        · exact (h.replayed _ mem_cons_self).applyBlock hb happ
        · exact htaken.replayed t ht
      · simp only [Node.after, write, sessionJournal_saved, length_cons]
        have heno := htaken.enough
        dsimp only at heno
        omega
      · simp only [Node.after, write]
        rw [hnum]
        exact hchild (by rw [hsize]; exact Option.some_ne_none _)
  | popped locals hpop =>
    obtain ⟨item, j', db, -, hj, rfl⟩ := popBlock_inv hpop
    obtain ⟨u, rest, hsaved, rfl⟩ := restore_eq_some hj
    have hsta := h.stacked
    rw [hsaved] at hsta
    have hnum : n.journal.current.headBlockNumber = u.headBlockNumber + 1 := by
      obtain ⟨x, hx⟩ := hsta.2.1
      rw [hsta.1, hx, hsta.2.2.2.num]
      rfl
    have heno := h.enough
    have hroom := h.bound
    rw [hsaved, length_cons] at heno
    refine ⟨hsta.2.2.2, ?_, ?_, ?_⟩
    · intro t ht
      exact h.replayed t (mem_cons_of_mem _ (by rw [hsaved]; exact ht))
    · dsimp only
      omega
    · dsimp only
      omega
  | stored => exact h
  | fork => exact h

lemma steps (hstp : Node.NodeSteps (rules.liveRules skip).toNodeRules received n n') :
    History rules genesis received m n'.journal := by
  induction hstp with
  | refl => exact h
  | tail _ hstep ih => exact ih.step hm hstep

end History

end Replay

/-! ## Popping blocks -/

section Popping

variable {H Tx W R Sched : Type}

/-- From the item the weak pointers lead `k` times to an item of the index. -/
def ForkDatabase.linksDown (db : ForkDatabase H Tx Sched) : Nat → ForkItem H Tx Sched → Bool
  | 0, _ => true
  | k + 1, i => db.index.any fun j => decide (i.prev = some j.addr) && linksDown db k j

variable {n : Node H Tx W R Sched} {head i j : ForkItem H Tx Sched} {db : ForkDatabase H Tx Sched}
  {heap : Heap H Tx}

lemma ForkDatabase.linksDown_congr (k : Nat) (hprev : i.prev = j.prev) :
    db.linksDown k i = db.linksDown k j := by
  cases k with
  | zero => rfl
  | succ k => simp only [linksDown, hprev]

lemma ForkDatabase.linksDown_setHead (k : Nat) :
    ForkDatabase.linksDown { db with head := some j } k i = db.linksDown k i := by
  induction k generalizing i with
  | zero => rfl
  | succ k ih => simp only [linksDown, ih]

variable [DecidableEq H]

omit [DecidableEq H] in
/-- A pointer that leads into the index is locked to an item of it. -/
lemma ForkDatabase.lockPrev_of_linksDown (hlive : db.LivesIn heap) {k : Nat}
    (hlinks : db.linksDown (k + 1) i = true) :
    ∃ j ∈ db.index, db.lockPrev [] i = some j ∧ i.prev = some j.addr ∧ db.linksDown k j = true := by
  simp only [linksDown, any_eq_true, Bool.and_eq_true, decide_eq_true_eq] at hlinks
  obtain ⟨j, hj, hprev, hdown⟩ := hlinks
  cases hfind : db.index.find? fun i => decide (i.addr = j.addr) with
  | none => exact absurd (by simp) (find?_eq_none.1 hfind j hj)
  | some j' =>
    have hmem := mem_of_find?_eq_some hfind
    have haddr : j'.addr = j.addr := by simpa using find?_some hfind
    have hold : ∀ {x}, x ∈ db.index → heap.Holds x :=
      fun hx => hlive.items _ (mem_owned.2 (.inl hx))
    -- items at one address are copies of one object
    have hsame : j.prev = j'.prev := by
      have hat : heap j.addr = some (j'.prev, j'.data) := by
        rw [← haddr]
        exact hold hmem
      have heq := (hold hj).symm.trans hat
      exact congrArg Prod.fst (Option.some.inj heq)
    refine ⟨j', hmem, ?_, by rw [haddr, hprev], ?_⟩
    · rw [lockPrev, hprev, Option.bind_some, lock, append_assoc, find?_append, hfind]
      rfl
    · rwa [← linksDown_congr k hsame]

/-- `pop_block` called `k` times, as between two operations: the database holds no item but those of
the index and the head. -/
def Node.popBlocks : Nat → NodeM H Tx W R Sched ChainError Unit
  | 0 => fun n => .ok () n
  | k + 1 => fun n =>
    match popBlock [] n with
    | .error e n => .error e n
    | .ok _ n => popBlocks k n

lemma Node.popBlock_head {u : ChainState H Tx W R} {rest : List (ChainState H Tx W R)}
    (hhead : n.forkDb.head = some head) (hid : head.id = n.headBlockId)
    (hprev : n.forkDb.lockPrev [] head = some j) (hsaved : n.journal.saved = u :: rest) :
    popBlock [] n = .ok () { n with
      journal := ⟨u, rest, n.journal.bound⟩
      forkDb := { n.forkDb with head := some j }
      poppedTx := head.data.transactions ++ n.poppedTx } := by
  simp [popBlock, hhead, hid, ForkDatabase.popBlock, hprev, Journal.restore, hsaved, Except.map]

/-- The blocks down from the head are popped one by one: the stack has a state for each of them, and
the fork database goes down with the chain. -/
lemma Node.popBlocks_ok {k : Nat} (hlive : n.forkDb.LivesIn heap)
    (hstacked : Stacked n.state n.journal.saved) (hlen : k ≤ n.journal.saved.length)
    (hhead : n.forkDb.head = some head) (hid : head.id = n.headBlockId)
    (hlinks : n.forkDb.linksDown k head = true) :
    ∃ n', popBlocks k n = .ok () n' ∧ n'.headBlockId = n.headBlockId.drop k := by
  induction k generalizing n head with
  | zero => exact ⟨n, rfl, rfl⟩
  | succ k ih =>
    obtain ⟨j, hj, hlock, hprev, hdown⟩ := ForkDatabase.lockPrev_of_linksDown hlive hlinks
    cases hsaved : n.journal.saved with
    | nil => simp [hsaved] at hlen
    | cons u rest =>
      rw [hsaved] at hstacked hlen
      obtain ⟨-, ⟨x, hx⟩, -, hrest⟩ := hstacked
      have hchain : n.headBlockId = x :: u.headBlockId := hx
      have hholds : heap.Holds j := hlive.items _ (ForkDatabase.mem_owned.2 (.inl hj))
      have hidj : j.id = u.headBlockId := by
        rw [hlive.linked.previousId (hlive.items _ (ForkDatabase.mem_owned.2 (.inr hhead))) hholds hprev]
        have htail := congrArg tail (hid.trans hchain)
        exact htail
      have hdown' : ForkDatabase.linksDown { n.forkDb with head := some j } k j = true := by
        rw [← hdown]
        exact ForkDatabase.linksDown_setHead k
      obtain ⟨n', hpops, hdrop⟩ := ih (n := { n with
          journal := ⟨u, rest, n.journal.bound⟩
          forkDb := { n.forkDb with head := some j }
          poppedTx := head.data.transactions ++ n.poppedTx })
        (hlive.setHead hholds) hrest (Nat.le_of_succ_le_succ hlen) rfl hidj hdown'
      refine ⟨n', ?_, ?_⟩
      · simp only [popBlocks, popBlock_head hhead hid hlock hsaved, hpops]
      · rw [hdrop, hchain]
        rfl

end Popping

namespace LiveNode

variable {rules : ProductionRules Tx TxId W R Sched Res D C Sig Key}
  {genesis : ChainState (BlockHeader W C Sig) Tx W R} {blocks : List (SignedBlock (BlockHeader W C Sig) Tx)}
  {l : LiveNode (BlockHeader W C Sig) Tx W R Sched Res}

lemma Run.history (hg : genesis.IsGenesis) {received : SignedBlock (BlockHeader W C Sig) Tx → Prop}
    {m : Nat} (hm : ∀ s, Replayed rules genesis received s → s.lastIrreversibleBlockNum ≤ m)
    (h : Run rules genesis blocks l) (hblo : ∀ b ∈ blocks, received b) :
    History rules genesis received m l.headJournal ∧ FedBy received l.node.forkDb := by
  induction h with
  | start =>
    refine ⟨⟨(ready_initial hg).stacked, ?_, ?_, ?_⟩, fedBy_initial received⟩
    · intro s hs
      rcases mem_cons.1 hs with rfl | hs
      · exact ⟨[], fun _ hb => absurd hb not_mem_nil, rfl⟩
      · exact absurd hs not_mem_nil
    · exact (Nat.sub_le _ _).trans hg.headBlockNumber.le
    · exact lt_of_le_of_lt ((Nat.sub_le _ _).trans hg.headBlockNumber.le) (Nat.succ_pos 9)
  | @step blocks l action hrun ih =>
    have hold : ∀ b ∈ blocks, received b := fun b hb => hblo b (mem_append_right _ hb)
    obtain ⟨hhistory, hfed⟩ := ih hold
    have hpush : ∀ b ∈ l.blocksOf rules action, PushReceived received l.headNode b :=
      fun b hb => FedBy.pushReceived hfed (hblo b (mem_append_left _ hb))
    obtain ⟨n, n', hmov⟩ := perform_moves (hrun.ready hg) hpush
    obtain ⟨skip, hstp⟩ := hmov.steps
    refine ⟨?_, ?_⟩
    · exact ((hhistory.trims hmov.before).steps hm hstp).trims hmov.session.headJournal
    · rw [hmov.forkDb_after]
      exact hmov.fed (by rw [hmov.forkDb_before]; exact hfed)

/-- As long as no chain of received blocks has a higher irreversible number than the head, there is an
undo state for every block above the last irreversible one.  While the head of the fork database is
the block at the head and its pointers lead down through the index, each of these blocks is popped. -/
theorem enough_undo_history (rules : ProductionRules Tx TxId W R Sched Res D C Sig Key)
    (hg : genesis.IsGenesis) (hrun : Run rules genesis blocks l)
    (hlib : ∀ bs s, (∀ b ∈ bs, b ∈ blocks) → (rules.liveRules true).applyBlocks genesis bs = .ok s →
      s.lastIrreversibleBlockNum ≤ l.headNode.state.lastIrreversibleBlockNum) :
    l.headNode.headBlockNum - l.headNode.state.lastIrreversibleBlockNum ≤
        l.headJournal.saved.length ∧
      ∀ head k, l.node.forkDb.head = some head → head.id = l.headNode.headBlockId →
        k ≤ l.headNode.headBlockNum - l.headNode.state.lastIrreversibleBlockNum →
        l.node.forkDb.linksDown k head = true →
        ∃ n, Node.popBlocks k l.headNode = .ok () n ∧
          n.headBlockId = l.headNode.headBlockId.drop k := by
  have hm : ∀ s, Replayed rules genesis (· ∈ blocks) s →
      s.lastIrreversibleBlockNum ≤ l.headNode.state.lastIrreversibleBlockNum := by
    rintro s ⟨bs, hbs, happly⟩
    exact hlib bs s hbs happly
  obtain ⟨hhistory, heap, hlive, -⟩ := hrun.history hg hm fun b hb => hb
  refine ⟨hhistory.enough, ?_⟩
  intro head k hhead hid hk hlinks
  exact Node.popBlocks_ok (n := l.headNode) hlive hhistory.stacked (hk.trans hhistory.enough) hhead
    hid hlinks

namespace LostHistory

open LostFork (block Live pushAll run_pushAll)

/-- Two witnesses sign four blocks, and the third one confirms them. -/
def a1 := block 1 0 [] []
def a2 := block 2 1 a1.id []
def a3 := block 3 0 a2.id []
def a4 := block 4 1 a3.id []
def a5 := block 5 2 a4.id []
def a6 := block 6 0 a5.id []

def grown : Live :=
  pushAll { node := Node.initial sampleGenesis } [a1, a2, a3, a4, a5, a6]

lemma grown_next : ∀ b ∈ [a1, a2, a3, a4, a5, a6], ∀ m ≤ 6,
    b.previous = (([a1, a2, a3, a4, a5, a6].take m).map SignedBlock.header).reverse →
      [a1, a2, a3, a4, a5, a6][m]? = some b := by
  decide +kernel

/-- The received blocks are one chain, so that they are applied in its order. -/
lemma applied_grown {bs : List LostFork.Block}
    {s : ChainState (BlockHeader Nat (List (Nat × Nat)) Unit) (Nat × Nat) Nat Unit}
    (hbs : ∀ b ∈ bs, b ∈ [a1, a2, a3, a4, a5, a6])
    (h : (sampleProduction.liveRules true).applyBlocks sampleGenesis bs = .ok s) :
    ∃ m ≤ 6, bs = [a1, a2, a3, a4, a5, a6].take m := by
  induction bs using reverseRecOn generalizing s with
  | nil => exact ⟨0, Nat.zero_le _, rfl⟩
  | append_singleton bs b ih =>
    rw [applyBlocks_append] at h
    obtain ⟨s', hs', hb⟩ := bind_eq_ok.1 h
    obtain ⟨m, hm, rfl⟩ := ih (fun c hc => hbs c (mem_append_left _ hc)) hs'
    simp only [applyBlocks, bind_eq_ok] at hb
    obtain ⟨_, hb, -⟩ := hb
    have hprev := (applyBlock_ok hb).previous
    rw [headBlockId_applyBlocks hs', show sampleGenesis.headBlockId = [] from rfl, append_nil] at hprev
    have hnext := grown_next b (hbs b (by simp)) m hm hprev.symm
    obtain ⟨hlt, -⟩ := List.getElem?_eq_some_iff.1 hnext
    exact ⟨m + 1, hlt, by rw [take_add_one, hnext]; rfl⟩

lemma lib_grown : ∀ m ≤ 6, ∀ s ∈ ((sampleProduction.liveRules true).applyBlocks sampleGenesis
    ([a1, a2, a3, a4, a5, a6].take m)).toOption, s.lastIrreversibleBlockNum ≤ 4 := by
  decide +kernel

/-- Six blocks, the fourth of them irreversible: the two above it are popped. -/
theorem enough_undo_history_grown : grown.headNode.headBlockNum = 6 ∧
      grown.headNode.state.lastIrreversibleBlockNum = 4 ∧
      ∃ n, Node.popBlocks 2 grown.headNode = .ok () n ∧ n.headBlockId = a4.id := by
  have hnum : grown.headNode.headBlockNum = 6 := by decide +kernel
  have hlib : grown.headNode.state.lastIrreversibleBlockNum = 4 := by decide +kernel
  have hrun : Run sampleProduction sampleGenesis [a6, a5, a4, a3, a2, a1] grown :=
    .step (.pushBlock 0 a6) (.step (.pushBlock 0 a5) (.step (.pushBlock 0 a4)
      (.step (.pushBlock 0 a3) (.step (.pushBlock 0 a2) (.step (.pushBlock 0 a1) .start)))))
  have hpops := (enough_undo_history sampleProduction sampleGenesis_isGenesis hrun ?_).2
  · obtain ⟨head, hhead⟩ : ∃ head, grown.node.forkDb.head = some head :=
      Option.isSome_iff_exists.1 (by decide +kernel)
    have hat : grown.node.forkDb.head.all (fun head => decide (head.id = grown.headNode.headBlockId) &&
        grown.node.forkDb.linksDown 2 head) = true := by decide +kernel
    simp only [hhead, Option.all_some, Bool.and_eq_true, decide_eq_true_eq] at hat
    refine ⟨hnum, hlib, ?_⟩
    obtain ⟨n, hn, hid⟩ := hpops head 2 hhead hat.1 (by rw [hnum, hlib]) hat.2
    exact ⟨n, hn, hid.trans (by decide +kernel)⟩
  · intro bs s hbs happly
    obtain ⟨m, hm, rfl⟩ := applied_grown (fun b hb => by have := hbs b hb; simp at this ⊢; tauto) happly
    rw [hlib]
    exact lib_grown m hm s (by rw [happly]; rfl)

def b5 := block 15 0 a4.id []
def b6 := block 16 1 b5.id []
def b7 := block 17 0 b6.id []

def confirmed : Live :=
  grown.perform sampleProduction (.pushTransaction (1, 100))

def switched : Live :=
  pushAll confirmed [b5, b6, b7]

/-- Block 4 is irreversible and stays in the chain.  The pending transaction makes the stack trim to
three states, and after the switch only four are left, though no block is irreversible in the state of
the new branch. -/
theorem undo_history_too_short : (∃ received, Run sampleProduction sampleGenesis received switched) ∧
      confirmed.headNode.headBlockId = a6.id ∧
      confirmed.headNode.state.lastIrreversibleBlockNum = 4 ∧
      confirmed.headJournal.saved.length = 3 ∧
      switched.headNode.headBlockId = b7.id ∧ switched.headNode.headBlockNum = 7 ∧
      switched.headNode.state.lastIrreversibleBlockNum = 0 ∧ switched.headJournal.saved.length = 4 ∧
      (restoreN 5 switched.headJournal).isNone = true := by
  refine ⟨?_, by decide +kernel, by decide +kernel, by decide +kernel, by decide +kernel,
    by decide +kernel, by decide +kernel, by decide +kernel, by decide +kernel⟩
  obtain ⟨received, hrun⟩ := run_pushAll .start [a1, a2, a3, a4, a5, a6]
  exact run_pushAll (Run.step (.pushTransaction (1, 100)) hrun) [b5, b6, b7]

end LostHistory

end LiveNode
end Graphene.Chain
