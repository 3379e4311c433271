import Graphene.Chain.Replay
import Graphene.Chain.UndoHistory

/-!
# Nodes agree on the state

Forks, failed calls, pending transactions and blocks of its own leave no trace in the state of a node: at
head it is the state that plain application of the main chain gives.  The id of the head names this
chain, so two nodes with the same head block have the same state.
-/

namespace Graphene.Chain

open Lib List

/-- No block above the head is confirmed or irreversible. -/
structure UpToHead {H Tx W R : Type} (s : ChainState H Tx W R) : Prop where
  number : s.headBlockNumber = s.headBlockId.length
  confirmed : ∀ w, s.lastConfirmedBlockNum w ≤ s.headBlockNumber
  irreversible : s.lastIrreversibleBlockNum ≤ s.headBlockNumber

namespace Rules

variable {H Tx TxId W R : Type} [DecidableEq H] [DecidableEq TxId] [DecidableEq W]
  {rules : Rules H Tx TxId W R} {genesis s s' : ChainState H Tx W R} {b : SignedBlock H Tx}
  {bs : List (SignedBlock H Tx)}

omit [DecidableEq H] [DecidableEq W] in
lemma updateLastIrreversibleBlock_le {num : Nat} (hconf : ∀ w, s.lastConfirmedBlockNum w ≤ num)
    (hlib : s.lastIrreversibleBlockNum ≤ num) :
    (updateLastIrreversibleBlock s).lastIrreversibleBlockNum ≤ num := by
  unfold updateLastIrreversibleBlock
  cases hv : confirmedBySupermajority s with
  | none => exact hlib
  | some =>
    obtain ⟨w, -, rfl⟩ := mem_map.1 ((mem_insertionSort _).1 (mem_of_getElem? hv))
    dsimp only
    split_ifs
    · exact hconf w
    · exact hlib

lemma upToHead_applyBlock (hs : UpToHead s) (h : rules.applyBlock s b = .ok s') : UpToHead s' := by
  have hap := applyBlock_ok h
  have hnum : s.headBlockNumber ≤ b.blockNum := by
    rw [hs.number, hap.previous]
    exact Nat.le_succ _
  have hconf : ∀ w, (rules.confirmedBy s b).lastConfirmedBlockNum w ≤ b.blockNum := by
    intro w
    rcases eq_or_ne w (rules.witness b.header) with rfl | hne
    · exact (Function.update_self ..).le
    · exact (Function.update_of_ne hne ..).le.trans ((hs.confirmed w).trans hnum)
  refine ⟨?_, ?_, ?_⟩
  · rw [hap.headBlockNumber, hap.headBlockId]
    rfl
  · rwa [hap.lastConfirmed, hap.headBlockNumber]
  · rw [hap.irreversible, hap.headBlockNumber]
    exact updateLastIrreversibleBlock_le hconf (hs.irreversible.trans hnum)

lemma upToHead_applyBlocks (hs : UpToHead s) (h : rules.applyBlocks s bs = .ok s') :
    UpToHead s' := by
  induction bs generalizing s with
  | nil =>
    cases h
    exact hs
  | cons b bs ih =>
    simp only [applyBlocks, bind_eq_ok] at h
    obtain ⟨s1, h1, h⟩ := h
    exact ih (upToHead_applyBlock hs h1) h

lemma applyBlocks_concat (h : rules.applyBlocks genesis (bs ++ [b]) = .ok s) :
    ∃ s1, rules.applyBlocks genesis bs = .ok s1 ∧ s1.headBlockId = b.previous ∧
      s.headBlockId = b.id := by
  rw [applyBlocks_append, bind_eq_ok] at h
  obtain ⟨s1, h1, h2⟩ := h
  simp only [applyBlocks, bind_eq_ok] at h2
  obtain ⟨s2, h2, h3⟩ := h2
  cases h3
  exact ⟨s1, h1, (applyBlock_ok h2).previous, (applyBlock_ok h2).headBlockId⟩

/-- The id of the head names the chain, when no two of the blocks have the same id. -/
lemma applyBlocks_unique (hg : genesis.headBlockId = []) {bs' : List (SignedBlock H Tx)}
    (hbinds : ∀ b ∈ bs, ∀ b' ∈ bs', b.id = b'.id → b = b')
    (h : rules.applyBlocks genesis bs = .ok s) (h' : rules.applyBlocks genesis bs' = .ok s')
    (hid : s.headBlockId = s'.headBlockId) : bs = bs' := by
  -- along the previous ids, from the heads down to genesis
  induction bs using List.reverseRecOn generalizing bs' s s' with
  | nil =>
    cases h
    rcases eq_nil_or_concat' bs' with rfl | ⟨cs', b', rfl⟩
    · rfl
    · obtain ⟨_, -, -, hb'⟩ := applyBlocks_concat h'
      rw [hg, hb'] at hid
      cases hid
  | append_singleton cs b ih =>
    obtain ⟨t, ht, hprev, hb⟩ := applyBlocks_concat h
    rcases eq_nil_or_concat' bs' with rfl | ⟨cs', b', rfl⟩
    · cases h'
      rw [hg, hb] at hid
      cases hid
    · obtain ⟨t', ht', hprev', hb'⟩ := applyBlocks_concat h'
      obtain rfl : b = b' := hbinds b (by simp) b' (by simp) (by rw [← hb, ← hb', hid])
      rw [ih (fun c hc c' hc' => hbinds c (mem_append_left _ hc) c' (mem_append_left _ hc')) ht ht'
        (hprev.trans hprev'.symm)]

end Rules

namespace LiveNode

variable {Tx TxId W R Sched Res D C Sig Key : Type} [DecidableEq TxId] [DecidableEq W]
  [DecidableEq C] [DecidableEq Sig] {genesis : ChainState (BlockHeader W C Sig) Tx W R}
  {blocks blocks' : List (SignedBlock (BlockHeader W C Sig) Tx)}
  {l l' : LiveNode (BlockHeader W C Sig) Tx W R Sched Res}

lemma Run.replayed {rules : ProductionRules Tx TxId W R Sched Res D C Sig Key}
    (hg : genesis.IsGenesis) (h : Run rules genesis blocks l) :
    Replayed rules genesis (· ∈ blocks) l.headNode.state ∧ UpToHead l.headNode.state := by
  have hstart : UpToHead genesis :=
    ⟨by rw [hg.headBlockNumber, hg.headBlockId]; rfl, fun w => by simp [hg.lastConfirmedBlockNum],
      by simp [hg.lastIrreversibleBlockNum]⟩
  -- the irreversible numbers of all chains of received blocks are bounded
  have hm : ∀ s, Replayed rules genesis (· ∈ blocks) s →
      s.lastIrreversibleBlockNum ≤ (blocks.map SignedBlock.blockNum).sum := by
    rintro s ⟨bs, hbs, happly⟩
    have hup := Rules.upToHead_applyBlocks hstart happly
    refine hup.irreversible.trans ?_
    rcases eq_nil_or_concat' bs with rfl | ⟨cs, b, rfl⟩
    · cases happly
      exact hg.headBlockNumber.le.trans (Nat.zero_le _)
    · obtain ⟨_, -, -, hid⟩ := Rules.applyBlocks_concat happly
      rw [hup.number, hid]
      exact single_le_sum (by simp) _ (mem_map_of_mem (hbs b (by simp)))
  obtain ⟨bs, hbs, happly⟩ := (h.history hg hm fun _ hb => hb).1.replayed _ mem_cons_self
  exact ⟨⟨bs, hbs, happly⟩, Rules.upToHead_applyBlocks hstart happly⟩

/-- Two nodes that have taken any calls in any order: when they have the same head block, they came there
by the same chain of blocks, which both received, and have the same state. -/
theorem same_head_same_state (rules : ProductionRules Tx TxId W R Sched Res D C Sig Key)
    (hg : genesis.IsGenesis) (hbinds : ∀ b ∈ blocks, ∀ b' ∈ blocks', b.id = b'.id → b = b')
    (hrun : Run rules genesis blocks l) (hrun' : Run rules genesis blocks' l')
    (hid : l.headNode.headBlockId = l'.headNode.headBlockId) :
    l.headNode.state = l'.headNode.state ∧ ∃ bs, (∀ b ∈ bs, b ∈ blocks ∧ b ∈ blocks') ∧
      (rules.liveRules true).applyBlocks genesis bs = .ok l.headNode.state := by
  obtain ⟨bs, hbs, happly⟩ := (hrun.replayed hg).1
  obtain ⟨bs', hbs', happly'⟩ := (hrun'.replayed hg).1
  obtain rfl : bs = bs' := Rules.applyBlocks_unique hg.headBlockId
    (fun b hb b' hb' => hbinds b (hbs b hb) b' (hbs' b' hb')) happly happly' hid
  refine ⟨?_, bs, fun b hb => ⟨hbs b hb, hbs' b hb⟩, happly⟩
  rw [happly] at happly'
  exact Except.ok.inj happly'

namespace LostFork

def direct : Live :=
  pushAll { node := Node.initial sampleGenesis } [a1, b2, b3]

/-- The other node was on a fork, and took `b2` and `b3` by a switch. -/
def detour : Live :=
  pushAll { node := Node.initial sampleGenesis } [a1, c2, b2, b3]

lemma run_detour : Run sampleProduction sampleGenesis [b3, b2, c2, a1] detour :=
  .step (.pushBlock 0 b3) (.step (.pushBlock 0 b2) (.step (.pushBlock 0 c2)
    (.step (.pushBlock 0 a1) .start)))

theorem same_head_same_state_detour : detour.headNode.headBlockId = b3.id ∧
    direct.headNode.state = detour.headNode.state := by
  have hrun : Run sampleProduction sampleGenesis [b3, b2, a1] direct :=
    .step (.pushBlock 0 b3) (.step (.pushBlock 0 b2) (.step (.pushBlock 0 a1) .start))
  refine ⟨by decide +kernel, ?_⟩
  exact (same_head_same_state sampleProduction sampleGenesis_isGenesis (by decide +kernel) hrun run_detour
    (by decide +kernel)).1

end LostFork

/-- Whatever calls a node has taken, no block above its head is irreversible and no witness has confirmed
one. -/
theorem irreversible_up_to_head (rules : ProductionRules Tx TxId W R Sched Res D C Sig Key)
    (hg : genesis.IsGenesis) (hrun : Run rules genesis blocks l) :
    l.headNode.state.lastIrreversibleBlockNum ≤ l.headNode.headBlockNum ∧
      ∀ w, l.headNode.state.lastConfirmedBlockNum w ≤ l.headNode.headBlockNum :=
  ⟨(hrun.replayed hg).2.irreversible, (hrun.replayed hg).2.confirmed⟩

theorem irreversible_up_to_head_detour : LostFork.detour.headNode.headBlockNum = 3 ∧
    LostFork.detour.headNode.state.lastIrreversibleBlockNum ≤ LostFork.detour.headNode.headBlockNum :=
  ⟨by decide +kernel, (irreversible_up_to_head sampleProduction sampleGenesis_isGenesis
    LostFork.run_detour).1⟩

/-- However often a node has switched forks, no transaction is on its chain twice, and none that is on the
chain can be applied again, also without its signatures. -/
theorem no_replay_on_chain (rules : ProductionRules Tx TxId W R Sched Res D C Sig Key)
    (hg : genesis.IsGenesis) (hexp : ∀ t t', rules.base.txId t = rules.base.txId t' →
      rules.base.expiration t = rules.base.expiration t') (hrun : Run rules genesis blocks l) :
    ∃ bs, (∀ b ∈ bs, b ∈ blocks) ∧
      (rules.liveRules true).applyBlocks genesis bs = .ok l.headNode.state ∧
      ((bs.flatMap (·.transactions)).map rules.base.txId).Nodup ∧
      ∀ t s', rules.base.txId t ∈ (bs.flatMap (·.transactions)).map rules.base.txId →
        (rules.liveRules true).applyTransaction l.headNode.state t ≠ .ok s' := by
  obtain ⟨bs, hbs, happly⟩ := (hrun.replayed hg).1
  have hstart : (rules.liveRules true).Remembers genesis [] := ⟨by simp, by simp⟩
  obtain ⟨all, hperm, hall⟩ := hstart.applyBlocks (by exact hexp) happly
  rw [append_nil] at hperm
  refine ⟨bs, hbs, happly, (hperm.map _).nodup_iff.1 hall.nodup, fun t s' ht hok => ?_⟩
  have hnew := (nodup_cons.1 (hall.applyTransaction (by exact hexp) hok).nodup).1
  exact hnew ((hperm.map _).mem_iff.2 ht)

theorem no_replay_on_chain_detour : ∃ bs, (sampleProduction.liveRules true).applyBlocks sampleGenesis bs =
      .ok LostFork.detour.headNode.state ∧
    ((bs.flatMap (·.transactions)).map sampleProduction.base.txId).Nodup := by
  obtain ⟨bs, -, happly, hnodup, -⟩ := no_replay_on_chain sampleProduction sampleGenesis_isGenesis
    (fun _ _ h => congrArg Prod.snd h) LostFork.run_detour
  exact ⟨bs, happly, hnodup⟩

end LiveNode
end Graphene.Chain
