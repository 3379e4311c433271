import Graphene.Chain.Unwinding

/-!
# Irreversible blocks

A fork switch must not drop an irreversible block, and must not take the last irreversible number back.
Nothing in `push_block` checks this: the windows of the undo stack and of the fork database are set
from the number before the block updates it.  `SwitchRespects` says which switches keep irreversible
blocks.
-/

namespace Graphene.Chain

open Lib List

variable {H Tx TxId W R Sched : Type} [DecidableEq H] [DecidableEq TxId] [DecidableEq W]

/-! ## The supermajority -/

variable {s : ChainState H Tx W R} {num : Nat} {s' : ChainState H Tx W R}
  {bs : List (SignedBlock H Tx)}

namespace Rules

variable {rules : Rules H Tx TxId W R}

variable {l : List Nat}

lemma le_getElem_iff (h : l.Pairwise (· ≤ ·)) {k bound : Nat} (hk : k < l.length) :
    bound ≤ l[k] ↔ l.countP (· < bound) ≤ k := by
  induction l generalizing k with
  | nil => cases hk
  | cons a l ih =>
    obtain ⟨ha, hl⟩ := pairwise_cons.1 h
    by_cases hab : a < bound
    · cases k with
      | zero => simp [hab]
      | succ k => simpa [hab] using ih hl (by simpa using hk)
    · -- no element is below the bound
      have hall : ∀ x ∈ a :: l, bound ≤ x := by
        rintro x (_ | ⟨_, hx⟩)
        · exact not_lt.1 hab
        · exact (not_lt.1 hab).trans (ha x hx)
      have hnone : (a :: l).countP (· < bound) = 0 := by simpa [countP_eq_zero] using hall
      simp [hnone, hall _ (getElem_mem hk)]

lemma exists_nthElement {k : Nat} (hk : k < l.length) :
    ∃ v ∈ l, nthElement l k = some v ∧ ∀ bound, bound ≤ v ↔ l.countP (· < bound) ≤ k := by
  have hperm : (l.insertionSort (· ≤ ·)).Perm l := perm_insertionSort _ l
  have hlen : k < (l.insertionSort (· ≤ ·)).length := by rwa [hperm.length_eq]
  refine ⟨_, hperm.mem_iff.1 (getElem_mem hlen), getElem?_eq_getElem hlen, fun bound => ?_⟩
  rw [le_getElem_iff (pairwise_insertionSort _ l) hlen, hperm.countP_eq]

/-- All but the tolerated share of the active witnesses have confirmed a block numbered at least
`num`. -/
def SupermajorityConfirmed (s : ChainState H Tx W R) (num : Nat) : Prop :=
  s.activeWitnesses ≠ [] ∧
    (s.activeWitnesses.filter fun w => decide (s.lastConfirmedBlockNum w < num)).length ≤
      irreversibleOffset s.activeWitnesses.length

section

omit [DecidableEq H] [DecidableEq W]

lemma exists_confirmedBySupermajority (h : s.activeWitnesses ≠ []) :
    ∃ v, confirmedBySupermajority s = some v ∧ (∃ w ∈ s.activeWitnesses, s.lastConfirmedBlockNum w = v) ∧
      ∀ num, num ≤ v ↔ SupermajorityConfirmed s num := by
  have hpos : 0 < s.activeWitnesses.length := length_pos_iff.2 h
  have hoff : irreversibleOffset s.activeWitnesses.length
      < (s.activeWitnesses.map s.lastConfirmedBlockNum).length := by
    unfold irreversibleOffset graphene100Percent grapheneIrreversibleThreshold graphene100Percent
    rw [length_map]
    omega
  obtain ⟨v, hmem, hv, hiff⟩ := exists_nthElement hoff
  refine ⟨v, hv, mem_map.1 hmem, fun num => ?_⟩
  rw [hiff, SupermajorityConfirmed, countP_map, countP_eq_length_filter]
  exact (and_iff_right h).symm

lemma SupermajorityConfirmed.le_updateLastIrreversibleBlock (h : SupermajorityConfirmed s num) :
    num ≤ (updateLastIrreversibleBlock s).lastIrreversibleBlockNum := by
  obtain ⟨v, hv, -, hiff⟩ := exists_confirmedBySupermajority h.1
  have hle := (hiff num).2 h
  unfold updateLastIrreversibleBlock
  rw [hv]
  dsimp only
  split_ifs with hlt
  · exact hle
  · exact hle.trans (not_lt.1 hlt)

/-- The last irreversible block number does not decrease.  When it is raised to `v`, then `v` is not above
the head, and 70 percent of the active witnesses have confirmed `v`, but no greater number. -/
theorem last_irreversible_by_supermajority {s : ChainState H Tx W R} (hw : s.activeWitnesses ≠ [])
    (hconf : ∀ w ∈ s.activeWitnesses, s.lastConfirmedBlockNum w ≤ s.headBlockNumber) :
    let v := (updateLastIrreversibleBlock s).lastIrreversibleBlockNum
    s.lastIrreversibleBlockNum ≤ v ∧ (s.lastIrreversibleBlockNum < v → v ≤ s.headBlockNumber ∧
      ∀ num, num ≤ v ↔ s.activeWitnesses.length - 3 * s.activeWitnesses.length / 10 ≤
        s.activeWitnesses.countP (num ≤ s.lastConfirmedBlockNum ·)) := by
  refine ⟨Rules.le_updateLastIrreversibleBlock s, ?_⟩
  obtain ⟨_, hv, ⟨w, hmem, rfl⟩, hiff⟩ := exists_confirmedBySupermajority hw
  unfold updateLastIrreversibleBlock
  rw [hv]
  dsimp only
  split_ifs with hraise
  · refine fun _ => ⟨hconf w hmem, fun num => ?_⟩
    -- the offset bounds the number of witnesses that have not confirmed `num`
    have hsplit := length_eq_countP_add_countP (num ≤ s.lastConfirmedBlockNum ·) (l := s.activeWitnesses)
    simp only [decide_eq_true_eq, not_le] at hsplit
    rw [hiff, SupermajorityConfirmed, and_iff_right hw, ← countP_eq_length_filter]
    unfold irreversibleOffset graphene100Percent grapheneIrreversibleThreshold graphene100Percent
    omega
  · exact fun h => absurd h (lt_irrefl _)

end

/-- Three witnesses of ten have confirmed block 1 and the others block 2. -/
def tenWitnesses : ChainState Unit Unit Nat Unit where
  headBlockId := [(), ()]
  headBlockNumber := 2
  time := 10
  lastIrreversibleBlockNum := 1
  activeWitnesses := range 10
  lastConfirmedBlockNum := fun w => if w < 3 then 1 else 2
  transactionIndex := []
  rest := ()

theorem last_irreversible_by_supermajority_tenWitnesses :
    (updateLastIrreversibleBlock tenWitnesses).lastIrreversibleBlockNum = 2 ∧
      2 ≤ tenWitnesses.headBlockNumber :=
  ⟨by decide, ((last_irreversible_by_supermajority (s := tenWitnesses) (by decide) (by decide)).2
    (by decide)).1⟩

lemma lib_le_applyBlocks (h : rules.applyBlocks s bs = .ok s') :
    s.lastIrreversibleBlockNum ≤ s'.lastIrreversibleBlockNum := by
  induction bs generalizing s with
  | nil =>
    cases h
    exact le_rfl
  | cons b bs ih =>
    simp only [applyBlocks, bind_eq_ok] at h
    obtain ⟨s1, h1, h⟩ := h
    exact (lib_le_applyBlock h1).trans (ih h)

/-- Some block of a branch on top of `s` brings the confirmations to `num`. -/
def Reconfirms (rules : Rules H Tx TxId W R) (num : Nat) (s : ChainState H Tx W R)
    (bs : List (SignedBlock H Tx)) : Prop :=
  ∃ before b rest s1, bs = before ++ b :: rest ∧ rules.applyBlocks s before = .ok s1 ∧
    SupermajorityConfirmed (rules.confirmedBy s1 b) num

lemma Reconfirms.le_lib (h : rules.Reconfirms num s bs) (happly : rules.applyBlocks s bs = .ok s') :
    num ≤ s'.lastIrreversibleBlockNum := by
  obtain ⟨before, b, rest, s1, rfl, hbef, hconf⟩ := h
  rw [applyBlocks_append, hbef] at happly
  simp only [applyBlocks, bind_eq_ok] at happly
  obtain ⟨_, hs1, s2, h2, hrest⟩ := happly
  cases hs1
  calc num ≤ (updateLastIrreversibleBlock (rules.confirmedBy s1 b)).lastIrreversibleBlockNum :=
        hconf.le_updateLastIrreversibleBlock
    _ = s2.lastIrreversibleBlockNum := (applyBlock_ok h2).irreversible.symm
    _ ≤ s'.lastIrreversibleBlockNum := lib_le_applyBlocks hrest

end Rules

/-- The chain contains the block `base`, the last irreversible block number is at least `num`, and
so it is in every saved state that has the block. -/
structure StaysAbove (base : BlockId H) (num : Nat) (j : Journal (ChainState H Tx W R)) : Prop where
  chain : base <:+ j.current.headBlockId
  current : num ≤ j.current.lastIrreversibleBlockNum
  saved : ∀ u ∈ j.saved, base <:+ u.headBlockId → num ≤ u.lastIrreversibleBlockNum

variable {base : BlockId H} {n : Node H Tx W R Sched} {rules : Rules H Tx TxId W R}
  {n' : Node H Tx W R Sched}

lemma StaysAbove.step {j j' : Journal (ChainState H Tx W R)} (h : JournalStep rules base j j')
    (hs : Stacked j.current j.saved) (ha : StaysAbove base num j) : StaysAbove base num j' := by
  cases h with
  | @applied b s bound happ =>
    have hb := Rules.applyBlock_ok happ
    refine ⟨?_, ha.current.trans (Rules.lib_le_applyBlock happ), ?_⟩
    · rw [hb.headBlockId, SignedBlock.id, ← hb.previous]
      exact ha.chain.trans (suffix_cons _ _)
    · intro u hu hbase
      rcases mem_cons.1 hu with rfl | hu
      · exact ha.current
      · exact ha.saved u (mem_of_mem_take hu) hbase
  | dropped => exact ⟨ha.chain, ha.current, fun u hu hbase => ha.saved u (mem_of_mem_take hu) hbase⟩
  | popped hpop hne =>
    unfold Journal.restore at hpop
    cases hsaved : j.saved with
    | nil => simp [hsaved] at hpop
    | cons u =>
      simp only [hsaved, Option.some.injEq] at hpop
      rw [hsaved] at hs
      obtain ⟨x, hx⟩ := hs.2.1
      -- the chain is longer than the base, so the block below contains it too
      have hbel : base <:+ u.headBlockId := by
        have hchn := ha.chain
        rw [hx] at hchn hne
        exact (suffix_cons_iff.1 hchn).resolve_left (fun heq => hne heq.symm)
      rw [← hpop]
      refine ⟨hbel, ha.saved u (by simp [hsaved]) hbel, ?_⟩
      intro v hv hbase
      exact ha.saved v (by simp [hsaved, hv]) hbase

lemma StaysAbove.steps {j j' : Journal (ChainState H Tx W R)}
    (h : Relation.ReflTransGen (JournalStep rules base) j j') (hs : Stacked j.current j.saved)
    (ha : StaysAbove base num j) : StaysAbove base num j' := by
  induction h with
  | refl => exact ha
  | tail hstp hstep ih => exact ih.step hstep (hs.steps hstp)

namespace Node

variable {rules : NodeRules H Tx TxId W R Sched}

/-! ## Calls -/

/-- Irreversible blocks stay on the chain, and the last irreversible block number does not
decrease. -/
structure Respects (n n' : Node H Tx W R Sched) : Prop where
  lib : n.state.lastIrreversibleBlockNum ≤ n'.state.lastIrreversibleBlockNum
  blocks : ∀ id, id <:+ n.headBlockId → numFromId id ≤ n.state.lastIrreversibleBlockNum →
    id <:+ n'.headBlockId

section

omit [DecidableEq H] [DecidableEq W]

lemma Respects.refl (n : Node H Tx W R Sched) : Respects n n := ⟨le_rfl, fun _ h _ => h⟩

lemma Respects.trans {n1 n2 n3 : Node H Tx W R Sched} (h1 : Respects n1 n2)
    (h2 : Respects n2 n3) : Respects n1 n3 :=
  ⟨h1.lib.trans h2.lib, fun id hid hnum => h2.blocks id (h1.blocks id hid hnum) (hnum.trans h1.lib)⟩

lemma Respects.of_state (h : n'.state = n.state) : Respects n n' := by
  refine ⟨by rw [h], ?_⟩
  intro id hid _
  change id <:+ n'.state.headBlockId
  rwa [h]

lemma Respects.of_base (hbase : base <:+ n.headBlockId)
    (hle : n.state.lastIrreversibleBlockNum ≤ base.length) (hbase' : base <:+ n'.headBlockId)
    (hlib : n.state.lastIrreversibleBlockNum ≤ n'.state.lastIrreversibleBlockNum) :
    Respects n n' := by
  refine ⟨hlib, ?_⟩
  intro id hid hnum
  exact (suffix_of_suffix_length_le hid hbase (hnum.trans hle)).trans hbase'

end

/-- When a fork switch keeps what is irreversible. -/
inductive SwitchRespects (rules : NodeRules H Tx TxId W R Sched) (n : Node H Tx W R Sched)
    (newHead : ForkItem H Tx Sched) (first second : List (ForkItem H Tx Sched)) : Prop
  /-- the fork point is not below the last irreversible block, whose number has not changed since -/
  | unchanged
      (hle : n.state.lastIrreversibleBlockNum ≤ n.headBlockId.length - second.length)
      (hsame : ∀ u ∈ n.journal.saved, n.headBlockId.drop second.length <:+ u.headBlockId →
        u.lastIrreversibleBlockNum = n.state.lastIrreversibleBlockNum)
  /-- the fork point is not below the last irreversible block, and the new branch applies and
  confirms it again -/
  | reconfirmed {u s : ChainState H Tx W R}
      (hle : n.state.lastIrreversibleBlockNum ≤ n.headBlockId.length - second.length)
      (hsaved : (n.state :: n.journal.saved)[second.length]? = some u)
      (happly : rules.applyBlocks u (first.reverse.map ForkItem.data) = .ok s)
      (hconf : rules.Reconfirms n.state.lastIrreversibleBlockNum u
        (first.reverse.map ForkItem.data))
  /-- the new branch fails and the switch is unwound -/
  | unwound {u : ChainState H Tx W R}
      (hsaved : (n.state :: n.journal.saved)[second.length]? = some u)
      (hfails : ∀ s, rules.applyBlocks u (first.reverse.map ForkItem.data) ≠ .ok s)
      (hbranch : ¬ n.headBlockId <:+ newHead.id)
      (hun : Unwindable rules n.state u newHead.num first second)

/-- What a call of `push_block` has to meet to keep what is irreversible. -/
def StepRespects (rules : NodeRules H Tx TxId W R Sched) (n : Node H Tx W R Sched)
    (p : Push H Tx) : Prop :=
  ∀ newHead db first second, SwitchTried rules n p newHead db →
    db.fetchBranchFrom newHead.id n.headBlockId = .ok (first, second) →
    SwitchRespects rules n newHead first second

variable {p : Push H Tx}

lemma step_respects_of_no_switch (hn : n.Valid)
    (h : ∀ newHead db first second, SwitchTried rules n p newHead db →
      db.fetchBranchFrom newHead.id n.headBlockId ≠ .ok (first, second)) :
    Respects n (n.step rules p).2 := by
  have hstp := (step_evolves n.headBlockId p rules
    (fun htried hfet => absurd hfet (h _ _ _ _ htried)) hn).1
  have hsta : StaysAbove n.headBlockId n.state.lastIrreversibleBlockNum n.journal := by
    refine ⟨suffix_refl _, le_rfl, ?_⟩
    -- no saved state has the head block
    intro u hu hbase
    obtain ⟨k, hk⟩ := mem_iff_getElem?.1 hu
    have hid := (hn.stacked.ancestor (k := k + 1) hk).2
    have hlen := hbase.length_le
    have hfuel := hn.stacked.length_le
    have hlt : k < n.journal.saved.length := (List.getElem?_eq_some_iff.1 hk).1
    rw [hid, length_drop] at hlen
    change n.state.headBlockId.length ≤ _ at hlen
    omega
  have hend := hsta.steps hstp hn.stacked
  exact ⟨hend.current, fun id hid _ => hid.trans hend.chain⟩

lemma step_state : (n.step rules p).2.state = (after (pushBlock rules p.now p.block n)).state := by
  unfold step
  cases pushBlock rules p.now p.block n <;> rfl

/-- A call whose switch, if there is one, respects what is irreversible. -/
theorem step_respects (hn : n.Valid) (h : StepRespects rules n p) :
    Respects n (n.step rules p).2 := by
  by_cases hswi : ∃ newHead db first second, SwitchTried rules n p newHead db ∧
      db.fetchBranchFrom newHead.id n.headBlockId = .ok (first, second)
  · obtain ⟨newHead, db, first, second, htried, hfet⟩ := hswi
    have hsuf : n.headBlockId.drop second.length <:+ n.headBlockId := drop_suffix _ _
    cases h newHead db first second htried hfet with
    | unchanged hle hsame =>
      -- no state down to the fork point has a smaller number
      have hstp := (step_evolves (n.headBlockId.drop second.length) p rules (by
        intro newHead' db' first' second' htried' hfet'
        have heq := htried.pushed.symm.trans htried'.pushed
        cases heq
        rw [hfet] at hfet'
        cases hfet'
        rfl) hn).1
      have hsta : StaysAbove (n.headBlockId.drop second.length)
          n.state.lastIrreversibleBlockNum n.journal :=
        ⟨hsuf, le_rfl, fun u hu hbase => (hsame u hu hbase).ge⟩
      have hend := hsta.steps hstp hn.stacked
      exact .of_base hsuf (by rwa [length_drop]) hend.chain hend.current
    | @reconfirmed u s hle hsaved happly hconf =>
      obtain ⟨heap, hf⟩ := htried.forked hn hfet hsaved
      obtain ⟨front, -, heq⟩ := switchForks_eq rules hf.lives hfet
      obtain ⟨-, n', -, hok, hst⟩ := hf.switchTo_ok front happly
      have hnode : (n.step rules p).2.state = s := by
        rwa [step_state, htried.pushBlock_eq, heq, hok]
      have hid : s.headBlockId = newHead.id := hf.headBlockId_done (append_nil _).symm happly
      refine .of_base hsuf (by rwa [length_drop]) ?_ ?_
      · change _ <:+ (n.step rules p).2.state.headBlockId
        have hmeet := hf.branches.meet
        rw [hnode, hid]
        change newHead.id.drop first.length = n.headBlockId.drop second.length at hmeet
        rw [← hmeet]
        exact drop_suffix _ _
      · rw [hnode]
        exact hconf.le_lib happly
    | @unwound u hsaved hfails hbranch hun =>
      obtain ⟨heap, hf⟩ := htried.forked hn hfet hsaved
      obtain ⟨front, hfrt, heq⟩ := switchForks_eq rules hf.lives hfet
      rcases hf.switchTo_unwinds hbranch hun hfails hfrt with
        ⟨e, done, invalid, popped, popped2, n2, n', hunw⟩
      apply Respects.of_state
      rw [step_state, htried.pushBlock_eq, heq, hunw.thrown]
      exact hunw.state
  · refine step_respects_of_no_switch hn ?_
    intro newHead db first second htried hfet
    exact hswi ⟨newHead, db, first, second, htried, hfet⟩

def RunRespects (rules : NodeRules H Tx TxId W R Sched) :
    Node H Tx W R Sched → List (Push H Tx) → Prop
  | _, [] => True
  | n, p :: ps => StepRespects rules n p ∧ RunRespects rules (n.step rules p).2 ps

lemma run_valid (rules : NodeRules H Tx TxId W R Sched) (hn : n.Valid) (ps : List (Push H Tx)) :
    (n.run rules ps).Valid := by
  induction ps generalizing n with
  | nil => exact hn
  | cons p ps ih => exact ih (step_valid rules hn)

lemma run_respects (hn : n.Valid) {ps : List (Push H Tx)} (h : RunRespects rules n ps) :
    Respects n (n.run rules ps) := by
  induction ps generalizing n with
  | nil => exact .refl n
  | cons p ps ih => exact (step_respects hn h.1).trans (ih (step_valid rules hn) h.2)

/-- After any calls, blocks that are irreversible stay on the chain, and the last irreversible block
number does not decrease, through all later calls that meet the condition on switches. -/
theorem irreversible_blocks_stay (rules : NodeRules H Tx TxId W R Sched)
    (genesis : ChainState H Tx W R) (hgenesis : genesis.IsGenesis) (ps qs : List (Push H Tx))
    (h : RunRespects rules ((initial genesis).run rules ps) qs) :
    Respects ((initial genesis).run rules ps) ((initial genesis).run rules (ps ++ qs)) := by
  have hrun : (initial genesis : Node H Tx W R Sched).run rules (ps ++ qs) =
      ((initial genesis).run rules ps).run rules qs := foldl_append
  rw [hrun]
  exact run_respects (run_valid rules (initial_valid hgenesis) ps) h

namespace LateBranch

/-- Five blocks of three witnesses in turn; the third is then irreversible. -/
def a1 := plainBlock ⟨1, 0, true⟩ []
def a2 := plainBlock ⟨2, 1, true⟩ a1.id
def a3 := plainBlock ⟨3, 2, true⟩ a2.id
def a4 := plainBlock ⟨4, 0, true⟩ a3.id
def a5 := plainBlock ⟨5, 1, true⟩ a4.id

def b3 := plainBlock ⟨13, 2, true⟩ a2.id
def b4 := plainBlock ⟨14, 0, true⟩ b3.id
def b5 := plainBlock ⟨15, 1, true⟩ b4.id
def b6 := plainBlock ⟨16, 2, true⟩ b5.id

/-- A switch from `a3` to `b4` at `a2`: `a3` has made `a1` irreversible, and `b3` does so again. -/
lemma runRespects :
    RunRespects plainNodeRules (plainNode.run plainNodeRules ([a1, a2, a3].map plainPush))
      ([b3, b4].map plainPush) := by
  refine ⟨?_, ?_, trivial⟩
  · intro newHead db first second htried
    exact absurd htried.triesSwitch_eq (by decide +kernel)
  · intro newHead db first second htried hfet
    have hpush := htried.pushed
    cases hpush
    cases hfet
    refine .reconfirmed (by decide +kernel) rfl rfl ⟨[], _, _, _, rfl, rfl, ?_, ?_⟩
    · decide +kernel
    · decide +kernel

theorem irreversible_blocks_stay_switch :
    Respects (plainNode.run plainNodeRules ([a1, a2, a3].map plainPush))
      (plainNode.run plainNodeRules ([a1, a2, a3].map plainPush ++ [b3, b4].map plainPush)) ∧
    (plainNode.run plainNodeRules
      ([a1, a2, a3].map plainPush ++ [b3, b4].map plainPush)).headBlockId = b4.id :=
  ⟨irreversible_blocks_stay plainNodeRules (plainGenesis [0, 1, 2]) (plainGenesis_isGenesis _)
    ([a1, a2, a3].map plainPush) ([b3, b4].map plainPush) runRespects, by decide +kernel⟩

/-- The third block of the chain is irreversible and is dropped by a switch. -/
theorem irreversible_block_dropped :
    ¬ Respects (plainNode.run plainNodeRules ([a1, a2, a3, a4, a5].map plainPush))
      (plainNode.run plainNodeRules
        ([a1, a2, a3, a4, a5].map plainPush ++ [b3, b4, b5, b6].map plainPush)) := by
  intro h
  have hdropped := h.blocks a3.id (by decide +kernel) (by decide +kernel)
  exact absurd hdropped (by decide +kernel)

end LateBranch

end Node

end Graphene.Chain
