import Graphene.Chain.Switching

/-!
# The steps of a node

Whatever `push_block` does, whether it returns or throws, it does by trying blocks in a session, popping
blocks, storing blocks and changing the fork database.  When a switch fails, first the blocks of the old
branch are popped and then those of the new one.
-/

namespace Graphene.Chain

open Lib

variable {H Tx TxId W R Sched : Type} [DecidableEq H] [DecidableEq TxId] [DecidableEq W]

namespace Node

/-- One step of a node that has received certain blocks. -/
inductive NodeStep (rules : NodeRules H Tx TxId W R Sched) (received : SignedBlock H Tx → Prop) :
    Node H Tx W R Sched → Node H Tx W R Sched → Prop
  | tried (n : Node H Tx W R Sched) {b : SignedBlock H Tx} (hb : received b) :
      NodeStep rules received n (after (applyInSession rules b n))
  | popped {n n' : Node H Tx W R Sched} (locals : List (ForkItem H Tx Sched))
      (h : popBlock locals n = .ok () n') : NodeStep rules received n n'
  | stored (n : Node H Tx W R Sched) (b : SignedBlock H Tx) :
      NodeStep rules received n (n.store b)
  | fork (n : Node H Tx W R Sched) (db : ForkDatabase H Tx Sched) :
      NodeStep rules received n { n with forkDb := db }

abbrev NodeSteps (rules : NodeRules H Tx TxId W R Sched) (received : SignedBlock H Tx → Prop) :
    Node H Tx W R Sched → Node H Tx W R Sched → Prop :=
  Relation.ReflTransGen (NodeStep rules received)

variable {locals : List (ForkItem H Tx Sched)} {n n' : Node H Tx W R Sched} {b : SignedBlock H Tx}

section

omit [DecidableEq W]

lemma popBlock_inv (h : popBlock locals n = .ok () n') :
    ∃ (item : ForkItem H Tx Sched) (j : Journal (ChainState H Tx W R))
      (db : ForkDatabase H Tx Sched), item.id = n.headBlockId ∧ n.journal.restore = some j ∧
      n' = { n with journal := j, forkDb := db, poppedTx := item.data.transactions ++ n.poppedTx } := by
  unfold popBlock at h
  cases hhead : n.forkDb.head with
  | none =>
    rw [hhead] at h
    cases h
  | some head =>
    rw [hhead] at h
    dsimp only at h
    by_cases hid : head.id = n.headBlockId
    · rw [if_pos hid] at h
      cases hdb : n.forkDb.popBlock locals with
      | error =>
        rw [hdb] at h
        cases h
      | ok db =>
        rw [hdb] at h
        cases hj : n.journal.restore with
        | none => simp [hj, Except.map] at h
        | some j =>
          simp only [hj, Except.map] at h
          cases h
          exact ⟨head, j, db, hid, rfl, rfl⟩
    · rw [if_neg hid] at h
      cases hfet : n.forkDb.fetchBlock n.headBlockId with
      | none =>
        rw [hfet] at h
        cases h
      | some item =>
        rw [hfet] at h
        cases hj : n.journal.restore with
        | none => simp [hj] at h
        | some j =>
          simp only [hj] at h
          cases h
          exact ⟨item, j, n.forkDb, (ForkDatabase.fetchBlock_eq_some hfet).2, rfl, rfl⟩

lemma popBlock_error {e : ChainError} (h : popBlock locals n = .error e n') :
    ∃ db, n' = { n with forkDb := db } := by
  unfold popBlock at h
  cases hhead : n.forkDb.head with
  | none =>
    rw [hhead] at h
    cases h
    exact ⟨n.forkDb, rfl⟩
  | some =>
    rw [hhead] at h
    dsimp only at h
    split at h
    · cases h
      exact ⟨n.forkDb, rfl⟩
    · next data forkDb _ =>
        cases hj : n.journal.restore with
        | none =>
          rw [hj] at h
          cases h
          exact ⟨forkDb, rfl⟩
        | some =>
          rw [hj] at h
          cases h

end

section Phases

variable (rules : NodeRules H Tx TxId W R Sched) (received : SignedBlock H Tx → Prop)

lemma popBlock_steps : NodeSteps rules received n (after (popBlock locals n)) := by
  cases hpop : popBlock locals n with
  | ok => exact .single (.popped locals hpop)
  | error =>
    obtain ⟨db, rfl⟩ := popBlock_error hpop
    exact .single (.fork n db)

lemma switches_steps (target : BlockId H) :
    Switches rules received (fun _ => True) target (NodeSteps rules received) where
  refl := fun _ => .refl
  trans := fun h1 h2 => h1.trans h2
  tried := fun n _ hb => .single (.tried n hb)
  scheduled := fun n _ => .single (.fork n _)
  stored := fun n b => .single (.stored n b)
  removed := fun n _ _ _ => .single (.fork n _)
  popped := fun _ _ _ _ => popBlock_steps rules received
  dropped := fun n _ _ _ _ _ => .single (.fork n _)

variable {received}

def FetchesReceived (received : SignedBlock H Tx → Prop) (db : ForkDatabase H Tx Sched)
    (newHead : ForkItem H Tx Sched) (id : BlockId H) : Prop :=
  ∀ first second, db.fetchBranchFrom newHead.id id = .ok (first, second) →
    ∀ i ∈ first ++ second, received i.data

lemma switchForks_steps {newHead : ForkItem H Tx Sched}
    (hfet : FetchesReceived received n.forkDb newHead n.headBlockId) :
    NodeSteps rules received n (after (switchForks rules newHead n)) := by
  unfold switchForks
  split
  · exact .refl
  · next first second hbranches =>
      split
      · exact (switches_steps rules received _).switchTo (fun _ _ => trivial)
          (hfet first second hbranches) trivial n
      · exact .refl

end Phases

variable {received : SignedBlock H Tx → Prop} {rules : NodeRules H Tx TxId W R Sched}

/-- `push_block` is made of the four steps, whether it returns or throws. -/
lemma pushBlock_steps (rules : NodeRules H Tx TxId W R Sched) (now : Nat) (hb : received b)
    (hfet : ∀ newHead db, n.forkDb.pushBlock b = .ok (newHead, db) →
      FetchesReceived received db newHead n.headBlockId) :
    NodeSteps rules received n (after (pushBlock rules now b n)) := by
  rcases pushBlock_cases rules n ⟨now, b, ⟨0, 0⟩⟩ with
    ⟨e, h⟩ | ⟨newHead, db, -, hpush, ⟨-, -, h⟩ | ⟨-, h⟩ | ⟨-, h⟩⟩
  · rw [h]
    exact .refl
  · rw [h]
    exact .single (.fork n db)
  · rw [h]
    exact (Relation.ReflTransGen.single (.fork n db)).trans 
      (switchForks_steps rules (hfet newHead db hpush))
  · rw [h]
    exact (Relation.ReflTransGen.single (.fork n db)).trans 
      ((switches_steps rules received newHead.id).pushOnHead now hb trivial _)

lemma NodeStep.bound_pos (h : NodeStep rules received n n') (hn : 0 < n.journal.bound) :
    0 < n'.journal.bound := by
  cases h with
  | @tried b hb =>
    have hbnd : 0 < (sessionJournal rules n.journal b).bound := by
      cases hsize : newMaxSize rules n.journal.current b with
      | none =>
        simp only [sessionJournal, hsize]
        exact lt_of_lt_of_le hn
          (bound_le_raiseBound (rules.nestedBefore n.journal.current b) n.journal.start)
      | some =>
        refine lt_of_lt_of_le ?_ (le_sessionJournal_bound hsize)
        unfold newMaxSize at hsize
        split at hsize
        · cases hsize
        · split at hsize
          · cases hsize
          · cases hsize
            exact Nat.succ_pos _
    unfold applyInSession
    cases rules.applyBlock n.state b with
    | ok s | error e => exact hbnd
  | popped locals hpop =>
    obtain ⟨item, j, db, -, hj, rfl⟩ := popBlock_inv hpop
    obtain ⟨s, rest, -, rfl⟩ := Journal.restore_eq_some hj
    exact hn
  | stored => exact hn
  | fork => exact hn

lemma NodeSteps.bound_pos (h : NodeSteps rules received n n') (hn : 0 < n.journal.bound) :
    0 < n'.journal.bound := by
  induction h with
  | refl => exact hn
  | tail _ hstep ih => exact hstep.bound_pos ih

/-! ## The blocks that are popped -/

lemma NodeStep.stacked (h : NodeStep rules received n n') (hn : Stacked n.state n.journal.saved) :
    Stacked n'.state n'.journal.saved := by
  cases h with
  | @tried b hb =>
    unfold applyInSession
    cases happ : rules.applyBlock n.state b with
    | ok =>
      simp only [after, state, Journal.write, sessionJournal_saved]
      exact stacked_applyBlock (hn.take _) happ
    | error =>
      simp only [after, state, sessionJournal_saved, List.tail_cons]
      exact hn.take _
  | popped locals hpop =>
    obtain ⟨item, j, db, -, hj, rfl⟩ := popBlock_inv hpop
    obtain ⟨s, rest, hsaved, rfl⟩ := Journal.restore_eq_some hj
    rw [hsaved] at hn
    exact hn.2.2.2
  | stored => exact hn
  | fork => exact hn

lemma NodeSteps.stacked (h : NodeSteps rules received n n') (hn : Stacked n.state n.journal.saved) :
    Stacked n'.state n'.journal.saved := by
  induction h with
  | refl => exact hn
  | tail _ hstep ih => exact hstep.stacked ih

/-- The blocks lead from the block `bottom` to the block `top`, oldest first. -/
def Links : BlockId H → List (SignedBlock H Tx) → BlockId H → Prop
  | bottom, [], top => bottom = top
  | bottom, b :: bs, top => b.previous = bottom ∧ Links b.id bs top

omit [DecidableEq H] in
lemma Links.concat {bottom : BlockId H} {bs : List (SignedBlock H Tx)}
    (h : Links bottom bs b.previous) : Links bottom (bs ++ [b]) b.id := by
  induction bs generalizing bottom with
  | nil => exact ⟨h.symm, rfl⟩
  | cons c bs ih => exact ⟨h.1, ih h.2⟩

/-- `n'` was reached from `n` by popping `blocks`, which stand oldest first. -/
structure Pops (n : Node H Tx W R Sched) (blocks : List (SignedBlock H Tx))
    (n' : Node H Tx W R Sched) : Prop where
  links : Links n'.headBlockId blocks n.headBlockId
  poppedTx : n'.poppedTx = blocks.flatMap SignedBlock.transactions ++ n.poppedTx

omit [DecidableEq H] [DecidableEq W] in
lemma Pops.refl (n : Node H Tx W R Sched) : Pops n [] n := ⟨rfl, rfl⟩

omit [DecidableEq W] [DecidableEq H] in
lemma Pops.cons {n1 : Node H Tx W R Sched} {blocks : List (SignedBlock H Tx)}
    (hid : b.id = n.headBlockId) (hprev : n1.headBlockId = b.previous)
    (htx : n1.poppedTx = b.transactions ++ n.poppedTx) (h : Pops n1 blocks n') :
    Pops n (blocks ++ [b]) n' := by
  have hlnk := h.links
  rw [hprev] at hlnk
  refine ⟨hid ▸ hlnk.concat, ?_⟩
  rw [h.poppedTx, htx]
  simp

section

omit [DecidableEq W]

lemma popBlock_pops (hn : Stacked n.state n.journal.saved) (h : popBlock locals n = .ok () n') :
    ∃ b : SignedBlock H Tx, b.id = n.headBlockId ∧ n'.headBlockId = b.previous ∧
      n'.poppedTx = b.transactions ++ n.poppedTx := by
  obtain ⟨item, j, db, hid, hj, rfl⟩ := popBlock_inv h
  obtain ⟨s, rest, hsaved, rfl⟩ := Journal.restore_eq_some hj
  rw [hsaved] at hn
  obtain ⟨x, hx⟩ := hn.2.1
  refine ⟨item.data, hid, ?_, rfl⟩
  -- the restored state is the one at the parent of the head block
  have hcons : item.data.header :: item.data.previous = x :: s.headBlockId := hid.trans hx
  exact (List.cons.inj hcons).2.symm

/-- One round, for a loop whose other rounds are known. -/
lemma popRound_pops (next : NodeM H Tx W R Sched ChainError Unit)
    (hn : Stacked n.state n.journal.saved)
    (hnext : ∀ n1, popBlock locals n = .ok () n1 → ∃ blocks, Pops n1 blocks (after (next n1))) :
    ∃ blocks, Pops n blocks (after (match popBlock locals n with
      | .error e n => .error e n
      | .ok _ n => next n)) := by
  cases hres : popBlock locals n with
  | error =>
    obtain ⟨db, rfl⟩ := popBlock_error hres
    exact ⟨[], rfl, rfl⟩
  | ok u n1 =>
    obtain ⟨b, hid, hprev, htx⟩ := popBlock_pops hn hres
    obtain ⟨blocks, hblo⟩ := hnext n1 hres
    exact ⟨blocks ++ [b], hblo.cons hid hprev htx⟩

lemma popUntil_pops (target : BlockId H) (fuel : Nat) (hn : Stacked n.state n.journal.saved) :
    ∃ blocks, Pops n blocks (after (popUntil locals target fuel n)) := by
  induction fuel generalizing n with
  | zero =>
    unfold popUntil
    split_ifs
    · exact ⟨[], .refl n⟩
    · have hone := popRound_pops (fun n => .ok () n) hn fun n1
        (_ : popBlock locals n = .ok () n1) => ⟨[], .refl n1⟩
      cases hres : popBlock locals n with
      | error e n1 | ok u n1 => simpa [hres] using hone
  | succ fuel ih =>
    unfold popUntil
    split_ifs
    · exact ⟨[], .refl n⟩
    · refine popRound_pops (popUntil locals target fuel) hn ?_
      intro n1 hres
      refine ih ?_
      obtain ⟨item, j, db, -, hj, rfl⟩ := popBlock_inv hres
      obtain ⟨s, rest, hsaved, rfl⟩ := Journal.restore_eq_some hj
      rw [hsaved] at hn
      exact hn.2.2.2

end

section Unpopped

variable (rules : NodeRules H Tx TxId W R Sched)

lemma applyInSession_poppedTx : (after (applyInSession rules b n)).poppedTx = n.poppedTx := by
  unfold applyInSession
  cases rules.applyBlock n.state b <;> rfl

lemma applies_poppedTx : Applies rules (fun _ => True) (fun _ => True)
    fun n n' : Node H Tx W R Sched => n'.poppedTx = n.poppedTx where
  refl := fun _ => rfl
  trans := fun h1 h2 => h2.trans h1
  tried := fun _ _ _ => applyInSession_poppedTx rules
  scheduled := fun _ _ => rfl
  stored := fun _ _ => rfl
  removed := fun _ _ _ _ => rfl

end Unpopped

/-- The transactions of the blocks that a call popped: those of the old branch, oldest block first, and
before them those of a new branch that was given up. -/
structure PoppedBranches (n : Node H Tx W R Sched) (old new : List (SignedBlock H Tx))
    (result : EStateM.Result ChainError (Node H Tx W R Sched) Bool) : Prop where
  oldBranch : ∃ bottom, Links bottom old n.headBlockId
  newBranch : ∃ bottom top, Links bottom new top
  poppedTx : (after result).poppedTx = (new ++ old).flatMap SignedBlock.transactions ++ n.poppedTx
  givenUp : new ≠ [] → ∃ e n', result = .error e n'

omit [DecidableEq H] [DecidableEq W] in
lemma PoppedBranches.none {result : EStateM.Result ChainError (Node H Tx W R Sched) Bool}
    (h : (after result).poppedTx = n.poppedTx) : PoppedBranches n [] [] result :=
  ⟨⟨n.headBlockId, rfl⟩, ⟨n.headBlockId, n.headBlockId, rfl⟩, h, fun hne => absurd rfl hne⟩

variable (rules : NodeRules H Tx TxId W R Sched) (first second : List (ForkItem H Tx Sched))
  (front : ForkItem H Tx Sched) (target : BlockId H)

lemma switchBack_popped (invalid : List (ForkItem H Tx Sched)) (e : ChainError)
    (hn : Stacked n.state n.journal.saved) :
    ∃ (blocks : List (SignedBlock H Tx)) (e' : ChainError) (n' : Node H Tx W R Sched),
      (∃ bottom top, Links bottom blocks top) ∧
      switchBack rules first second invalid front target e n = .error e' n' ∧
      n'.poppedTx = blocks.flatMap SignedBlock.transactions ++ n.poppedTx := by
  have hdrop : Stacked (n.dropInvalid (first ++ second) invalid front).state
      (n.dropInvalid (first ++ second) invalid front).journal.saved := hn
  obtain ⟨blocks, hpops⟩ := popUntil_pops target n.journal.saved.length hdrop
  have htx := hpops.poppedTx
  unfold switchBack
  cases hres : popUntil (first ++ second) target n.journal.saved.length
      (n.dropInvalid (first ++ second) invalid front) with
  | error e' n1 =>
    rw [hres] at htx
    exact ⟨blocks, e', n1, ⟨_, _, hpops.links⟩, rfl, htx⟩
  | ok u n1 =>
    rw [hres] at htx
    have hrest := (applies_poppedTx rules).restoreFork second.reverse (fun _ _ => trivial) n1
    dsimp only
    cases hres' : restoreFork rules second.reverse n1 with
    | error e' n2 =>
      rw [hres'] at hrest
      exact ⟨blocks, e', n2, ⟨_, _, hpops.links⟩, rfl, hrest.trans htx⟩
    | ok u n2 =>
      rw [hres'] at hrest
      exact ⟨blocks, e, n2, ⟨_, _, hpops.links⟩, rfl, hrest.trans htx⟩

lemma switchTo_popped (hn : Stacked n.state n.journal.saved) :
    ∃ old new, PoppedBranches n old new (switchTo rules first second front target n) := by
  obtain ⟨old, hpops⟩ := popUntil_pops target n.journal.saved.length hn
  have hswi := switches_steps rules (fun _ => True) target
  have hstp := hswi.popUntil (first ++ second) (fun _ _ => trivial) n.journal.saved.length n
  have hold : ∃ bottom, Links bottom old n.headBlockId := ⟨_, hpops.links⟩
  have hnone : ∃ bottom top : BlockId H, Links bottom ([] : List (SignedBlock H Tx)) top :=
    ⟨[], [], rfl⟩
  have htx := hpops.poppedTx
  unfold switchTo
  cases hres : popUntil (first ++ second) target n.journal.saved.length n with
  | error =>
    rw [hres] at htx
    exact ⟨old, [], hold, hnone, htx, fun hne => absurd rfl hne⟩
  | ok u n1 =>
    rw [hres] at htx hstp
    have hpush := (applies_poppedTx rules).pushFork first.reverse (fun _ _ => trivial) n1
    have hpus := hswi.pushFork first.reverse (fun _ _ => trivial) n1
    dsimp only
    cases hres' : pushFork rules first.reverse n1 with
    | ok =>
      rw [hres'] at hpush
      exact ⟨old, [], hold, hnone, hpush.trans htx, fun hne => absurd rfl hne⟩
    | error e n2 =>
      rw [hres'] at hpush hpus
      have hn2 : Stacked n2.state n2.journal.saved := NodeSteps.stacked (hstp.trans hpus) hn
      rcases switchBack_popped rules first second front target e.2 e.1 hn2 with
        ⟨new, e', n3, hnew, hback, htx3⟩
      have hn2tx : n2.poppedTx = n1.poppedTx := hpush
      have hn1tx : n1.poppedTx = old.flatMap SignedBlock.transactions ++ n.poppedTx := htx
      dsimp only
      rw [hback]
      refine ⟨old, new, hold, hnew, ?_, fun _ => ⟨e', n3, rfl⟩⟩
      rw [after, htx3, hn2tx, hn1tx, List.flatMap_append, List.append_assoc]

lemma pushBlock_popped (now : Nat) (b : SignedBlock H Tx) (hn : Stacked n.state n.journal.saved) :
    ∃ old new, PoppedBranches n old new (pushBlock rules now b n) := by
  rcases pushBlock_cases rules n ⟨now, b, ⟨0, 0⟩⟩ with
    ⟨e, h⟩ | ⟨newHead, db, -, -, ⟨-, -, h⟩ | ⟨-, h⟩ | ⟨-, h⟩⟩
  · rw [h]
    exact ⟨[], [], .none rfl⟩
  · rw [h]
    exact ⟨[], [], .none rfl⟩
  · rw [h]
    unfold switchForks
    split
    · exact ⟨[], [], .none rfl⟩
    · next first second _ =>
        split
        · next front back _ _ =>
            rcases switchTo_popped rules first second front back.previousId
              (n := { n with forkDb := db }) hn with ⟨old, new, hpo⟩
            exact ⟨old, new, hpo.oldBranch, hpo.newBranch, hpo.poppedTx,
              hpo.givenUp⟩
        · exact ⟨[], [], .none rfl⟩
  · rw [h]
    exact ⟨[], [], .none ((applies_poppedTx rules).pushOnHead now trivial trivial _)⟩

end Node
end Graphene.Chain
