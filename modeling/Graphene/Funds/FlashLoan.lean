import Graphene.Funds.SametFund

/-!
# Flash loans are repaid

Whatever operations, transactions and nested proposals do: what is unpaid to a fund is covered by
its balance, nothing is unpaid after a transaction or an executed proposal, and only its owner can
reduce a fund.
-/

namespace Graphene.Funds

open Lib Protocol Accounts List Keyed FundState Option

variable {X R : Type} {rules : FundRules X R} {s s' s'' : FundState X R}

/-- What is unpaid to a fund is not negative and within its balance. -/
def SametFund.Covered (f : SametFund) : Prop :=
  0 ≤ f.unpaidAmount ∧ f.unpaidAmount ≤ f.balance

def Covered (s : FundState X R) : Prop :=
  ∀ f ∈ s.funds.objects, f.Covered

def Settled (s : FundState X R) : Prop :=
  ∀ f ∈ s.funds.objects, f.unpaidAmount = 0

def FundOperation.IsOwnersChange (f : SametFund) : FundOperation → Prop
  | delete op => op.fundId = f.id ∧ op.ownerAccount = f.ownerAccount
  | update op => op.fundId = f.id ∧ op.ownerAccount = f.ownerAccount
  | _ => False

/-- The least fee for the repayments to a fund among operations, at a fee rate. -/
def earned (id feeRate : Nat) : List FundOperation → Int
  | [] => 0
  | .repay op :: ops =>
    (if op.fundId = id then FundState.requiredFee op.repayAmount.amount feeRate else 0)
      + earned id feeRate ops
  | _ :: ops => earned id feeRate ops

lemma earned_append (id feeRate : Nat) (ops ops' : List FundOperation) :
    earned id feeRate (ops ++ ops') = earned id feeRate ops + earned id feeRate ops' := by
  induction ops with
  | nil => simp [earned]
  | cons op ops ih =>
    cases op with
    | repay =>
      simp only [cons_append, earned, ih]
      exact (add_assoc _ _ _).symm
    | create op | delete op | update op | borrow op => exact ih

/-- A fund after operations that are no changes by its owner: it has earned the fees. -/
def SametFund.GrownTo (f f' : SametFund) (ops : List FundOperation) : Prop :=
  f'.ownerAccount = f.ownerAccount ∧ f'.feeRate = f.feeRate ∧
    f.balance + earned f.id f.feeRate ops ≤ f'.balance

/-- Between two states fund operations were performed, and every fund that its owner did not change
is still there and has earned the fees for the repayments. -/
structure Grows (s s' : FundState X R) (ops : List FundOperation) : Prop where
  performed_eq : s'.performed = ops ++ s.performed
  nextId_le : s.funds.nextId ≤ s'.funds.nextId
  grown : ∀ id f, s.funds.find id = some f → (∀ op ∈ ops, ¬ op.IsOwnersChange f) →
    ∃ f', s'.funds.find id = some f' ∧ f.GrownTo f' ops

def Keeps (s s' : FundState X R) : Prop :=
  Covered s → Covered s' ∧ ∃ ops, Grows s s' ops

lemma Grows.refl_of_eq (hfunds : s'.funds = s.funds) (hperformed : s'.performed = s.performed) :
    Grows s s' [] := by
  refine ⟨hperformed, hfunds ▸ le_rfl, fun id f hf _ => ⟨f, hfunds ▸ hf, rfl, rfl, ?_⟩⟩
  simp [earned]

lemma Grows.trans {ops ops' : List FundOperation} (h : Grows s s' ops) (h' : Grows s' s'' ops') :
    Grows s s'' (ops' ++ ops) := by
  refine ⟨?_, h.nextId_le.trans h'.nextId_le, fun id f hf hno => ?_⟩
  · rw [h'.performed_eq, h.performed_eq, append_assoc]
  · obtain ⟨f', hf', hown, hrate, hle⟩ :=
      h.grown id f hf fun op hop => hno op (mem_append_right _ hop)
    have hid : f'.id = f.id := (key_of_find hf').trans (key_of_find hf).symm
    -- the owner is still the same
    have hno' : ∀ op ∈ ops', ¬ op.IsOwnersChange f' := by
      intro op hop hchange
      refine hno op (mem_append_left _ hop) ?_
      cases op with
      | delete op | update op => exact ⟨hchange.1.trans hid, hchange.2.trans hown⟩
      | create op | borrow op | repay op => exact hchange
    obtain ⟨f'', hf'', hown', hrate', hle'⟩ := h'.grown id f' hf' hno'
    refine ⟨f'', hf'', hown'.trans hown, hrate'.trans hrate, ?_⟩
    rw [hid, hrate] at hle'
    rw [earned_append]
    omega

lemma Keeps.refl_of_eq (hfunds : s'.funds = s.funds) (hperformed : s'.performed = s.performed) :
    Keeps s s' := by
  intro h
  refine ⟨?_, [], Grows.refl_of_eq hfunds hperformed⟩
  unfold Covered
  rwa [hfunds]

lemma Keeps.trans (h : Keeps s s') (h' : Keeps s' s'') : Keeps s s'' := by
  intro hc
  obtain ⟨hc', ops, hg⟩ := h hc
  obtain ⟨hc'', ops', hg'⟩ := h' hc'
  exact ⟨hc'', ops' ++ ops, hg.trans hg'⟩

/-! ## The evaluators -/

variable {id : Nat} {ops : List (Operation X)} {depth : Nat} {f : SametFund} {op : FundOperation}

namespace FundState

lemma fund_eq_ok : s.fund id = .ok f ↔ s.funds.find id = some f := by
  unfold fund
  cases s.funds.find id <;> simp

end FundState

lemma Keeps.write {b : Balances} {rest : R} {proposals : Store (Proposal.id (X := X))}
    (hcovered : Covered s → f.Covered)
    (hgrown : ∀ g, s.funds.find f.id = some g → ¬ op.IsOwnersChange g → g.GrownTo f [op])
    (hoth : ∀ g : SametFund, g.id ≠ f.id → earned g.id g.feeRate [op] = 0) :
    Keeps s ⟨b, s.funds.write f, proposals, rest, op :: s.performed⟩ := by
  intro hc
  refine ⟨?_, [op], rfl, le_max_left _ _, fun id g hg hno => ?_⟩
  · intro g hg
    rcases mem_put hg with rfl | hg
    · exact hcovered hc
    · exact hc g hg
  · have hno := hno op mem_cons_self
    have hid : g.id = id := key_of_find hg
    by_cases he : id = f.id
    · refine ⟨f, ?_, hgrown g (he ▸ hg) hno⟩
      exact (find_put _ _ _).trans (if_pos he)
    · refine ⟨g, ?_, rfl, rfl, ?_⟩
      · exact ((find_put _ _ _).trans (if_neg he)).trans hg
      · rw [hoth g (hid ▸ he), add_zero]

open Keeps (refl_of_eq write)

namespace FundState

lemma create_keeps {op : SametFundCreate} (h : s.sametFundCreate rules op = .ok s') :
    Keeps s { s' with performed := .create op :: s'.performed } := by
  simp only [sametFundCreate, adjust, bind_eq_ok, check_eq_ok, exists_const, decide_eq_true_eq,
    pure_eq_ok] at h
  obtain ⟨hpos, -, -, s1, ⟨b, -, rfl⟩, rfl⟩ := h
  refine write (fun _ => ⟨le_rfl, hpos.le⟩) ?_ fun _ _ => rfl
  intro g hg
  exact absurd (Store.lt_nextId hg) (lt_irrefl _)

lemma delete_keeps {op : SametFundDelete} (h : s.sametFundDelete op = .ok s') :
    Keeps s { s' with performed := .delete op :: s'.performed } := by
  simp only [sametFundDelete, adjust, bind_eq_ok, ↓check_then, pure_eq_ok, fund_eq_ok] at h
  obtain ⟨f, hf, hown, -, s1, ⟨b, -, rfl⟩, rfl⟩ := h
  intro hc
  refine ⟨fun g hg => hc g (mem_erase hg), [.delete op], rfl, le_rfl, fun id g hg hno => ?_⟩
  -- the fund that is gone was removed by its owner
  have hne : id ≠ op.fundId := by
    rintro rfl
    rw [hf] at hg
    obtain rfl := some.inj hg
    exact hno _ mem_cons_self ⟨(key_of_find hf).symm, hown.symm⟩
  refine ⟨g, ?_, rfl, rfl, by simp [earned]⟩
  exact ((find_erase _ _ _).trans (if_neg hne)).trans hg

lemma update_keeps {op : SametFundUpdate} (h : s.sametFundUpdate rules op = .ok s') :
    Keeps s { s' with performed := .update op :: s'.performed } := by
  simp only [sametFundUpdate, bind_eq_ok, check_eq_ok, exists_const, decide_eq_true_eq, pure_eq_ok,
    fund_eq_ok] at h
  obtain ⟨-, -, f, hf, hown, u, hdel, -, s1, h1, hpos, rfl⟩ := h
  have hid : f.id = op.fundId := key_of_find hf
  obtain ⟨b, rfl⟩ : ∃ b, s1 = { s with balances := b } := by
    cases hd : op.deltaAmount with
    | none =>
      rw [hd] at h1
      cases h1
      exact ⟨_, rfl⟩
    | some =>
      rw [hd] at h1
      obtain ⟨b, -, h1⟩ := bind_eq_ok.1 h1
      exact ⟨b, (pure_eq_ok.1 h1).symm⟩
  refine write (fun hc => ?_) ?_ fun _ _ => rfl
  · obtain ⟨hnon, hle⟩ := hc f (mem_of_find hf)
    refine ⟨hnon, ?_⟩
    -- with a change of the balance nothing is unpaid
    cases hd : op.deltaAmount with
    | none => simpa [updated, hd] using hle
    | some =>
      have hzero : f.unpaidAmount = 0 := by
        rw [hd] at hdel
        simp only [map_some, getD_some, checkDelta, bind_eq_ok, check_eq_ok,
          exists_const, decide_eq_true_eq] at hdel
        exact hdel.2.1
      change f.unpaidAmount ≤ (updated f op).balance
      omega
  · intro g hg hno
    have hfid : (updated f op).id = op.fundId := hid
    rw [hfid, hf] at hg
    obtain rfl := some.inj hg
    exact absurd ⟨hid.symm, hown.symm⟩ hno

lemma borrow_keeps {op : SametFundBorrow} (h : s.sametFundBorrow rules op = .ok s') :
    Keeps s { s' with performed := .borrow op :: s'.performed } := by
  simp only [sametFundBorrow, adjust, bind_eq_ok, check_eq_ok, exists_const, decide_eq_true_eq, pure_eq_ok,
    fund_eq_ok] at h
  obtain ⟨hpos, f, hf, -, hle, u, -, s1, ⟨b, -, rfl⟩, -, rfl⟩ := h
  refine write (fun hc => ?_) ?_ fun _ _ => rfl
  · have hnon := (hc f (mem_of_find hf)).1
    exact ⟨by change 0 ≤ f.unpaidAmount + op.borrowAmount.amount; omega, hle⟩
  · intro g hg _
    have hid : f.id = op.fundId := key_of_find hf
    rw [hid, hf] at hg
    obtain rfl := some.inj hg
    exact ⟨rfl, rfl, by simp [earned]⟩

lemma repay_keeps {op : SametFundRepay} (h : s.sametFundRepay rules op = .ok s') :
    Keeps s { s' with performed := .repay op :: s'.performed } := by
  simp only [sametFundRepay, adjust, bind_eq_ok, check_eq_ok, exists_const, decide_eq_true_eq, pure_eq_ok,
    fund_eq_ok] at h
  obtain ⟨hpos, hfee, -, f, hf, -, u, -, hle, hreq, s1, ⟨b, -, rfl⟩, rfl⟩ := h
  have hid : f.id = op.fundId := key_of_find hf
  refine write (fun hc => ?_) ?_ ?_
  · obtain ⟨hnon, hcovered⟩ := hc f (mem_of_find hf)
    refine ⟨?_, ?_⟩
    · change 0 ≤ f.unpaidAmount - op.repayAmount.amount
      omega
    · change f.unpaidAmount - op.repayAmount.amount ≤ f.balance + op.fundFee.amount
      omega
  · intro g hg _
    rw [hid, hf] at hg
    obtain rfl := some.inj hg
    refine ⟨rfl, rfl, ?_⟩
    rw [earned, if_pos hid.symm, earned, add_zero]
    exact add_le_add_right hreq _
  · intro g hne
    have hne : op.fundId ≠ g.id := by
      rw [← hid]
      exact Ne.symm hne
    rw [earned, if_neg hne, earned, add_zero]

lemma applyFund_keeps (h : s.applyFund rules op = .ok s') : Keeps s s' := by
  simp only [applyFund, bind_eq_ok, pure_eq_ok] at h
  obtain ⟨s1, h1, rfl⟩ := h
  cases op with
  | create => exact create_keeps h1
  | delete => exact delete_keeps h1
  | update => exact update_keeps h1
  | borrow => exact borrow_keeps h1
  | repay => exact repay_keeps h1

/-! ## Operations, proposals and transactions -/

section Push

variable {push : FundState X R → Nat → Except FundError (FundState X R)}
  (hpush : ∀ {s : FundState X R} {id s'}, push s id = .ok s' → Keeps s s')

include hpush

lemma executeProposal_keeps (id : Nat) : Keeps s (executeProposal rules push s id) := by
  unfold executeProposal
  split
  · cases h : push s id with
    | ok => exact hpush h
    | error => exact refl_of_eq rfl rfl
  · exact refl_of_eq rfl rfl

variable {op : Operation X}

lemma evaluate_keeps (h : evaluate rules push s op = .ok s') : Keeps s s' := by
  cases op with
  | fund => exact applyFund_keeps h
  | proposalCreate =>
    simp only [evaluate, bind_eq_ok, pure_eq_ok] at h
    obtain ⟨rest, -, rfl⟩ := h
    exact refl_of_eq rfl rfl
  | proposalUpdate id =>
    simp only [evaluate, bind_eq_ok, pure_eq_ok] at h
    obtain ⟨-, -, rest, -, rfl⟩ := h
    have hrest : Keeps s { s with rest := rest } := refl_of_eq rfl rfl
    exact hrest.trans (executeProposal_keeps hpush id)
  | proposalDelete =>
    simp only [evaluate, bind_eq_ok, pure_eq_ok] at h
    obtain ⟨-, -, -, -, rfl⟩ := h
    exact refl_of_eq rfl rfl
  | other =>
    simp only [evaluate, bind_eq_ok, pure_eq_ok] at h
    obtain ⟨r, -, rfl⟩ := h
    exact refl_of_eq rfl rfl

lemma applyOperation_keeps (h : applyOperation rules push s op = .ok s') : Keeps s s' := by
  simp only [applyOperation, bind_eq_ok, pure_eq_ok] at h
  obtain ⟨s1, h1, r, -, rfl⟩ := h
  exact (evaluate_keeps hpush h1).trans (refl_of_eq rfl rfl)

lemma applyOperations_keeps (h : ops.foldlM (applyOperation rules push) s = .ok s') : Keeps s s' :=
  foldlM_keeps (fun _ => refl_of_eq rfl rfl) Keeps.trans (applyOperation_keeps hpush) h

end Push

instance : Std.Total UnpaidBefore where
  total f g := by
    unfold UnpaidBefore
    omega

instance : IsTrans SametFund UnpaidBefore where
  trans f g h := by
    unfold UnpaidBefore
    omega

/-- The one fund looked at has the most unpaid. -/
lemma settled_of_checkUnpaid (hc : Covered s) (h : s.checkUnpaid = .ok ()) : Settled s := by
  have hsor : s.byUnpaid.Pairwise UnpaidBefore := pairwise_insertionSort UnpaidBefore _
  have hmem : ∀ f, f ∈ s.byUnpaid ↔ f ∈ s.funds.objects := fun f => mem_insertionSort _
  intro f hf
  have hnon := (hc f hf).1
  rw [← hmem] at hf
  simp only [checkUnpaid, check_eq_ok] at h
  cases hl : s.byUnpaid with
  | nil =>
    rw [hl] at hf
    cases hf
  | cons g =>
    rw [hl] at hf hsor h
    have hg : g.unpaidAmount = 0 := by simpa using h
    rcases mem_cons.1 hf with rfl | hf
    · exact hg
    · rcases rel_of_pairwise_cons hsor hf with hlt | ⟨heq, -⟩
      · omega
      · omega

lemma pushProposal_keeps :
    ∀ {s : FundState X R} {id s'}, pushProposal rules depth s id = .ok s' → Keeps s s' := by
  induction depth with
  | zero => nofun
  | succ depth ih =>
    intro s id s' h
    unfold pushProposal at h
    split at h
    · cases h
    · simp only [bind_eq_ok, pure_eq_ok] at h
      obtain ⟨s1, h1, -, -, rfl⟩ := h
      exact (applyOperations_keeps ih h1).trans (refl_of_eq rfl rfl)

lemma pushProposal_settled (hc : Covered s) (h : pushProposal rules depth s id = .ok s') :
    Settled s' := by
  cases depth with
  | zero => cases h
  | succ depth =>
    unfold pushProposal at h
    split at h
    · cases h
    · simp only [bind_eq_ok, pure_eq_ok] at h
      obtain ⟨s1, h1, u, hchk, rfl⟩ := h
      exact settled_of_checkUnpaid (applyOperations_keeps (pushProposal_keeps) h1 hc).1 hchk

lemma applyTransaction_keeps (h : s.applyTransaction rules ops = .ok s') :
    Keeps s s' ∧ (Covered s → Settled s') := by
  simp only [applyTransaction, bind_eq_ok, pure_eq_ok] at h
  obtain ⟨s1, h1, u, hchk, rfl⟩ := h
  have hkps := applyOperations_keeps (pushProposal_keeps) h1
  exact ⟨hkps, fun hc => settled_of_checkUnpaid (hkps hc).1 hchk⟩

end FundState

/-! ## Runs -/

/-- The database goes from one state to the next: an operation of a transaction or of a proposal at
some depth of nesting, or anything that does not touch the funds. -/
inductive Step (rules : FundRules X R) : FundState X R → FundState X R → Prop
  | operation {s s' : FundState X R} (depth : Nat) (op : Operation X)
      (h : s.applyOperation rules (FundState.pushProposal rules depth) op = .ok s') :
      Step rules s s'
  | elsewhere {s s' : FundState X R} (hfunds : s'.funds = s.funds)
      (hperformed : s'.performed = s.performed) : Step rules s s'

abbrev Run (rules : FundRules X R) : FundState X R → FundState X R → Prop :=
  Relation.ReflTransGen (Step rules)

lemma Step.keeps (h : Step rules s s') : Keeps s s' := by
  cases h with
  | operation depth op h => exact applyOperation_keeps (pushProposal_keeps) h
  | elsewhere hfunds hperformed => exact refl_of_eq hfunds hperformed

lemma Run.keeps (h : Run rules s s') : Keeps s s' := by
  induction h with
  | refl => exact refl_of_eq rfl rfl
  | tail _ hstep ih => exact ih.trans hstep.keeps

lemma Run.of_operations
    (h : ops.foldlM (applyOperation rules (pushProposal rules depth)) s = .ok s') :
    Run rules s s' :=
  foldlM_keeps (fun _ => .refl) .trans (fun h => .single (.operation depth _ h)) h

lemma Run.of_transaction (h : s.applyTransaction rules ops = .ok s') : Run rules s s' := by
  simp only [applyTransaction, bind_eq_ok, pure_eq_ok] at h
  obtain ⟨s1, h1, -, -, rfl⟩ := h
  exact Run.of_operations h1

lemma Run.of_proposal (h : pushProposal rules depth s id = .ok s') : Run rules s s' := by
  cases depth with
  | zero => cases h
  | succ =>
    unfold pushProposal at h
    split at h
    · cases h
    · simp only [bind_eq_ok, pure_eq_ok] at h
      obtain ⟨s1, h1, -, -, rfl⟩ := h
      exact (Run.of_operations h1).tail (.elsewhere rfl rfl)

/-- From a database without funds on, whatever is done: no fund owes more than it has, nothing is
unpaid after a transaction or a proposal that succeeds, and a fund that its owner does not change
grows by the fees for the repayments. -/
theorem flash_loans_repaid {s0 : FundState X R} (hstart : s0.funds.objects = [])
    (hrun : Run rules s0 s) : Covered s ∧
      (∀ ops s', s.applyTransaction rules ops = .ok s' → Settled s' ∧ Run rules s s') ∧
      (∀ depth id s', FundState.pushProposal rules depth s id = .ok s' →
        Settled s' ∧ Run rules s s') ∧ ∀ s', Run rules s s' → ∃ ops, Grows s s' ops := by
  have hnone : Covered s0 := by
    intro f hf
    rw [hstart] at hf
    cases hf
  have hcovered : Covered s := (hrun.keeps hnone).1
  refine ⟨hcovered, fun ops s' h => ?_, fun depth id s' h => ?_, fun s' h => (h.keeps hcovered).2⟩
  · exact ⟨(applyTransaction_keeps h).2 hcovered, Run.of_transaction h⟩
  · exact ⟨pushProposal_settled hcovered h, Run.of_proposal h⟩

/-- A chain with free operations on which everything is allowed. -/
def freeRules : FundRules Unit Unit where
  assetExists _ _ := true
  isAuthorizedAsset _ _ _ := true
  applyOther _ b r := some (b, r)
  payFee _ b r := some (b, r)
  createProposal _ _ _ r := some r
  updateApprovals _ _ r := some r
  isExecutable _ _ := true
  isAuthorizedToExecute _ _ := true
  mayDelete _ _ _ := true
  recordFailure _ r := r
  maxNestingDepth _ := 22

def beforeLoans : FundState Unit Unit where
  balances := (Tally.add Keyed.empty (1, 0) 50).add (2, 0) 1
  funds := Store.empty
  proposals := Store.empty
  rest := ()
  performed := []

def createFund : Operation Unit :=
  .fund (.create ⟨1, 0, 50, 10000⟩)

def flashLoan : List (Operation Unit) :=
  [.fund (.borrow ⟨2, 0, ⟨50, 0⟩⟩), .fund (.repay ⟨2, 0, ⟨50, 0⟩, ⟨1, 0⟩⟩)]

def afterFund : FundState Unit Unit :=
  match beforeLoans.applyTransaction freeRules [createFund] with
  | .ok s => s
  | .error _ => beforeLoans

def afterLoan : FundState Unit Unit :=
  match afterFund.applyTransaction freeRules flashLoan with
  | .ok s => s
  | .error _ => afterFund

theorem flash_loan_repaid_in_transaction : (afterFund.funds.find 0).map SametFund.balance = some 50 ∧
      afterFund.applyTransaction freeRules flashLoan = .ok afterLoan ∧ Settled afterLoan ∧
      (afterLoan.funds.find 0).map SametFund.balance = some 51 := by
  have hcreate : beforeLoans.applyTransaction freeRules [createFund] = .ok afterFund := rfl
  have hrun : Run freeRules beforeLoans afterFund := Run.of_transaction hcreate
  exact ⟨rfl, rfl, ((flash_loans_repaid rfl hrun).2.1 flashLoan afterLoan rfl).1, rfl⟩

end Graphene.Funds
