import Graphene.Maintenance.Budget

/-!
# The budget is safe

`process_budget` never spends more than what is in reserve, accounts for every payment to a worker,
and keeps the supply of the core asset within its bounds.  It does not always succeed: a pay that
does not fit into 64 bits is an exception, and so the exact condition under which there is none is
part of the result.
-/

namespace Graphene.Maintenance

open Lib Protocol Accounts List Keyed Worker

def Worker.burned (w : Worker) : Int :=
  match w.worker with
  | .refund totalBurned => totalBurned
  | .vestingBalance _ => 0
  | .burn totalBurned => totalBurned

variable {record : BudgetRecord}

namespace BudgetState

variable {s s' s'' : BudgetState} {w : Worker} {ws : List Worker} {budget left pay pay' : Int}

def received (s : BudgetState) : Int :=
  s.workers.total burned + s.vestingBalances.total Prod.snd

/-- The core that exists because of payments to workers: in vesting balances and with the null
account.  What is given back does not exist. -/
def created (s : BudgetState) : Int :=
  s.vestingBalances.total Prod.snd + getBalance s.balances grapheneNullAccount 0

/-! ## Payments -/

structure Paid (s s' : BudgetState) (pay : Int) : Prop where
  received : s'.received = s.received + pay
  net : s'.currentSupply - s'.created = s.currentSupply - s.created - pay
  created_ge : s.created ≤ s'.created
  created_le : s'.created ≤ s.created + pay
  parameters : s'.parameters = s.parameters
  headTime : s'.headTime = s.headTime
  lastBudgetTime : s'.lastBudgetTime = s.lastBudgetTime
  maxSupply : s'.maxSupply = s.maxSupply

lemma Paid.refl (s : BudgetState) : Paid s s 0 :=
  ⟨(add_zero _).symm, (sub_zero _).symm, le_rfl, (add_zero _).ge, rfl, rfl, rfl, rfl⟩

lemma Paid.trans (h : Paid s s' pay) (h' : Paid s' s'' pay') : Paid s s'' (pay + pay') where
  received := by rw [h'.received, h.received, add_assoc]
  net := by rw [h'.net, h.net, sub_sub]
  created_ge := h.created_ge.trans h'.created_ge
  created_le := by
    have := h.created_le
    have := h'.created_le
    omega
  parameters := h'.parameters.trans h.parameters
  headTime := h'.headTime.trans h.headTime
  lastBudgetTime := h'.lastBudgetTime.trans h.lastBudgetTime
  maxSupply := h'.maxSupply.trans h.maxSupply

lemma total_snd_add {κ : Type} [DecidableEq κ] (t : Tally κ) (k : κ) (x : ℤ) :
    (t.add k x).total Prod.snd = t.total Prod.snd + x :=
  Tally.total_add t (fun _ => AddMonoidHom.id ℤ) k x

lemma getBalance_add_null (b : Balances) (pay : Int) :
    getBalance (b.add (grapheneNullAccount, 0) pay) grapheneNullAccount 0
      = getBalance b grapheneNullAccount 0 + pay := by
  simp only [getBalance, Tally.get_add, Pi.add_apply, Pi.single_eq_same]

lemma burned_write {v : Worker} (hw : s.workers.find w.id = some w) (hid : v.id = w.id) :
    (s.workers.write v).total burned
      = s.workers.total burned - w.burned + v.burned := by
  refine (total_put _ _ _).trans ?_
  rw [hid, hw]
  rfl

lemma payWorker_paid (hw : s.workers.find w.id = some w) (hpay : 0 ≤ pay) :
    Paid s (s.payWorker w pay) pay := by
  unfold payWorker
  split
  next totalBurned hkind =>
    refine ⟨?_, ?_, le_rfl, le_add_of_nonneg_right hpay, rfl, rfl, rfl, rfl⟩
    · have hbur := burned_write (v := { w with worker := .refund (totalBurned + pay) }) hw rfl
      simp only [burned, hkind] at hbur
      unfold received
      rw [hbur]
      ring
    · change s.currentSupply - pay - s.created = _
      ring
  next balance hkind =>
    have hcre : ({ s with vestingBalances := s.vestingBalances.add balance pay }).created
        = s.created + pay := by
      unfold created
      rw [total_snd_add]
      ring
    refine ⟨?_, ?_, ?_, hcre.le, rfl, rfl, rfl, rfl⟩
    · unfold received
      rw [total_snd_add]
      ring
    · rw [hcre]
      ring
    · rw [hcre]
      exact le_add_of_nonneg_right hpay
  next totalBurned hkind =>
    have hcre : ({ s with
        workers := s.workers.write { w with worker := .burn (totalBurned + pay) }
        balances := s.balances.add (grapheneNullAccount, 0) pay }).created = s.created + pay := by
      unfold created
      rw [getBalance_add_null]
      ring
    refine ⟨?_, ?_, ?_, hcre.le, rfl, rfl, rfl, rfl⟩
    · have hbur := burned_write (v := { w with worker := .burn (totalBurned + pay) }) hw rfl
      simp only [burned, hkind] at hbur
      unfold received
      rw [hbur]
      ring
    · rw [hcre]
      ring
    · rw [hcre]
      exact le_add_of_nonneg_right hpay

lemma payWorker_find {id : Nat} (h : id ≠ w.id) :
    (s.payWorker w pay).workers.find id = s.workers.find id := by
  unfold payWorker
  split
  · exact (find_put _ _ _).trans (if_neg h)
  · rfl
  · exact (find_put _ _ _).trans (if_neg h)

lemma requestedPay_nonneg (s : BudgetState) (w : Worker) : 0 ≤ s.requestedPay w :=
  Int.emod_nonneg _ (by decide)

lemma toShareType_eq_ok {x y : Int} : toShareType x = .ok y ↔ x < 2 ^ 63 ∧ y = x := by
  simp only [toShareType, bind_eq_ok, check_eq_ok, exists_const, decide_eq_true_eq, pure_eq_ok]
  exact and_congr_right fun _ => eq_comm

def Waiting (s : BudgetState) (ws : List Worker) : Prop :=
  (ws.map Worker.id).Nodup ∧ ∀ w ∈ ws, s.workers.find w.id = some w

lemma Waiting.tail (h : Waiting s (w :: ws)) : Waiting (s.payWorker w pay) ws := by
  obtain ⟨hnodup, hfind⟩ := h
  rw [map_cons, nodup_cons] at hnodup
  refine ⟨hnodup.2, fun v hv => ?_⟩
  have hne : v.id ≠ w.id := fun he => hnodup.1 (he ▸ mem_map_of_mem hv)
  rw [payWorker_find hne]
  exact hfind v (mem_cons_of_mem _ hv)

lemma payLoop_paid (hbud : 0 ≤ budget) (hwait : Waiting s ws)
    (h : payLoop ws s budget = .ok (s', left)) :
    Paid s s' (budget - left) ∧ 0 ≤ left ∧ left ≤ budget := by
  induction ws generalizing s budget with
  | nil =>
    cases h
    rw [sub_self]
    exact ⟨Paid.refl _, hbud, le_rfl⟩
  | cons w ws ih =>
    unfold payLoop at h
    split at h
    next hpos =>
      simp only [bind_eq_ok, toShareType_eq_ok] at h
      obtain ⟨requested, ⟨-, rfl⟩, h⟩ := h
      have hnon := s.requestedPay_nonneg w
      have hfst : Paid s (s.payWorker w (min budget (s.requestedPay w))) _ :=
        payWorker_paid (hwait.2 w mem_cons_self) (le_min hbud hnon)
      obtain ⟨hrest, hleft, hle⟩ := ih (by omega) hwait.tail h
      have hpaid := hfst.trans hrest
      rw [show min budget (s.requestedPay w) + (budget - min budget (s.requestedPay w) - left)
        = budget - left by ring] at hpaid
      exact ⟨hpaid, hleft, by omega⟩
    next =>
      cases h
      rw [sub_self]
      exact ⟨Paid.refl _, hbud, le_rfl⟩

/-- The pay of every worker that the loop comes to can be stored. -/
def PaysFit (s : BudgetState) (ws : List Worker) (budget : Int) : Prop :=
  ∀ first w rest, ws = first ++ w :: rest → (first.map s.requestedPay).sum < budget →
    s.requestedPay w < 2 ^ 63

lemma requestedPay_payWorker (hw : s.workers.find w.id = some w) (hpay : 0 ≤ pay) :
    (s.payWorker w pay).requestedPay = s.requestedPay := by
  have hpaid := payWorker_paid hw hpay
  unfold requestedPay
  rw [hpaid.headTime, hpaid.lastBudgetTime]

lemma sum_requestedPay_nonneg (s : BudgetState) (ws : List Worker) :
    0 ≤ (ws.map s.requestedPay).sum := by
  apply sum_nonneg
  intro x hx
  obtain ⟨w, -, rfl⟩ := mem_map.1 hx
  exact s.requestedPay_nonneg w

lemma paysFit_cons (hpos : 0 < budget) (hwait : Waiting s (w :: ws)) :
    PaysFit s (w :: ws) budget ↔ s.requestedPay w < 2 ^ 63 ∧
      PaysFit (s.payWorker w (min budget (s.requestedPay w))) ws
        (budget - min budget (s.requestedPay w)) := by
  have hnon := s.requestedPay_nonneg w
  have hsame := requestedPay_payWorker (hwait.2 w mem_cons_self)
    (le_min hpos.le hnon : 0 ≤ min budget (s.requestedPay w))
  unfold PaysFit
  rw [hsame]
  constructor
  · intro h
    refine ⟨h [] w ws rfl (by simpa using hpos), fun first v rest heq hless => ?_⟩
    have hsum := s.sum_requestedPay_nonneg first
    refine h (w :: first) v rest (by rw [heq, cons_append]) ?_
    rw [map_cons, sum_cons]
    omega
  · rintro ⟨hw, h⟩ first v rest heq hless
    cases first with
    | nil =>
      obtain ⟨rfl, -⟩ := cons.inj heq
      exact hw
    | cons u first =>
      obtain ⟨rfl, hrest⟩ := cons.inj heq
      refine h first v rest hrest ?_
      rw [map_cons, sum_cons] at hless
      have hsum := s.sum_requestedPay_nonneg first
      omega

lemma payLoop_ok_iff (hwait : Waiting s ws) :
    (∃ r, payLoop ws s budget = .ok r) ↔ PaysFit s ws budget := by
  induction ws generalizing s budget with
  | nil =>
    refine ⟨fun _ first w rest h => ?_, fun _ => ⟨_, rfl⟩⟩
    cases first <;> cases h
  | cons w ws ih =>
    unfold payLoop
    split
    next hpos =>
      rw [paysFit_cons hpos hwait, ← ih hwait.tail]
      simp only [bind_eq_ok, toShareType_eq_ok]
      constructor
      · rintro ⟨r, requested, ⟨hfits, rfl⟩, hr⟩
        exact ⟨hfits, r, hr⟩
      · rintro ⟨hfits, r, hr⟩
        exact ⟨r, _, ⟨hfits, rfl⟩, hr⟩
    next hnot =>
      refine ⟨fun _ first v rest _ hless => ?_, fun _ => ⟨_, rfl⟩⟩
      have hsum := s.sum_requestedPay_nonneg first
      omega

/-! ## The budget -/

/-- The state of a chain before the budget is processed: fees and the witness budget are part of
the supply, and the next maintenance lies ahead. -/
structure WellFormed (s : BudgetState) : Prop where
  fees : 0 ≤ s.accumulatedFees
  unused : 0 ≤ s.witnessBudget
  inSupply : s.accumulatedFees + s.witnessBudget ≤ s.currentSupply
  supply : s.currentSupply ≤ s.maxSupply
  maintenance : s.headTime < s.nextMaintenanceTime

structure Safe (s s' : BudgetState) (record : BudgetRecord) : Prop where
  witness_nonneg : 0 ≤ record.witnessBudget
  worker_nonneg : 0 ≤ record.workerBudget
  within_total : record.witnessBudget + record.workerBudget ≤ record.totalBudget
  within_reserve : record.totalBudget
    ≤ s.maxSupply - s.currentSupply + s.accumulatedFees + s.witnessBudget
  paid : s'.received - s.received + record.leftoverWorkerFunds = record.workerBudget
  supply_nonneg : 0 ≤ s'.currentSupply
  supply_le : s'.currentSupply ≤ s'.maxSupply
  supply_change : s'.currentSupply - s.currentSupply
    = record.witnessBudget + (s'.created - s.created) - s.accumulatedFees - s.witnessBudget
  /-- for the next time -/
  inSupply : s'.accumulatedFees = 0 ∧ s'.witnessBudget = record.witnessBudget ∧
    s'.witnessBudget ≤ s'.currentSupply

lemma waiting_activeWorkers : Waiting s s.activeWorkers := by
  have hperm : s.activeWorkers.Perm
      (s.workers.objects.filter fun w => w.isActive s.headTime && 0 < w.approvingStake) :=
    perm_insertionSort _ _
  constructor
  · rw [(hperm.map Worker.id).nodup_iff]
    exact (filter_sublist.map Worker.id).nodup s.workers.nodup
  · intro w hw
    exact find_of_mem (mem_filter.1 (hperm.mem_iff.1 hw)).1

lemma totalBudget_bounds (h : WellFormed s) : 0 ≤ s.totalBudget ∧ s.totalBudget ≤ s.reserve := by
  have hres : 0 ≤ s.reserve := by
    have := h.fees
    have := h.unused
    have := h.supply
    unfold reserve reserved
    omega
  simp only [totalBudget]
  split
  · exact ⟨le_rfl, hres⟩
  · have hpro : 0 ≤ s.reserve * s.timeSinceLastBudget * 17 :=
      mul_nonneg (mul_nonneg hres (Int.natCast_nonneg _)) (by decide)
    have hbud : 0 ≤ (s.reserve * s.timeSinceLastBudget * 17 + (2 ^ 32 - 1)) / 2 ^ 32 :=
      Int.ediv_nonneg (by omega) (by decide)
    split
    next hless => exact ⟨hbud, hless.le⟩
    next => exact ⟨hres, le_rfl⟩

lemma workerBudgetOf_bounds {available : Int} (h : WellFormed s) (hava : 0 ≤ available)
    (hworker : 0 ≤ s.parameters.workerBudgetPerDay) :
    0 ≤ s.workerBudgetOf available ∧ s.workerBudgetOf available ≤ available := by
  have htime : 0 ≤ s.timeToMaint := by
    have hlt : s.headTime.toNat < s.nextMaintenanceTime.toNat := h.maintenance
    unfold timeToMaint
    omega
  have hbud : 0 ≤ s.parameters.workerBudgetPerDay * s.timeToMaint / 86400 :=
    Int.ediv_nonneg (mul_nonneg hworker htime) (by decide)
  simp only [workerBudgetOf]
  split
  next => exact ⟨hava, le_rfl⟩
  next hless => exact ⟨hbud, (not_le.1 hless).le⟩

/-- What is requested for witnesses and, as far as the budget for workers reaches, for workers can
be stored. -/
def Fits (s : BudgetState) : Prop :=
  s.requestedWitnessBudget < 2 ^ 63 ∧ PaysFit s s.activeWorkers
    (s.workerBudgetOf (s.totalBudget - min s.requestedWitnessBudget s.totalBudget))

lemma applyRecord_safe (h : WellFormed s)
    (hpaid : Paid s s' (record.workerBudget - record.leftoverWorkerFunds))
    (hleft : 0 ≤ record.leftoverWorkerFunds) (hwit : 0 ≤ record.witnessBudget)
    (hworker : 0 ≤ record.workerBudget)
    (htot : record.witnessBudget + record.workerBudget ≤ record.totalBudget)
    (hres : record.totalBudget ≤ s.reserve) (hfees : record.fromAccumulatedFees = s.accumulatedFees)
    (hunu : record.fromUnusedWitnessBudget = s.witnessBudget) :
    Safe s (s'.applyRecord record).1 (s'.applyRecord record).2 := by
  have hsup : (s'.applyRecord record).1.currentSupply = s'.currentSupply
      + (record.witnessBudget + record.workerBudget - record.leftoverWorkerFunds
        - s.accumulatedFees - s.witnessBudget) := by
    rw [← hfees, ← hunu]
    rfl
  -- the payments are part of the change, except for those that were given back
  have hcha : (s'.applyRecord record).1.currentSupply - s.currentSupply
      = record.witnessBudget + (s'.created - s.created) - s.accumulatedFees - s.witnessBudget := by
    have hnet := hpaid.net
    omega
  have hcre := hpaid.created_ge
  have hin := h.inSupply
  have hge : record.witnessBudget ≤ (s'.applyRecord record).1.currentSupply := by omega
  have hle : (s'.applyRecord record).1.currentSupply ≤ s'.maxSupply := by
    have hcre' := hpaid.created_le
    have hmax := hpaid.maxSupply
    unfold reserve reserved at hres
    omega
  refine ⟨hwit, hworker, htot, hres, ?_, hwit.trans hge, hle, hcha, rfl, rfl, hge⟩
  change s'.received - s.received + record.leftoverWorkerFunds = record.workerBudget
  rw [hpaid.received]
  ring

lemma processBudget_safe (h : WellFormed s) (hworker : 0 ≤ s.parameters.workerBudgetPerDay)
    (hrun : s.processBudget = .ok (s', record)) : Safe s s' record := by
  simp only [processBudget, bind_eq_ok, toShareType_eq_ok, pure_eq_ok] at hrun
  obtain ⟨requested, ⟨-, rfl⟩, ⟨s1, left⟩, hpay, hrec⟩ := hrun
  obtain ⟨htot, hres⟩ := totalBudget_bounds h
  have hreq : 0 ≤ s.requestedWitnessBudget := Int.emod_nonneg _ (by decide)
  have hwit : 0 ≤ min s.requestedWitnessBudget s.totalBudget := le_min hreq htot
  have hava : 0 ≤ s.totalBudget - min s.requestedWitnessBudget s.totalBudget := by omega
  have hbou := workerBudgetOf_bounds h hava hworker
  obtain ⟨hpaid, hleft, -⟩ := payLoop_paid hbou.1 (waiting_activeWorkers) hpay
  obtain ⟨rfl, rfl⟩ := Prod.mk.inj hrec
  refine applyRecord_safe h hpaid hleft hwit hbou.1 ?_ hres rfl rfl
  change min s.requestedWitnessBudget s.totalBudget + s.workerBudgetOf (s.totalBudget
    - min s.requestedWitnessBudget s.totalBudget) ≤ s.totalBudget
  omega

lemma processBudget_ok_iff : (∃ r, s.processBudget = .ok r) ↔ s.Fits := by
  unfold Fits
  rw [← payLoop_ok_iff (waiting_activeWorkers)]
  simp only [processBudget, bind_eq_ok, toShareType_eq_ok, pure_eq_ok]
  constructor
  · rintro ⟨r, requested, ⟨hfits, rfl⟩, p, hp, -⟩
    exact ⟨hfits, p, hp⟩
  · rintro ⟨hfits, p, hp⟩
    exact ⟨_, _, ⟨hfits, rfl⟩, p, hp, rfl⟩

/-- Whenever the budget is processed it is safe, and it is processed exactly when what is requested
for witnesses and workers fits into 64 bits. -/
theorem budget_safe (h : WellFormed s) (hworker : 0 ≤ s.parameters.workerBudgetPerDay) :
    (∃ s' record, s.processBudget = .ok (s', record) ∧ Safe s s' record) ↔ s.Fits := by
  rw [← processBudget_ok_iff]
  constructor
  · rintro ⟨s', record, hrun, -⟩
    exact ⟨_, hrun⟩
  · rintro ⟨⟨s', record⟩, hrun⟩
    exact ⟨s', record, hrun, processBudget_safe h hworker hrun⟩

def dailyMaintenance : ChainParameters where
  feesAreValid := true
  blockInterval := 5
  maintenanceInterval := 86400
  committeeProposalReviewPeriod := 1209600
  maximumTransactionSize := 2048
  maximumBlockSize := 2000000
  maximumTimeUntilExpiration := 86400
  maximumProposalLifetime := 2419200
  reservePercentOfFee := 2000
  networkPercentOfFee := 2000
  lifetimeReferrerPercentOfFee := 3000
  witnessPayPerBlock := 0
  workerBudgetPerDay := 500
  marketFeeNetworkPercent := none
  makerFeeDiscountPercent := none

def dailyParameters (witnessPayPerBlock : Int) : ValidParameters where
  toChainParameters := { dailyMaintenance with witnessPayPerBlock := witnessPayPerBlock }
  valid := (by decide : dailyMaintenance.validate = true)

def twoWorkers : Store Worker.id :=
  (Store.empty.write ⟨0, 0, 200000, 300, .refund 0, 20, 0⟩).write
    ⟨1, 0, 200000, 400, .vestingBalance 7, 10, 0⟩

def secondDay (witnessPayPerBlock : Int) : BudgetState where
  parameters := dailyParameters witnessPayPerBlock
  headTime := 172800
  nextMaintenanceTime := 259200
  lastBudgetTime := 86400
  witnessBudget := 10
  maxSupply := 1000000000000000
  currentSupply := 900000000000000
  accumulatedFees := 20
  workers := twoWorkers
  vestingBalances := Keyed.empty
  balances := Keyed.empty

lemma secondDay_wellFormed (pay : Int) : (secondDay pay).WellFormed := by
  refine ⟨?_, ?_, ?_, ?_, ?_⟩
  · change (0 : Int) ≤ 20
    decide
  · change (0 : Int) ≤ 10
    decide
  · change (20 : Int) + 10 ≤ 900000000000000
    decide
  · change (900000000000000 : Int) ≤ 1000000000000000
    decide
  · change (172800 : UInt32) < 259200
    decide

/-- Witnesses may get 17280, the first worker gives back 300, and for the second one there are
200 left. -/
theorem budget_safe_secondDay :
    ∃ s' record, (secondDay 1).processBudget = .ok (s', record) ∧ Safe (secondDay 1) s' record ∧
      record.witnessBudget = 17280 ∧ record.workerBudget = 500 ∧ s'.created = 200 := by
  have hfits : (secondDay 1).Fits := processBudget_ok_iff.1 ⟨_, rfl⟩
  obtain ⟨s', record, hrun, hsafe⟩ := (budget_safe (secondDay_wellFormed 1) (by decide)).2 hfits
  refine ⟨s', record, hrun, hsafe, ?_⟩
  cases hrun
  exact ⟨rfl, rfl, rfl⟩

/-- A pay of the whole supply for each block, which `validate` lets pass, does not fit into 64 bits
for the blocks of a day. -/
theorem witness_pay_overflows : (secondDay 1000000000000000).WellFormed ∧
      0 ≤ (secondDay 1000000000000000).parameters.witnessPayPerBlock ∧
      0 ≤ (secondDay 1000000000000000).parameters.workerBudgetPerDay ∧
      (secondDay 1000000000000000).processBudget = .error .overflow :=
  ⟨secondDay_wellFormed _, by decide, by decide, rfl⟩

end BudgetState

end Graphene.Maintenance
