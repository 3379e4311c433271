import Graphene.Market.FundLogic
import Graphene.Market.GlobalSettlement

/-!
# The fund of a globally settled asset

A settlement takes its part of the fund, rounded down, and pays for it what that part is worth at
the settlement price, rounded up.  So the fund never has less than its part for the supply that is
left, and no settlement fails because the fund is too small.  Who settles the whole supply takes the
whole fund, of which fees are deducted.
-/

namespace Graphene.Market

open Protocol Lib RunLogic List BitassetData Env
open Asset (amount mul neg)
open SettleResult (change)

variable {s t u : MarketState} {env : Env} {cx : Context} {a backing : AssetId} {supply0 fund0 : ℤ}

/-- The asset was settled with the given supply and fund, and the fund has its part for the supply
that is left.  No account holds more than the supply. -/
structure Solvent (a backing : AssetId) (supply0 fund0 : ℤ) (s : MarketState) : Prop where
  data : ∃ b, s.bitassets.find a = some b ∧
    b.settlementPrice = ⟨⟨supply0, a⟩, ⟨fund0, backing⟩⟩ ∧ b.shortBackingAsset = backing ∧
    0 ≤ b.settlementFund ∧ s.currentSupply.get a * fund0 ≤ b.settlementFund * supply0
  solid : s.Solid
  held_le : s.held a ≤ s.currentSupply.get a

variable {b : BitassetData} {supply : ℤ} {settled : Asset} {op : AssetSettle} {x : Unit}

lemma settledAmount_part {amount : Asset}
    (hprice : b.settlementPrice = ⟨⟨supply0, a⟩, ⟨fund0, backing⟩⟩) (hasset : amount.assetId = a)
    (hne : amount.amount ≠ supply) (h : b.settledAmount supply amount = .ok settled) :
    0 < supply0 ∧ settled = ⟨amount.amount * fund0 / supply0, backing⟩ := by
  rw [settledAmount, if_neg hne, mul, hprice, Asset.mulBy_base hasset,
    Asset.scale_eq_ok] at h
  exact ⟨h.1, h.2.2⟩

lemma fund_suffices {amount fund : ℤ} (hsup : 0 < supply0) (hfund : 0 < fund0)
    (hamt : amount ≤ supply) (hsolvent : supply * fund0 ≤ fund * supply0) :
    amount * fund0 / supply0 ≤ fund := by
  apply Int.ediv_le_of_le_mul hsup
  calc amount * fund0 ≤ supply * fund0 := mul_le_mul_of_nonneg_right hamt hfund.le
    _ ≤ fund * supply0 := hsolvent

lemma paysForSettled_covers {amount pays : Asset}
    (hprice : b.settlementPrice = ⟨⟨supply0, a⟩, ⟨fund0, backing⟩⟩) (hast : a ≠ backing)
    (hfund : 0 < fund0) (hasset : amount.assetId = a) (hnon : 0 ≤ amount.amount)
    (hne : amount.amount ≠ supply) (hsettled : settled.assetId = backing)
    (h : b.paysForSettled supply amount settled = .ok pays) :
    pays.assetId = a ∧ settled.amount * supply0 ≤ pays.amount * fund0 := by
  unfold paysForSettled at h
  split at h
  next =>
    rw [Asset.multiplyAndRoundUp, hprice, Asset.mulBy_quote hast hsettled, Asset.scale_eq_ok] at h
    obtain ⟨-, -, rfl⟩ := h
    refine ⟨rfl, ?_⟩
    have hdiv := Int.lt_ediv_add_one_mul_self (settled.amount * supply0 + fund0 - 1) hfund
    rw [add_mul, one_mul] at hdiv
    change settled.amount * supply0 ≤ (settled.amount * supply0 + fund0 - 1) / fund0 * fund0
    omega
  next hzero =>
    cases h
    have hset : settled.amount = 0 := not_not.1 fun hz => hzero ⟨hne, hz⟩
    refine ⟨hasset, ?_⟩
    rw [hset, zero_mul]
    exact mul_nonneg hnon hfund.le

/-! ## Settling -/

lemma andCheckSettle {β : Type} {d : β → FundChange} {f : Unit → MarketM β}
    (hf : 0 ≤ op.amount.amount → op.amount.amount ≤ s.getBalance op.account op.amount.assetId →
      fundLogic.Holds s (f ()) d) : fundLogic.Holds s (env.checkSettle op >>= f) d := by
  unfold checkSettle
  simp only [bind_assoc]
  refine holds_require nofun fun hamt => fundRules.andGetAsset fun _ =>
    holds_bitassetData nofun fun b _ => ?_
  refine holds_require nofun fun _ =>
    holds_require nofun fun _ => holds_require nofun fun _ => holds_observe ?_
  refine holds_require nofun fun hba =>
    holds_require nofun fun _ => holds_require nofun fun _ => ?_
  exact hf (of_decide_eq_true hamt) (of_decide_eq_true hba)

section

variable (h : Solvent a backing supply0 fund0 s)
include h

lemma Solvent.of_moves (hm : Moves s t 0) : Solvent a backing supply0 fund0 t := by
  obtain ⟨b, hb, hprice, hbac, hnon, hsolvent⟩ := h.data
  have hsup : t.currentSupply.get a = s.currentSupply.get a := (hm.supply a).trans (add_zero _)
  have hheld : t.held a = s.held a := (hm.held a).trans (add_zero _)
  refine ⟨⟨b, ?_, hprice, hbac, hnon, ?_⟩, hm.solid h.solid, ?_⟩
  · rw [hm.fund, hb]
    exact congrArg some (takeFromFund_zero b)
  · rw [hsup]
    exact hsolvent
  · rw [hsup, hheld]
    exact h.held_le

lemma Solvent.getBalance_le (account : AccountId) : s.getBalance account a ≤ s.currentSupply.get a :=
  (h.solid.getBalance_le account a).trans h.held_le

lemma Solvent.enough (hfund : 0 < fund0)
    (hb : s.bitassets.find a = some b) (hop : op.amount.assetId = a)
    (hnon : 0 ≤ op.amount.amount) (hba : op.amount.amount ≤ s.getBalance op.account a)
    (hsettled : b.settledAmount (s.currentSupply.get a) op.amount = .ok settled) :
    0 ≤ settled.amount ∧
      (op.amount.amount = s.currentSupply.get a ∨ settled.amount ≤ b.settlementFund) := by
  obtain ⟨b', hb', hprice, -, hpos, hsolvent⟩ := h.data
  obtain rfl : b = b' := Option.mem_unique hb hb'
  have hle := hba.trans (h.getBalance_le op.account)
  by_cases hwhole : op.amount.amount = s.currentSupply.get a
  · rw [settledAmount, if_pos hwhole] at hsettled
    cases hsettled
    exact ⟨hpos, .inl hwhole⟩
  · obtain ⟨hsup, rfl⟩ := settledAmount_part hprice hop hwhole hsettled
    refine ⟨Int.ediv_nonneg (mul_nonneg hnon hfund.le) hsup.le, .inr ?_⟩
    exact fund_suffices hsup hfund hle hsolvent

lemma Solvent.applySettle_eq (hast : a ≠ backing)
    (hop : op.amount.assetId = a) : cx.applySettle op s = (do
      let _ ← cx.env.getAsset op.amount.assetId
      let result ← cx.env.paySettleFromGsFund op
      return (some result, none)) s := by
  obtain ⟨b, hb, hprice, -⟩ := h.data
  have hsettled : b.IsGloballySettled := by
    rintro ⟨hbase, hquote⟩
    rw [hprice] at hbase hquote
    exact hast (hbase.trans hquote.symm)
  unfold Context.applySettle
  cases hasset : cx.env.asset op.amount.assetId with
  | none =>
    simp only [getAsset, hasset]
    rfl
  | some asset =>
    simp only [getAsset, hasset]
    change (bitassetData op.amount.assetId >>= _) s = _
    rw [bitassetData_bind (hop ▸ hb), if_pos hsettled]
    rfl

lemma Solvent.moves_assetSettle (hast : a ≠ backing)
    (hfund : 0 < fund0) (hop : op.amount.assetId = a) :
    fundLogic.Holds s (cx.assetSettle op) fun r =>
      r.1.elim 0 (fun result => result.change op.account a) + credit op.account op.fee.neg := by
  refine fundRules.andPrepareFee fun coreFeePaid hfee => andCheckSettle fun hamt hba => ?_
  have hcon : fundLogic.Holds s (cx.env.convertAndPayFee op.account op.fee coreFeePaid) _ :=
    fundRules.convertAndPay op.account op.fee coreFeePaid
  simp only [AddMonoidHom.zero_apply, ite_self] at hcon
  refine Holds.andThen hcon fun _ t ht => ?_
  have hmov : Moves s t 0 := hcon.step ht
  have ht := h.of_moves hmov
  obtain ⟨b, hb, -⟩ := ht.data
  have hbal : op.amount.amount ≤ t.getBalance op.account a := by
    rw [hmov.balances, ← hop]
    exact hba.trans (add_zero _).ge
  have hpay : fundLogic.Holds t (cx.env.paySettleFromGsFund op) _ :=
    moves_paySettleFromGsFund (hop ▸ hb) fun settled hsettled => by
      rw [hop] at hsettled ⊢
      exact ht.enough hfund hb hop hamt hbal hsettled
  have happly : fundLogic.Holds t (cx.applySettle op) fun r =>
      r.1.elim 0 fun result => result.change op.account a := by
    unfold Holds
    rw [ht.applySettle_eq hast hop]
    refine fundRules.andGetAsset fun _ => hpay.bind fun result v _ => holds_pure ?_
    rw [hop]
    exact sub_self _
  refine happly.bind fun r v _ => ?_
  refine (moves_adjustBalance op.fee.neg).bind fun _ w _ => holds_pure ?_
  abel

end

lemma paySettleFromGsFund_amounts {r : SettleResult}
    (hb : s.bitassets.find op.amount.assetId = some b)
    (h : env.paySettleFromGsFund op s = .ok r t) :
    ∃ settled, b.settledAmount (s.currentSupply.get op.amount.assetId) op.amount = .ok settled ∧
      b.paysForSettled (s.currentSupply.get op.amount.assetId) op.amount settled = .ok r.paid ∧
      r.received.amount + (r.fees.map amount).sum = settled.amount ∧
      r.received.assetId = settled.assetId := by
  unfold paySettleFromGsFund at h
  rw [bitassetData_bind hb, observe_bind] at h
  simp only [bind_ok_iff, calculate_ok_iff] at h
  obtain ⟨settled, t1, ⟨hsettled, rfl⟩, _, t2, -, _, t3, -, pays, t4, ⟨hpays, rfl⟩, _, t5, -,
    ⟨received, fees⟩, t6, hpay, _, t7, -, h⟩ := h
  cases h
  refine ⟨settled, hsettled, hpays, ?_⟩
  unfold payFromFund at hpay
  split at hpay
  next =>
    obtain ⟨_, t8, -, hout⟩ := bind_ok_iff.1 hpay
    exact payOut_total t8 _ _ hout
  next =>
    cases hpay
    simp

lemma checkSettle_ok (h : env.checkSettle op s = .ok x t) :
    t = s ∧ 0 ≤ op.amount.amount ∧ op.amount.amount ≤ s.getBalance op.account op.amount.assetId := by
  unfold checkSettle getAsset at h
  simp only [bind_ok_iff, require_ok_iff, observe_ok_iff, bitassetData_ok_iff, orThrow_ok_iff,
    decide_eq_true_eq] at h
  obtain ⟨_, _, ⟨hamt, rfl⟩, _, _, ⟨-, rfl⟩, _, _, ⟨-, rfl⟩, _, _, ⟨-, rfl⟩, _, _, ⟨-, rfl⟩, _, _,
    ⟨-, rfl⟩, _, _, ⟨rfl, rfl⟩, _, _, ⟨hba, rfl⟩, _, _, ⟨-, rfl⟩, -, rfl⟩ := h
  exact ⟨rfl, hamt, hba⟩

structure SettledFrom (a : AssetId) (s u : MarketState) (op : AssetSettle) (result : SettleResult)
    (b : BitassetData) (settled : Asset) : Prop where
  moves : Moves s u (result.change op.account a + credit op.account op.fee.neg)
  fee : 0 ≤ op.fee.amount
  amount : 0 ≤ op.amount.amount
  balance : op.amount.amount ≤ s.getBalance op.account a
  found : s.bitassets.find a = some b
  takes : b.settledAmount (s.currentSupply.get a) op.amount = .ok settled
  paid : b.paysForSettled (s.currentSupply.get a) op.amount settled = .ok result.paid
  total : result.received.amount + (result.fees.map Asset.amount).sum = settled.amount
  received : result.received.assetId = settled.assetId

lemma Solvent.assetSettle_ok (h : Solvent a backing supply0 fund0 s) (hast : a ≠ backing)
    (hfund : 0 < fund0) (hop : op.amount.assetId = a) {r : Option SettleResult × Option Nat}
    (hrun : cx.assetSettle op s = .ok r u) :
    ∃ result b settled, r = (some result, none) ∧ SettledFrom a s u op result b settled := by
  have hmov := (h.moves_assetSettle hast hfund hop).step hrun
  unfold Context.assetSettle at hrun
  simp only [bind_ok_iff] at hrun
  obtain ⟨coreFeePaid, s1, hpre, _, s2, hchk, _, s3, hcon, _, s4, happly, _, s5, -, hr⟩ :=
    hrun
  cases hr
  obtain ⟨rfl, hamt, hba⟩ := checkSettle_ok hchk
  -- up to here nothing has moved
  have hm1 : Moves s s2 0 := (fundRules.prepare op.account op.fee _).step hpre
  have hm2 : Moves s2 s3 0 := by
    have hstep := (fundRules.convertAndPay op.account op.fee coreFeePaid).step hcon
    simp only [AddMonoidHom.zero_apply, ite_self] at hstep
    exact hstep
  have hsolvent := (h.of_moves hm1).of_moves hm2
  have hm : Moves s s3 0 := by
    have := hm1.trans hm2
    rwa [add_zero] at this
  rw [hsolvent.applySettle_eq hast hop] at happly
  simp only [bind_ok_iff] at happly
  obtain ⟨_, s6, hasset, result, s7, hpay, hr⟩ := happly
  cases hr
  obtain ⟨-, rfl⟩ := orThrow_ok_iff.1 hasset
  obtain ⟨b, hb, -⟩ := h.data
  have hb' : s6.bitassets.find op.amount.assetId = some b := by
    rw [hop, hm.fund, hb]
    exact congrArg some (takeFromFund_zero b)
  have hsup : s6.currentSupply.get op.amount.assetId = s.currentSupply.get a := by
    rw [hop]
    exact (hm.supply a).trans (add_zero _)
  obtain ⟨settled, hsettled, hpaid, htot, hrec⟩ := paySettleFromGsFund_amounts hb' hpay
  rw [hsup] at hsettled hpaid
  refine ⟨result, b, settled, rfl, hmov, prepareFee_nonneg _ _ _ hpre, hamt, ?_, hb,
    hsettled, hpaid, htot, hrec⟩
  rw [hop, hm1.balances] at hba
  exact hba.trans (add_zero _).le

section Change

variable {r : SettleResult} {account : AccountId} {fee : Asset}

lemma change_held (hpaid : r.paid.assetId = a) (hrec : r.received.assetId ≠ a) :
    (r.change account a + credit account fee.neg).2.1 a
      = -r.paid.amount - if fee.assetId = a then fee.amount else 0 := by
  by_cases hfee : fee.assetId = a
  · simp [change, credit, issued, taken, neg, hpaid, hrec.symm, hfee, sub_eq_add_neg]
  · simp [change, credit, issued, taken, neg, hpaid, hrec.symm, hfee, Ne.symm hfee]

lemma change_supply : (r.change account a + credit account fee.neg).2.2.1 a = -r.paid.amount := by
  simp [change, credit, issued, taken]

lemma change_taken : (r.change account a + credit account fee.neg).2.2.2 a
      = r.received.amount + (r.fees.map amount).sum := by
  simp [change, credit, issued, taken]

end Change

variable {result : SettleResult}

lemma SettledFrom.whole (hx : SettledFrom a s u op result b settled)
    (hwhole : op.amount.amount = s.currentSupply.get a) :
    settled = ⟨b.settlementFund, b.shortBackingAsset⟩ ∧ result.paid = op.amount := by
  have htakes := hx.takes
  have hpaid := hx.paid
  rw [settledAmount, if_pos hwhole] at htakes
  rw [paysForSettled, if_neg fun hne => hne.1 hwhole] at hpaid
  exact ⟨(Except.ok.inj htakes).symm, (Except.ok.inj hpaid).symm⟩

section

variable (h : Solvent a backing supply0 fund0 s) (hast : a ≠ backing) (hfund : 0 < fund0)
  (hop : op.amount.assetId = a) (hx : SettledFrom a s u op result b settled)
include h hast hfund hop hx

lemma SettledFrom.amounts :
    result.paid.assetId = a ∧ settled.assetId = backing ∧ settled.amount ≤ b.settlementFund ∧
      (s.currentSupply.get a - result.paid.amount) * fund0
        ≤ (b.settlementFund - settled.amount) * supply0 := by
  obtain ⟨b', hb', hprice, hbac, hpos, hsolvent⟩ := h.data
  obtain rfl : b = b' := Option.mem_unique hx.found hb'
  by_cases hwhole : op.amount.amount = s.currentSupply.get a
  · obtain ⟨rfl, hpaid⟩ := hx.whole hwhole
    rw [hpaid]
    refine ⟨hop, hbac, le_rfl, ?_⟩
    rw [hwhole, sub_self, sub_self, zero_mul, zero_mul]
  · obtain ⟨-, heno⟩ := h.enough hfund hx.found hop hx.amount hx.balance hx.takes
    have hle := heno.resolve_left hwhole
    obtain ⟨-, rfl⟩ := settledAmount_part hprice hop hwhole hx.takes
    obtain ⟨hpaid, hcov⟩ := paysForSettled_covers hprice hast hfund hop hx.amount hwhole rfl hx.paid
    refine ⟨hpaid, rfl, hle, ?_⟩
    rw [sub_mul, sub_mul]
    omega

lemma SettledFrom.solvent : Solvent a backing supply0 fund0 u := by
  obtain ⟨hpaid, hsettled, hle, hsolvent⟩ := hx.amounts h hast hfund hop
  obtain ⟨b', hb', hprice, hbac, -, -⟩ := h.data
  obtain rfl : b = b' := Option.mem_unique hx.found hb'
  have hrec : result.received.assetId ≠ a := by
    rw [hx.received, hsettled]
    exact hast.symm
  have hsup : u.currentSupply.get a = s.currentSupply.get a - result.paid.amount := by
    rw [hx.moves.supply, change_supply, sub_eq_add_neg]
  refine ⟨⟨b.takeFromFund settled.amount, ?_, hprice, hbac, sub_nonneg.2 hle, ?_⟩,
    hx.moves.solid h.solid, ?_⟩
  · rw [hx.moves.fund, hx.found, change_taken, hx.total]
    rfl
  · rw [hsup]
    exact hsolvent
  · rw [hx.moves.held, change_held hpaid hrec, hsup]
    have hheld := h.held_le
    have hfee := hx.fee
    split
    · omega
    · omega

end

/-! ## Reserving -/

lemma moves_assetReserve {op : AssetReserve} : fundLogic.Holds s (env.assetReserve op) fun _ =>
      credit op.payer op.amountToReserve.neg + issued op.amountToReserve.neg
        + credit op.payer op.fee.neg := by
  refine fundRules.andPrepareFee fun coreFeePaid _ => ?_
  refine Holds.andThen ?_ fun _ s1 _ => ?_
  · refine holds_require nofun fun _ => fundRules.andGetAsset fun _ =>
      holds_observe (holds_require nofun fun _ => holds_require nofun fun _ => holds_observe ?_)
    rw [← bind_pure (require _ _)]
    exact holds_require nofun fun _ => holds_pure rfl
  · have hcon : fundLogic.Holds s1 (env.convertAndPayFee op.payer op.fee coreFeePaid) _ :=
      fundRules.convertAndPay op.payer op.fee coreFeePaid
    simp only [AddMonoidHom.zero_apply, ite_self] at hcon
    refine Holds.andThen hcon fun _ s2 _ => ?_
    refine Holds.bind (e := fun _ => credit op.payer op.amountToReserve.neg
      + issued op.amountToReserve.neg) ?_ fun _ s3 _ => ?_
    · refine (moves_adjustBalance _).bind fun _ s3 _ => ?_
      simp only [add_sub_cancel_left]
      exact moves_changeSupply (-op.amountToReserve.amount)
    · have hfee : fundLogic.Holds s3 (adjustBalance op.payer op.fee.neg) _ :=
        moves_adjustBalance op.fee.neg
      simpa only [add_sub_cancel_left] using hfee

lemma assetReserve_notMarketIssued {op : AssetReserve} (h : env.assetReserve op s = .ok x t) :
    s.bitassets.find op.amountToReserve.assetId = none ∧ 0 ≤ op.fee.amount := by
  obtain ⟨coreFeePaid, s1, hpre, hrest⟩ := bind_ok_iff.1 h
  obtain ⟨_, s2, hchk, -⟩ := bind_ok_iff.1 hrest
  have hm : Moves s s1 0 := (fundRules.prepare op.payer op.fee _).step hpre
  unfold checkReserve getAsset at hchk
  simp only [bind_ok_iff, require_ok_iff, observe_ok_iff, orThrow_ok_iff, decide_eq_true_eq] at hchk
  obtain ⟨_, _, ⟨-, rfl⟩, _, _, ⟨-, rfl⟩, _, _, ⟨rfl, rfl⟩, _, _, ⟨hisd, rfl⟩, -⟩ := hchk
  refine ⟨?_, prepareFee_nonneg _ _ _ hpre⟩
  rw [hm.fund] at hisd
  simpa using hisd

lemma Solvent.reserve (h : Solvent a backing supply0 fund0 s) {op : AssetReserve}
    (hrun : env.assetReserve op s = .ok x u) : Solvent a backing supply0 fund0 u := by
  obtain ⟨b, hb, hprice, hbac, hpos, hsolvent⟩ := h.data
  obtain ⟨hnone, hfee⟩ := assetReserve_notMarketIssued hrun
  have hoth : a ≠ op.amountToReserve.assetId := by
    rintro rfl
    rw [hnone] at hb
    cases hb
  have hm : Moves s u _ := moves_assetReserve.step hrun
  have hsup : u.currentSupply.get a = s.currentSupply.get a := by
    rw [hm.supply]
    simp [credit, issued, neg, hoth]
  have hheld : u.held a ≤ s.held a := by
    rw [hm.held]
    by_cases hf : a = op.fee.assetId
    · simp [credit, issued, neg, hoth, ← hf, hfee]
    · simp [credit, issued, neg, hoth, hf]
  refine ⟨⟨b, ?_, hprice, hbac, hpos, ?_⟩, hm.solid h.solid, ?_⟩
  · rw [hm.fund, hb]
    simp [credit, issued, takeFromFund_zero]
  · rw [hsup]
    exact hsolvent
  · rw [hsup]
    exact hheld.trans h.held_le

/-! ## After a global settlement -/

lemma GloballySettled.solvent {parts : List (CallOrder × Closing)}
    (h : GloballySettled s t b parts) (hast : b.assetId ≠ b.shortBackingAsset)
    (hbac : ∀ c ∈ s.callOrders.objects, c.debtType = b.assetId →
      c.collateralType = b.shortBackingAsset) (hsolid : s.Solid)
    (hheld : s.held b.assetId ≤ s.currentSupply.get b.assetId)
    (hfund : 0 < gathered parts + b.individualSettlementFund) :
    Solvent b.assetId b.shortBackingAsset (s.currentSupply.get b.assetId)
      (gathered parts + b.individualSettlementFund) t := by
  have hcol : ∀ part ∈ parts, part.1.collateralType = b.shortBackingAsset := by
    intro part hpart
    have hmem := h.positions.mem_iff.1 (mem_map_of_mem hpart)
    rw [mem_filter, decide_eq_true_eq] at hmem
    exact hbac part.1 hmem.1 hmem.2
  have hsame : ∀ p, balanceWeight b.assetId p (t.pockets.get p)
      = balanceWeight b.assetId p (s.pockets.get p) := by
    intro p
    cases p with
    | balance account a' =>
      by_cases ha : a' = b.assetId
      · subst ha
        have hzero : (parts.map fun part =>
            closingPays part.1 part.2 (.balance account b.assetId)).sum = 0 := by
          refine sum_eq_zero fun x hx => ?_
          obtain ⟨part, hpart, rfl⟩ := mem_map.1 hx
          simp [closingPays, hcol part hpart, hast]
        rw [h.pockets, hzero, add_zero]
      · simp [balanceWeight, ha]
    | _ => rfl
  have hhee : t.held b.assetId = s.held b.assetId := Tally.total_congr hsame
  refine ⟨⟨_, h.bitasset, rfl, rfl, hfund.le, ?_⟩, fun account a => ?_, ?_⟩
  · rw [h.currentSupply]
    exact (mul_comm _ _).le
  · refine le_of_le_of_eq ?_ (h.pockets (.balance account a)).symm
    refine add_nonneg (hsolid account a) (sum_nonneg fun x hx => ?_)
    obtain ⟨part, hpart, rfl⟩ := mem_map.1 hx
    have hle := (h.closings part hpart).pays_le
    simp only [closingPays, reduceCtorEq, if_false, add_zero]
    split
    · omega
    · exact le_rfl
  · rw [hhee, h.currentSupply]
    exact hheld

/-- What happens to other assets, or to the asset without settling it: its fund and its supply stay
as they are, and accounts still hold no more than the supply. -/
structure Elsewhere (a : AssetId) (s t : MarketState) : Prop where
  data : ∀ b, s.bitassets.find a = some b → ∃ b', t.bitassets.find a = some b' ∧
    b'.settlementPrice = b.settlementPrice ∧ b'.settlementFund = b.settlementFund ∧
    b'.shortBackingAsset = b.shortBackingAsset
  supply : t.currentSupply.get a = s.currentSupply.get a
  solid : s.Solid → t.Solid
  held : s.held a ≤ s.currentSupply.get a → t.held a ≤ t.currentSupply.get a

/-- The operations after the global settlement of an asset. -/
inductive FundStep (a : AssetId) : MarketState → MarketState → Prop
  | settle {s t : MarketState} (env : Env) (depth : ℕ) (op : AssetSettle)
      (r : Option SettleResult × Option Nat) : op.amount.assetId = a →
      (env.context depth).assetSettle op s = .ok r t → FundStep a s t
  | reserve {s t : MarketState} (env : Env) (op : AssetReserve) :
      env.assetReserve op s = .ok () t → FundStep a s t
  | elsewhere {s t : MarketState} : Elsewhere a s t → FundStep a s t

section

variable (hast : a ≠ backing) (hfund : 0 < fund0) (h : Solvent a backing supply0 fund0 s)
include hast hfund h

lemma Solvent.step (hstep : FundStep a s t) : Solvent a backing supply0 fund0 t := by
  cases hstep with
  | settle env depth op r hop hrun =>
    obtain ⟨result, b, settled, -, hx⟩ := h.assetSettle_ok hast hfund hop hrun
    exact hx.solvent h hast hfund hop
  | reserve env op hrun => exact h.reserve hrun
  | elsewhere helse =>
    obtain ⟨b, hb, hprice, hbac, hpos, hsolvent⟩ := h.data
    obtain ⟨b', hb', hprc', hfund', hbac'⟩ := helse.data b hb
    refine ⟨⟨b', hb', hprc'.trans hprice, hbac'.trans hbac, ?_, ?_⟩,
      helse.solid h.solid, helse.held h.held_le⟩
    · rw [hfund']
      exact hpos
    · rw [helse.supply, hfund']
      exact hsolvent

lemma Solvent.run (hrun : Relation.ReflTransGen (FundStep a) s t) :
    Solvent a backing supply0 fund0 t := by
  induction hrun with
  | refl => exact h
  | tail _ hstep ih => exact ih.step hast hfund hstep

end

/-- The whole fund has been paid out for the whole supply: to the account, less the fees. -/
structure WholeFundPaid (a : AssetId) (s u : MarketState) (op : AssetSettle) (result : SettleResult)
    (b : BitassetData) : Prop where
  found : s.bitassets.find a = some b
  paid : result.paid = op.amount
  total : result.received.amount + (result.fees.map Asset.amount).sum = b.settlementFund
  received : u.getBalance op.account b.shortBackingAsset
    = s.getBalance op.account b.shortBackingAsset + result.received.amount
      - if op.fee.assetId = b.shortBackingAsset then op.fee.amount else 0
  fund : u.bitassets.find a = some (b.takeFromFund b.settlementFund)
  supply : u.currentSupply.get a = 0

lemma SettledFrom.wholeFundPaid (h : Solvent a backing supply0 fund0 s) (hast : a ≠ backing)
    (hop : op.amount.assetId = a) (hx : SettledFrom a s u op result b settled)
    (hwhole : op.amount.amount = s.currentSupply.get a) : WholeFundPaid a s u op result b := by
  obtain ⟨b', hb', -, hbac, -⟩ := h.data
  obtain rfl : b = b' := Option.mem_unique hx.found hb'
  obtain ⟨rfl, hpaid⟩ := hx.whole hwhole
  have hne : b.shortBackingAsset ≠ op.amount.assetId := by
    rw [hop, hbac]
    exact hast.symm
  refine ⟨hx.found, hpaid, hx.total, ?_, ?_, ?_⟩
  · rw [hx.moves.balances]
    have hrec : result.received.assetId = b.shortBackingAsset := hx.received
    by_cases hfee : op.fee.assetId = b.shortBackingAsset
    · simp [change, credit, issued, taken, neg, hpaid, hne, hrec, hfee]
      ring
    · simp [change, credit, issued, taken, neg, hpaid, hne, hrec, hfee, Ne.symm hfee]
  · rw [hx.moves.fund, hx.found, change_taken, hx.total]
    rfl
  · rw [hx.moves.supply, change_supply, hpaid, hwhole, add_neg_cancel]

/-- A global settlement succeeds unless the product of a debt and the price is too large.  It splits the
collateral of all positions into the fund, the collateral fees and what is returned, and closes all
positions.  Afterwards the fund has its part for the supply that is left, whatever is settled, so no
settlement fails because the fund is too small; and the whole fund is paid for the whole supply. -/
theorem global_settlement_solvent (s : MarketState) (b : BitassetData) (p : Price)
    (checkMarginCalls : Bool) (h : Settleable s b p checkMarginCalls) (hsolid : s.Solid)
    (hheld : s.held b.assetId ≤ s.currentSupply.get b.assetId) :
    ((∀ c ∈ s.callOrders.objects, c.debtType = b.assetId → FitsAt c p) →
        ∃ s', globallySettleAsset b.assetId p checkMarginCalls s = .ok () s') ∧
      ∀ s', globallySettleAsset b.assetId p checkMarginCalls s = .ok () s' →
        ∃ parts, GloballySettled s s' b parts ∧ (0 < gathered parts + b.individualSettlementFund →
            ∀ t, Relation.ReflTransGen (FundStep b.assetId) s' t →
              Solvent b.assetId b.shortBackingAsset (s.currentSupply.get b.assetId)
                (gathered parts + b.individualSettlementFund) t ∧
              ∀ (env : Env) (depth : ℕ) (op : AssetSettle), op.amount.assetId = b.assetId →
                (∀ e u, (env.context depth).assetSettle op t = .error e u → e ≠ .fundInsufficient) ∧
                ∀ r u, (env.context depth).assetSettle op t = .ok r u →
                  op.amount.amount = t.currentSupply.get b.assetId →
                  ∃ result b', r = (some result, none) ∧
                    WholeFundPaid b.assetId t u op result b') := by
  refine ⟨fun hfits => ?_, fun s' hrun => ?_⟩
  · rcases globallySettleAsset_run h with ⟨s', parts, hrun, -⟩ | ⟨⟨c, hc, hdebt, hnot⟩, -⟩
    · exact ⟨s', hrun⟩
    · exact absurd (hfits c hc hdebt) hnot
  · rcases globallySettleAsset_run h with ⟨s'', parts, hrun', hsettled⟩ | ⟨-, e, u, herr⟩
    · rw [hrun] at hrun'
      cases hrun'
      refine ⟨parts, hsettled, fun hfund t hsteps => ?_⟩
      have hsolvent := (hsettled.solvent h.assets h.backing hsolid hheld hfund).run h.assets hfund hsteps
      refine ⟨hsolvent, fun env depth op hop => ⟨fun e u herr => ?_, fun r u hok hwhole => ?_⟩⟩
      · exact (hsolvent.moves_assetSettle h.assets hfund hop).fail herr
      · obtain ⟨result, b', settled, hr, hx⟩ := hsolvent.assetSettle_ok h.assets hfund hop hok
        exact ⟨result, b', hr, hx.wholeFundPaid hsolvent h.assets hop hwhole⟩
    · rw [hrun] at herr
      cases herr

def overcollateralized : BitassetData where
  assetId := 1
  shortBackingAsset := 0
  blackSwanResponseMethod := .globalSettlement
  marginCallFeeRatio := none
  medianFeed := ⟨⟨⟨1, 1⟩, ⟨1, 0⟩⟩, 1750, 1100⟩
  currentFeed := ⟨⟨⟨1, 1⟩, ⟨1, 0⟩⟩, 1750, 1100⟩
  currentMaintenanceCollateralization := ⟨⟨7, 0⟩, ⟨4, 1⟩⟩
  isPredictionMarket := false
  settlementPrice := PriceFeed.nullPrice
  settlementFund := 0
  individualSettlementDebt := 0
  individualSettlementFund := 0

def lastHolderState : MarketState :=
  { MarketState.empty with
    pockets := Tally.add Keyed.empty (.balance 7 1) 1000
    currentSupply := Tally.add Keyed.empty 1 1000
    callOrders := (Store.empty.write ⟨0, 5, 1200, 600, 0, 1, none⟩).write ⟨1, 6, 800, 400, 0, 1, none⟩
    bitassets := Keyed.empty.put overcollateralized }

def priceOfTwo : Price :=
  ⟨⟨1000, 1⟩, ⟨2000, 0⟩⟩

lemma lastHolderState_settleable : Settleable lastHolderState overcollateralized priceOfTwo false where
  found := rfl
  notSettled := by decide
  assets := by decide
  bounded := by
    intro c hc
    fin_cases hc <;> exact ⟨by decide, by decide, by decide, by decide⟩
  backing := by decide
  price := ⟨rfl, rfl, by decide, by decide⟩
  price_pos := nofun
  ratio := by decide

def settledState : MarketState :=
  endOf (globallySettleAsset 1 priceOfTwo false) lastHolderState

/-- Two positions are settled, and then a holder settles 300 of the supply of 1000. -/
theorem global_settlement_solvent_lastHolder :
    ∃ parts t, globallySettleAsset 1 priceOfTwo false lastHolderState = .ok () settledState ∧
      GloballySettled lastHolderState settledState overcollateralized parts ∧
      t.currentSupply.get 1 = 700 ∧ Solvent 1 0 1000 2000 t := by
  obtain ⟨hsucceeds, hsettles⟩ := global_settlement_solvent lastHolderState overcollateralized priceOfTwo
    false lastHolderState_settleable (MarketState.solid_of_entries (by decide)) (by decide)
  have hrun : globallySettleAsset 1 priceOfTwo false lastHolderState = .ok () settledState := by
    obtain ⟨s', hrun⟩ := hsucceeds (by unfold FitsAt; decide)
    have hend : settledState = s' := by
      change endOf (globallySettleAsset overcollateralized.assetId priceOfTwo false) _ = s'
      rw [endOf, hrun]
    rw [hend]
    exact hrun
  obtain ⟨parts, hsettled, hsolvent⟩ := hsettles _ hrun
  have hfund : gathered parts + overcollateralized.individualSettlementFund = 2000 := by
    have hdata : (settledState.bitassets.find overcollateralized.assetId).map settlementFund
        = some 2000 := by decide +kernel
    rw [hsettled.bitasset] at hdata
    exact Option.some.inj hdata
  have hstep : FundStep 1 settledState _ := .settle plain 0 ⟨⟨0, 0⟩, 7, ⟨300, 1⟩⟩
    (some ⟨⟨300, 1⟩, ⟨330, 0⟩, [⟨270, 0⟩, ⟨0, 0⟩]⟩, none) rfl (run_endOf (by decide +kernel))
  have ht := (hsolvent (by rw [hfund]; decide) _ (.single hstep)).1
  rw [hfund] at ht
  exact ⟨parts, _, hrun, hsettled, by decide +kernel, ht⟩

/-- The holder of the whole supply takes the whole fund of 2000, of which 900 are collateral fees. -/
theorem last_holder_pays_collateral_fees :
    Settleable lastHolderState overcollateralized priceOfTwo false ∧ resultOf (do
        globallySettleAsset 1 priceOfTwo false
        (plain.context 0).assetSettle ⟨⟨0, 0⟩, 7, ⟨1000, 1⟩⟩) lastHolderState
        = some (some ⟨⟨1000, 1⟩, ⟨1100, 0⟩, [⟨900, 0⟩, ⟨0, 0⟩]⟩, none) :=
  ⟨lastHolderState_settleable, by decide +kernel⟩

end Graphene.Market
