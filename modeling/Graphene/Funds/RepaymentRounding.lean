import Graphene.Funds.DealExpiry

/-!
# Rounding in repayments

A partial repayment of a credit deal releases its part of the collateral, rounded down.  So the
collateral per debt never falls, and it does not help to repay in parts.

The automatic repayment at the end of a deal releases as much collateral as the balance can pay for, unless
the divisor, a sum of 32-bit numbers, wraps around.
-/

namespace Graphene.Funds

open Lib Protocol Keyed FundState Accounts

namespace CreditState

variable {s t u : CreditState} {d : CreditDeal} {id : Nat} {amount b x : Int}

def repaidPart (d : CreditDeal) (amount : Int) : CreditDeal :=
  { d with
    debtAmount := d.debtAmount - amount
    collateralAmount := d.collateralAmount - amount * d.collateralAmount / d.debtAmount }

structure Amounts (d : CreditDeal) : Prop where
  debt : 0 < d.debtAmount
  collateral : 0 < d.collateralAmount
  fits : d.collateralAmount < 2 ^ 63

lemma toInt64_eq (h : 0 ≤ x) (hx : x < 2 ^ 63) : toInt64 x = x := by
  rw [toInt64, Int.bmod_def]
  split <;> omega

lemma repayDeal_part (hd : Amounts d) (h0 : 0 ≤ amount) (hlt : amount < d.debtAmount) :
    s.repayDeal d amount = .ok (amount * d.collateralAmount / d.debtAmount,
      s.deals.write (repaidPart d amount)) := by
  have hless := redeem_lt hd.collateral hd.debt hlt
  have hcast : toInt64 (amount * d.collateralAmount / d.debtAmount) = _ :=
    toInt64_eq (Int.ediv_nonneg (mul_nonneg h0 hd.collateral.le) hd.debt.le)
      (hless.trans hd.fits)
  simp only [repayDeal, if_neg hlt.ne', divide_eq hd.debt.ne', ok_bind, check, hless, decide_true, hcast]
  rfl

/-! ## Repayments in parts -/

/-- What repayments sum up to, and by how much they have changed the balances of the borrower. -/
structure Totals where
  repaid : Int
  fees : Int
  released : Int
  moved : AssetId → Int

def parties (d : CreditDeal) : AccountId × AssetId × AssetId × UInt32 :=
  (d.borrower, d.debtAsset, d.collateralAsset, d.feeRate)

def terms (d : CreditDeal) : Int × Int × AccountId × AssetId × AssetId × UInt32 :=
  (d.debtAmount, d.collateralAmount, parties d)

/-- Repayments of a deal; whatever else happens keeps the terms of the deal. -/
inductive Repayments (id : Nat) (s : CreditState) : Totals → CreditState → Prop
  | start : Repayments id s ⟨0, 0, 0, 0⟩ s
  | other {x : Totals} {t u : CreditState} (h : Repayments id s x t)
      (same : (u.deals.find id).map terms = (t.deals.find id).map terms) : Repayments id s x u
  | repay {x : Totals} {t u : CreditState} {op : CreditDealRepay} {d : CreditDeal} {released : Int}
      {deals : Store CreditDeal.id} (h : Repayments id s x t) (hop : op.dealId = id)
      (hd : t.deals.find id = some d) (hrun : t.creditDealRepay op = .ok u)
      (hreleased : t.repayDeal d op.repayAmount.amount = .ok (released, deals)) :
      Repayments id s ⟨x.repaid + op.repayAmount.amount, x.fees + op.creditFee.amount,
        x.released + released, x.moved + fun a =>
          getBalance u.balances d.borrower a - getBalance t.balances d.borrower a⟩ u

/-- The borrower pays what is repaid and the fees, and gets the collateral. -/
def expected (d : CreditDeal) (repaid fees released : Int) : AssetId → Int :=
  Pi.single d.collateralAsset released - Pi.single d.debtAsset (repaid + fees)

lemma expected_add (d : CreditDeal) (a b c a' b' c' : Int) :
    expected d a b c + expected d a' b' c' = expected d (a + a') (b + b') (c + c') := by
  simp only [expected, Pi.single_add]
  abel

/-- The deal after some repayments: it is closed, or its collateral per debt is not below that of `d`. -/
structure Fairly (d : CreditDeal) (x : Totals) (e : Option CreditDeal) : Prop where
  released : 0 ≤ x.released
  moved : x.moved = expected d x.repaid x.fees x.released
  fees : x.repaid * d.feeRate.toNat ≤ x.fees * grapheneFeeRateDenom
  closed : e = none → x.repaid = d.debtAmount ∧ x.released = d.collateralAmount
  left : ∀ d', e = some d' → 0 < d'.debtAmount ∧ d'.debtAmount = d.debtAmount - x.repaid ∧
    d'.collateralAmount = d.collateralAmount - x.released ∧ parties d' = parties d ∧
      d.collateralAmount * d'.debtAmount ≤ d'.collateralAmount * d.debtAmount

lemma repay_inv {op : CreditDealRepay} (h : s.creditDealRepay op = .ok t)
    (hd : s.deals.find op.dealId = some d) : 0 < op.repayAmount.amount ∧
      op.repayAmount.amount ≤ d.debtAmount ∧
      requiredFee op.repayAmount.amount d.feeRate.toNat ≤ op.creditFee.amount ∧
      ∃ released, s.repayDeal d op.repayAmount.amount = .ok (released, t.deals) ∧
        (fun a => getBalance t.balances d.borrower a - getBalance s.balances d.borrower a) =
          expected d op.repayAmount.amount op.creditFee.amount released := by
  simp only [creditDealRepay, checkRepay, CreditDealRepay.isValid, adjust, checkAuthorized, bind_eq_ok,
    check_eq_ok, pure_eq_ok, exists_const, Bool.and_eq_true, decide_eq_true_eq, deal_eq_ok] at h
  obtain ⟨d', hd', ⟨⟨⟨hpos, -⟩, -⟩, hborrower, hasset, hle, hfee, -⟩, s1, ⟨b, hb, rfl⟩, o, ho, -, h⟩ :=
    h
  obtain rfl : d = d' := Option.mem_unique hd hd'
  split at h
  next => cases h
  next =>
    simp only [bind_eq_ok, pure_eq_ok] at h
    obtain ⟨⟨released, deals⟩, hdeals, b', hb', rfl⟩ := h
    refine ⟨hpos, hle, hfee, released, hdeals, ?_⟩
    obtain ⟨-, rfl⟩ := adjustBalance_eq_ok.1 hb
    obtain ⟨-, rfl⟩ := adjustBalance_eq_ok.1 hb'
    funext a
    simp only [getBalance, Tally.get_add, expected, Pi.add_apply, Pi.sub_apply, Pi.single_apply,
      Prod.mk.injEq, hborrower, hasset, true_and]
    split_ifs <;> ring

lemma Amounts.collateral_pos {e : CreditDeal} (hd : Amounts d) (hpos : 0 < e.debtAmount)
    (hratio : d.collateralAmount * e.debtAmount ≤ e.collateralAmount * d.debtAmount) :
    0 < e.collateralAmount :=
  pos_of_mul_pos_left ((mul_pos hd.collateral hpos).trans_le hratio) hd.debt.le

/-- By induction on the repayments; each rounds the collateral down. -/
lemma Repayments.fairly {x : Totals} (hd : s.deals.find id = some d) (hfit : Amounts d)
    (h : Repayments id s x t) : Fairly d x (t.deals.find id) := by
  induction h with
  | start =>
    rw [hd]
    refine ⟨le_rfl, by simp [expected], by rw [zero_mul, zero_mul], nofun, fun d' hd' => ?_⟩
    cases hd'
    exact ⟨hfit.debt, (sub_zero _).symm, (sub_zero _).symm, rfl, le_rfl⟩
  | @other x t u _ same ih =>
    refine ⟨ih.released, ih.moved, ih.fees, fun hnone => ih.closed ?_, fun d' hd' => ?_⟩
    · rw [hnone, Option.map_none, eq_comm, Option.map_eq_none_iff] at same
      exact same
    · rw [hd', Option.map_some, eq_comm, Option.map_eq_some_iff] at same
      obtain ⟨e, he, hterms⟩ := same
      obtain ⟨hdebt, hcol, hparties⟩ := by simpa only [terms, Prod.mk.injEq] using hterms
      rw [← hdebt, ← hcol, ← hparties]
      exact ih.left e he
  | @repay x t u op e r deals _ hop he hrun hr ih =>
    subst hop
    obtain ⟨hpos, hdebt, hcol, hparties, hratio⟩ := ih.left e he
    have hrate : e.feeRate = d.feeRate := congrArg (fun x => x.2.2.2) hparties
    obtain ⟨hamt, hle, hfee, r', hr', hchange⟩ := repay_inv hrun he
    obtain ⟨rfl, rfl⟩ := Prod.mk.inj (Except.ok.inj (hr.symm.trans hr'))
    have hcolpos := hfit.collateral_pos hpos hratio
    have hfit' : Amounts e := ⟨hpos, hcolpos, by have := hfit.fits; have := ih.released; omega⟩
    have hfees : (x.repaid + op.repayAmount.amount) * d.feeRate.toNat ≤
        (x.fees + op.creditFee.amount) * grapheneFeeRateDenom := by
      rw [add_mul, add_mul, ← hrate]
      exact add_le_add (hrate ▸ ih.fees) ((divUp_le_iff (by decide)).1 hfee)
    have hmoved : ∀ r, x.moved + expected e op.repayAmount.amount op.creditFee.amount r =
        expected d (x.repaid + op.repayAmount.amount) (x.fees + op.creditFee.amount)
          (x.released + r) := by
      intro r
      rw [ih.moved, show expected e = expected d by
        simp only [parties, Prod.mk.injEq] at hparties
        unfold expected
        rw [hparties.2.1, hparties.2.2.1]]
      exact expected_add _ _ _ _ _ _ _
    rw [hchange]
    have hid : e.id = op.dealId := key_of_find he
    rcases hle.eq_or_lt with heq | hlt
    · rw [repayDeal, if_pos heq.symm] at hr
      obtain ⟨rfl, hdeals⟩ := Prod.mk.inj (Except.ok.inj hr)
      have hgone : u.deals.find op.dealId = none := by
        rw [← hdeals, hid]
        exact (find_erase _ _ _).trans (if_pos rfl)
      rw [hgone]
      exact ⟨add_nonneg ih.released hcolpos.le, hmoved _, hfees,
        fun _ => by constructor <;> dsimp only <;> omega, nofun⟩
    · rw [repayDeal_part hfit' hamt.le hlt] at hr
      obtain ⟨rfl, hdeals⟩ := Prod.mk.inj (Except.ok.inj hr)
      have hfind : u.deals.find op.dealId = some (repaidPart e op.repayAmount.amount) := by
        rw [← hdeals, ← hid]
        exact Store.find_write_self _ (repaidPart e _)
      rw [hfind]
      refine ⟨add_nonneg ih.released (Int.ediv_nonneg (mul_nonneg hamt.le hcolpos.le) hpos.le),
        hmoved _, hfees, nofun, ?_⟩
      rintro d' ⟨⟩
      refine ⟨sub_pos.2 hlt, ?_, ?_, hparties, ?_⟩
      · rw [repaidPart, hdebt, sub_sub]
      · rw [repaidPart, ← sub_sub, ← hcol]
      · exact ratio_trans hfit.debt.le hpos (sub_pos.2 hlt).le hratio (redeem_keeps hpos le_rfl)

/-- Repaying in parts never helps the borrower, whose balances change by what the repayments sum up to.
Before the whole debt is repaid, no more collateral has
been released than the part for what has been repaid, and some is left; in the end the collateral has been
released, for no less than the fee of one repayment. -/
theorem split_repayments_never_help {x : Totals} (hd : s.deals.find id = some d) (hfit : Amounts d)
    (h : Repayments id s x t) :
    x.moved = Pi.single d.collateralAsset x.released - Pi.single d.debtAsset (x.repaid + x.fees) ∧
    (x.repaid < d.debtAmount → x.released ≤ d.collateralAmount * x.repaid / d.debtAmount ∧
      ∃ e, t.deals.find id = some e ∧ e.collateralAmount = d.collateralAmount - x.released ∧
        0 < e.collateralAmount) ∧
    (x.repaid = d.debtAmount → x.released = d.collateralAmount ∧
      requiredFee d.debtAmount d.feeRate.toNat ≤ x.fees) := by
  have hfair := h.fairly hd hfit
  refine ⟨hfair.moved, ?_⟩
  cases he : t.deals.find id with
  | none =>
    obtain ⟨hrepaid, hreleased⟩ := hfair.closed he
    refine ⟨fun hlt => absurd hrepaid hlt.ne, fun _ => ⟨hreleased, divUp_le (by decide) ?_⟩⟩
    exact hrepaid ▸ hfair.fees
  | some e =>
    obtain ⟨hpos, hleft, hcol, -, hratio⟩ := hfair.left e he
    refine ⟨fun _ => ⟨?_, e, rfl, hcol, hfit.collateral_pos hpos hratio⟩, fun hrepaid => ?_⟩
    · apply Int.le_ediv_of_mul_le hfit.debt
      rw [hleft, hcol] at hratio
      linarith
    · rw [hrepaid, sub_self] at hleft
      exact absurd hleft hpos.ne'

def repayment (amount fee : Int) : CreditDealRepay :=
  ⟨2, 0, ⟨amount, 1⟩, ⟨fee, 1⟩⟩

/-- A debt of 300 with a collateral of 500, at a fee of 3%. -/
def borrowed : CreditState :=
  (beforeOffers.after (offerAt 30000)).after
    (.accept ⟨2, 0, ⟨300, 1⟩, ⟨500, 2⟩, 30000, 86400, some .allowPartialRepayment⟩)

/-- Both repayments are rounded down, to 11 and to 18. -/
theorem split_repayments_never_help_twice : ∃ x t, Repayments 0 borrowed x t ∧ x.repaid = 18 ∧
    x.moved 1 = -20 ∧ x.moved 2 = 29 ∧ x.released ≤ 500 * x.repaid / 300 := by
  have hrun1 : borrowed.creditDealRepay (repayment 7 1) =
      .ok (borrowed.after (.repay (repayment 7 1))) := rfl
  have h1 := Repayments.repay .start rfl rfl hrun1 rfl
  have hrun2 : (borrowed.after (.repay (repayment 7 1))).creditDealRepay (repayment 11 1) =
      .ok ((borrowed.after (.repay (repayment 7 1))).after (.repay (repayment 11 1))) := rfl
  have h := Repayments.repay h1 (by rfl) (by rfl) hrun2 (by rfl)
  obtain ⟨hmoved, hpart, -⟩ :=
    split_repayments_never_help rfl ⟨by decide, by decide, by decide⟩ h
  refine ⟨_, _, h, rfl, ?_, ?_, (hpart (by decide)).1⟩
  · exact (congrFun hmoved 1).trans (by decide +kernel)
  · exact (congrFun hmoved 2).trans (by decide +kernel)

/-! ## The automatic repayment -/

/-- The collateral for what a balance can repay, as it is computed before the repayment. -/
def collateralToRelease (d : CreditDeal) (b : Int) : Int :=
  b * grapheneFeeRateDenom / (feeDivisor d.feeRate).toNat * d.collateralAmount / d.debtAmount

/-- A repayment that a balance can pay, and that releases as much collateral as any other. -/
structure BestRepayment (s : CreditState) (d : CreditDeal) (b x fee : Int) : Prop where
  nonneg : 0 ≤ x
  lt_debt : x < d.debtAmount
  le_balance : x + fee ≤ b
  fee_enough : requiredFee x d.feeRate.toNat ≤ fee
  releases : 0 < x → ∃ deals, s.repayDeal d x = .ok (collateralToRelease d b, deals)
  most : ∀ y r deals, 0 < y → y + requiredFee y d.feeRate.toNat ≤ b →
    s.repayDeal d y = .ok (r, deals) → r ≤ collateralToRelease d b

lemma affordable_iff (rate : Nat) : x + requiredFee x rate ≤ b ↔
    x ≤ b * grapheneFeeRateDenom / (grapheneFeeRateDenom + rate) := by
  have hden : 0 < grapheneFeeRateDenom + (rate : Int) := by
    unfold grapheneFeeRateDenom
    omega
  rw [← le_sub_iff_add_le', requiredFee, divUp_le_iff (by decide), Int.le_ediv_iff_mul_le hden,
    mul_add, sub_mul, le_sub_iff_add_le']

variable {rate : UInt32}

lemma feeDivisor_eq (h : rate.toNat + 1000000 < 2 ^ 32) :
    ((feeDivisor rate).toNat : Int) = grapheneFeeRateDenom + rate.toNat := by
  have hnat : (feeDivisor rate).toNat = 1000000 + rate.toNat := by
    exact Nat.mod_eq_of_lt (by change 1000000 + rate.toNat < _; omega)
  rw [hnat]
  rfl

lemma mul_fits {y : Int} (hx : 0 ≤ x ∧ x < 2 ^ 63) (hy : 0 ≤ y ∧ y < 2 ^ 63) :
    0 ≤ x * y ∧ x * y < 2 ^ 126 :=
  ⟨mul_nonneg hx.1 hy.1, mul_lt_mul'' hx.2 hy.2 hx.1 hy.1⟩

lemma partialRepayment_best (hd : Amounts d) (hdebt : d.debtAmount < 2 ^ 63) (h0 : 0 ≤ b)
    (hb : b < 2 ^ 63) (hrate : d.feeRate.toNat + 1000000 < 2 ^ 32) (hless : b < totalRequired d) :
    ∃ x fee, partialRepayment d b = .ok (x, fee) ∧ BestRepayment s d b x fee := by
  obtain ⟨hD, hC, hfit⟩ := hd
  have hdiv := feeDivisor_eq hrate
  have hpos : (0 : Int) < (feeDivisor d.feeRate).toNat := by
    rw [hdiv, grapheneFeeRateDenom]
    omega
  -- the most that can be repaid, the collateral for it and the least debt for this collateral
  obtain ⟨m, hm⟩ : ∃ m, m = b * grapheneFeeRateDenom / (feeDivisor d.feeRate).toNat := ⟨_, rfl⟩
  obtain ⟨c, hc⟩ : ∃ c, c = m * d.collateralAmount / d.debtAmount := ⟨_, rfl⟩
  obtain ⟨x, hx⟩ : ∃ x, x = divUp (c * d.debtAmount) d.collateralAmount := ⟨_, rfl⟩
  have hto : collateralToRelease d b = c := by rw [collateralToRelease, hc, hm]
  have hiff : ∀ y, y + requiredFee y d.feeRate.toNat ≤ b ↔ y ≤ m := fun y => by
    rw [affordable_iff, hm, hdiv]
  have hlt : m < d.debtAmount := by
    by_contra h
    have := (hiff d.debtAmount).2 (not_lt.1 h)
    unfold totalRequired at hless
    omega
  have hm0 : 0 ≤ m := hm ▸ Int.ediv_nonneg (mul_nonneg h0 (by decide)) hpos.le
  have hc0 : 0 ≤ c := hc ▸ Int.ediv_nonneg (mul_nonneg hm0 hC.le) hD.le
  have hx0 : 0 ≤ x := hx ▸ Int.ediv_nonneg (by have := mul_nonneg hc0 hD.le; omega) hC.le
  have hxm : x ≤ m := by
    rw [hx, hc]
    exact divUp_ediv_le hC hD
  have hfee := (hiff x).2 hxm
  refine ⟨x, requiredFee x d.feeRate.toNat, ?_, hx0, hxm.trans_lt hlt, hfee, le_rfl, ?_, ?_⟩
  · have hrate := d.feeRate.toNat_lt
    have h1 := mul_fits ⟨hm0, hlt.trans hdebt⟩ ⟨hC.le, hfit⟩
    have h2 := mul_fits ⟨hc0, hc ▸ (redeem_lt hC hD hlt).trans hfit⟩ ⟨hD.le, hdebt⟩
    have h3 := mul_fits (y := d.feeRate.toNat) ⟨hx0, (hxm.trans_lt hlt).trans hdebt⟩ ⟨by omega, by omega⟩
    have hfees : (x * d.feeRate.toNat + grapheneFeeRateDenom - 1) % 2 ^ 128 / grapheneFeeRateDenom
        = requiredFee x d.feeRate.toNat := by
      rw [Int.emod_eq_of_lt (by unfold grapheneFeeRateDenom; omega)
        (by unfold grapheneFeeRateDenom; omega)]
      rfl
    have hfee0 : 0 ≤ requiredFee x d.feeRate.toNat := divUp_nonneg h3.1 (by decide)
    unfold divUp at hx
    simp only [partialRepayment, divide_eq hpos.ne', divide_eq hD.ne', divide_eq hC.ne', ok_bind, ← hm]
    rw [Int.emod_eq_of_lt h1.1 (by omega), ← hc, Int.emod_eq_of_lt (by omega) (by omega), ← hx, hfees,
      toInt64_eq hx0 (by omega), toInt64_eq hfee0 (by omega)]
    rfl
  · intro hxpos
    have heq : x * d.collateralAmount / d.debtAmount = c := by
      rw [hx, hc]
      exact divUp_ediv_mul_ediv hC hD
    rw [repayDeal_part ⟨hD, hC, hfit⟩ hx0 (hxm.trans_lt hlt), heq, hto]
    exact ⟨_, rfl⟩
  · intro y r deals hy hpaid hr
    have hym := (hiff y).1 hpaid
    rw [repayDeal_part ⟨hD, hC, hfit⟩ hy.le (hym.trans_lt hlt)] at hr
    cases hr
    rw [hto, hc]
    exact Int.ediv_le_ediv hD (mul_le_mul_of_nonneg_right hym hC.le)

/-- A deal for which the divisor wraps around to one. -/
def wrappingDeal : CreditDeal :=
  ⟨0, 2, 0, 1, 1, 1, 2, 1, 4293967297, 90000, .allowPartialRepayment⟩

lemma partialRepayment_wrapped (hwrap : 2 ^ 32 ≤ rate.toNat + 1000000) {fee : Int}
    (hok : partialRepayment { wrappingDeal with feeRate := rate } 1 = .ok (x, fee)) : 1 ≤ x := by
  by_cases hrate : rate = 4293967296
  · rw [(partialRepayment_eq (d := { wrappingDeal with feeRate := rate }) one_pos one_pos).1 hrate] at hok
    cases hok
  have hne : (feeDivisor rate).toNat ≠ 0 := fun hzero => hrate (feeDivisor_eq_zero.1 hzero)
  have hlt : (feeDivisor rate).toNat < 1000000 := by
    have := rate.toNat_lt
    change (1000000 + rate.toNat) % 2 ^ 32 < 1000000
    omega
  obtain ⟨q, hq⟩ : ∃ q, q = 1 * grapheneFeeRateDenom / ((feeDivisor rate).toNat : Int) := ⟨_, rfl⟩
  have hq1 : 1 ≤ q := by
    rw [hq, Int.le_ediv_iff_mul_le (by omega)]
    unfold grapheneFeeRateDenom
    omega
  have hq2 : q ≤ 1000000 := hq ▸ Int.ediv_le_self _ (by decide)
  simp only [partialRepayment, wrappingDeal, divide_eq (Int.natCast_ne_zero.2 hne), divide_eq one_ne_zero,
    ok_bind, ← hq] at hok
  obtain ⟨rfl, -⟩ := Prod.mk.inj (Except.ok.inj hok)
  have hval : (q * 1 % 2 ^ 128 / 1 * 1 + 1 - 1) % 2 ^ 128 / 1 = q := by omega
  rwa [hval, toInt64_eq (by omega) (by omega)]

/-- The repayment that is computed for a balance too small to repay the whole debt is possible and
releases the most collateral, whatever the deal and the balance, exactly if the divisor does not wrap
around for the fee rate. -/
theorem partial_repayment_best_iff (rate : UInt32) :
    (∀ (s : CreditState) (d : CreditDeal) (b : Int), d.feeRate = rate → Amounts d →
      d.debtAmount < 2 ^ 63 → 0 ≤ b → b < 2 ^ 63 → b < totalRequired d →
      ∃ x fee, partialRepayment d b = .ok (x, fee) ∧ BestRepayment s d b x fee) ↔
    rate.toNat + 1000000 < 2 ^ 32 := by
  constructor
  · intro h
    by_contra hwrap
    have hreq : 0 < requiredFee 1 rate.toNat := divUp_pos (by omega) (by decide)
    have h63 : (1 : Int) < 2 ^ 63 := by decide
    obtain ⟨x, fee, hok, hbest⟩ := h beforeOffers { wrappingDeal with feeRate := rate } 1 rfl
      ⟨one_pos, one_pos, h63⟩ h63 (by decide) h63 (lt_add_of_pos_left 1 hreq)
    exact absurd (partialRepayment_wrapped (not_lt.1 hwrap) hok) (not_le.2 hbest.lt_debt)
  · rintro hrate s d b rfl hd hdebt h0 hb hless
    exact partialRepayment_best hd hdebt h0 hb hrate hless

/-- A borrower with one unit who owes one unit is asked to repay a million. -/
theorem partial_repayment_exceeds_balance : 1 < totalRequired wrappingDeal ∧
    partialRepayment wrappingDeal 1 = .ok (1000000, 4293967297) :=
  ⟨by decide, rfl⟩

end CreditState

end Graphene.Funds
