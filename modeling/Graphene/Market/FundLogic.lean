import Graphene.Market.FeeRules
import Graphene.Market.SettleEvaluators

/-!
# What settlements move

A settlement from the fund of a globally settled asset moves amounts between the balance of an
account, the supply of the asset and the fund.  `FundChange` says by how much, and `fundLogic` adds
it up over a run: fees go elsewhere and move nothing, and the assertion about the fund is the only
place where its error is thrown.
-/

namespace Graphene.Market

open Protocol Lib RunLogic List Keyed Pi Option Tally

variable {s t u : MarketState} {env : Env} {account : AccountId} {a : AssetId}

def balanceWeight (a : AssetId) : Pocket → ℤ →+ ℤ
  | .balance _ a' => if a' = a then AddMonoidHom.id ℤ else 0
  | _ => 0

def MarketState.held (s : MarketState) (a : AssetId) : ℤ :=
  s.pockets.total fun entry => balanceWeight a entry.1 entry.2

def MarketState.Solid (s : MarketState) : Prop :=
  ∀ account a, 0 ≤ s.getBalance account a

section

variable (h : ∀ entry ∈ s.pockets.objects, 0 ≤ entry.2)
include h

lemma MarketState.solid_of_entries : s.Solid := by
  intro account a
  unfold MarketState.getBalance Tally.get
  cases hfind : s.pockets.find (.balance account a) with
  | none => exact le_rfl
  | some entry => exact h entry (mem_of_find hfind)

lemma MarketState.held_le_sum : s.held a ≤ (s.pockets.objects.map Prod.snd).sum := by
  refine sum_le_sum fun entry hentry => ?_
  obtain ⟨p, x⟩ := entry
  have hx : 0 ≤ x := h _ hentry
  cases p with
  | balance account a' =>
    by_cases ha : a' = a
    · simp [balanceWeight, ha]
    · simpa [balanceWeight, ha] using hx
  | _ => exact hx

end

lemma MarketState.Solid.getBalance_le (h : s.Solid) (account : AccountId) (a : AssetId) :
    s.getBalance account a ≤ s.held a := by
  have hnon : ∀ entry ∈ s.pockets.objects, 0 ≤ balanceWeight a entry.1 entry.2 := by
    rintro ⟨p, x⟩ hmem
    have hget : s.pockets.get p = x := by
      rw [Tally.get, find_of_mem hmem]
      rfl
    cases p with
    | balance account' a' =>
      have hx : 0 ≤ x := hget ▸ h account' a'
      by_cases ha : a' = a
      · simpa [balanceWeight, ha] using hx
      · simp [balanceWeight, ha]
    | _ => exact le_rfl
  have hsum : 0 ≤ s.held a := by
    refine sum_nonneg fun y hy => ?_
    obtain ⟨entry, hentry, rfl⟩ := mem_map.1 hy
    exact hnon entry hentry
  unfold MarketState.getBalance
  cases hfind : s.pockets.find (.balance account a) with
  | none =>
    rwa [Tally.get, hfind]
  | some entry =>
    have hkey : entry.1 = .balance account a := key_of_find hfind
    have hwei : balanceWeight a entry.1 entry.2 = entry.2 := by
      rw [hkey]
      simp [balanceWeight]
    rw [Tally.get, hfind, elim_some, ← hwei]
    refine single_le_sum (fun y hy => ?_) _ (mem_map_of_mem (mem_of_find hfind))
    obtain ⟨entry', hentry', rfl⟩ := mem_map.1 hy
    exact hnon entry' hentry'

/-- Changes of balances, of what all accounts hold, of supplies, and what is taken from funds. -/
abbrev FundChange : Type :=
  (AccountId × AssetId → ℤ) × (AssetId → ℤ) × (AssetId → ℤ) × (AssetId → ℤ)

def credit (account : AccountId) (x : Asset) : FundChange :=
  (single (account, x.assetId) x.amount, single x.assetId x.amount, 0, 0)

variable (x : Asset)

lemma credit_balance (account' : AccountId) : (credit account x).1 (account', a)
      = if account' = account ∧ a = x.assetId then x.amount else 0 := by
  refine (single_apply _ _ _).trans ?_
  simp only [Prod.mk.injEq]

lemma credit_held : (credit account x).2.1 a = if a = x.assetId then x.amount else 0 :=
  single_apply _ _ _

def issued (x : Asset) : FundChange :=
  (0, 0, single x.assetId x.amount, 0)

def taken (a : AssetId) (x : ℤ) : FundChange :=
  (0, 0, 0, single a x)

structure Moves (s t : MarketState) (d : FundChange) : Prop where
  balances : ∀ account a, t.getBalance account a = s.getBalance account a + d.1 (account, a)
  held : ∀ a, t.held a = s.held a + d.2.1 a
  supply : ∀ a, t.currentSupply.get a = s.currentSupply.get a + d.2.2.1 a
  fund : ∀ a, t.bitassets.find a
    = (s.bitassets.find a).map fun b => b.takeFromFund (d.2.2.2 a)
  solid : s.Solid → t.Solid

lemma takeFromFund_zero (b : BitassetData) : b.takeFromFund 0 = b := by
  rw [BitassetData.takeFromFund, sub_zero]

lemma Moves.refl (s : MarketState) : Moves s s 0 := by
  refine ⟨fun _ _ => (add_zero _).symm, fun _ => (add_zero _).symm, fun _ => (add_zero _).symm,
    fun a => ?_, id⟩
  change _ = (s.bitassets.find a).map fun b => b.takeFromFund 0
  simp only [takeFromFund_zero, Option.map_id']

lemma Moves.trans {d e : FundChange} (h : Moves s t d) (h' : Moves t u e) : Moves s u (d + e) where
  balances := fun account a => by
    rw [h'.balances, h.balances, add_assoc]
    rfl
  held := fun a => by
    rw [h'.held, h.held, add_assoc]
    rfl
  supply := fun a => by
    rw [h'.supply, h.supply, add_assoc]
    rfl
  fund := fun a => by
    rw [h'.fund, h.fund, Option.map_map]
    refine congrArg (Option.map · _) (funext fun b => ?_)
    simp only [Function.comp_apply, BitassetData.takeFromFund, sub_sub]
    rfl
  solid := fun hs => h'.solid (h.solid hs)

/-- Runs that only move amounts, and do not fail at the assertion about the fund. -/
def fundLogic : RunLogic MarketError MarketState FundChange where
  step := Moves
  fail := fun _ e _ => e ≠ .fundInsufficient
  refl := Moves.refl
  trans := Moves.trans
  trans_fail := fun _ h => h

/-! ## The elementary changes -/

lemma moves_deposit {p : Pocket} (x : ℤ) (hfee : p.isFee = true) :
    fundLogic.Holds s (deposit p x) fun _ => 0 := by
  have hp : ∀ account a, p ≠ .balance account a := by
    rintro account a rfl
    cases hfee
  have hbal : ∀ account a, (s.pockets.add p x).get (.balance account a)
      = s.pockets.get (.balance account a) := by
    intro account a
    rw [get_add, Pi.add_apply, single_eq_of_ne (hp account a).symm, add_zero]
  have hwei : ∀ a, balanceWeight a p = 0 := by
    intro a
    cases p with
    | balance account a' => exact absurd rfl (hp account a')
    | _ => rfl
  refine ⟨fun account a => (hbal account a).trans (add_zero _).symm, fun a => ?_,
    fun _ => (add_zero _).symm, (Moves.refl s).fund, fun hs account a => ?_⟩
  · refine (total_add s.pockets (balanceWeight a) p x).trans ?_
    rw [hwei a]
    rfl
  · exact (hs account a).trans (hbal account a).ge

lemma moves_adjustBalance (delta : Asset) :
    fundLogic.Holds s (adjustBalance account delta) fun _ => credit account delta := by
  refine holds_observe (holds_require nofun fun hok => ?_)
  rw [decide_eq_true_eq] at hok
  have hget : ∀ account' a, (s.pockets.add (.balance account delta.assetId) delta.amount).get
      (.balance account' a) = s.getBalance account' a + (credit account delta).1 (account', a) := by
    intro account' a
    rw [get_add, Pi.add_apply, single_apply, credit_balance]
    simp only [Pocket.balance.injEq]
    rfl
  refine ⟨hget, fun a => ?_, fun _ => (add_zero _).symm, (Moves.refl s).fund,
    fun hs account' a => ?_⟩
  · refine (total_add s.pockets (balanceWeight a) _ _).trans ?_
    refine congrArg (s.held a + ·) ?_
    rw [credit_held]
    by_cases ha : a = delta.assetId
    · simp [balanceWeight, ha]
    · simp [balanceWeight, ha, Ne.symm ha]
  · refine le_of_le_of_eq ?_ (hget account' a).symm
    have hold := hs account' a
    rw [credit_balance]
    split
    next heq =>
      rw [heq.1, heq.2] at hold ⊢
      omega
    next => rwa [add_zero]

lemma moves_changeSupply (x : ℤ) : fundLogic.Holds s (changeSupply a x) fun _ => issued ⟨x, a⟩ := by
  refine ⟨fun _ _ => (add_zero _).symm, fun _ => (add_zero _).symm, fun a' => ?_, (Moves.refl s).fund,
    id⟩
  exact congrFun (get_add _ _ _) a'

variable {b : BitassetData}

lemma moves_takeFromFund (hb : s.bitassets.find a = some b) (x : ℤ) :
    fundLogic.Holds s (modifyBitasset a fun b => b.takeFromFund x) fun _ => taken a x := by
  rw [holds_ok (modifyBitasset_run hb _)]
  have hid : b.assetId = a := key_of_find hb
  refine ⟨fun _ _ => (add_zero _).symm, fun _ => (add_zero _).symm, fun _ => (add_zero _).symm,
    fun a' => ?_, id⟩
  refine (find_put _ _ _).trans ?_
  change (if a' = b.assetId then _ else _) = (s.bitassets.find a').map fun b =>
    b.takeFromFund ((single a x : AssetId → ℤ) a')
  rw [hid, single_apply]
  by_cases ha : a' = a
  · rw [if_pos ha, if_pos ha, ha, hb]
    rfl
  · simp only [if_neg ha, takeFromFund_zero, Option.map_id']

lemma fundRules : FeeRules fundLogic (fun _ => 0) credit where
  deposit := fun _ p x hp => moves_deposit x hp
  adjust := fun _ _ delta => moves_adjustBalance delta
  fail := by
    rintro s e he rfl
    cases he

/-! ## Settling from the fund -/

lemma moves_payCollateralFees (pays settled : Asset) :
    fundLogic.Holds s (payCollateralFees a pays settled) fun _ => 0 := by
  refine holds_bitassetData nofun fun b _ => ?_
  split
  · exact holds_pure rfl
  · refine holds_calculate nofun fun fillPrice _ => ?_
    refine Holds.andThen (holds_attempt ?_) fun _ t _ => holds_pure rfl
    refine holds_calculate nofun fun byPrice _ => holds_calculate nofun fun isExcessive _ => ?_
    split
    · refine holds_calculate nofun fun fees _ => ?_
      exact Holds.andThen (fundRules.accumulate a fees) fun _ t _ => holds_pure rfl
    · exact holds_pure rfl

lemma moves_payOut (pays settled : Asset) :
    fundLogic.Holds s (env.payOut a account pays settled) fun r => credit account r.1 := by
  refine Holds.andThen (moves_payCollateralFees pays settled) fun collateralFees t _ => ?_
  refine Holds.andThen (fundRules.marketFees ⟨nofun, nofun⟩ account _ false) fun issuerFees u hfees => ?_
  have hle := (payMarketFees_le t issuerFees u hfees).2
  refine Holds.bind (e := fun _ => credit account ⟨settled.amount
    - collateralFees.elim 0 Asset.amount - issuerFees.amount, settled.assetId⟩) ?_ fun _ v _ =>
      holds_pure (sub_self _)
  refine holds_whenever (fun hno => ?_) fun _ => moves_adjustBalance _
  -- nothing is left after the fees
  have hzero : settled.amount - collateralFees.elim 0 Asset.amount - issuerFees.amount = 0 := by
    have := of_decide_eq_false hno
    dsimp only at this hle
    omega
  rw [hzero]
  simp [credit]

lemma payOut_total {pays settled : Asset} : Returns (env.payOut a account pays settled) fun r =>
      r.1.amount + (r.2.map Asset.amount).sum = settled.amount ∧ r.1.assetId = settled.assetId := by
  refine returns_bind fun collateralFees => returns_bind fun issuerFees => returns_bind fun _ =>
    returns_pure ⟨?_, rfl⟩
  cases collateralFees with
  | none => simp
  | some fees =>
    simp only [toList_some, singleton_append, map_cons, map_nil, sum_cons,
      sum_nil, elim_some]
    ring

def SettleResult.change (r : SettleResult) (account : AccountId) (a : AssetId) : FundChange :=
  credit account r.paid.neg + credit account r.received + issued ⟨-r.paid.amount, a⟩
    + taken a (r.received.amount + (r.fees.map Asset.amount).sum)

lemma moves_payFromFund (hb : s.bitassets.find a = some b) {pays settled : Asset}
    (hset : 0 ≤ settled.amount) :
    fundLogic.Holds s (env.payFromFund a account pays settled) fun r =>
      credit account r.1 + taken a (r.1.amount + (r.2.map Asset.amount).sum) := by
  unfold Env.payFromFund
  split
  next =>
    refine (moves_takeFromFund hb settled.amount).bind fun _ t _ => ?_
    refine (moves_payOut pays settled).congr fun r u hr => ?_
    rw [(payOut_total t r u hr).1, add_sub_cancel_right]
  next hnot =>
    refine holds_pure ?_
    have hzero : settled.amount = 0 := le_antisymm (not_lt.1 hnot) hset
    simp [credit, taken, hzero]

lemma moves_paySettleFromGsFund {op : AssetSettle} (hb : s.bitassets.find op.amount.assetId = some b)
    (heno : ∀ settled, b.settledAmount (s.currentSupply.get op.amount.assetId) op.amount
      = .ok settled → 0 ≤ settled.amount ∧
        (op.amount.amount = s.currentSupply.get op.amount.assetId ∨
          settled.amount ≤ b.settlementFund)) :
    fundLogic.Holds s (env.paySettleFromGsFund op) fun r =>
      r.change op.account op.amount.assetId := by
  refine holds_bitassetData nofun fun b' hb' => ?_
  obtain rfl : b = b' := mem_unique hb hb'
  refine holds_observe (holds_calculate nofun fun settled hset => ?_)
  obtain ⟨hnon, hsuf⟩ := heno settled hset
  refine holds_require (fun hno => absurd hsuf (of_decide_eq_false hno)) fun _ => ?_
  refine holds_require nofun fun _ => holds_calculate nofun fun pays hpays => ?_
  refine (moves_adjustBalance pays.neg).bind fun _ t ht => ?_
  have hb1 : t.bitassets.find op.amount.assetId = some b := by
    have := ((moves_adjustBalance pays.neg).step ht).fund op.amount.assetId
    rw [this, hb]
    exact congrArg some (takeFromFund_zero b)
  refine (moves_payFromFund hb1 hnon).bind fun r u _ => ?_
  refine (moves_changeSupply _).bind fun _ v _ => holds_pure ?_
  simp only [SettleResult.change]
  abel

end Graphene.Market
