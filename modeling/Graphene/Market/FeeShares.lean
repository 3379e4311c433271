import Graphene.Market.StateRules

/-!
# Who gets a market fee

A market fee is credited to the network, to the referrer and the registrar of the seller, and to the
issuer of the asset.  Each part is cut from what the parts before it leave, so they make up the fee.
With valid percentages nothing throws, since a percentage of an amount is never more than the amount.
-/

namespace Graphene.Market

open Protocol Lib AssetObject

variable {env : Env} {asset : AssetObject} {a : AssetId} {account : AccountObject}
  {seller : Option AccountObject} {s t : MarketState} {x fees : ℤ} {percent : ℕ} {receives : Asset}
  {isMaker : Bool} {calculated : Option ℤ} {E : MarketError → Prop}

/-- The pockets that have a part in a fee. -/
inductive Recipient (seller : Option AccountObject) (a : AssetId) : Pocket → Prop
  | network : Recipient seller a (.vesting grapheneCommitteeAccount a)
  | referrer {account : AccountObject} : account ∈ seller →
    Recipient seller a (.vesting (redirected account.referrer) a)
  | registrar {account : AccountObject} : account ∈ seller →
    Recipient seller a (.vesting (redirected account.registrar) a)
  | issuer : Recipient seller a (.accumulatedFees a)

/-- Nothing happens from a state on but that recipients are credited with amounts, and these sum up
to the last argument. -/
inductive Credited (seller : Option AccountObject) (a : AssetId) (s : MarketState) :
    MarketState → ℤ → Prop
  | start : Credited seller a s s 0
  | credit {t : MarketState} {x y : ℤ} {p : Pocket} : Credited seller a s t x →
    Recipient seller a p → 0 ≤ y →
    Credited seller a s { t with pockets := t.pockets.add p y } (x + y)

/-! ## The parts -/

abbrev Lenient (E : MarketError → Prop) : Prop :=
  E .percentOverflow ∧ E .feeTooLarge

/-- They are allowed, or the percentage and the amount are valid. -/
abbrev PercentFits (E : MarketError → Prop) (fees : ℤ) (percent : ℕ) : Prop :=
  Lenient E ∨ 0 ≤ fees ∧ fees ≤ grapheneMaxShareSupply ∧ percent ≤ graphene100Percent

section

variable {β : Type} {Q : β → MarketState → Prop}

lemma ends_andRequire {p : Prop} [Decidable p] {e : MarketError} {k : Unit → MarketM β} (h : E e ∨ p)
    (hk : p → Ends E s (k ()) Q) : Ends E s (require p e >>= k) Q := by
  by_cases hp : p
  · rw [decide_eq_true hp]
    exact hk hp
  · rw [decide_eq_false hp]
    exact h.resolve_right hp

lemma ends_andPercent {k : ℤ → MarketM β} (h : PercentFits E fees percent)
    (hk : ∀ y, 0 ≤ y → E .feeTooLarge ∨ y ≤ fees → Ends E s (k y) Q) :
    Ends E s (calculatePercent fees percent >>= k) Q := by
  -- a percentage of a valid amount is at most the amount
  have hvalid : Lenient E ∨ 0 ≤ fees ∧ fees * percent / graphene100Percent ≤ fees ∧
      fees ≤ grapheneMaxShareSupply := by
    refine h.imp_right fun ⟨hfees, hmax, hper⟩ => ⟨hfees, ?_, hmax⟩
    exact Int.ediv_le_of_le_mul (by decide)
      (mul_le_mul_of_nonneg_left (by exact_mod_cast hper) hfees)
  unfold calculatePercent
  rw [bind_assoc]
  -- of a negative amount none is calculated
  refine ends_andRequire (hvalid.imp And.left fun h => ⟨h.1, h.2.1.trans h.2.2⟩) fun hc => ?_
  refine hk _ ?_ (hvalid.imp And.right fun h => h.2.1)
  exact Int.ediv_nonneg (mul_nonneg hc.1 (Int.natCast_nonneg _)) (by decide)

end

/-- From `t` on, at most `fees` are credited. -/
abbrev PaysPart (E : MarketError → Prop) (seller : Option AccountObject) (a : AssetId)
    (s t : MarketState) (x fees : ℤ) (pay : MarketM ℤ) : Prop :=
  Ends E t pay fun paid u => 0 ≤ paid ∧ paid ≤ fees ∧ Credited seller a s u (x + paid)

section

variable (hc : Credited seller a s t x)
include hc

lemma paysPart_zero (h : 0 ≤ fees) : PaysPart E seller a s t x fees (pure 0) :=
  ends_pure ⟨le_rfl, h, (add_zero x).symm ▸ hc⟩

lemma ends_vesting {owner : AccountId} {y : ℤ} (hto : Recipient seller a (.vesting owner a))
    (hy : 0 ≤ y) : Ends E t (depositMarketFeeVestingBalance owner ⟨y, a⟩) fun _ u =>
      Credited seller a s u (x + y) :=
  ends_andRequire (.inr hy) fun _ => hc.credit hto hy

variable (h : 0 ≤ fees)
include h

lemma paysPart_payNetworkFee (hE : PercentFits E fees env.parameters.marketFeeNetworkPercent) :
    PaysPart E seller a s t x fees (env.payNetworkFee a fees) := by
  unfold Env.payNetworkFee
  split
  · refine ends_andPercent hE fun paid hpaid hle => ends_andRequire hle fun hle => ?_
    exact (ends_vesting hc .network hpaid).bind fun _ v hv => ends_pure ⟨hpaid, hle, hv⟩
  · exact paysPart_zero hc h

variable (hacc : account ∈ seller)
include hacc

section

variable (hE : PercentFits E fees account.referrerRewardsPercentage)
include hE

lemma paysPart_payReferrer : PaysPart E seller a s t x fees (env.payReferrer account a fees) := by
  unfold Env.payReferrer
  split
  · refine ends_andPercent hE fun paid hpaid hle => ?_
    split
    · refine ends_andRequire hle fun hle => ?_
      exact (ends_vesting hc (.referrer hacc) hpaid).bind fun _ v hv => ends_pure ⟨hpaid, hle, hv⟩
    · exact paysPart_zero hc h
  · exact paysPart_zero hc h

lemma ends_shareReward :
    Ends E t (env.shareReward account a fees) fun _ u => Credited seller a s u (x + fees) := by
  refine (paysPart_payReferrer hc h hacc hE).bind ?_
  rintro paid u ⟨-, hle, hu⟩
  unfold whenever
  split
  · refine (ends_vesting hu (.registrar hacc) (sub_nonneg.2 hle)).mono fun _ v hv => ?_
    rwa [add_assoc, add_sub_cancel] at hv
  next hno =>
    have hno := mt decide_eq_true hno
    obtain rfl : paid = fees := by omega
    exact ends_pure hu

end

lemma paysPart_payReward (hE : PercentFits E fees (asset.rewardPercentFor account))
    (href : PercentFits E fees account.referrerRewardsPercentage) :
    PaysPart E seller a s t x fees (env.payReward account a asset fees) := by
  unfold Env.payReward
  split
  · refine ends_andPercent hE fun reward hrew hle => ?_
    split
    · refine ends_andRequire hle fun hle => ?_
      exact (ends_shareReward hc hrew hacc (href.imp_right fun h =>
        ⟨hrew, hle.trans h.2.1, h.2.2⟩)).bind fun _ v hv => ends_pure ⟨hrew, hle, hv⟩
    · exact paysPart_zero hc h
  · exact paysPart_zero hc h

end

/-! ## The whole fee -/

/-- What is validated: percentages are at most 100%, and the amount is in the range of amounts. -/
structure ValidFees (env : Env) (seller : Option AccountObject) (asset : AssetObject)
    (receives : Asset) : Prop where
  marketFee : asset.marketFeePercent ≤ graphene100Percent
  takerFee : ∀ percent ∈ asset.takerFeePercent, percent ≤ graphene100Percent
  reward : ∀ percent ∈ asset.rewardPercent, percent ≤ graphene100Percent
  network : env.parameters.marketFeeNetworkPercent ≤ graphene100Percent
  referrer : ∀ account ∈ seller, account.referrerRewardsPercentage ≤ graphene100Percent
  nonneg : 0 ≤ receives.amount
  le_max : receives.amount ≤ grapheneMaxShareSupply

namespace ValidFees

variable (h : ValidFees env seller asset receives)
include h

lemma feePercent_le : asset.feePercent isMaker ≤ graphene100Percent := by
  unfold feePercent
  split
  · exact h.marketFee
  · cases htkr : asset.takerFeePercent with
    | none => exact h.marketFee
    | some percent => exact h.takerFee percent htkr

lemma rewardPercentFor_le : asset.rewardPercentFor account ≤ graphene100Percent := by
  unfold rewardPercentFor
  split
  · cases hrew : asset.rewardPercent with
    | none => exact Nat.zero_le _
    | some percent => exact h.reward percent hrew
  · exact Nat.zero_le _

end ValidFees

section

variable (hE : Lenient E ∨ ValidFees env seller asset receives)
  (hcalculated : ∀ fee ∈ calculated, 0 ≤ fee ∧ fee ≤ receives.amount)
include hE hcalculated

lemma ends_andMarketFees {β : Type} {Q : β → MarketState → Prop} {k : ℤ → MarketM β}
    (hk : ∀ fee, 0 ≤ fee → E .feeTooLarge ∨ fee ≤ receives.amount → Ends E s (k fee) Q) :
    Ends E s (asset.marketFees receives.amount isMaker calculated >>= k) Q := by
  cases calculated with
  | some fee => exact hk fee (hcalculated fee rfl).1 (.inr (hcalculated fee rfl).2)
  | none =>
    unfold marketFees calculateMarketFee
    dsimp only
    split
    · exact hk 0 le_rfl (hE.imp And.right ValidFees.nonneg)
    · rw [bind_assoc]
      refine ends_andPercent (hE.imp_right fun h => ⟨h.nonneg, h.le_max, h.feePercent_le⟩) ?_
      intro value hvalue hle
      exact hk _ (le_min hvalue (Int.natCast_nonneg _)) (hle.imp_right (min_le_left _ _).trans)

lemma ends_distributeMarketFees :
    Ends E s (env.distributeMarketFees seller asset receives isMaker calculated) fun fee t =>
      fee.assetId = receives.assetId ∧ 0 ≤ fee.amount ∧ fee.amount ≤ receives.amount ∧
        Credited seller receives.assetId s t fee.amount := by
  refine ends_andMarketFees hE hcalculated fun fee hfee hle => ends_andRequire hle fun hle => ?_
  have hsta : Credited seller receives.assetId s s 0 := .start
  refine (paysPart_payNetworkFee hsta hfee (hE.imp_right fun h =>
    ⟨hfee, hle.trans h.le_max, h.network⟩)).bind ?_
  rintro network v ⟨hpaid, hpart, hv⟩
  have hrest : 0 ≤ fee - network := sub_nonneg.2 hpart
  have hrew : PaysPart E seller receives.assetId s v (0 + network) (fee - network)
      (env.paySellerReward seller receives.assetId asset (fee - network)) := by
    cases seller with
    | none => exact paysPart_zero hv hrest
    | some account =>
      have hmax (h : ValidFees env (some account) asset receives) :
          fee - network ≤ grapheneMaxShareSupply := by
        have := h.le_max
        omega
      exact paysPart_payReward hv hrest rfl
        (hE.imp_right fun h => ⟨hrest, hmax h, h.rewardPercentFor_le⟩)
        (hE.imp_right fun h => ⟨hrest, hmax h, h.referrer account rfl⟩)
  refine hrew.bind ?_
  rintro reward w ⟨-, hpart', hw⟩
  -- the issuer gets the rest, if there is one
  have hiss : Ends E w (whenever (reward < fee - network)
      (deposit (.accumulatedFees receives.assetId) (fee - network - reward))) fun _ w' =>
      Credited seller receives.assetId s w' fee := by
    unfold whenever
    split
    · have hall := hw.credit .issuer (sub_nonneg.2 hpart')
      rwa [show 0 + network + reward + (fee - network - reward) = fee by omega] at hall
    next hno =>
      have hno := mt decide_eq_true hno
      rwa [show 0 + network + reward = fee by omega] at hw
  exact hiss.bind fun _ w' hw' => ends_pure ⟨rfl, hfee, hle, hw'⟩

end

/-- With valid percentages the fees of an amount are paid without an error: they are at most the
amount, and what the network, the referrer, the registrar and the issuer are credited with makes up the
whole fee. -/
theorem distributeMarketFees_exact (env : Env) (seller : Option AccountObject) (asset : AssetObject)
    (receives : Asset) (isMaker : Bool) (calculated : Option Int) (s : MarketState)
    (h : ValidFees env seller asset receives)
    (hcalculated : ∀ fee ∈ calculated, 0 ≤ fee ∧ fee ≤ receives.amount) :
    ∃ fee t, env.distributeMarketFees seller asset receives isMaker calculated s = .ok fee t ∧
      fee.assetId = receives.assetId ∧ 0 ≤ fee.amount ∧ fee.amount ≤ receives.amount ∧
      Credited seller receives.assetId s t fee.amount := by
  have hends : Ends (fun _ => False) s
      (env.distributeMarketFees seller asset receives isMaker calculated) _ :=
    ends_distributeMarketFees (.inr h) hcalculated
  cases hrun : env.distributeMarketFees seller asset receives isMaker calculated s with
  | ok fee t => exact ⟨fee, t, rfl, hends.ok hrun⟩
  | error e t => exact (hends.error hrun).elim

/-- A fee of half of the amount, of which the network gets a fifth and the registrar and the referrer
half of the rest. -/
theorem distributeMarketFees_exact_shared :
    ∃ fee t, { Env.plain with parameters := ⟨0, 2000, 0⟩ }.distributeMarketFees (some ⟨5, 6, 3000⟩)
        { plain with
          chargesMarketFees := true
          marketFeePercent := 5000
          maxMarketFee := 1000000
          rewardPercent := some 5000 } ⟨1001, 1⟩ true none MarketState.empty = .ok fee t ∧
      fee.assetId = 1 ∧ 0 ≤ fee.amount ∧ fee.amount ≤ 1001 ∧
      Credited (some ⟨5, 6, 3000⟩) 1 MarketState.empty t fee.amount :=
  distributeMarketFees_exact _ _ _ ⟨1001, 1⟩ true none _
    ⟨by decide, by decide, by decide, by decide, by decide, by decide, by decide⟩ nofun

end Graphene.Market
