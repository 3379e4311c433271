import Graphene.Market.FeeShares

/-!
# What fees do to the state

Fee functions read the environment, and change nothing but pockets.  So what a logic says about a
single deposit and about a single change of a balance determines what it says about all of them:
every fee that is taken somewhere arrives in pockets of the same denomination.
-/

namespace Graphene.Market

open Protocol Lib RunLogic

def Pocket.isFee : Pocket → Bool
  | .balance _ _ => false
  | _ => true

def MarketError.ofFees : MarketError → Bool
  | .fee _ | .percentOverflow | .insufficientBalance | .unknownAccount | .unknownAsset
  | .notMarketIssued | .invalidFee | .insufficientFee | .unauthorizedAsset | .internal
  | .feeTooLarge | .feeNotAccepted => true
  | _ => false

variable {D α β : Type} [AddCommGroup D] {L : RunLogic MarketError MarketState D}
  {F : AssetId → ℤ →+ D} {C : AccountId → Asset → D} {s : MarketState} {env : Env} {value : ℤ}
  {percent : Nat} {isMaker : Bool} {a : AssetId}

lemma payMarketFees_le {seller : AccountId} {receives : Asset} :
    Returns (env.payMarketFees seller receives isMaker) fun fee =>
      0 ≤ fee.amount ∧ fee.amount ≤ receives.amount := by
  refine returns_bind fun account => returns_bind fun asset => fun s fee t hrun => ?_
  have hends : Ends (fun _ => True) s
      (env.distributeMarketFees (some account) asset receives isMaker none) _ :=
    ends_distributeMarketFees (.inl ⟨trivial, trivial⟩) nofun
  exact ⟨(hends.ok hrun).2.1, (hends.ok hrun).2.2.1⟩

lemma discountedFee_bounds {o : LimitOrder} : Returns (env.discountedFee o isMaker) fun left =>
      (0 < o.deferredFee → 0 ≤ left) ∧ (o.deferredFee ≤ 0 → left = o.deferredFee) := by
  have hsame : (0 < o.deferredFee → 0 ≤ o.deferredFee) ∧
      (o.deferredFee ≤ 0 → o.deferredFee = o.deferredFee) := ⟨le_of_lt, fun _ => rfl⟩
  unfold Env.discountedFee
  split
  · refine returns_bind fun refund => ?_
    split
    · refine returns_require fun _ => returns_bind fun _ => returns_require fun hfee =>
        returns_bind fun feePoolRefund => returns_require fun hle => returns_bind fun _ =>
          returns_bind fun _ => returns_pure ?_
      have hfee := of_decide_eq_true hfee
      have hle := of_decide_eq_true hle
      exact ⟨fun _ => sub_nonneg.2 hle, fun hnon => absurd hfee (not_lt.2 hnon)⟩
    · exact returns_bind fun _ => returns_pure hsame
  · split
    next hfee =>
      refine returns_bind fun refund => ?_
      split
      · refine returns_require fun hle => returns_bind fun _ => returns_pure ?_
        have hle := of_decide_eq_true hle
        exact ⟨fun _ => sub_nonneg.2 hle, fun hnon => absurd hfee (not_lt.2 hnon)⟩
      · exact returns_pure hsame
    next => exact returns_pure hsame

/-- The fees that an order has deferred, as far as they are paid when it is filled. -/
def deferredValue (F : AssetId → ℤ →+ D) (o : LimitOrder) : D :=
  (if 0 < o.deferredPaidFee.amount
    then F o.deferredPaidFee.assetId o.deferredPaidFee.amount else 0)
    + if 0 < o.deferredFee then F coreAsset o.deferredFee else 0

/-- What a logic says about the two ways to change pockets: `F` is added by a deposit, `C` by a change
of a balance. -/
structure FeeRules (L : RunLogic MarketError MarketState D) (F : AssetId → ℤ →+ D)
    (C : AccountId → Asset → D) : Prop where
  deposit : ∀ (s : MarketState) (p : Pocket) (x : ℤ), p.isFee = true →
    L.Holds s (deposit p x) fun _ => F p.denomination x
  adjust : ∀ (s : MarketState) (account : AccountId) (delta : Asset),
    L.Holds s (adjustBalance account delta) fun _ => C account delta
  fail : ∀ (s : MarketState) (e : MarketError), e.ofFees = true → L.fail s e s

variable {d : β → D} {f : ℤ → MarketM β} {fee : Asset} {requiredFee : Nat} (account : AccountId)
  (seller : AccountObject)

namespace FeeRules

variable (R : FeeRules L F C)

include R

lemma andRequire {c : Bool} {e : MarketError} {f : Unit → MarketM β} (he : e.ofFees = true)
    (hf : c = true → L.Holds s (f ()) d) : L.Holds s (require c e >>= f) d :=
  holds_require (fun _ => R.fail s e he) hf

lemma andGetAsset {f : AssetObject → MarketM β} (hf : ∀ asset, L.Holds s (f asset) d) :
    L.Holds s (env.getAsset a >>= f) d :=
  holds_orThrow (fun _ => R.fail s _ rfl) fun asset _ => hf asset

lemma andGetAccount {a : AccountId} {f : AccountObject → MarketM β}
    (hf : ∀ account, L.Holds s (f account) d) : L.Holds s (env.getAccount a >>= f) d :=
  holds_orThrow (fun _ => R.fail s _ rfl) fun account _ => hf account

lemma andPercent (hf : ∀ x, 0 ≤ x → L.Holds s (f x) d) :
    L.Holds s (calculatePercent value percent >>= f) d := by
  unfold calculatePercent
  rw [bind_assoc]
  refine R.andRequire rfl fun h => ?_
  rw [decide_eq_true_eq] at h
  exact hf _ (Int.ediv_nonneg (mul_nonneg h.1 (Int.natCast_nonneg _)) (by decide))

lemma of_credited {seller : Option AccountObject} {t : MarketState} {x : ℤ}
    (h : Credited seller a s t x) : L.step s t (F a x) := by
  induction h with
  | start => exact (map_zero (F a)).symm ▸ L.refl s
  | @credit t x y p _ hto _ ih =>
    -- no recipient is paid into a balance
    have hp : p.isFee = true ∧ p.denomination = a := by cases hto <;> exact ⟨rfl, rfl⟩
    rw [map_add]
    exact L.trans ih (hp.2 ▸ (R.deposit t p y hp.1).step rfl)

lemma marketFees (hfail : Lenient fun e => ∀ t, L.fail s e t) (seller : AccountId)
    (receives : Asset) (isMaker : Bool) :
    L.Holds s (env.payMarketFees seller receives isMaker) fun fee =>
      F receives.assetId fee.amount := by
  refine R.andGetAccount fun account => R.andGetAsset fun asset => ?_
  have hends : Ends _ s (env.distributeMarketFees (some account) asset receives isMaker none) _ :=
    ends_distributeMarketFees (.inl hfail) nofun
  unfold Holds
  split
  next hrun => exact R.of_credited (hends.ok hrun).2.2.2
  next hrun => exact hends.error hrun _

lemma accumulate (mia : AssetId) (fee : Asset) :
    L.Holds s (accumulateFee mia fee) fun _ => F fee.assetId fee.amount := by
  unfold accumulateFee
  split
  next hzero =>
    refine holds_pure ?_
    rw [hzero, map_zero]
  next =>
    refine R.andRequire rfl fun _ => ?_
    split
    next hown =>
      rw [hown]
      exact R.deposit s _ _ rfl
    next =>
      refine holds_bitassetData (fun _ => R.fail s _ rfl) fun b _ => R.andRequire rfl fun _ => ?_
      exact R.deposit s _ _ rfl

lemma payOrder (hcount : ∀ (s : MarketState) counts, L.step s { s with coreInOrders := counts } 0)
    (receiver : AccountId) (receives pays : Asset) :
    L.Holds s (Context.payOrder receiver receives pays) fun _ => C receiver receives :=
  (holds_addCoreInOrders (hcount s)).andThen fun _ t _ => R.adjust t receiver receives

/-! ## Fees of operations -/

lemma networkShare (fee : ℤ) : L.Holds s (env.payFee account fee) fun _ => F coreAsset fee := by
  unfold Env.payFee
  split
  · exact R.deposit s (.pendingFees account) fee rfl
  · exact R.deposit s (.pendingVestedFees account) fee rfl

lemma andCoreFeePaid {feeAsset : AssetObject} (hf : ∀ x, L.Holds s (f x) d) :
    L.Holds s (feeAsset.coreFeePaid fee >>= f) d := by
  unfold AssetObject.coreFeePaid
  split
  · exact hf _
  · simp only [bind_assoc]
    refine holds_liftAs (fun e _ => R.fail s _ rfl) fun x _ => R.andRequire rfl fun _ =>
      holds_observe (R.andRequire rfl fun _ => ?_)
    exact hf _

lemma andPrepareFee {account : AccountId} (hf : ∀ x, 0 ≤ fee.amount → L.Holds s (f x) d) :
    L.Holds s (env.prepareFee account fee requiredFee >>= f) d := by
  unfold Env.prepareFee
  simp only [bind_assoc]
  refine R.andRequire rfl fun hfee => R.andGetAccount fun _ => R.andGetAsset fun feeAsset =>
    R.andRequire rfl fun _ => R.andCoreFeePaid fun x => R.andRequire rfl fun _ => ?_
  exact hf x (of_decide_eq_true hfee)

lemma prepare (fee : Asset) (requiredFee : Nat) :
    L.Holds s (env.prepareFee account fee requiredFee) fun _ => 0 := by
  have h : L.Holds s (env.prepareFee account fee requiredFee >>= pure) fun _ => 0 :=
    R.andPrepareFee fun _ _ => holds_pure rfl
  rwa [bind_pure] at h

lemma convertAndPay (fee : Asset) (coreFeePaid : ℤ) :
    L.Holds s (env.convertAndPayFee account fee coreFeePaid) fun _ =>
      if fee.assetId = coreAsset then F coreAsset coreFeePaid else F fee.assetId fee.amount := by
  by_cases hcore : fee.assetId = coreAsset
  · rw [if_pos hcore]
    refine Holds.andThen (holds_whenever (fun _ => rfl) fun hyes => ?_) fun _ t _ =>
      R.networkShare account coreFeePaid
    exact absurd hcore (of_decide_eq_true hyes)
  · rw [if_neg hcore]
    refine Holds.bind (e := fun _ => F fee.assetId fee.amount + F coreAsset (-coreFeePaid))
      (holds_whenever (fun hno => absurd hcore (of_decide_eq_false hno)) fun _ => ?_) fun _ t _ => ?_
    · refine (R.deposit s (.accumulatedFees fee.assetId) fee.amount rfl).bind fun _ t _ => ?_
      have hpool := R.deposit t (.feePool fee.assetId) (-coreFeePaid) rfl
      simpa only [Pocket.denomination, add_sub_cancel_left] using hpool
    · have hshare : L.Holds t (env.payFee account coreFeePaid) _ :=
        R.networkShare account coreFeePaid
      simpa only [map_neg, sub_add_eq_sub_sub, sub_self, zero_sub, neg_neg] using hshare

lemma defer (fee : Asset) (coreFeePaid : ℤ) : L.Holds s (deferFee fee coreFeePaid) fun _ =>
      if fee.assetId = coreAsset then 0 else F coreAsset (-coreFeePaid) := by
  unfold deferFee
  split
  next hcore => exact holds_pure rfl
  next hcore =>
    refine (R.deposit s (.feePool fee.assetId) (-coreFeePaid) rfl).bind fun _ t _ => holds_pure ?_
    exact sub_self _

variable (o : LimitOrder)

lemma deductCancelFee (coreCancelFee : ℤ) (fromPaid : Bool) :
    L.Holds s (env.deductCancelFee o coreCancelFee fromPaid) fun left =>
      F coreAsset (o.deferredFee - left.fee)
        + F o.deferredPaidFee.assetId (o.deferredPaidFee.amount - left.paidFee.amount) := by
  unfold Env.deductCancelFee
  split
  next =>
    refine (R.networkShare o.seller coreCancelFee).bind fun _ t _ => ?_
    cases fromPaid with
    | true =>
      refine (R.deposit t (.accumulatedFees o.deferredPaidFee.assetId) _ rfl).bind fun _ u _ =>
        holds_pure ?_
      simp only [Pocket.denomination, sub_sub_cancel]
      abel
    | false =>
      refine holds_pure ?_
      simp only [sub_sub_cancel, sub_self, map_zero, add_zero]
  next =>
    refine holds_pure ?_
    simp only [LimitOrder.deferredFees, sub_self, map_zero, add_zero]

lemma refund (left : DeferredFees) : L.Holds s (refundFees o left) fun _ =>
      if o.deferredPaidFee.amount = 0 then C o.seller ⟨left.fee, coreAsset⟩
      else C o.seller left.paidFee + F coreAsset left.fee := by
  unfold refundFees
  split
  next => exact R.adjust s o.seller _
  next =>
    refine (R.adjust s o.seller left.paidFee).bind fun _ t _ => ?_
    have hpool := R.deposit t (.feePool left.paidFee.assetId) left.fee rfl
    simpa only [Pocket.denomination, add_sub_cancel_left] using hpool

lemma andMakerDiscount {fee : ℤ} (hf : ∀ x, L.Holds s (f x) d) :
    L.Holds s (env.makerDiscount fee isMaker >>= f) d := by
  unfold Env.makerDiscount
  split
  · exact R.andPercent fun x _ => hf x
  · exact hf 0

section Conserving

/-! ### Logics for which a balance counts like any other pocket -/

variable (hC : ∀ account (x : Asset), C account x = F x.assetId x.amount)

include hC

variable (o : LimitOrder)

lemma settlePaidFee (isMaker : Bool) : L.Holds s (env.settlePaidFee o isMaker) fun left =>
      F o.deferredPaidFee.assetId o.deferredPaidFee.amount + F coreAsset (o.deferredFee - left) := by
  refine R.andMakerDiscount fun refund => ?_
  split
  next =>
    refine R.andRequire rfl fun _ => (R.adjust s o.seller _).bind fun _ t _ => ?_
    refine R.andRequire rfl fun _ => R.andPercent fun feePoolRefund _ => R.andRequire rfl fun _ => ?_
    refine (R.deposit t (.accumulatedFees _) _ rfl).bind fun _ u _ =>
      (R.deposit u (.feePool _) _ rfl).bind fun _ v _ => holds_pure ?_
    simp only [Pocket.denomination, hC, sub_sub_cancel, map_sub]
    abel
  next =>
    refine (R.deposit s (.accumulatedFees _) _ rfl).bind fun _ t _ => holds_pure ?_
    simp only [Pocket.denomination, sub_self, map_zero, add_zero]

lemma refundMaker (isMaker : Bool) :
    L.Holds s (env.refundMaker o isMaker) fun left => F coreAsset (o.deferredFee - left) := by
  refine R.andMakerDiscount fun refund => ?_
  split
  next =>
    refine R.andRequire rfl fun _ => (R.adjust s o.seller _).bind fun _ t _ => holds_pure ?_
    simp only [hC, sub_sub_cancel, sub_self]
  next =>
    refine holds_pure ?_
    simp only [sub_self, map_zero]

lemma discountedFee (isMaker : Bool) : L.Holds s (env.discountedFee o isMaker) fun left =>
      (if 0 < o.deferredPaidFee.amount
        then F o.deferredPaidFee.assetId o.deferredPaidFee.amount else 0)
        + F coreAsset (o.deferredFee - left) := by
  unfold Env.discountedFee
  split
  next => exact R.settlePaidFee hC o isMaker
  next =>
    split
    next => simpa only [zero_add] using R.refundMaker hC o isMaker
    next =>
      refine holds_pure ?_
      rw [sub_self, map_zero, add_zero]

lemma settleDeferredFees (isMaker : Bool) :
    L.Holds s (env.settleDeferredFees o isMaker) fun _ => deferredValue F o := by
  refine (R.discountedFee hC o isMaker).bind fun left t hleft => ?_
  obtain ⟨hpos, hnon⟩ := discountedFee_bounds s left t hleft
  unfold deferredValue
  refine holds_whenever (fun hno => ?_) fun hyes => ?_
  · have hno := of_decide_eq_false hno
    by_cases hfee : 0 < o.deferredFee
    · have hzero : left = 0 := le_antisymm (not_lt.1 fun hlt => hno ⟨hfee, hlt⟩) (hpos hfee)
      rw [if_pos hfee, hzero, sub_zero, sub_self]
    · rw [if_neg hfee, hnon (not_lt.1 hfee), sub_self, map_zero, sub_self]
  · obtain ⟨hfee, -⟩ := of_decide_eq_true hyes
    have hshare : L.Holds t (env.payFee o.seller left) _ := R.networkShare o.seller left
    rw [if_pos hfee]
    simpa only [map_sub, add_sub_add_left_eq_sub, sub_sub_cancel] using hshare

end Conserving

end FeeRules

lemma prepareFee_nonneg {account : AccountId} :
    Returns (env.prepareFee account fee requiredFee) fun _ => 0 ≤ fee.amount := by
  refine returns_require fun hfee => returns_bind fun _ => returns_bind fun _ => returns_bind fun _ =>
    returns_bind fun _ => returns_bind fun _ => ?_
  exact returns_pure (of_decide_eq_true hfee)

end Graphene.Market
