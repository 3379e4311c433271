import Graphene.Market.Completion
import Graphene.Market.FundLogic

/-!
# What accounts own

What accounts own of an asset: their balances, what their orders sell, and the deferred fees that
would be refunded to them.  Operations on limit orders never make it more, since fees only go
elsewhere and a trade gives to one side what the other side pays.  So no order sells more than the
supply of an asset.
-/

namespace Graphene.Market

open Protocol Lib RunLogic List Keyed Holds Context

/-! ## Amounts -/

def amounts (x : Asset) : AssetId → ℤ :=
  Pi.single x.assetId x.amount

variable (a : AssetId)

lemma amounts_zero : amounts ⟨0, a⟩ = 0 := Pi.single_zero a

lemma amounts_mono {a : AssetId} {m n : ℤ} (h : m ≤ n) : amounts ⟨m, a⟩ ≤ amounts ⟨n, a⟩ :=
  Pi.single_le_single.2 h

lemma amounts_nonneg {x : Asset} (h : 0 ≤ x.amount) : 0 ≤ amounts x :=
  (amounts_zero x.assetId).ge.trans (amounts_mono h)

lemma amounts_neg (x : Asset) : amounts x.neg = -amounts x := Pi.single_neg _ _

namespace LimitOrder

def refundable (o : LimitOrder) : Asset :=
  if o.deferredPaidFee.amount = 0 then ⟨o.deferredFee, coreAsset⟩ else o.deferredPaidFee

def owns (o : LimitOrder) : AssetId → ℤ :=
  amounts o.amountForSale + amounts o.refundable

structure Sound (o : LimitOrder) : Prop where
  forSale : 0 ≤ o.forSale
  paidFee : 0 ≤ o.deferredPaidFee.amount
  fee : o.deferredPaidFee.amount = 0 → 0 ≤ o.deferredFee

variable {o : LimitOrder}

lemma Sound.refundable_nonneg (h : o.Sound) : 0 ≤ o.refundable.amount := by
  unfold refundable
  split
  next hpaid => exact h.fee hpaid
  next => exact h.paidFee

lemma Sound.owns_nonneg (h : o.Sound) : 0 ≤ o.owns :=
  add_nonneg (amounts_nonneg h.forSale) (amounts_nonneg h.refundable_nonneg)

end LimitOrder

open LimitOrder (owns)

def MarketState.owned (s : MarketState) : AssetId → ℤ :=
  s.held + s.limitOrders.total LimitOrder.owns

structure MarketState.Sound (s : MarketState) : Prop where
  solid : s.Solid
  orders : ∀ o ∈ s.limitOrders.objects, o.Sound

variable {α β : Type} {s t : MarketState} {env : Env} {cx : Context} {o : LimitOrder}

lemma total_owns_apply :
    s.limitOrders.total owns a = (s.limitOrders.objects.map fun o => o.owns a).sum := by
  rw [Keyed.total, Pi.list_sum_apply, map_map]
  rfl

lemma MarketState.Sound.balance_add_forSale_le (h : s.Sound) (account : AccountId)
    (ho : o ∈ s.limitOrders.objects) :
    s.getBalance account o.sellAssetId + o.forSale ≤ s.owned o.sellAssetId := by
  have hnon : ∀ y ∈ s.limitOrders.objects.map fun o' => o'.owns o.sellAssetId, 0 ≤ y := by
    intro y hy
    obtain ⟨o', ho', rfl⟩ := mem_map.1 hy
    exact (h.orders o' ho').owns_nonneg _
  have hsin := single_le_sum hnon _ (mem_map_of_mem ho)
  have howns : o.forSale ≤ o.owns o.sellAssetId := by
    have hfee := amounts_nonneg (h.orders o ho).refundable_nonneg o.sellAssetId
    have hsale : amounts o.amountForSale o.sellAssetId = o.forSale := Pi.single_eq_same _ _
    rw [owns, Pi.add_apply, hsale]
    exact le_add_of_nonneg_right hfee
  refine add_le_add (h.solid.getBalance_le account _) ?_
  rw [total_owns_apply]
  exact howns.trans hsin

lemma MarketState.Sound.balance_le (h : s.Sound) (account : AccountId) (a : AssetId) :
    s.getBalance account a ≤ s.owned a := by
  refine (h.solid.getBalance_le account a).trans (le_add_of_nonneg_right ?_)
  rw [total_owns_apply]
  refine sum_nonneg fun y hy => ?_
  obtain ⟨o', ho', rfl⟩ := mem_map.1 hy
  exact (h.orders o' ho').owns_nonneg _

/-- Runs that make what is owned more by at most an amount. -/
def ownLogic : RunLogic MarketError MarketState (AssetId → ℤ) where
  step := fun s t d => s.Sound → t.Sound ∧ t.owned ≤ s.owned + d
  fail := fun _ _ _ => True
  refl := fun s hs => ⟨hs, (add_zero s.owned).ge⟩
  trans := by
    intro s t u d e h h' hs
    obtain ⟨ht, hle⟩ := h hs
    obtain ⟨hu, hle'⟩ := h' ht
    refine ⟨hu, ?_⟩
    calc u.owned ≤ t.owned + e := hle'
      _ ≤ s.owned + d + e := add_le_add_left hle e
      _ = s.owned + (d + e) := add_assoc _ _ _
  trans_fail := fun _ _ => trivial

variable {x : MarketM α} {d : α → AssetId → ℤ} {pays : Asset} (i : Nat) (link : Option Nat)
    (isMaker : Bool)

lemma own_intro (h : s.Sound → ownLogic.Holds s x d) : ownLogic.Holds s x d := by
  cases hx : x s with
  | ok => exact (holds_ok hx).2 fun hs => (h hs).step hx hs
  | error => exact (holds_error hx).2 trivial

lemma own_mono {d' : α → AssetId → ℤ} (h : ownLogic.Holds s x d)
    (hd : ∀ r t, x s = .ok r t → d r ≤ d' r) : ownLogic.Holds s x d' := by
  cases hx : x s with
  | ok r t =>
    refine (holds_ok hx).2 fun hs => ?_
    obtain ⟨ht, hle⟩ := h.step hx hs
    exact ⟨ht, hle.trans (add_le_add_right (hd r t hx) _)⟩
  | error => exact (holds_error hx).2 trivial

lemma owned_of_moves {d : FundChange} (h : Moves s t d) (hord : t.limitOrders = s.limitOrders) :
    ownLogic.step s t d.2.1 := by
  intro hs
  refine ⟨⟨h.solid hs.solid, hord ▸ hs.orders⟩, ?_⟩
  have hheld : t.held = s.held + d.2.1 := funext h.held
  rw [MarketState.owned, MarketState.owned, hord, hheld]
  exact (add_right_comm _ _ _).le

lemma ownRules : EvaluationRules ownLogic (fun _ => 0) fun _ x => amounts x where
  deposit := fun s p x hp => owned_of_moves (moves_deposit x hp) rfl
  adjust := by
    intro s account delta
    cases hx : adjustBalance account delta s with
    | error => exact (holds_error hx).2 trivial
    | ok r t =>
      have hmov : Moves s t (credit account delta) := (moves_adjustBalance delta).step hx
      have htab := (tableRules.adjust s account delta).step hx
      exact (holds_ok hx).2 (owned_of_moves hmov htab.limitOrders)
  fail := fun _ _ _ => trivial
  reject := fun _ _ _ => trivial

lemma owned_counts (s : MarketState) (counts : Tally AccountId) :
    ownLogic.step s { s with coreInOrders := counts } 0 :=
  fun hs => ⟨⟨hs.solid, hs.orders⟩, (add_zero _).ge⟩

lemma own_modify {i : Nat} {f : LimitOrder → LimitOrder} (hid : ∀ o, (f o).id = o.id)
    (hf : ∀ o, s.limitOrders.find i = some o → o.Sound → (f o).Sound) :
    ownLogic.Holds s (limitOrderTable.modify i f) fun o => (f o).owns - o.owns := by
  unfold Holds Table.modify
  cases hfind : (limitOrderTable.get s).find i with
  | none => trivial
  | some o =>
    intro hs
    have hmem : o ∈ s.limitOrders.objects := mem_of_find hfind
    have hkey : s.limitOrders.find (f o).id = some o := by
      rwa [hid, key_of_find hfind]
    refine ⟨⟨hs.solid, fun x hx => ?_⟩, le_of_eq ?_⟩
    · rcases mem_put hx with rfl | hx
      · exact hf o hfind (hs.orders o hmem)
      · exact hs.orders x hx
    · have htot := total_put s.limitOrders.toKeyed (f o) owns
      rw [hkey, Option.elim_some] at htot
      change s.held + (s.limitOrders.toKeyed.put (f o)).total owns
        = s.held + s.limitOrders.total owns + ((f o).owns - o.owns)
      rw [htot, sub_add_eq_add_sub, add_sub_assoc, add_assoc]

lemma own_remove {i : Nat} : ownLogic.Holds s (limitOrderTable.remove i) fun o => -o.owns := by
  unfold Holds Table.remove
  cases hfind : (limitOrderTable.get s).find i with
  | none => trivial
  | some o =>
    intro hs
    refine ⟨⟨hs.solid, fun x hx => hs.orders x (mem_erase hx)⟩, le_of_eq ?_⟩
    have hfind' : s.limitOrders.find i = some o := hfind
    have htot := total_erase s.limitOrders.toKeyed i owns
    rw [hfind', Option.elim_some] at htot
    change s.held + (s.limitOrders.toKeyed.erase i).total owns
      = s.held + s.limitOrders.total owns + -o.owns
    rw [htot, sub_eq_add_neg, add_assoc]

lemma own_setLink : ownLogic.Holds s (setLink i link) fun _ => 0 :=
  (own_modify (f := fun o => { o with takeProfitOrderId := link }) (fun _ => rfl) fun _ _ h =>
    ⟨h.forSale, h.paidFee, h.fee⟩).congr fun o _ _ => sub_self o.owns

lemma own_unlink : ownLogic.Holds s (unlink link) fun _ => 0 := by
  cases link with
  | none => exact holds_pure rfl
  | some i => exact (own_setLink i none).andThen fun _ _ _ => holds_pure rfl

lemma own_cleanup (ho : s.limitOrders.find o.id = some o) :
    ownLogic.Holds s (cleanupAndRemoveLimitOrder o) fun _ => -o.owns := by
  refine (own_unlink _).andThen fun _ t ht => own_remove.congr fun o' u hu => ?_
  -- what is removed is the order, up to its link
  have hsame := unlink_same ht o.id
  have hfind : t.limitOrders.find o.id = some o' := (remove_ok_iff.1 hu).1
  rw [hfind, ho] at hsame
  have howns := congrArg owns (Option.some.inj hsame)
  exact congrArg Neg.neg howns

/-! ## Deferred fees -/

lemma deductCancelFee_le {fee : ℤ} {fromPaid : Bool} (ho : o.Sound) (hfee : 0 < fee → fee ≤ o.deferredFee) :
    Returns (env.deductCancelFee o fee fromPaid) fun left => left.fee ≤ o.deferredFee ∧
      left.paidFee.amount ≤ o.deferredPaidFee.amount ∧
        left.paidFee.assetId = o.deferredPaidFee.assetId := by
  unfold Env.deductCancelFee
  split
  next hpos =>
    refine returns_bind fun _ => ?_
    have hle := hfee hpos
    cases fromPaid with
    | true =>
      refine returns_bind fun _ => returns_pure ⟨sub_le_self _ hpos.le, sub_le_self _ ?_, rfl⟩
      have hpaid := mul_nonneg ho.paidFee hpos.le
      exact Int.ediv_nonneg (by omega) (by omega)
    | false => exact returns_pure ⟨sub_le_self _ hpos.le, le_rfl, rfl⟩
  next => exact returns_pure ⟨le_rfl, le_rfl, rfl⟩

lemma own_refund {left : DeferredFees} (hfee : left.fee ≤ o.deferredFee)
    (hpaid : left.paidFee.amount ≤ o.deferredPaidFee.amount)
    (hasset : left.paidFee.assetId = o.deferredPaidFee.assetId) :
    ownLogic.Holds s (refundFees o left) fun _ => amounts o.refundable := by
  refine own_mono (ownRules.refund o left) fun _ _ _ => ?_
  unfold LimitOrder.refundable
  split
  next => exact amounts_mono hfee
  next =>
    rw [AddMonoidHom.zero_apply, add_zero]
    calc amounts left.paidFee ≤ amounts ⟨o.deferredPaidFee.amount, left.paidFee.assetId⟩ :=
          amounts_mono hpaid
      _ = amounts o.deferredPaidFee := by rw [hasset]

lemma own_settlePaidFee (hpaid : 0 ≤ o.deferredPaidFee.amount) :
    ownLogic.Holds s (env.settlePaidFee o isMaker) fun _ => amounts o.deferredPaidFee := by
  refine ownRules.andMakerDiscount fun refund => ?_
  split
  next =>
    refine ownRules.andRequire rfl fun hle => ?_
    have hmono := amounts_mono (a := o.deferredPaidFee.assetId) (of_decide_eq_true hle)
    refine own_mono (d := fun _ => amounts ⟨refund, o.deferredPaidFee.assetId⟩) ?_ fun _ _ _ => hmono
    refine (ownRules.adjust s o.seller _).bind fun _ t _ => ?_
    refine ownRules.andRequire rfl fun _ => ownRules.andPercent fun _ _ =>
      ownRules.andRequire rfl fun _ => ?_
    refine andThen (ownRules.deposit t (.accumulatedFees _) _ rfl) fun _ u _ => ?_
    exact andThen (ownRules.deposit u (.feePool _) _ rfl) fun _ v _ => holds_pure (sub_self _)
  next =>
    refine andThen (ownRules.deposit s (.accumulatedFees _) _ rfl) fun _ t _ => ?_
    exact own_mono (holds_pure (d := fun _ => 0) rfl) fun _ _ _ => amounts_nonneg hpaid

lemma own_refundMaker (hfee : 0 ≤ o.deferredFee) :
    ownLogic.Holds s (env.refundMaker o isMaker) fun _ => amounts ⟨o.deferredFee, coreAsset⟩ := by
  refine ownRules.andMakerDiscount fun refund => ?_
  split
  next =>
    refine ownRules.andRequire rfl fun hle => ?_
    have hmono := amounts_mono (a := coreAsset) (of_decide_eq_true hle)
    refine own_mono (d := fun _ => amounts ⟨refund, coreAsset⟩) ?_ fun _ _ _ => hmono
    exact (ownRules.adjust s o.seller _).bind fun _ t _ => holds_pure (sub_self _)
  next => exact own_mono (holds_pure (d := fun _ => 0) rfl) fun _ _ _ => amounts_nonneg hfee

lemma own_settleDeferredFees (ho : o.Sound) (isMaker : Bool) :
    ownLogic.Holds s (env.settleDeferredFees o isMaker) fun _ => amounts o.refundable := by
  have hnon := amounts_nonneg ho.refundable_nonneg
  refine bind (e := fun _ => amounts o.refundable) ?_ fun left t _ => ?_
  · unfold Env.discountedFee
    split
    next hpaid =>
      have href : o.refundable = o.deferredPaidFee := if_neg hpaid.ne'
      rw [href]
      exact own_settlePaidFee isMaker hpaid.le
    next hpaid =>
      split
      next hfee =>
        have hzero : o.deferredPaidFee.amount = 0 := le_antisymm (not_lt.1 hpaid) ho.paidFee
        have href : o.refundable = ⟨o.deferredFee, coreAsset⟩ := if_pos hzero
        rw [href]
        exact own_refundMaker isMaker hfee.le
      next => exact own_mono (holds_pure (d := fun _ => 0) rfl) fun _ _ _ => hnon
  · refine holds_whenever (fun _ => sub_self _) fun _ => ?_
    exact (ownRules.networkShare o.seller left).congr fun _ _ _ => (sub_self _).symm

/-! ## Cancelling and filling -/

lemma own_cancelLimitOrder (createVirtualOp : Bool) :
    ownLogic.Holds s (env.cancelLimitOrder i createVirtualOp) fun _ => 0 := by
  refine own_intro fun hs => ?_
  refine holds_fetch (fun _ => trivial) fun o ho => ?_
  have ho : s.limitOrders.find i = some o := ho
  obtain rfl : o.id = i := key_of_find ho
  have hsound := hs.orders o (mem_of_find ho)
  have hfee : 0 < env.cancelFee o createVirtualOp → env.cancelFee o createVirtualOp ≤ o.deferredFee := by
    unfold Env.cancelFee
    split
    · exact fun _ => min_le_right _ _
    · exact fun h => absurd h (lt_irrefl _)
  refine andThen ((ownRules.deductCancelFee o _ _).congr fun _ _ _ => add_zero _)
    fun left t1 hleft => ?_
  obtain ⟨hle, hpaid, hasset⟩ := deductCancelFee_le hsound hfee s left t1 hleft
  have hsame := (tableRules.deductCancelFee o _ _).step hleft
  refine (holds_addCoreInOrders (owned_counts t1)).andThen fun _ t2 h2 => ?_
  have hsame2 := (holds_addCoreInOrders (sameTables_counts t1)).step h2
  refine (ownRules.adjust t2 o.seller o.amountForSale).bind fun _ t3 h3 => ?_
  have hsame3 := (tableRules.adjust t2 _ _).step h3
  refine (own_refund hle hpaid hasset).bind fun _ t4 h4 => ?_
  have hsame4 := (tableRules.refund o left).step h4
  have hfind : t4.limitOrders.find o.id = some o :=
    (((hsame.trans hsame2).trans hsame3).trans hsame4).limitOrders ▸ ho
  refine (own_cleanup hfind).bind fun _ t5 _ => holds_pure ?_
  rw [owns]
  abel

lemma own_maybeCullSmallOrder : ownLogic.Holds s (env.maybeCullSmallOrder i) fun _ => 0 := by
  refine holds_fetch (fun _ => trivial) fun o _ => holds_calculate (fun _ _ => trivial) fun _ _ => ?_
  split
  · exact (own_cancelLimitOrder i true).andThen fun _ _ _ => holds_pure rfl
  · exact holds_pure rfl

lemma partlyFilled_owns (hpays : pays.assetId = o.sellAssetId) :
    (partlyFilled pays none o).owns = amounts o.amountForSale - amounts pays := by
  have hsale : amounts (partlyFilled pays none o).amountForSale
      = amounts o.amountForSale - amounts pays := by
    refine (Pi.single_sub (f := fun _ => ℤ) o.sellAssetId o.forSale pays.amount).trans ?_
    rw [← hpays]
    exact congrArg (· - amounts pays) (congrArg (fun a => amounts ⟨o.forSale, a⟩) hpays)
  have hfee : amounts (partlyFilled pays none o).refundable = 0 := amounts_zero coreAsset
  rw [owns, hsale, hfee, add_zero]

variable (ho : s.limitOrders.find o.id = some o)
include ho

lemma own_finishFill (hpays : pays.assetId = o.sellAssetId)
    (hle : pays.amount ≤ o.forSale) (cullIfSmall : Bool) :
    ownLogic.Holds s (cx.finishFill o pays none cullIfSmall) fun _ =>
      -amounts pays - amounts o.refundable := by
  refine holds_fetch (fun _ => trivial) fun now hnow => ?_
  obtain rfl : o = now := Option.mem_unique ho hnow
  have hdro : ownLogic.Holds s (recordDroppedFees o.deferredFees o.deferredFees) fun _ => 0 :=
    fun hs => ⟨⟨hs.solid, hs.orders⟩, (add_zero _).ge⟩
  refine hdro.andThen fun _ t ht => ?_
  have hfind : t.limitOrders.find o.id = some o := by
    cases ht
    exact ho
  split
  next hall =>
    refine (own_cleanup hfind).bind fun _ u _ => holds_pure ?_
    rw [owns, hall]
    abel
  next =>
    refine (own_modify (f := partlyFilled pays none) (fun _ => rfl) fun o' ho' _ => ?_).bind
      fun old u hu => ?_
    · obtain rfl : o = o' := Option.mem_unique hfind ho'
      exact ⟨sub_nonneg.2 hle, le_rfl, fun _ => le_rfl⟩
    obtain rfl : o = old := by
      unfold Table.modify at hu
      split at hu
      next x hx =>
        cases hu
        exact Option.mem_unique hfind hx
      next => cases hu
    have hzero : -amounts pays - amounts o.refundable
        - ((partlyFilled pays none o).owns - o.owns) = 0 := by
      rw [partlyFilled_owns hpays, owns]
      abel
    cases cullIfSmall with
    | false => exact holds_pure hzero
    | true => exact (own_maybeCullSmallOrder o.id).congr fun _ _ _ => hzero.symm

lemma own_fillLimitOrder (hact : o.onFill = none)
    (hle : pays.amount ≤ o.forSale) (receives : Asset) (cullIfSmall isMaker : Bool) :
    ownLogic.Holds s (cx.fillLimitOrder o.id pays receives cullIfSmall isMaker) fun _ =>
      amounts receives - amounts pays := by
  refine own_intro fun hs => ?_
  have hsound := hs.orders o (mem_of_find ho)
  refine holds_fetch (fun _ => trivial) fun o' ho' => holds_require (fun _ => trivial) fun hok => ?_
  obtain rfl : o = o' := Option.mem_unique ho ho'
  obtain ⟨hpays, -⟩ := of_decide_eq_true hok
  refine andThen (ownRules.marketFees ⟨fun _ => trivial, fun _ => trivial⟩ _ _ _)
    fun fees t1 h1 => ?_
  have hfees := (payMarketFees_le s fees t1 h1).1
  have hsame1 := (tableRules.marketFees ⟨nofun, nofun⟩ _ _ _).step h1
  -- the seller receives at most the amount before fees
  refine bind (e := fun _ => amounts receives) (own_mono
    (ownRules.payOrder owned_counts o.seller _ pays)
    fun _ _ _ => amounts_mono (sub_le_self _ hfees)) fun _ t2 h2 => ?_
  have hsame2 := (tableRules.payOrder sameTables_counts o.seller _ pays).step h2
  refine (own_settleDeferredFees hsound isMaker).bind fun _ t3 h3 => ?_
  have hsame3 := (tableRules.settleDeferredFees (fun _ _ => rfl) o isMaker).step h3
  rw [processLimitOrderOnFill_none hact, pure_bind]
  have hfind : t3.limitOrders.find o.id = some o :=
    ((hsame1.trans hsame2).trans hsame3).limitOrders ▸ ho
  refine (own_finishFill hfind hpays.symm hle cullIfSmall).congr fun _ _ _ => ?_
  abel

end Graphene.Market
