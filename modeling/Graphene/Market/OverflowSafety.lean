import Graphene.Market.EvaluationRules
import Graphene.Market.LimitMatching

/-!
# When matching limit orders does not overflow

The product of an amount and a price throws when the result is above the maximum supply.  That does not
happen if for every order, as it was placed, the amount for sale and what is asked for it are within the
maximum supply.  The operations that place orders do not ensure this.
-/

namespace Graphene.Market

open Protocol Lib RunLogic Keyed LimitOrderUpdate Env

/-! ## The book -/

def LeftOf (s : MarketState) (o : LimitOrder) : Prop :=
  ∃ p ∈ s.history.placed, o.sellPrice = p.sellPrice ∧ o.forSale ≤ p.forSale

/-- A book of limit orders of users, in markets without market-issued assets. -/
structure PlainBook (s : MarketState) : Prop where
  noBitassets : ∀ a, s.bitassets.find a = none
  normal : ∀ o ∈ s.limitOrders.objects, o.IsNormal
  left : ∀ o ∈ s.limitOrders.objects, LeftOf s o

def AllPlacedFit (s : MarketState) : Prop :=
  ∀ p ∈ s.history.placed, p.Fits

instance (s : MarketState) : Decidable (AllPlacedFit s) :=
  inferInstanceAs (Decidable (∀ p ∈ s.history.placed, p.Fits))

variable {o : LimitOrder}

lemma PlainBook.fits {s : MarketState} (h : PlainBook s) (hfit : AllPlacedFit s)
    (ho : o ∈ s.limitOrders.objects) : o.Fits := by
  obtain ⟨p, hp, hprice, hle⟩ := h.left o ho
  have hasks := LimitOrder.asks_le (hprice ▸ (h.normal o ho).valid) hprice hle
  exact ⟨hle.trans (hfit p hp).1, hasks.trans (hfit p hp).2⟩

/-- Runs that keep the book plain, and do not overflow while all orders that were placed fit. -/
def overflowLogic : RunLogic MarketError MarketState PUnit where
  step := fun s t _ => PlainBook s → PlainBook t
  fail := fun s e t => PlainBook s → AllPlacedFit t → e ≠ .matching .resultTooLarge
  refl := fun _ => id
  trans := fun h h' hs => h' (h hs)
  trans_fail := fun h h' hs => h' (h hs)

abbrev Safe {α : Type} (s : MarketState) (x : MarketM α) : Prop :=
  overflowLogic.Holds s x fun _ => 0

variable {α β : Type} {s t : MarketState} {env : Env} {cx : Context} {x : MarketM α}
  {e : MarketError} (account : AccountId) (delta : Asset)

lemma Safe.intro (h : PlainBook s → Safe s x) : Safe s x := by
  unfold Safe Holds
  cases hx : x s with
  | ok => exact fun hs => (h hs).step hx hs
  | error => exact fun hs => (h hs).fail hx hs

lemma Safe.andThen {f : α → MarketM β} (hx : Safe s x) (hf : ∀ r t, x s = .ok r t → Safe t (f r)) :
    Safe s (x >>= f) :=
  Holds.andThen hx hf

open Safe (andThen intro)

lemma quiet (he : ∀ x, e ≠ .matching x) : overflowLogic.fail s e t :=
  fun _ _ => he _

lemma safe_require {c : Bool} {f : Unit → MarketM α} (he : ∀ x, e ≠ .matching x)
    (hf : c = true → Safe s (f ())) : Safe s (require c e >>= f) :=
  holds_require (fun _ => quiet he) hf

lemma PlainBook.congr (h : PlainBook s) (hord : t.limitOrders = s.limitOrders)
    (hpla : t.history.placed = s.history.placed) (hbit : t.bitassets = s.bitassets) :
    PlainBook t := by
  refine ⟨hbit ▸ h.noBitassets, hord ▸ h.normal, ?_⟩
  unfold LeftOf
  rw [hpla, hord]
  exact h.left

lemma overflowRules : EvaluationRules overflowLogic (fun _ => 0) fun _ _ => 0 where
  deposit := fun _ _ _ _ hs => hs.congr rfl rfl rfl
  adjust := by
    intro s account delta
    refine holds_observe (holds_require (fun _ => quiet nofun) fun _ => ?_)
    exact fun hs => hs.congr rfl rfl rfl
  fail := by
    intro s e he
    refine quiet ?_
    rintro x rfl
    cases he
  reject := by
    intro s e he
    refine quiet ?_
    rintro x rfl
    cases he

lemma safe_adjustBalance : Safe s (adjustBalance account delta) :=
  overflowRules.adjust s account delta

lemma safe_addCoreInOrders : Safe s (addCoreInOrders account delta) :=
  holds_addCoreInOrders fun _ hs => hs.congr rfl rfl rfl

/-! ## Orders -/

structure Shrinks (o o' : LimitOrder) : Prop where
  price : o'.sellPrice = o.sellPrice
  forSale : o'.forSale ≤ o.forSale
  isSettledDebt : o'.isSettledDebt = o.isSettledDebt

variable {i : Nat} {f : LimitOrder → LimitOrder}

lemma safe_fetch {f : LimitOrder → MarketM α}
    (hf : ∀ o, s.limitOrders.find i = some o → Safe s (f o)) :
    Safe s (limitOrderTable.fetch i >>= f) :=
  holds_fetch (fun _ => quiet nofun) hf

lemma safe_modify (hf : ∀ o, s.limitOrders.find i = some o → Shrinks o (f o)) :
    Safe s (limitOrderTable.modify i f) := by
  unfold Safe Holds Table.modify
  cases hfind : (limitOrderTable.get s).find i with
  | none => exact quiet nofun
  | some o =>
    intro hs
    have hmem : o ∈ s.limitOrders.objects := mem_of_find hfind
    have hshr := hf o hfind
    refine ⟨hs.noBitassets, fun x hx => ?_, fun x hx => ?_⟩
    · rcases mem_put hx with rfl | hx
      · have ho := hs.normal o hmem
        exact ⟨hshr.isSettledDebt.trans ho.notSettledDebt, hshr.price ▸ ho.valid⟩
      · exact hs.normal x hx
    · rcases mem_put hx with rfl | hx
      · obtain ⟨p, hp, hprice, hle⟩ := hs.left o hmem
        exact ⟨p, hp, hshr.price.trans hprice, hshr.forSale.trans hle⟩
      · exact hs.left x hx

lemma safe_remove : Safe s (limitOrderTable.remove i) := by
  unfold Safe Holds Table.remove
  cases hfind : (limitOrderTable.get s).find i with
  | none => exact quiet nofun
  | some =>
    intro hs
    exact ⟨hs.noBitassets, fun x hx => hs.normal x (mem_erase hx),
      fun x hx => hs.left x (mem_erase hx)⟩

lemma safe_setLink (i : Nat) (link : Option Nat) : Safe s (setLink i link) :=
  safe_modify fun _ _ => ⟨rfl, le_rfl, rfl⟩

lemma safe_unlink (link : Option Nat) : Safe s (unlink link) := by
  cases link with
  | none => exact holds_pure rfl
  | some t => exact (safe_setLink t none).andThen fun _ _ _ => holds_pure rfl

lemma safe_cleanup : Safe s (cleanupAndRemoveLimitOrder o) :=
  (safe_unlink _).andThen fun _ _ _ => safe_remove

lemma safe_cancelLimitOrder (i : Nat) (createVirtualOp : Bool) :
    Safe s (env.cancelLimitOrder i createVirtualOp) := by
  refine safe_fetch fun o _ => ?_
  refine andThen (overflowRules.deductCancelFee o _ _) fun left _ _ => ?_
  refine (safe_addCoreInOrders _ _).andThen fun _ _ _ => ?_
  refine (safe_adjustBalance _ _).andThen fun _ _ _ => ?_
  refine andThen (overflowRules.refund o left) fun _ _ _ => ?_
  exact (safe_cleanup).andThen fun _ _ _ => holds_pure rfl

lemma safe_maybeCullSmallOrder (i : Nat) : Safe s (env.maybeCullSmallOrder i) := by
  refine safe_fetch fun o ho => holds_calculate (fun e he hs hfit => ?_) fun toReceive _ => ?_
  · rintro ⟨⟩
    exact (hs.fits hfit (mem_of_find ho)).amountToReceive he
  · split
    · exact (safe_cancelLimitOrder i true).andThen fun _ _ _ => holds_pure rfl
    · exact holds_pure rfl

structure SafeContext (cx : Context) : Prop where
  create : ∀ s op, Safe s (cx.pushCreate op)
  update : ∀ s op, Safe s (cx.pushUpdate op)

lemma safe_liftAs {wrap : AssetError → MarketError} {x : Except AssetError α} {f : α → MarketM β}
    (hwrap : ∀ e y, wrap e ≠ .matching y) (hf : ∀ a, Safe s (f a)) : Safe s (liftAs wrap x >>= f) :=
  holds_liftAs (fun e _ => quiet (hwrap e)) fun a _ => hf a

lemma safe_feeIn {assetId : AssetId} {fee : Nat} {f : Asset → MarketM α}
    (hf : ∀ x, Safe s (f x)) : Safe s (env.feeIn assetId fee >>= f) := by
  unfold feeIn
  split
  · exact hf _
  · rw [bind_assoc]
    exact overflowRules.andGetAsset fun _ => safe_liftAs nofun hf

/-! ## Filling and matching -/

lemma safe_recordDroppedFees (had paid : DeferredFees) : Safe s (recordDroppedFees had paid) :=
  fun hs => hs.congr rfl rfl rfl

variable {pays : Asset} {op : LimitOrderCreate}

lemma safe_finishFill (hpays : 0 ≤ pays.amount) (takeProfit : Option Nat)
    (cullIfSmall : Bool) : Safe s (cx.finishFill o pays takeProfit cullIfSmall) := by
  refine safe_fetch fun now _ => (safe_recordDroppedFees _ _).andThen fun _ t _ => ?_
  split
  · exact (safe_cleanup).andThen fun _ _ _ => holds_pure rfl
  · refine andThen ?_ fun _ u _ => ?_
    · cases takeProfit with
      | none => exact holds_pure rfl
      | some link => exact (safe_setLink link _).andThen fun _ _ _ => holds_pure rfl
    · refine andThen (safe_modify fun o _ => ⟨rfl, ?_, rfl⟩) fun _ v _ => ?_
      · exact sub_le_self o.forSale hpays
      · cases cullIfSmall with
        | true => exact safe_maybeCullSmallOrder _
        | false => exact holds_pure rfl

section

variable (hcx : SafeContext cx)
include hcx

lemma safe_updateTakeProfit (action : TakeProfitAction)
    (link : Nat) (forSale : Asset) : Safe s (cx.updateTakeProfit action o link forSale) := by
  refine safe_feeIn fun fee => andThen ?_ fun newPrice t _ => ?_
  · unfold Context.takeProfitPrice
    split
    · exact safe_fetch fun _ _ => safe_liftAs nofun fun _ => safe_liftAs nofun fun _ => holds_pure rfl
    · exact holds_pure rfl
  · exact safe_require nofun fun _ => hcx.update t _

lemma safe_createTakeProfit (action : TakeProfitAction)
    (forSale : Asset) : Safe s (cx.createTakeProfit action o forSale) := by
  exact safe_feeIn fun fee => safe_liftAs nofun fun _ => safe_liftAs nofun fun _ =>
    safe_require nofun fun _ => hcx.create s _

lemma safe_processLimitOrderOnFill (receives : Asset) :
    Safe s (cx.processLimitOrderOnFill o receives) := by
  unfold Context.processLimitOrderOnFill
  cases o.onFill with
  | none => exact holds_pure rfl
  | some action =>
    dsimp only
    split
    · exact holds_pure rfl
    · cases o.takeProfitOrderId with
      | none => exact holds_attempt (safe_createTakeProfit hcx action _)
      | some link =>
        refine andThen (holds_attempt (safe_updateTakeProfit hcx action link _)) ?_
        exact fun _ _ _ => holds_pure rfl

lemma safe_fillLimitOrder (i : Nat) (hpays : 0 ≤ pays.amount)
    (receives : Asset) (cullIfSmall isMaker : Bool) :
    Safe s (cx.fillLimitOrder i pays receives cullIfSmall isMaker) := by
  refine safe_fetch fun o _ => safe_require nofun fun _ => ?_
  refine andThen (overflowRules.marketFees ⟨nofun, nofun⟩ _ _ _) fun _ t1 _ => ?_
  refine andThen ((safe_addCoreInOrders _ _).andThen fun _ _ _ => safe_adjustBalance _ _)
    fun _ t2 _ => ?_
  refine andThen (overflowRules.settleDeferredFees (fun _ _ => rfl) o isMaker) fun _ t3 _ => ?_
  refine (safe_processLimitOrderOnFill hcx _).andThen fun takeProfit t4 _ => ?_
  exact safe_finishFill hpays takeProfit cullIfSmall

lemma safe_matchLimitNormalLimit {taker maker : LimitOrder}
    (htkr : taker ∈ s.limitOrders.objects) (hmkr : maker ∈ s.limitOrders.objects)
    (h : Opposite taker maker) : Safe s (cx.matchLimitNormalLimit taker maker maker.sellPrice) := by
  refine safe_require nofun fun _ => safe_require nofun fun _ => ?_
  refine holds_calculate (fun e he hs hfit => ?_) fun amounts hamounts => ?_
  · rintro ⟨⟩
    exact h.limitMatch_fits (hs.fits hfit htkr) (hs.fits hfit hmkr) he
  · cases amounts with
    | none => exact holds_pure rfl
    | some =>
      obtain ⟨htakes, hmakes⟩ := h.amounts_nonneg hamounts
      refine (safe_fillLimitOrder hcx _ hmakes _ _ _).andThen fun _ _ _ => ?_
      refine (safe_fillLimitOrder hcx _ htakes _ _ _).andThen fun _ _ _ => ?_
      exact safe_require nofun fun _ => holds_pure rfl

lemma safe_matchLimits (takerId makerId : Nat) : Safe s (cx.matchLimits takerId makerId) := by
  refine intro fun hs => ?_
  refine safe_fetch fun taker htkr => safe_fetch fun maker hmkr => safe_require nofun fun hok => ?_
  obtain ⟨-, hpays, htap, hmap⟩ := of_decide_eq_true hok
  have hmem := mem_of_find hmkr
  have hnor := hs.normal maker hmem
  rw [if_neg (by simp [hnor.notSettledDebt])]
  exact safe_matchLimitNormalLimit hcx (mem_of_find htkr) hmem
    ⟨hpays, htap, hmap, hnor.valid⟩

lemma safe_matchWhile (takerId : Nat) (limitEnd : Option Nat) (fuel : Nat) :
    ∀ {s : MarketState} (limitItr : Option Nat), Safe s (cx.matchWhile takerId limitEnd fuel limitItr) := by
  induction fuel with
  | zero => exact fun _ => holds_throw (quiet nofun)
  | succ fuel ih =>
    intro s limitItr
    unfold Context.matchWhile
    split
    · exact holds_pure rfl
    · refine holds_orThrow (fun _ => quiet nofun) fun i _ => holds_observe ?_
      refine (safe_matchLimits hcx takerId i).andThen fun result t _ => ?_
      split
      · exact ih _
      · exact holds_pure rfl

end

lemma PlainBook.applyToCallsOf_eq (hs : PlainBook s) (cx : Context) (o : LimitOrder)
    (limitItr : Option Nat) : cx.applyToCallsOf o limitItr s = .ok (false, limitItr, false) s := by
  unfold Context.applyToCallsOf
  rw [observe_bind, hs.noBitassets]
  rfl

lemma safe_cullIfLeft (i : Nat) : Safe s (cx.cullIfLeft i) := by
  refine holds_observe ?_
  split
  · exact safe_maybeCullSmallOrder i
  · exact holds_pure rfl

lemma safe_applyOrder (hcx : SafeContext cx) (i : Nat) : Safe s (cx.applyOrder i) := by
  refine intro fun hs => ?_
  refine safe_fetch fun o _ => holds_observe ?_
  split
  · exact holds_pure rfl
  · refine holds_observe (holds_observe ?_)
    have hclose := hs.applyToCallsOf_eq cx o
      (s.limitLowerBound (Price.highest o.receiveAssetId o.sellAssetId))
    refine andThen ((holds_ok hclose).2 id) fun r t hr => ?_
    rw [hclose] at hr
    cases hr
    refine andThen ?_ fun _ u _ => ?_
    · exact (safe_matchWhile hcx i _ _ _).andThen fun _ _ _ => holds_pure rfl
    · refine (safe_cullIfLeft i).andThen fun isGone v _ => ?_
      rw [if_neg (by simp)]
      exact holds_pure rfl

/-! ## The operations -/

lemma PlainBook.place (hs : PlainBook s) (ho : o.IsNormal) (hbit : t.bitassets = s.bitassets)
    (hpla : t.history.placed = o :: s.history.placed)
    (hord : ∀ x ∈ t.limitOrders.objects, x = o ∨ x ∈ s.limitOrders.objects) : PlainBook t := by
  refine ⟨hbit ▸ hs.noBitassets, fun x hx => ?_, fun x hx => ?_⟩
  · rcases hord x hx with rfl | hx
    · exact ho
    · exact hs.normal x hx
  · unfold LeftOf
    rw [hpla]
    rcases hord x hx with rfl | hx
    · exact ⟨x, List.mem_cons_self, rfl, le_rfl⟩
    · obtain ⟨p, hp, hprice, hle⟩ := hs.left x hx
      exact ⟨p, List.mem_cons_of_mem _ hp, hprice, hle⟩

lemma safe_placeNew {mk : Nat → LimitOrder} (hmk : ∀ i, (mk i).IsNormal) : Safe s (placeNew mk) :=
  fun hs => hs.place (hmk _) rfl rfl fun _ hx => mem_put hx

lemma safe_placeAgain (hf : ∀ o, o.IsNormal → (f o).IsNormal) : Safe s (placeAgain i f) := by
  unfold Safe Holds
  cases hfind : s.limitOrders.find i with
  | none =>
    have hrun : placeAgain i f s = .error .unknownLimitOrder s := by
      simp only [placeAgain, Table.modify, limitOrderTable, hfind, bind, EStateM.bind]
    rw [hrun]
    exact quiet (by rintro _ ⟨⟩)
  | some o =>
    have hrun : placeAgain i f s = _ := modify_bind (T := limitOrderTable) (by exact hfind) f
    rw [hrun]
    intro hs
    exact hs.place (hf o (hs.normal o (mem_of_find hfind))) rfl rfl fun _ hx => mem_put hx

lemma LimitOrderCreate.newOrder_isNormal (hop : op.isValid = true) {price : Price}
    (hprice : op.amountToSell.div op.minToReceive = .ok price) (fees : DeferredFees) (i : Nat) :
    (op.newOrder price fees i).IsNormal := by
  obtain ⟨hne, -, hsell, hmin, -⟩ := of_decide_eq_true hop
  obtain ⟨_, -, hok⟩ := bind_eq_ok.1 hprice
  obtain rfl := Except.ok.inj hok
  exact ⟨rfl, hsell, hmin, hne⟩

lemma safe_applyCreate (hcx : SafeContext cx) (hop : op.isValid = true) (fees : DeferredFees) :
    Safe s (cx.applyCreate op fees) := by
  refine (safe_addCoreInOrders _ _).andThen fun _ _ _ => ?_
  refine (safe_adjustBalance _ _).andThen fun _ _ _ => ?_
  refine holds_liftAs (fun _ _ => quiet nofun) fun price hprice => ?_
  refine (safe_placeNew fun i => op.newOrder_isNormal hop hprice fees i).andThen fun o _ _ => ?_
  refine (safe_applyOrder hcx _).andThen fun _ _ _ => ?_
  exact safe_require nofun fun _ => holds_pure rfl

lemma safe_limitOrderCreate (hcx : SafeContext cx) : Safe s (cx.limitOrderCreate op) := by
  refine safe_require nofun fun hop => overflowRules.andPrepareFee fun coreFeePaid _ => ?_
  refine andThen (overflowRules.evaluateCreate op) fun _ _ _ => ?_
  refine andThen (overflowRules.defer _ _) fun fees _ _ => ?_
  refine (safe_applyCreate hcx hop fees).andThen fun _ _ _ => ?_
  exact (safe_adjustBalance _ _).andThen fun _ _ _ => holds_pure rfl

lemma safe_processDeferredFee : Safe s (processDeferredFee env o) := by
  unfold processDeferredFee
  split
  · exact holds_pure rfl
  · refine andThen (overflowRules.deductCancelFee o _ _) fun left _ _ => ?_
    exact andThen (overflowRules.refund o left) fun _ _ _ => holds_pure rfl

variable {op : LimitOrderUpdate}

lemma LimitOrderUpdate.updated_valid (hop : op.isValid = true) (fees : DeferredFees)
    (unlinked : Bool) (ho : o.sellPrice.Valid) : (op.updated fees unlinked o).sellPrice.Valid := by
  obtain ⟨-, -, hprice, -, -⟩ := of_decide_eq_true hop
  change (op.newPrice.getD o.sellPrice).Valid
  cases hnew : op.newPrice with
  | none => exact ho
  | some =>
    rw [hnew] at hprice
    obtain ⟨hbase, hquote, hne⟩ := of_decide_eq_true hprice
    exact ⟨hbase, hquote, hne⟩

lemma safe_applyUpdate (hcx : SafeContext cx) (hop : op.isValid = true)
    (skipPriceCheck : Bool) (fees : DeferredFees) : Safe s (cx.applyUpdate op skipPriceCheck o fees) := by
  refine (safe_adjustBalance _ _).andThen fun _ _ _ => ?_
  refine (safe_addCoreInOrders _ _).andThen fun _ _ _ => ?_
  refine (safe_processDeferredFee).andThen fun _ _ _ => ?_
  refine andThen (holds_whenever (fun _ => rfl) fun _ => safe_unlink _) fun _ _ _ => ?_
  refine (safe_placeAgain fun _ h => LimitOrder.IsNormal.mk (o := op.updated fees _ _)
    h.notSettledDebt (op.updated_valid hop fees _ h.valid)).andThen fun _ _ _ => ?_
  refine (safe_recordDroppedFees _ _).andThen fun _ _ _ => ?_
  exact (safe_applyOrder hcx _).andThen fun _ _ _ => holds_pure rfl

lemma safe_limitOrderUpdate (hcx : SafeContext cx) (skipPriceCheck : Bool) :
    Safe s (cx.limitOrderUpdate op skipPriceCheck) := by
  refine safe_require nofun fun hop => overflowRules.andPrepareFee fun coreFeePaid _ => ?_
  refine andThen (overflowRules.evaluateUpdate op) fun o _ _ => ?_
  refine andThen (overflowRules.defer _ _) fun fees _ _ => ?_
  refine (safe_applyUpdate hcx hop _ fees).andThen fun _ _ _ => ?_
  exact safe_adjustBalance _ _

lemma safe_limitOrderCancel (op : LimitOrderCancel) : Safe s (env.limitOrderCancel op) := by
  refine overflowRules.andPrepareFee fun coreFeePaid _ => ?_
  refine andThen (overflowRules.evaluateCancel op) fun _ _ _ => ?_
  refine andThen (overflowRules.convertAndPay _ _ _) fun _ _ _ => ?_
  exact (safe_cancelLimitOrder _ _).andThen fun _ _ _ => safe_adjustBalance _ _

lemma safe_context (env : Env) (depth : Nat) : SafeContext (env.context depth) := by
  induction depth with
  | zero => exact ⟨fun _ _ => holds_throw (quiet nofun), fun _ _ => holds_throw (quiet nofun)⟩
  | succ depth ih =>
    exact ⟨fun _ op => safe_limitOrderCreate ih, fun _ op => safe_limitOrderUpdate ih true⟩

lemma safe_perform (env : Env) (depth : Nat) (op : LimitOperation) : Safe s (op.perform env depth) := by
  cases op with
  | create op =>
    exact (safe_limitOrderCreate (safe_context env depth)).andThen fun _ _ _ => holds_pure rfl
  | update op => exact safe_limitOrderUpdate (safe_context env depth) false
  | cancel op => exact safe_limitOrderCancel op

def LimitStep (s t : MarketState) : Prop :=
  ∃ env depth op, LimitOperation.perform env depth op s = .ok () t

structure FreshBook (s : MarketState) : Prop where
  noBitassets : ∀ a, s.bitassets.find a = none
  noOrders : s.limitOrders.objects = []

lemma FreshBook.plain (h : FreshBook s) : PlainBook s where
  noBitassets := h.noBitassets
  normal := by simp [h.noOrders]
  left := by simp [h.noOrders]

lemma LimitStep.plain (h : LimitStep s t) (hs : PlainBook s) : PlainBook t := by
  obtain ⟨env, depth, op, hrun⟩ := h
  exact (safe_perform env depth op).step hrun hs

lemma plain_of_run (hs : PlainBook s) (hrun : Relation.ReflTransGen LimitStep s t) : PlainBook t := by
  induction hrun with
  | refl => exact hs
  | tail _ hstep ih => exact hstep.plain ih

/-- No product is too large in a book in which every order fits as it was placed. -/
theorem matching_never_overflows (hs : FreshBook s) (hrun : Relation.ReflTransGen LimitStep s t)
    (env : Env) (depth : Nat) (op : LimitOperation) (hfit : AllPlacedFit (endOf (op.perform env depth) t)) :
    errorOf (op.perform env depth) t ≠ some (.matching .resultTooLarge) := by
  have ht := plain_of_run hs.plain hrun
  have hsafe := safe_perform (s := t) env depth op
  unfold endOf at hfit
  unfold errorOf
  cases hend : op.perform env depth t with
  | ok => exact nofun
  | error =>
    rw [hend] at hfit
    rintro ⟨⟩
    exact hsafe.fail hend ht hfit rfl

def sells (seller : AccountId) (amountToSell minToReceive : Asset) : LimitOperation :=
  .create ⟨⟨0, 0⟩, seller, amountToSell, minToReceive, 1, false, none⟩

def threeSellers : MarketState :=
  { MarketState.empty with
    pockets := ((Tally.add Keyed.empty (.balance 10 1) 10).add (.balance 11 1) 1000000).add
      (.balance 12 2) 2000000000 }

def smallOffer : LimitOperation :=
  sells 10 ⟨1, 1⟩ ⟨1, 2⟩

def hugeOffer : LimitOperation :=
  sells 11 ⟨1000000, 1⟩ ⟨1000000001000000, 2⟩

def buyer : LimitOperation :=
  sells 12 ⟨2000000000, 2⟩ ⟨1, 1⟩

lemma smallOffer_step : LimitStep threeSellers (endOf (smallOffer.perform plain 0) threeSellers) :=
  ⟨plain, 0, smallOffer, rfl⟩

/-- Without the large offer, the buyer is served. -/
theorem matching_never_overflows_buyer :
    errorOf (buyer.perform plain 0) (endOf (smallOffer.perform plain 0) threeSellers)
      ≠ some (.matching .resultTooLarge) :=
  matching_never_overflows ⟨fun _ => rfl, rfl⟩ (.single smallOffer_step) plain 0 buyer
    (by decide +kernel)

/-- The large offer is accepted behind the small one, and then the buyer's order fails. -/
theorem large_offer_blocks_buyer : errorOf (do
        smallOffer.perform plain 0
        buyer.perform plain 0) threeSellers = none ∧
      errorOf (do
        smallOffer.perform plain 0
        hugeOffer.perform plain 0) threeSellers = none ∧
      errorOf (do
        smallOffer.perform plain 0
        hugeOffer.perform plain 0
        buyer.perform plain 0) threeSellers = some (.matching .resultTooLarge) := by
  decide +kernel

end Graphene.Market
