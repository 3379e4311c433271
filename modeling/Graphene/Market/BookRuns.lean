import Graphene.Market.BookInvariant
import Graphene.Market.OverflowSafety

/-!
# Quiet markets over whole runs

Creating, updating and cancelling limit orders without automatic actions keeps markets quiet, and so
do expirations and whatever happens elsewhere.
-/

namespace Graphene.Market

open Protocol Lib RunLogic Keyed Option Asset
open LimitOrder (asks_le owns receiveAssetId sellAssetId unlinked)
open LimitOrderUpdate (checkDust delta evaluate processDeferredFee updateCancelFee)

variable {M : AssetId → AssetId → Prop} {α : Type} {s t u : MarketState} {env : Env} {cx : Context}
  {o : LimitOrder}

/-! ## Fees and evaluation -/

variable {x : MarketM α} {account : AccountId} {r : Unit}

lemma completes_calm {d : α → PUnit} {e : α → AssetId → ℤ} (h : tableLogic.Holds s x d)
    (h' : ownLogic.Holds s x e) :
    Completes s x fun r t => SameTables s t ∧ ownLogic.step s t (e r) :=
  (completes_of_tables h).and_holds h'

lemma SameTables.quiet (h : SameTables s t) (hs : QuietBook M s) : QuietBook M t := by
  refine ⟨?_, ?_, ?_, hs.calm.congr h.callOrders h.bitassets⟩
  · rw [h.limitOrders]
    exact hs.valid
  · rw [h.limitOrders]
    exact hs.resting
  · rw [h.limitOrders]
    exact hs.apart

lemma adjustBalance_covers {delta : Asset} (h : adjustBalance account delta s = .ok r t) :
    0 ≤ delta.amount ∨ -delta.amount ≤ s.getBalance account delta.assetId := by
  unfold adjustBalance at h
  rw [observe_bind] at h
  obtain ⟨_, _, hok, -⟩ := bind_ok_iff.1 h
  exact of_decide_eq_true (require_ok_iff.1 hok).1

variable {fee : Asset} {requiredFee : Nat}

lemma prepareFee_value :
    Returns (env.prepareFee account fee requiredFee) fun coreFeePaid => 0 ≤ fee.amount ∧
      (fee.assetId = coreAsset → coreFeePaid = fee.amount) ∧ (fee.amount = 0 → coreFeePaid = 0) := by
  have hval : ∀ feeAsset : AssetObject, Returns (feeAsset.coreFeePaid fee) fun coreFeePaid =>
      (fee.assetId = coreAsset → coreFeePaid = fee.amount) ∧ (fee.amount = 0 → coreFeePaid = 0) := by
    intro feeAsset
    unfold AssetObject.coreFeePaid
    split
    next => exact returns_pure ⟨fun _ => rfl, id⟩
    next hcore =>
      intro s r t h
      obtain ⟨x, _, hx, h⟩ := bind_ok_iff.1 h
      obtain ⟨_, _, -, h⟩ := bind_ok_iff.1 h
      obtain ⟨_, _, -, h⟩ := bind_ok_iff.1 h
      obtain ⟨_, _, -, h⟩ := bind_ok_iff.1 h
      cases h
      refine ⟨fun hc => absurd hc hcore, fun hzero => ?_⟩
      -- nothing is worth nothing
      have hmul : fee.mul feeAsset.coreExchangeRate = .ok x := by
        cases hmul : fee.mul feeAsset.coreExchangeRate with
        | error =>
          rw [hmul] at hx
          cases hx
        | ok =>
          rw [hmul] at hx
          cases hx
          rfl
      unfold mul mulBy at hmul
      rw [hzero] at hmul
      split at hmul
      · obtain ⟨-, -, rfl⟩ := scale_eq_ok.1 hmul
        simp
      · split at hmul
        · obtain ⟨-, -, rfl⟩ := scale_eq_ok.1 hmul
          simp
        · cases hmul
  refine returns_require fun hfee => returns_bind fun _ => returns_bind fun feeAsset =>
    returns_bind fun _ => (hval feeAsset).bind fun coreFeePaid hpaid => returns_bind fun _ => ?_
  exact returns_pure ⟨of_decide_eq_true hfee, hpaid⟩

/-- The deferred fees of a fee that has been paid. -/
structure DeferredFor (fee : Asset) (fees : DeferredFees) : Prop where
  paid_nonneg : 0 ≤ fees.paidFee.amount
  nonneg : fees.paidFee.amount = 0 → 0 ≤ fees.fee
  refundable : (if fees.paidFee.amount = 0 then amounts ⟨fees.fee, coreAsset⟩
    else amounts fees.paidFee) = amounts fee

variable {coreFeePaid : ℤ}

lemma deferFee_returns (hfee : 0 ≤ fee.amount)
    (hcore : fee.assetId = coreAsset → coreFeePaid = fee.amount)
    (hzero : fee.amount = 0 → coreFeePaid = 0) :
    Returns (deferFee fee coreFeePaid) fun fees => DeferredFor fee fees := by
  unfold deferFee
  split
  next hasset =>
    obtain rfl := hcore hasset
    refine returns_pure ⟨le_rfl, fun _ => hfee, ?_⟩
    rw [if_pos rfl, ← hasset]
  next =>
    refine returns_bind fun _ => returns_pure ⟨hfee, fun h => (hzero h).ge, ?_⟩
    split
    next h =>
      have hnot : amounts fee = 0 := by
        rw [amounts, h]
        exact Pi.single_zero _
      rw [hzero h, amounts_zero, hnot]
    next => rfl

lemma completes_placeNew {mk : Nat → LimitOrder} (hid : ∀ i, (mk i).id = i) (hs : QuietBook M s)
    (hvalid : ∀ i, (mk i).sellPrice.Valid) (hsound : ∀ i, (mk i).Sound) :
    Completes s (placeNew mk) fun o t => (∃ i, o = mk i) ∧ QuietBut M o.id t ∧
      t.limitOrders.find o.id = some o ∧
      t.limitOrders.objects.length = s.limitOrders.objects.length + 1 ∧
      ownLogic.step s t o.owns := by
  set new := mk s.limitOrders.nextId with hnew
  have hfree : s.limitOrders.find new.id = none := by
    rw [hnew, hid]
    exact s.limitOrders.find_nextId
  have hmem : ∀ x ∈ (s.limitOrders.write new).objects, x.id ≠ new.id → x ∈ s.limitOrders.objects := by
    intro x hx hne
    rcases mem_put hx with rfl | hx
    · exact absurd rfl hne
    · exact hx
  refine ⟨⟨_, rfl⟩, ⟨fun x hx => ?_, fun x hx hne => hs.resting x (hmem x hx hne),
    fun x hx y hy hne hne' => hs.apart x (hmem x hx hne) y (hmem y hy hne'),
    hs.calm.congr rfl rfl⟩, ?_, ?_, fun hown => ⟨⟨hown.solid, fun x hx => ?_⟩, le_of_eq ?_⟩⟩
  · rcases mem_put hx with rfl | hx
    · exact hvalid _
    · exact hs.valid x hx
  · exact (find_put _ _ _).trans (if_pos rfl)
  · -- no order is replaced
    have htot := total_put s.limitOrders.toKeyed new fun _ => (1 : ℤ)
    rw [hfree, elim_none, total_one, total_one] at htot
    change ((s.limitOrders.toKeyed.put new).objects.length : ℕ) = _
    omega
  · rcases mem_put hx with rfl | hx
    · exact hsound _
    · exact hown.orders x hx
  · have htot := total_put s.limitOrders.toKeyed new owns
    rw [hfree, elim_none, sub_zero] at htot
    change s.held + (s.limitOrders.toKeyed.put new).total owns
      = s.held + s.limitOrders.total owns + new.owns
    rw [htot, add_assoc]

structure QuietState (M : AssetId → AssetId → Prop) (s : MarketState) : Prop where
  book : QuietBook M s
  sound : s.Sound
  supply : ∀ a, s.owned a ≤ grapheneMaxShareSupply

lemma QuietState.of_step (h : QuietState M s) (hbook : QuietBook M t) (hown : ownLogic.step s t 0) :
    QuietState M t ∧ t.owned ≤ s.owned := by
  obtain ⟨hsound, hle⟩ := hown h.sound
  rw [add_zero] at hle
  exact ⟨⟨hbook, hsound, fun a => (hle a).trans (h.supply a)⟩, hle⟩

lemma own_then {d : AssetId → ℤ} (h : ownLogic.step s t 0) (h' : ownLogic.step t u d) :
    ownLogic.step s u d :=
  zero_add d ▸ ownLogic.trans h h'

lemma completes_adjust (delta : Asset) :
    Completes s (adjustBalance account delta) fun _ t =>
      (SameTables s t ∧ ownLogic.step s t (amounts delta)) ∧
        (0 ≤ delta.amount ∨ -delta.amount ≤ s.getBalance account delta.assetId) := by
  have hcalm := completes_calm (tableRules.adjust s account delta) (ownRules.adjust s account delta)
  exact ends_intro (fun _ _ hx => ⟨hcalm.ok hx, adjustBalance_covers hx⟩) fun _ _ hx => hcalm.error hx

lemma completes_prepareFee :
    Completes s (env.prepareFee account fee requiredFee) fun coreFeePaid t =>
      (SameTables s t ∧ ownLogic.step s t 0) ∧ 0 ≤ fee.amount ∧
        (fee.assetId = coreAsset → coreFeePaid = fee.amount) ∧ (fee.amount = 0 → coreFeePaid = 0) :=
  (completes_calm (tableRules.prepare _ _ _) (ownRules.prepare _ _ _)).and_returns prepareFee_value

lemma completes_deferFee (hfee : 0 ≤ fee.amount)
    (hcore : fee.assetId = coreAsset → coreFeePaid = fee.amount)
    (hzero : fee.amount = 0 → coreFeePaid = 0) : Completes s (deferFee fee coreFeePaid) fun fees t =>
      (SameTables s t ∧ ownLogic.step s t 0) ∧ DeferredFor fee fees := by
  have hown : ownLogic.Holds s (deferFee fee coreFeePaid) fun _ => 0 :=
    (ownRules.defer fee coreFeePaid).congr fun _ _ _ => by
      split
      · rfl
      · rfl
  exact (completes_calm (tableRules.defer fee coreFeePaid) hown).and_returns
    (deferFee_returns hfee hcore hzero)

/-! ## Creating an order -/

variable {op : LimitOrderCreate} {fees : DeferredFees}

lemma LimitOrderCreate.newOrder_resting (hop : op.isValid = true) (hact : op.onFill = none)
    (hle : op.amountToSell.amount ≤ grapheneMaxShareSupply) (i : Nat) :
    (op.newOrder ⟨op.amountToSell, op.minToReceive⟩ fees i).Resting := by
  obtain ⟨-, -, hsell, hmin, -⟩ := of_decide_eq_true hop
  refine ⟨rfl, hact, ?_, hle⟩
  have hasks : (op.newOrder ⟨op.amountToSell, op.minToReceive⟩ fees i).asks = op.minToReceive.amount :=
    Int.mul_ediv_cancel_left _ hsell.ne'
  rwa [hasks]

lemma LimitOrderCreate.newOrder_owns (hfees : DeferredFor op.fee fees) (i : Nat) :
    (op.newOrder ⟨op.amountToSell, op.minToReceive⟩ fees i).owns
      = amounts op.amountToSell + amounts op.fee := by
  have href : amounts (op.newOrder ⟨op.amountToSell, op.minToReceive⟩ fees i).refundable
      = amounts op.fee := by
    rw [← hfees.refundable]
    exact apply_ite amounts _ _ _
  exact congrArg (amounts op.amountToSell + ·) href

lemma QuietState.completes_create (h : QuietState M s) (hM : TwoSided M)
    (hin : M op.amountToSell.assetId op.minToReceive.assetId) (hact : op.onFill = none)
    (hfuel : s.limitOrders.objects.length + 1 < cx.env.fuel) :
    Completes s (cx.limitOrderCreate op) fun _ t => QuietState M t ∧ t.owned ≤ s.owned := by
  refine completes_require nofun fun hop => ?_
  obtain ⟨hne, -, hsell, hmin, -⟩ := of_decide_eq_true hop
  refine completes_prepareFee.bind ?_
  rintro coreFeePaid t1 ⟨⟨htab1, hown1⟩, hfee, hcore, hzero⟩
  refine (completes_calm (tableRules.evaluateCreate op) (ownRules.evaluateCreate op)).bind ?_
  rintro _ t2 ⟨htab2, hown2⟩
  refine (completes_deferFee hfee hcore hzero).bind ?_
  rintro fees t3 ⟨⟨htab3, hown3⟩, hfees⟩
  have hown : ownLogic.step s t3 0 := own_then (own_then hown1 hown2) hown3
  refine Ends.bind (P := fun _ t => QuietBook M t ∧ ownLogic.step s t (amounts op.fee)) ?_ ?_
  · refine (completes_calm (holds_addCoreInOrders (sameTables_counts t3))
      (holds_addCoreInOrders (owned_counts t3))).bind ?_
    rintro _ t3 ⟨htabc, hownc⟩
    have hown := own_then hown hownc
    refine (completes_adjust op.amountToSell.neg).bind ?_
    rintro _ t4 ⟨⟨htab4, hown4⟩, hcov⟩
    refine completes_liftAs nofun fun price hprice => ?_
    obtain rfl : price = ⟨op.amountToSell, op.minToReceive⟩ := by
      obtain ⟨_, -, hok⟩ := bind_eq_ok.1 hprice
      exact (Except.ok.inj hok).symm
    -- the seller has what is sold
    have hle : op.amountToSell.amount ≤ grapheneMaxShareSupply := by
      obtain ⟨hsou, hle3⟩ := hown h.sound
      have hneg : op.amountToSell.neg.amount = -op.amountToSell.amount := rfl
      have hbal : op.amountToSell.amount ≤ t3.getBalance op.seller op.amountToSell.assetId := by
        rcases hcov with hpos | hle
        · omega
        · rwa [hneg, neg_neg] at hle
      calc op.amountToSell.amount ≤ t3.getBalance op.seller op.amountToSell.assetId := hbal
        _ ≤ t3.owned op.amountToSell.assetId := hsou.balance_le _ _
        _ ≤ s.owned op.amountToSell.assetId + 0 := hle3 _
        _ ≤ grapheneMaxShareSupply := by
            rw [add_zero]
            exact h.supply _
    have htab := (((htab1.trans htab2).trans htab3).trans htabc).trans htab4
    refine (completes_placeNew
      (fun _ => rfl) (htab.quiet h.book) (fun _ => ⟨hsell, hmin, hne⟩)
      fun _ => ⟨hsell.le, hfees.paid_nonneg, hfees.nonneg⟩).bind ?_
    rintro _ t5 ⟨⟨i, rfl⟩, hbut, hfound, hlen, hown5⟩
    have hpla : Placed M (op.newOrder ⟨op.amountToSell, op.minToReceive⟩ fees i) t5 :=
      ⟨hbut, hfound, hin, LimitOrderCreate.newOrder_resting hop hact hle i⟩
    refine (hpla.completes_applyOrder hM (by rw [hlen, htab.limitOrders]; exact hfuel)).bind ?_
    rintro filled t6 ⟨hquiet, hown6⟩
    refine completes_require nofun fun _ => ends_pure ⟨hquiet, ?_⟩
    have hsum := ownLogic.trans (ownLogic.trans (own_then hown hown4) hown5) hown6
    rwa [LimitOrderCreate.newOrder_owns hfees, amounts_neg, add_zero, neg_add_cancel_left] at hsum
  · rintro i t7 ⟨hquiet, hown7⟩
    refine (completes_adjust op.fee.neg).bind ?_
    rintro _ t8 ⟨⟨htab8, hown8⟩, -⟩
    refine ends_pure (h.of_step (htab8.quiet hquiet) ?_)
    have hsum := ownLogic.trans hown7 hown8
    rwa [amounts_neg, add_neg_cancel] at hsum

/-! ## Updating an order -/

structure LimitOrderUpdate.FitsOrder (op : LimitOrderUpdate) (o : LimitOrder) : Prop where
  price : ∀ p, op.newPrice = some p → p.SameMarket o.sellPrice
  forSale : 0 ≤ o.forSale → 0 ≤ o.forSale + op.delta
  dust : op.newPrice.isSome ∨ op.delta < 0 → ∃ x,
    mul ⟨o.forSale + op.delta, o.sellAssetId⟩ (op.newPrice.getD o.sellPrice) = .ok x ∧ 0 < x.amount

variable {op : LimitOrderUpdate}

lemma checkDust_ok (h : op.checkDust o s = .ok r t) (hdust : op.newPrice.isSome ∨ op.delta < 0) :
    ∃ x,
      mul ⟨o.forSale + op.delta, o.sellAssetId⟩ (op.newPrice.getD o.sellPrice) = .ok x ∧
        0 < x.amount := by
  unfold checkDust at h
  rw [if_pos hdust] at h
  obtain ⟨x, _, hx, h⟩ := bind_ok_iff.1 h
  refine ⟨x, ?_, of_decide_eq_true (require_ok_iff.1 h).1⟩
  cases hmul : mul ⟨o.forSale + op.delta, o.sellAssetId⟩ (op.newPrice.getD o.sellPrice) with
  | error =>
    rw [hmul] at hx
    cases hx
  | ok =>
    rw [hmul] at hx
    cases hx
    rfl

lemma evaluateUpdate_ok (h : op.evaluate env s = .ok o t) :
    s.limitOrders.find op.order = some o ∧ op.FitsOrder o := by
  obtain ⟨_, s1, hact, h⟩ := bind_ok_iff.1 h
  obtain ⟨o', s2, hfet, h⟩ := bind_ok_iff.1 h
  obtain ⟨_, s3, -, h⟩ := bind_ok_iff.1 h
  obtain ⟨_, s4, hprice, h⟩ := bind_ok_iff.1 h
  obtain ⟨_, s5, hdel, h⟩ := bind_ok_iff.1 h
  obtain ⟨_, s6, hdust, h⟩ := bind_ok_iff.1 h
  obtain ⟨_, s7, -, h⟩ := bind_ok_iff.1 h
  obtain ⟨_, s8, -, h⟩ := bind_ok_iff.1 h
  cases h
  have hta := (tableRules.checkAction (op.onFill.getD none)).step hact
  have hfind : s1.limitOrders.find op.order = some o := (fetch_ok_iff.1 hfet).1
  rw [hta.limitOrders] at hfind
  refine ⟨hfind, fun p hp => ?_, fun hpos => ?_, checkDust_ok hdust⟩
  · have hfits := (require_ok_iff.1 hprice).1
    rw [hp] at hfits
    obtain ⟨hbase, hquote, -⟩ := of_decide_eq_true hfits
    exact ⟨hbase, hquote⟩
  · have hfits := (require_ok_iff.1 hdel).1
    unfold delta
    cases hd : op.deltaAmountToSell with
    | none => simpa using hpos
    | some d =>
      rw [hd] at hfits
      obtain ⟨-, hneg⟩ := of_decide_eq_true hfits
      rw [elim_some]
      by_cases hlt : d.amount < 0
      · have := hneg hlt
        omega
      · omega

section Updated

variable {unlinked : Bool}

lemma LimitOrderUpdate.FitsOrder.market (h : op.FitsOrder o) (fees : DeferredFees) (unlinked : Bool) :
    (op.updated fees unlinked o).sellPrice.SameMarket o.sellPrice := by
  change (op.newPrice.getD o.sellPrice).SameMarket o.sellPrice
  cases hp : op.newPrice with
  | none => exact ⟨rfl, rfl⟩
  | some p => exact h.price p hp

lemma LimitOrderUpdate.FitsOrder.asks (h : op.FitsOrder o) (ho : o.Resting)
    (hvalid : o.sellPrice.Valid) : 1 ≤ (op.updated fees unlinked o).asks := by
  by_cases hdust : op.newPrice.isSome ∨ op.delta < 0
  · -- it has been checked
    obtain ⟨x, hx, hpos⟩ := h.dust hdust
    have hrec : (op.updated fees unlinked o).amountToReceive = .ok x := by
      rw [← hx]
      exact congrArg (fun a => mul ⟨o.forSale + op.delta, a⟩ (op.newPrice.getD o.sellPrice))
        (h.market fees unlinked).1
    obtain ⟨-, -, rfl⟩ := LimitOrder.amountToReceive_eq_ok.1 hrec
    exact hpos
  · -- it has only grown
    push Not at hdust
    have hprice : op.newPrice = none := by simpa using hdust.1
    refine ho.asks.trans (asks_le (o := op.updated fees unlinked o) ?_ ?_ ?_)
    · change (op.newPrice.getD o.sellPrice).Valid
      rw [hprice]
      exact hvalid
    · change o.sellPrice = op.newPrice.getD o.sellPrice
      rw [hprice]
      rfl
    · exact le_add_of_nonneg_right hdust.2

lemma LimitOrderUpdate.updated_owns (hfees : DeferredFor op.fee fees) (h : op.FitsOrder o) :
    (op.updated fees unlinked o).owns
      = amounts o.amountForSale + amounts ⟨op.delta, o.sellAssetId⟩ + amounts op.fee := by
  have href : amounts (op.updated fees unlinked o).refundable = amounts op.fee := by
    rw [← hfees.refundable]
    exact apply_ite amounts _ _ _
  have hsale : amounts (op.updated fees unlinked o).amountForSale
      = amounts o.amountForSale + amounts ⟨op.delta, o.sellAssetId⟩ := by
    refine Eq.trans ?_ (Pi.single_add (f := fun _ => ℤ) o.sellAssetId o.forSale op.delta)
    exact congrArg (fun a => amounts ⟨o.forSale + op.delta, a⟩) (h.market fees unlinked).1
  rw [owns, href, hsale]

end Updated

lemma own_processDeferredFee (ho : o.Sound) :
    ownLogic.Holds s (processDeferredFee env o) fun _ => amounts o.refundable := by
  unfold processDeferredFee
  split
  · exact own_mono (holds_pure (d := fun _ => 0) rfl) fun _ _ _ => amounts_nonneg ho.refundable_nonneg
  · have hfee : 0 < updateCancelFee env o →
        updateCancelFee env o ≤ o.deferredFee := fun _ => min_le_right _ _
    refine Holds.andThen ((ownRules.deductCancelFee o _ _).congr fun _ _ _ => add_zero _)
      fun left t hleft => ?_
    obtain ⟨hle, hpaid, hasset⟩ := deductCancelFee_le ho hfee s left t hleft
    exact (own_refund hle hpaid hasset).bind fun _ _ _ => holds_pure (sub_self _)

lemma tables_processDeferredFee : tableLogic.Holds s (processDeferredFee env o) fun _ => 0 := by
  unfold processDeferredFee
  split
  · exact holds_pure rfl
  · refine Holds.andThen (tableRules.deductCancelFee o _ _) fun left _ _ => ?_
    exact Holds.andThen (tableRules.refund o left) fun _ _ _ => holds_pure rfl

lemma completes_unlink (c : Bool) (link : Option Nat) :
    Completes s (whenever c (unlink link)) fun _ t => ((∀ j,
      (t.limitOrders.find j).map unlinked
        = (s.limitOrders.find j).map unlinked) ∧
      t.callOrders = s.callOrders ∧ t.settlements = s.settlements ∧ t.bitassets = s.bitassets) ∧
      ownLogic.step s t 0 := by
  have hown : ownLogic.Holds s (whenever c (unlink link)) fun _ => 0 :=
    holds_whenever (fun _ => rfl) fun _ => own_unlink link
  refine Ends.and_holds ?_ hown
  cases c with
  | false => exact ends_pure ⟨fun _ => rfl, rfl, rfl, rfl⟩
  | true =>
    cases link with
    | none => exact ends_pure ⟨fun _ => rfl, rfl, rfl, rfl⟩
    | some i => exact (completes_setLink i none).bind fun _ _ h => ends_pure h

lemma completes_placeAgain (ho : s.limitOrders.find o.id = some o) {f : LimitOrder → LimitOrder}
    (hid : ∀ x, (f x).id = x.id) (hsound : o.Sound → (f o).Sound) :
    Completes s (placeAgain o.id f) fun old t => old = o ∧ OnlyOrder o.id s t ∧
      t.limitOrders.find o.id = some (f o) ∧
      t.limitOrders.objects.length = s.limitOrders.objects.length ∧
      ownLogic.step s t ((f o).owns - o.owns) := by
  have hmod := own_modify (s := s) (i := o.id) (f := f) hid fun o' ho' h => by
    obtain rfl : o = o' := mem_unique ho ho'
    exact hsound h
  have hrun : limitOrderTable.modify o.id f s = .ok o (limitOrderTable.set
      ((limitOrderTable.get s).write (f o)) s) := by
    have hfind : (limitOrderTable.get s).find o.id = some o := ho
    simp only [Table.modify, hfind]
  have hown := hmod.step hrun
  unfold Completes Ends placeAgain
  rw [bind_run hrun]
  have hkey : s.limitOrders.find (f o).id = some o := by
    rwa [hid]
  refine ⟨rfl, ⟨fun j hj => ?_, rfl, rfl, rfl⟩, ?_, length_put hkey, fun hs => ?_⟩
  · refine congrArg (Option.map unlinked) ?_
    refine (find_put s.limitOrders.toKeyed (f o) j).trans (if_neg ?_)
    rwa [hid]
  · exact (find_put s.limitOrders.toKeyed (f o) o.id).trans (if_pos (hid o).symm)
  · obtain ⟨hsnd', hle⟩ := hown hs
    exact ⟨⟨hsnd'.solid, hsnd'.orders⟩, hle⟩

lemma LimitOrderUpdate.FitsOrder.relinked {o' : LimitOrder} (h : op.FitsOrder o)
    (hsame : o.Remains 0 o') : op.FitsOrder o' := by
  have hfos : o'.forSale = o.forSale := by rw [hsame.forSale, sub_zero]
  refine ⟨fun p hp => ?_, ?_, ?_⟩
  · rw [hsame.price]
    exact h.price p hp
  · rw [hfos]
    exact h.forSale
  · rw [hfos, sellAssetId, hsame.price]
    exact h.dust

section

variable (h : QuietState M s)
include h

lemma QuietState.completes_applyUpdate (hM : TwoSided M)
    (hop : op.isValid = true) (ho : s.limitOrders.find o.id = some o) (hfits : op.FitsOrder o)
    (hin : o.In M) (hact : op.onFill.getD none = none)
    (hfuel : s.limitOrders.objects.length < cx.env.fuel) (skipPriceCheck : Bool)
    (hfees : DeferredFor op.fee fees) :
    Completes s (cx.applyUpdate op skipPriceCheck o fees) fun _ t =>
      QuietBook M t ∧ ownLogic.step s t (amounts op.fee) := by
  have hmem := mem_of_find ho
  have hsound := h.sound.orders o hmem
  have hrest := h.book.resting o hmem hin
  have hvalid := h.book.valid o hmem
  refine (completes_adjust ⟨-op.delta, o.sellAssetId⟩).bind ?_
  rintro _ t1 ⟨⟨htab1, hown1⟩, hcov⟩
  -- what the order sells after the update is owned before it
  have hle : o.forSale + op.delta ≤ grapheneMaxShareSupply := by
    refine le_trans ?_ (h.supply o.sellAssetId)
    refine le_trans ?_ (h.sound.balance_add_forSale_le op.seller hmem)
    have hsolid := h.sound.solid op.seller o.sellAssetId
    rcases hcov with hneg | hpos
    · have hneg : 0 ≤ -op.delta := hneg
      omega
    · have hpos : -(-op.delta) ≤ s.getBalance op.seller o.sellAssetId := hpos
      omega
  refine (completes_calm (holds_addCoreInOrders (sameTables_counts t1))
    (holds_addCoreInOrders (owned_counts t1))).bind ?_
  rintro _ t1 ⟨htabc, hownc⟩
  have htab1 := htab1.trans htabc
  have hown1 := ownLogic.trans hown1 hownc
  refine (completes_calm tables_processDeferredFee (own_processDeferredFee hsound)).bind ?_
  rintro paid t2 ⟨htab2, hown2⟩
  have htab := htab1.trans htab2
  refine (completes_unlink _ _).bind ?_
  rintro _ t3 ⟨⟨hlnk, hclose, hset, hbit⟩, hown3⟩
  have hsame3 := hlnk o.id
  rw [htab.limitOrders, ho, map_some, map_eq_some_iff] at hsame3
  obtain ⟨o3, ho3, heq⟩ := hsame3
  have hsame := remains_of_unlinked heq
  have howns : o3.unlinked.owns = o.unlinked.owns := congrArg owns heq
  change o3.owns = o.owns at howns
  have hfits3 := hfits.relinked hsame
  have hleng : t3.limitOrders.objects.length ≤ s.limitOrders.objects.length := by
    refine length_le_of_keys fun x hx => ?_
    obtain ⟨y, hy, hxy⟩ := exists_of_unlinked (hlnk x.id) (find_of_mem hx)
    rw [htab.limitOrders] at hy
    exact List.mem_map.2 ⟨y, mem_of_find hy, key_of_find hy⟩
  have hid : o3.id = o.id := hsame.id
  rw [← hid] at ho3 ⊢
  refine (completes_placeAgain ho3 (f := op.updated fees (op.unlinks o skipPriceCheck)) (fun _ => rfl)
    fun hsou => ⟨hfits3.forSale hsou.forSale,
    hfees.paid_nonneg, hfees.nonneg⟩).bind ?_
  rintro _ t4 ⟨-, honly, hfound, hlng, hown4⟩
  refine Ends.bind (P := fun _ t => SameTables t4 t ∧ ownLogic.step t4 t 0) ⟨⟨rfl, rfl, rfl, rfl⟩,
    fun hs => ⟨⟨hs.solid, hs.orders⟩, (add_zero _).ge⟩⟩ ?_
  rintro _ t5 ⟨htab5, hown5⟩
  have honly3 : OnlyOrder o3.id s t3 := ⟨fun j _ => (hlnk j).trans (by rw [htab.limitOrders]),
    hclose.trans htab.callOrders, hset.trans htab.settlements, hbit.trans htab.bitassets⟩
  have hworn := ((honly3.trans honly).trans (htab5.onlyOrder _)).worn
  have hfou := hfound
  rw [← htab5.limitOrders] at hfou
  have hpla : Placed M (op.updated fees (op.unlinks o skipPriceCheck) o3) t5 := by
    refine ⟨hworn.quiet (h.book.but _) fun x hx => ?_, hfou, ?_, ?_⟩
    · obtain rfl := mem_unique hfou hx
      exact LimitOrderUpdate.updated_valid hop _ _ (hsame.price ▸ hvalid)
    · have hmar := hfits3.market fees (op.unlinks o skipPriceCheck)
      have hinM : M o3.sellAssetId o3.receiveAssetId := by
        rwa [sellAssetId, receiveAssetId, hsame.price]
      rwa [LimitOrder.In, sellAssetId, receiveAssetId, hmar.1, hmar.2]
    · refine ⟨hsame.isSettledDebt.trans hrest.notSettledDebt, ?_,
        hfits3.asks (hsame.resting hrest) (hsame.price ▸ hvalid), ?_⟩
      · have hnone : o3.onFill = none := hsame.onFill.trans hrest.noAction
        change op.onFill.getD o3.onFill = none
        rwa [hnone]
      · change o3.forSale + op.delta ≤ _
        rw [hsame.forSale, sub_zero]
        exact hle
  have hcount : t5.limitOrders.objects.length < cx.env.fuel := by
    rw [htab5.limitOrders, hlng]
    exact hleng.trans_lt hfuel
  refine (hpla.completes_applyOrder hM hcount).bind ?_
  rintro _ t6 ⟨hquiet, hown6⟩
  refine ends_pure ⟨hquiet, ?_⟩
  have hsum := ownLogic.trans (ownLogic.trans (ownLogic.trans (ownLogic.trans (ownLogic.trans hown1 hown2)
    hown3) hown4) hown5) hown6
  have hsale : amounts o3.unlinked.amountForSale = amounts o.unlinked.amountForSale :=
    congrArg (fun x => amounts x.amountForSale) heq
  change amounts o3.amountForSale = amounts o.amountForSale at hsale
  have hasset : o3.sellAssetId = o.sellAssetId := congrArg (·.base.assetId) hsame.price
  have hminus : amounts ⟨-op.delta, o.sellAssetId⟩ = -amounts ⟨op.delta, o.sellAssetId⟩ :=
    amounts_neg ⟨op.delta, o.sellAssetId⟩
  rw [LimitOrderUpdate.updated_owns hfees hfits3, howns, hsale, hasset, owns, hminus] at hsum
  refine cast (congrArg (ownLogic.step s t6) ?_) hsum
  abel

lemma QuietState.completes_update (hM : TwoSided M)
    (hin : ∀ o, s.limitOrders.find op.order = some o → o.In M)
    (hact : op.onFill.getD none = none) (hfuel : s.limitOrders.objects.length < cx.env.fuel)
    (skipPriceCheck : Bool) :
    Completes s (cx.limitOrderUpdate op skipPriceCheck) fun _ t =>
      QuietState M t ∧ t.owned ≤ s.owned := by
  refine completes_require nofun fun hop => ?_
  refine completes_prepareFee.bind ?_
  rintro coreFeePaid t1 ⟨⟨htab1, hown1⟩, hfee, hcore, hzero⟩
  have heva : Completes t1 (op.evaluate cx.env) fun o t => (SameTables t1 t ∧
      ownLogic.step t1 t 0) ∧ t1.limitOrders.find op.order = some o ∧ op.FitsOrder o := by
    have hta : tableLogic.Holds t1 (op.evaluate cx.env) fun _ => 0 := tableRules.evaluateUpdate op
    have hcalm := completes_calm hta (ownRules.evaluateUpdate op)
    exact ends_intro (fun _ _ hx => ⟨hcalm.ok hx, evaluateUpdate_ok hx⟩) fun _ _ hx => hcalm.error hx
  refine heva.bind ?_
  rintro o t2 ⟨⟨htab2, hown2⟩, hfind, hfits⟩
  refine (completes_deferFee hfee hcore hzero).bind ?_
  rintro fees t3 ⟨⟨htab3, hown3⟩, hfees⟩
  have htab := (htab1.trans htab2).trans htab3
  have hown := own_then (own_then hown1 hown2) hown3
  rw [htab1.limitOrders] at hfind
  have ho : s.limitOrders.find o.id = some o := by
    rwa [show o.id = op.order from key_of_find hfind]
  refine ((h.of_step (htab.quiet h.book) hown).1.completes_applyUpdate hM hop (htab.limitOrders ▸ ho)
    hfits (hin o hfind) hact (htab.limitOrders ▸ hfuel) skipPriceCheck hfees).bind ?_
  rintro _ t4 ⟨hquiet, hown4⟩
  refine (completes_adjust op.fee.neg).mono ?_
  rintro _ t5 ⟨⟨htab5, hown5⟩, -⟩
  refine h.of_step (htab5.quiet hquiet) ?_
  have hsum := ownLogic.trans (own_then hown hown4) hown5
  rwa [amounts_neg, add_neg_cancel] at hsum

lemma QuietState.completes_cancelOrder (i : Nat) (createVirtualOp : Bool) :
    Completes s (env.cancelLimitOrder i createVirtualOp) fun _ t =>
      (QuietState M t ∧ t.owned ≤ s.owned) ∧
        t.limitOrders.objects.length < s.limitOrders.objects.length := by
  refine ends_intro (fun r t hx => ?_) fun _ _ hx => (completes_cancelLimitOrder i createVirtualOp).error hx
  obtain ⟨honly, hgone⟩ := (completes_cancelLimitOrder i createVirtualOp).ok hx
  have hown := (own_cancelLimitOrder i createVirtualOp).step hx
  have hbook : QuietBook M t := by
    refine (honly.worn.quiet (h.book.but i) fun x hx => ?_).of_gone hgone
    rw [hgone] at hx
    cases hx
  refine ⟨h.of_step hbook hown, ?_⟩
  -- the order was there
  obtain ⟨o, _, hfet, -⟩ := bind_ok_iff.1 hx
  refine length_lt_of_gone (fetch_ok_iff.1 hfet).1 hgone fun x hxt => ?_
  have hne : x.id ≠ i := by
    intro hid
    rw [← hid, find_of_mem hxt] at hgone
    cases hgone
  obtain ⟨y, hy, -⟩ := exists_of_unlinked (honly.others x.id hne) (find_of_mem hxt)
  exact List.mem_map.2 ⟨y, mem_of_find hy, key_of_find hy⟩

lemma QuietState.completes_cancel (op : LimitOrderCancel) :
    Completes s (env.limitOrderCancel op) fun _ t => QuietState M t ∧ t.owned ≤ s.owned := by
  refine completes_prepareFee.bind ?_
  rintro coreFeePaid t1 ⟨⟨htab1, hown1⟩, hfee, -, -⟩
  refine (completes_calm (tableRules.evaluateCancel op) (ownRules.evaluateCancel op)).bind ?_
  rintro _ t2 ⟨htab2, hown2⟩
  have hpay : ownLogic.Holds t2 (env.convertAndPayFee op.feePayingAccount op.fee coreFeePaid)
      fun _ => 0 := (ownRules.convertAndPay _ _ _).congr fun _ _ _ => by
    split
    · rfl
    · rfl
  refine (completes_calm (tableRules.convertAndPay _ _ _) hpay).bind ?_
  rintro _ t3 ⟨htab3, hown3⟩
  obtain ⟨hst, hle3⟩ := h.of_step (((htab1.trans htab2).trans htab3).quiet h.book)
    (own_then (own_then hown1 hown2) hown3)
  refine (hst.completes_cancelOrder op.order false).bind ?_
  rintro _ t4 ⟨⟨hsta, hle4⟩, -⟩
  refine (completes_adjust op.fee.neg).mono ?_
  rintro _ t5 ⟨⟨htab5, hown5⟩, -⟩
  refine (hsta.of_step (htab5.quiet hsta.book) fun hs => ?_).imp_right (·.trans (hle4.trans hle3))
  obtain ⟨hsound, hle⟩ := hown5 hs
  refine ⟨hsound, hle.trans (add_le_add_right ?_ _)⟩
  rw [amounts_neg]
  exact neg_nonpos.2 (amounts_nonneg hfee)

end

lemma QuietState.completes_clearExpiredOrders (fuel : Nat) :
    ∀ {s : MarketState}, QuietState M s → s.limitOrders.objects.length < fuel →
      Completes s (env.clearExpiredOrders fuel) fun _ t => QuietState M t ∧ t.owned ≤ s.owned := by
  induction fuel with
  | zero => exact fun _ hfuel => absurd hfuel (Nat.not_lt_zero _)
  | succ fuel ih =>
    intro s h hfuel
    refine completes_observe ?_
    split
    · exact ends_pure ⟨h, le_rfl⟩
    · split
      · refine (h.completes_cancelOrder _ true).bind ?_
        rintro _ t ⟨⟨ht, hle⟩, hlt⟩
        exact (ih ht (by omega)).mono fun _ _ hu => hu.imp_right (·.trans hle)
      · exact ends_pure ⟨h, le_rfl⟩

/-! ## Runs -/

lemma Env.context_env (env : Env) (depth : Nat) : (env.context depth).env = env := by
  cases depth with
  | zero => rfl
  | succ => rfl

def LimitOperation.Quiet (M : AssetId → AssetId → Prop) (s : MarketState) : LimitOperation → Prop
  | .create op => M op.amountToSell.assetId op.minToReceive.assetId ∧ op.onFill = none
  | .update op => (∀ o, s.limitOrders.find op.order = some o → o.In M) ∧ op.onFill.getD none = none
  | .cancel _ => True

lemma QuietState.completes_perform (h : QuietState M s) (hM : TwoSided M) (depth : Nat)
    {op : LimitOperation} (hop : op.Quiet M s) (hfuel : s.limitOrders.objects.length + 1 < env.fuel) :
    Completes s (op.perform env depth) fun _ t => QuietState M t ∧ t.owned ≤ s.owned := by
  rw [← env.context_env depth] at hfuel
  cases op with
  | create => exact (h.completes_create hM hop.1 hop.2 hfuel).bind fun _ _ ht => ends_pure ht
  | update => exact h.completes_update hM hop.1 hop.2 (Nat.lt_of_succ_lt hfuel) false
  | cancel op => exact h.completes_cancel op

/-- Something happens that adds no order to the markets, and no margin position. -/
structure OtherMarkets (M : AssetId → AssetId → Prop) (s t : MarketState) : Prop where
  orders : ∀ o ∈ t.limitOrders.objects, o.In M → o ∈ s.limitOrders.objects
  valid : ∀ o ∈ t.limitOrders.objects, o.sellPrice.Valid
  calm : NoMargin M t
  sound : t.Sound
  supply : ∀ a, t.owned a ≤ grapheneMaxShareSupply

lemma OtherMarkets.quiet (h : OtherMarkets M s t) (hM : TwoSided M) (hs : QuietState M s) :
    QuietState M t := by
  refine ⟨⟨h.valid, fun o ho hin => hs.book.resting o (h.orders o ho hin) hin, ?_, h.calm⟩, h.sound,
    h.supply⟩
  intro o ho o' ho' hin hcross
  -- the other side is in the same market
  have hin' : o'.In M := by
    have hflip := hM hin
    rwa [hcross.sells, hcross.buys] at hflip
  exact hs.book.apart o (h.orders o ho hin) o' (h.orders o' ho' hin') hin hcross

/-- A step of the chain, as the markets see it.  The loops have enough rounds. -/
inductive QuietStep (M : AssetId → AssetId → Prop) (s t : MarketState) : Prop
  | operation (env : Env) (depth : Nat) (op : LimitOperation) :
      op.Quiet M s → s.limitOrders.objects.length + 1 < env.fuel → op.perform env depth s = .ok () t →
      QuietStep M s t
  | expiration (env : Env) (fuel : Nat) :
      s.limitOrders.objects.length < fuel → env.clearExpiredOrders fuel s = .ok () t → QuietStep M s t
  | elsewhere : OtherMarkets M s t → QuietStep M s t

lemma QuietStep.quiet (h : QuietStep M s t) (hM : TwoSided M) (hs : QuietState M s) :
    QuietState M t := by
  cases h with
  | operation env depth op hop hfuel hrun => exact ((hs.completes_perform hM depth hop hfuel).ok hrun).1
  | expiration env fuel hfuel hrun =>
    exact ((QuietState.completes_clearExpiredOrders fuel hs hfuel).ok hrun).1
  | elsewhere h => exact h.quiet hM hs

lemma quiet_of_run (hM : TwoSided M) (hs : QuietState M s)
    (hrun : Relation.ReflTransGen (QuietStep M) s t) : QuietState M t := by
  induction hrun with
  | refl => exact hs
  | tail _ hstep ih => exact hstep.quiet hM ih

lemma Completes.errorOf_ne {Q : α → MarketState → Prop} (h : Completes s x Q) :
    errorOf x s ≠ some .outOfFuel := by
  unfold errorOf
  cases hx : x s with
  | ok => exact nofun
  | error =>
    rintro ⟨⟩
    exact h.error hx rfl

/-- However the markets got where they are, orders on opposite sides do not cross and no order is dust.
The loops of the next step end, too. -/
theorem resting_orders_apart (hM : ∀ a b, M a b → M b a) (hs : QuietState M s)
    (hrun : Relation.ReflTransGen (QuietStep M) s t) :
    (∀ o ∈ t.limitOrders.objects, ∀ o' ∈ t.limitOrders.objects, o.In M → Facing o o' →
      o.sellPrice.value * o'.sellPrice.value < 1) ∧ (∀ o ∈ t.limitOrders.objects, o.In M →
      1 ≤ o.asks ∧ ∀ r, o.amountToReceive = .ok r → 1 ≤ r.amount) ∧
    (∀ env depth (op : LimitOperation), op.Quiet M t → t.limitOrders.objects.length + 1 < env.fuel →
      errorOf (op.perform env depth) t ≠ some .outOfFuel) ∧
    ∀ (env : Env) (fuel : Nat), t.limitOrders.objects.length < fuel →
      errorOf (env.clearExpiredOrders fuel) t ≠ some .outOfFuel := by
  have ht := quiet_of_run hM hs hrun
  refine ⟨?_, ?_, ?_, ?_⟩
  · intro o ho o' ho' hin hfacing
    by_contra hge
    exact ht.book.apart o ho o' ho' hin ⟨hfacing, not_lt.1 hge⟩
  · intro o ho hin
    have hasks := (ht.book.resting o ho hin).asks
    refine ⟨hasks, fun r hr => ?_⟩
    obtain ⟨-, -, rfl⟩ := LimitOrder.amountToReceive_eq_ok.1 hr
    exact hasks
  · intro env depth op hop hfuel
    exact (ht.completes_perform hM depth hop hfuel).errorOf_ne
  · intro env fuel hfuel
    exact (QuietState.completes_clearExpiredOrders fuel ht hfuel).errorOf_ne

lemma threeSellers_entries : ∀ entry ∈ threeSellers.pockets.objects, 0 ≤ entry.2 := by
  decide

lemma threeSellers_quiet : QuietState (fun _ _ => True) threeSellers where
  book := ⟨nofun, nofun, nofun, ⟨nofun, nofun, fun _ _ h => nomatch h⟩⟩
  sound := ⟨MarketState.solid_of_entries threeSellers_entries, nofun⟩
  supply := fun a => by
    calc threeSellers.owned a = threeSellers.held a := add_zero _
      _ ≤ (threeSellers.pockets.objects.map Prod.snd).sum :=
          MarketState.held_le_sum threeSellers_entries
      _ ≤ grapheneMaxShareSupply := by decide

def smallBid : LimitOperation :=
  sells 12 ⟨10, 2⟩ ⟨5, 1⟩

def secondOffer : LimitOperation :=
  sells 11 ⟨10, 1⟩ ⟨40, 2⟩

def offered : MarketState :=
  endOf (smallOffer.perform Env.plain 0) threeSellers

/-- The bid has taken the small offer, and rests with what is left of it. -/
def traded : MarketState :=
  endOf (smallBid.perform Env.plain 0) offered

lemma smallBid_run : smallBid.perform Env.plain 0 offered = .ok () traded :=
  run_endOf (by decide +kernel)

def faced : MarketState :=
  endOf (secondOffer.perform Env.plain 0) traded

/-- The rest of the bid and the second offer face each other. -/
theorem resting_orders_apart_buyer : faced.limitOrders.objects.length = 2 ∧
    (∀ o ∈ faced.limitOrders.objects, ∀ o' ∈ faced.limitOrders.objects, Facing o o' →
      o.sellPrice.value * o'.sellPrice.value < 1) ∧
    (∀ o ∈ faced.limitOrders.objects, 1 ≤ o.asks) ∧
      errorOf (buyer.perform Env.plain 0) faced ≠ some .outOfFuel := by
  have hrun : Relation.ReflTransGen (QuietStep fun _ _ => True) threeSellers faced :=
    .tail (.tail (.single (.operation Env.plain 0 smallOffer ⟨trivial, rfl⟩ (by decide) rfl))
      (.operation Env.plain 0 smallBid ⟨trivial, rfl⟩ (by decide +kernel) smallBid_run))
      (.operation Env.plain 0 secondOffer ⟨trivial, rfl⟩ (by decide +kernel)
        (run_endOf (by decide +kernel)))
  obtain ⟨hapart, hasks, hends, -⟩ :=
    resting_orders_apart (fun _ _ _ => trivial) threeSellers_quiet hrun
  exact ⟨by decide +kernel, fun o ho o' ho' => hapart o ho o' ho' trivial,
    fun o ho => (hasks o ho trivial).1, hends Env.plain 0 buyer ⟨trivial, rfl⟩ (by decide +kernel)⟩

/-- A step of the limit orders themselves. -/
inductive BookStep (M : AssetId → AssetId → Prop) (s t : MarketState) : Prop
  | operation (env : Env) (depth : Nat) (op : LimitOperation) :
      op.Quiet M s → s.limitOrders.objects.length + 1 < env.fuel → op.perform env depth s = .ok () t →
      BookStep M s t
  | expiration (env : Env) (fuel : Nat) :
      s.limitOrders.objects.length < fuel → env.clearExpiredOrders fuel s = .ok () t → BookStep M s t

/-- Trade creates nothing: of no asset do balances, orders and refundable fees together hold more than
at the start, and none of them is negative. -/
theorem owned_le_of_run (hM : ∀ a b, M a b → M b a) (hs : QuietState M s)
    (hrun : Relation.ReflTransGen (BookStep M) s t) : t.Sound ∧ t.owned ≤ s.owned := by
  suffices h : QuietState M t ∧ t.owned ≤ s.owned from h.imp_left (·.sound)
  induction hrun with
  | refl => exact ⟨hs, le_rfl⟩
  | tail _ hstep ih =>
    obtain ⟨hq, hle⟩ := ih
    cases hstep with
    | operation env depth op hop hfuel hrun =>
      exact ((hq.completes_perform hM depth hop hfuel).ok hrun).imp_right (·.trans hle)
    | expiration env fuel hfuel hrun =>
      exact ((QuietState.completes_clearExpiredOrders fuel hq hfuel).ok hrun).imp_right (·.trans hle)

/-- In this run the bid is matched with the offer. -/
theorem owned_le_of_run_smallOffer :
    traded.getBalance 10 2 = 1 ∧ traded.getBalance 12 1 = 1 ∧ traded.owned ≤ threeSellers.owned :=
  ⟨by decide +kernel, by decide +kernel, (owned_le_of_run (fun _ _ _ => trivial) threeSellers_quiet
    (.tail (.single (.operation Env.plain 0 smallOffer ⟨trivial, rfl⟩ (by decide) rfl))
      (.operation Env.plain 0 smallBid ⟨trivial, rfl⟩ (by decide +kernel) smallBid_run))).2⟩

end Graphene.Market
