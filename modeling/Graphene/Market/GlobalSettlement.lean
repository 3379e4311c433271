import Graphene.Market.IndexOrder
import Graphene.Market.StateRules
import Graphene.Protocol.Rounding

/-!
# Global settlement

`globally_settle_asset_impl` closes every position of an asset.  What a position pays is capped by
its collateral and split into a part for the fund and the margin call fee, and the borrower gets the
rest back.  So the collateral of all positions is split exactly, and afterwards no position is left.
-/

namespace Graphene.Market

open Protocol Lib List Keyed Asset

variable {s s' : MarketState} {b : BitassetData} {c : CallOrder} {x : Closing} {p q : Price}

/-! ## Closing one position -/

/-- A price of the asset in its collateral; it may be zero, as the outcome of a prediction market. -/
structure SettlesAt (b : BitassetData) (p : Price) : Prop where
  base : p.base.assetId = b.assetId
  quote : p.quote.assetId = b.shortBackingAsset
  base_pos : 0 < p.base.amount
  quote_nonneg : 0 ≤ p.quote.amount

structure CallOf (b : BitassetData) (c : CallOrder) : Prop where
  debtType : c.debtType = b.assetId
  collateralType : c.collateralType = b.shortBackingAsset
  bounded : c.Bounded

/-- How the collateral of a position is split: the fund and the margin call fee take what it pays, and
the rest is returned. -/
structure IsClosing (c : CallOrder) (x : Closing) : Prop where
  pays_asset : x.pays.assetId = c.collateralType
  fund_asset : x.fundReceives.assetId = c.collateralType
  fee_asset : x.marginCallFee.assetId = c.collateralType
  pays_le : x.pays.amount ≤ c.collateral
  fund_nonneg : 0 ≤ x.fundReceives.amount
  fee_nonneg : 0 ≤ x.marginCallFee.amount
  split : x.fundReceives.amount + x.marginCallFee.amount = x.pays.amount

lemma SettlesAt.mul_eq_ok (hp : SettlesAt b p) (hc : CallOf b c) {r : Asset} :
    c.getDebt.multiplyAndRoundUp p = .ok r ↔
      (c.debt * p.quote.amount + p.base.amount - 1) / p.base.amount ≤ grapheneMaxShareSupply ∧
        r = ⟨(c.debt * p.quote.amount + p.base.amount - 1) / p.base.amount, b.shortBackingAsset⟩ := by
  have hasset : c.getDebt.assetId = p.base.assetId := hc.debtType.trans hp.base.symm
  rw [multiplyAndRoundUp, mulBy_base hasset, scale_eq_ok, hp.quote]
  exact and_iff_right hp.base_pos

lemma SettlesAt.product_nonneg (hp : SettlesAt b p) (hc : CallOf b c) :
    0 ≤ (c.debt * p.quote.amount + p.base.amount - 1) / p.base.amount := by
  have hprod := mul_nonneg hc.bounded.debt_pos.le hp.quote_nonneg
  have hpos := hp.base_pos
  exact Int.ediv_nonneg (by omega) hpos.le

variable {isMarginCall : Bool}

lemma closing_isClosing (hp : SettlesAt b p) (hq : SettlesAt b q) (hc : CallOf b c)
    (h : closing c isMarginCall p q = .ok x) : IsClosing c x := by
  obtain ⟨atPrice, hat, h⟩ := bind_eq_ok.1 h
  obtain ⟨-, rfl⟩ := (hp.mul_eq_ok hc).1 hat
  obtain ⟨pays, hpays, h⟩ := bind_eq_ok.1 h
  obtain ⟨-, rfl⟩ := least_eq_ok.1 hpays
  have hcol := hc.bounded.collateral_pos.le
  have hnon := hp.product_nonneg hc
  cases isMarginCall with
  | false =>
    cases h
    exact ⟨rfl, rfl, rfl, min_le_left _ _, le_min hcol hnon, le_rfl, add_zero _⟩
  | true =>
    obtain ⟨fundAtPrice, hfund, h⟩ := bind_eq_ok.1 h
    obtain ⟨-, rfl⟩ := (hq.mul_eq_ok hc).1 hfund
    obtain ⟨fundReceives, hlst, h⟩ := bind_eq_ok.1 h
    obtain ⟨-, rfl⟩ := least_eq_ok.1 hlst
    obtain ⟨fee, hfee, h⟩ := bind_eq_ok.1 h
    obtain ⟨-, rfl⟩ := sub_eq_ok.1 hfee
    cases h
    refine ⟨rfl, rfl, rfl, min_le_left _ _, ?_, ?_, add_sub_cancel _ _⟩
    · exact le_min (le_min hcol hnon) (hq.product_nonneg hc)
    · exact sub_nonneg.2 (min_le_left _ _)

def FitsAt (c : CallOrder) (p : Price) : Prop :=
  c.debt * p.quote.amount ≤ grapheneMaxShareSupply * p.base.amount

lemma SettlesAt.mul_ok (hp : SettlesAt b p) (hc : CallOf b c) (hfits : FitsAt c p) :
    c.getDebt.multiplyAndRoundUp p
      = .ok ⟨(c.debt * p.quote.amount + p.base.amount - 1) / p.base.amount, b.shortBackingAsset⟩ := by
  refine (hp.mul_eq_ok hc).2 ⟨?_, rfl⟩
  have hpos := hp.base_pos
  rw [← Int.lt_add_one_iff, Int.ediv_lt_iff_lt_mul hpos, add_mul, one_mul]
  have := hfits
  unfold FitsAt at this
  omega

lemma closing_ok (hp : SettlesAt b p) (hq : SettlesAt b q) (hc : CallOf b c) (hfp : FitsAt c p)
    (hfq : FitsAt c q) : ∃ x, closing c isMarginCall p q = .ok x := by
  have hcol : c.getCollateral.assetId = b.shortBackingAsset := hc.collateralType
  have hlst : ∀ n : Int, c.getCollateral.least ⟨n, b.shortBackingAsset⟩
      = .ok ⟨min c.collateral n, c.collateralType⟩ := fun n => least_eq_ok.2 ⟨hcol, rfl⟩
  have hagain : ∀ m n : Int, least ⟨m, c.collateralType⟩ ⟨n, b.shortBackingAsset⟩
      = .ok ⟨min m n, c.collateralType⟩ := fun m n => least_eq_ok.2 ⟨hcol, rfl⟩
  have hsub : ∀ m n : Int, sub ⟨m, c.collateralType⟩ ⟨n, c.collateralType⟩
      = .ok ⟨m - n, c.collateralType⟩ := fun m n => sub_eq_ok.2 ⟨rfl, rfl⟩
  unfold closing
  rw [hp.mul_ok hc hfp, ok_bind, hlst, ok_bind]
  cases isMarginCall with
  | false => exact ⟨_, rfl⟩
  | true =>
    simp only [if_true, hq.mul_ok hc hfq, ok_bind, hagain, hsub]
    exact ⟨_, rfl⟩

def closingPays (c : CallOrder) (x : Closing) (p : Pocket) : Int :=
  (if p = .balance c.borrower c.collateralType then c.collateral - x.pays.amount else 0) +
    if p = .collateralFees c.debtType c.collateralType then x.marginCallFee.amount else 0

/-- What has changed after positions have been closed. -/
structure ClosedAll (s s' : MarketState) (parts : List (CallOrder × Closing)) : Prop where
  calls : ∀ id, s'.callOrders.find id
    = if id ∈ parts.map (fun part => part.1.id) then none else s.callOrders.find id
  pockets : ∀ p, s'.pockets.get p
    = s.pockets.get p + (parts.map fun part => closingPays part.1 part.2 p).sum
  bitassets : s'.bitassets = s.bitassets
  currentSupply : s'.currentSupply = s.currentSupply
  limitOrders : s'.limitOrders = s.limitOrders

lemma ClosedAll.refl (s : MarketState) : ClosedAll s s [] :=
  ⟨fun _ => by simp, fun _ => by simp, rfl, rfl, rfl⟩

variable {parts : List (CallOrder × Closing)} {t : MarketState}

lemma ClosedAll.trans {parts' : List (CallOrder × Closing)} (h : ClosedAll s t parts)
    (h' : ClosedAll t s' parts') : ClosedAll s s' (parts ++ parts') where
  calls := by
    intro id
    simp only [h'.calls, h.calls, map_append, mem_append]
    by_cases hid : id ∈ parts.map fun part => part.1.id
    · simp only [hid, true_or, if_true, ite_self]
    · simp only [hid, false_or, if_false]
  pockets := by
    intro p
    rw [h'.pockets, h.pockets, map_append, sum_append, add_assoc]
  bitassets := h'.bitassets.trans h.bitassets
  currentSupply := h'.currentSupply.trans h.currentSupply
  limitOrders := h'.limitOrders.trans h.limitOrders

lemma accumulateFee_run {a : AssetId} {fee : Asset} (hb : s.bitassets.find a = some b)
    (hasset : fee.assetId = b.shortBackingAsset) (hne : fee.assetId ≠ a) (hfee : 0 ≤ fee.amount) :
    ∃ s', accumulateFee a fee s = .ok () s' ∧ (∀ p, s'.pockets.get p
        = s.pockets.get p + if p = .collateralFees a fee.assetId then fee.amount else 0) ∧
      s' = { s with pockets := s'.pockets } := by
  unfold accumulateFee
  by_cases hzero : fee.amount = 0
  · rw [if_pos hzero]
    exact ⟨s, rfl, fun p => by rw [hzero, ite_self, add_zero], rfl⟩
  · rw [if_neg hzero, require_bind (decide_eq_true hfee), if_neg hne, bitassetData_bind hb,
      require_bind (decide_eq_true hasset)]
    refine ⟨_, rfl, fun p => ?_, rfl⟩
    refine (congrFun (Tally.get_add _ _ _) p).trans ?_
    rw [Pi.add_apply, Pi.single_apply]

lemma fillCallOrder_closes (hb : s.bitassets.find b.assetId = some b)
    (hast : b.assetId ≠ b.shortBackingAsset) (hc : CallOf b c)
    (hfound : s.callOrders.find c.id = some c) (hx : IsClosing c x) :
    ∃ s', fillCallOrder c.id x.pays c.getDebt x.marginCallFee false s = .ok true s' ∧
      ClosedAll s s' [(c, x)] := by
  have hdata : s.bitassets.find c.getDebt.assetId = some b := by
    rwa [show c.getDebt.assetId = b.assetId from hc.debtType]
  have hvalid : c.debtType = c.getDebt.assetId ∧ c.collateralType = x.pays.assetId ∧
      x.pays.amount ≤ c.collateral := ⟨rfl, hx.pays_asset.symm, hx.pays_le⟩
  have hrest : 0 ≤ (⟨c.collateral - x.pays.amount, c.collateralType⟩ : Asset).amount :=
    sub_nonneg.2 hx.pays_le
  have hne : x.marginCallFee.assetId ≠ c.getDebt.assetId := by
    rw [hx.fee_asset, hc.collateralType, show c.getDebt.assetId = b.assetId from hc.debtType]
    exact hast.symm
  have hwhole : decide (c.debt = c.getDebt.amount) = true := decide_eq_true rfl
  rw [fillCallOrder, bind_run ((fetch_ok_iff (T := callOrderTable)).2 ⟨hfound, rfl⟩),
    require_bind (decide_eq_true hvalid), bitassetData_bind hdata,
    modify_bind (T := callOrderTable) hfound, bind_run (whenever_false _), hwhole]
  -- the collateral that is left goes back to the borrower
  rw [whenever_true, bind_run (adjustBalance_run hrest), addCoreInOrders_bind]
  obtain ⟨t, hrun, hpoc, hsame⟩ := accumulateFee_run
    (a := c.getDebt.assetId) (b := b) (s := { s with
      callOrders := s.callOrders.write (c.filled x.pays c.getDebt)
      coreInOrders := s.coreCounted c.borrower
        ⟨-x.pays.amount - c.collateralFreed x.pays c.getDebt, x.pays.assetId⟩
      pockets := s.pockets.add (.balance c.borrower c.collateralType) (c.collateral - x.pays.amount) })
    hdata (hx.fee_asset.trans hc.collateralType) hne hx.fee_nonneg
  have hclose : t.callOrders = s.callOrders.write (c.filled x.pays c.getDebt) := by rw [hsame]
  have hthere : t.callOrders.find c.id = some (c.filled x.pays c.getDebt) := by
    rw [hclose]
    exact (find_put _ _ _).trans (if_pos rfl)
  refine ⟨{ t with callOrders := t.callOrders.remove c.id }, (bind_run hrun _).trans ?_,
    fun id => ?_, fun p => ?_, ?_, ?_, ?_⟩
  · rw [if_pos (show c.debt = c.getDebt.amount from rfl)]
    exact remove_bind (T := callOrderTable) hthere
  · refine (find_erase _ _ _).trans ?_
    rw [hclose, map_singleton]
    simp only [mem_singleton]
    by_cases hid : id = c.id
    · rw [if_pos hid, if_pos hid]
    · rw [if_neg hid, if_neg hid]
      exact (find_put _ _ _).trans (if_neg hid)
  · refine (hpoc p).trans ?_
    rw [map_singleton, sum_singleton, closingPays, hx.fee_asset, ← add_assoc]
    congr 1
    refine (congrFun (Tally.get_add _ _ _) p).trans ?_
    rw [Pi.add_apply, Pi.single_apply]
  · rw [hsame]
  · rw [hsame]
  · rw [hsame]

/-! ## Closing all positions -/

def gathered (parts : List (CallOrder × Closing)) : Int :=
  (parts.map fun part => part.2.fundReceives.amount).sum

def collateralFees (parts : List (CallOrder × Closing)) : Int :=
  (parts.map fun part => part.2.marginCallFee.amount).sum

def returned (parts : List (CallOrder × Closing)) : Int :=
  (parts.map fun part => part.1.collateral - part.2.pays.amount).sum

lemma closeCalls_run {calls : List CallOrder} (marginEnd : Option Nat) {g : Int}
    (hb : s.bitassets.find b.assetId = some b) (hast : b.assetId ≠ b.shortBackingAsset)
    (hp : SettlesAt b p) (hq : SettlesAt b q) (hclose : ∀ c ∈ calls, CallOf b c)
    (hfound : ∀ c ∈ calls, s.callOrders.find c.id = some c) (hids : (calls.map CallOrder.id).Nodup) :
    (∃ parts s', parts.map Prod.fst = calls ∧ (∀ part ∈ parts, IsClosing part.1 part.2) ∧
        ClosedAll s s' parts ∧
        closeCalls marginEnd q calls isMarginCall p ⟨g, b.shortBackingAsset⟩ s
          = .ok ⟨g + gathered parts, b.shortBackingAsset⟩ s') ∨
      ∃ c ∈ calls, ¬ (FitsAt c p ∧ FitsAt c q) ∧ ∃ e t,
        closeCalls marginEnd q calls isMarginCall p ⟨g, b.shortBackingAsset⟩ s
          = .error (.matching e) t := by
  induction calls generalizing s isMarginCall p g with
  | nil =>
    refine .inl ⟨[], s, rfl, nofun, ClosedAll.refl s, ?_⟩
    simp only [closeCalls, gathered, map_nil, sum_nil, add_zero]
    rfl
  | cons c calls ih =>
    have hc := hclose c mem_cons_self
    rw [map_cons, nodup_cons] at hids
    -- from the end of the margin calls on, the price for the fund is used
    obtain ⟨p', hp', hpeq, m, hrun⟩ : ∃ p', SettlesAt b p' ∧ (p' = p ∨ p' = q) ∧ ∃ m,
        closeCalls marginEnd q (c :: calls) isMarginCall p ⟨g, b.shortBackingAsset⟩ = (do
          let x ← calculate (closing c m p' q)
          let gathered ← calculate (add ⟨g, b.shortBackingAsset⟩ x.fundReceives)
          let filled ← fillCallOrder c.id x.pays c.getDebt x.marginCallFee false
          require filled .internal
          closeCalls marginEnd q calls m p' gathered) := by
      by_cases hend : isMarginCall = true ∧ marginEnd = some c.id
      · exact ⟨q, hq, .inr rfl, false, by simp [closeCalls, hend]⟩
      · refine ⟨p, hp, .inl rfl, isMarginCall, ?_⟩
        simp only [closeCalls, hend, decide_false, Bool.not_false, Bool.and_true, Bool.false_eq_true,
          if_false]
    have hwider : ∀ c, FitsAt c p ∧ FitsAt c q → FitsAt c p' ∧ FitsAt c q := by
      rintro c ⟨hfp, hfq⟩
      rcases hpeq with rfl | rfl
      · exact ⟨hfp, hfq⟩
      · exact ⟨hfq, hfq⟩
    rw [hrun]
    cases hx : closing c m p' q with
    | error e =>
      refine .inr ⟨c, mem_cons_self, fun hfits => ?_, e, s, rfl⟩
      obtain ⟨x, hok⟩ : ∃ x, closing c m p' q = .ok x :=
        closing_ok hp' hq hc (hwider c hfits).1 hfits.2
      rw [hx] at hok
      cases hok
    | ok x =>
      have hcl := closing_isClosing hp' hq hc hx
      have hadd : add ⟨g, b.shortBackingAsset⟩ x.fundReceives
          = .ok ⟨g + x.fundReceives.amount, b.shortBackingAsset⟩ :=
        add_eq_ok.2 ⟨(hcl.fund_asset.trans hc.collateralType).symm, rfl⟩
      obtain ⟨t, hfill, hclo⟩ := fillCallOrder_closes hb hast hc
        (hfound c mem_cons_self) hcl
      have hb' : t.bitassets.find b.assetId = some b := by
        rwa [hclo.bitassets]
      have hfnd' : ∀ x ∈ calls, t.callOrders.find x.id = some x := by
        intro x hx
        have hne : ¬ x.id ∈ [c.id] := fun he => hids.1 (mem_singleton.1 he ▸ mem_map_of_mem hx)
        rw [hclo.calls, map_singleton, if_neg hne]
        exact hfound x (mem_cons_of_mem _ hx)
      rw [calculate_bind rfl, calculate_bind hadd, bind_run hfill, require_bind rfl]
      rcases @ih t p' m (g + x.fundReceives.amount) hb' hp'
        (forall_mem_cons.1 hclose).2 hfnd' hids.2 with
        ⟨parts, s', hparts, hall, hclo', hok⟩ | ⟨c', hmem, hnot, herr⟩
      · refine .inl ⟨(c, x) :: parts, s', by rw [map_cons, hparts], ?_, hclo.trans hclo', ?_⟩
        · intro part hpart
          rcases mem_cons.1 hpart with rfl | hpart
          · exact hcl
          · exact hall part hpart
        · rw [hok, gathered, gathered, map_cons, sum_cons, add_assoc]
      · exact .inr ⟨c', mem_cons_of_mem _ hmem, fun hfits => hnot (hwider c' hfits), herr⟩

lemma collateral_split (h : ∀ part ∈ parts, IsClosing part.1 part.2) :
    (parts.map fun part => part.1.collateral).sum
      = gathered parts + collateralFees parts + returned parts := by
  rw [gathered, collateralFees, returned, ← sum_map_add, ← sum_map_add]
  refine congrArg sum (map_congr_left fun part hpart => ?_)
  have := (h part hpart).split
  omega

/-! ## `globally_settle_asset` -/

/-- An asset that can be settled globally at a price. -/
structure Settleable (s : MarketState) (b : BitassetData) (p : Price) (checkMarginCalls : Bool) :
    Prop where
  found : s.bitassets.find b.assetId = some b
  notSettled : ¬ b.IsGloballySettled
  assets : b.assetId ≠ b.shortBackingAsset
  bounded : ∀ c ∈ s.callOrders.objects, c.Bounded
  backing : ∀ c ∈ s.callOrders.objects, c.debtType = b.assetId → c.collateralType = b.shortBackingAsset
  price : SettlesAt b p
  -- with margin calls, the price is that of a position
  price_pos : checkMarginCalls = true → 0 < p.quote.amount
  ratio : 1001 ≤ b.currentFeed.maximumShortSqueezeRatio

/-- An asset has been settled globally: `parts` are the positions with what became of them. -/
structure GloballySettled (s s' : MarketState) (b : BitassetData)
    (parts : List (CallOrder × Closing)) : Prop where
  positions : (parts.map Prod.fst).Perm
    (s.callOrders.objects.filter fun c => c.debtType = b.assetId)
  closings : ∀ part ∈ parts, IsClosing part.1 part.2
  split : s.collateralOf b.assetId = gathered parts + collateralFees parts + returned parts
  calls : ∀ id, s'.callOrders.find id
    = if id ∈ parts.map (fun part => part.1.id) then none else s.callOrders.find id
  noCalls : ∀ c ∈ s'.callOrders.objects, c.debtType ≠ b.assetId
  pockets : ∀ p, s'.pockets.get p
    = s.pockets.get p + (parts.map fun part => closingPays part.1 part.2 p).sum
  currentSupply : s'.currentSupply = s.currentSupply
  bitasset : s'.bitassets.find b.assetId = some (b.settledGlobally
    ⟨⟨s.currentSupply.get b.assetId, b.assetId⟩,
      ⟨gathered parts + b.individualSettlementFund, b.shortBackingAsset⟩⟩
    (gathered parts + b.individualSettlementFund))

lemma removeSettledDebtOrder_run (a : AssetId) :
    ∃ t, removeSettledDebtOrder a s = .ok () t ∧ t = { s with limitOrders := t.limitOrders } := by
  unfold removeSettledDebtOrder
  rw [observe_bind]
  cases horder : s.findSettledDebtOrder a with
  | none => exact ⟨s, rfl, rfl⟩
  | some o =>
    have hmem : o ∈ s.limitOrders.objects := by
      have := mem_of_mem_head? (Option.mem_def.2 horder)
      exact (mem_filter.1 ((mem_insertionSort _).1 this)).1
    have hfound : s.limitOrders.find o.id = some o := find_of_mem hmem
    exact ⟨_, remove_bind (T := limitOrderTable) hfound, rfl⟩

lemma fitsAt_iff (hpos : 0 < p.quote.amount) :
    FitsAt c p ↔ (c.debt : ℚ) ≤ grapheneMaxShareSupply * p.value := by
  have hq : (0 : ℚ) < p.quote.amount := Int.cast_pos.2 hpos
  rw [FitsAt, Price.value, ← mul_div_assoc, le_div_iff₀ hq]
  exact_mod_cast Iff.rfl

variable {checkMarginCalls : Bool} (h : Settleable s b p checkMarginCalls)
include h

lemma Settleable.fundReceivesPrice : ∃ q, (if checkMarginCalls then p.mulRatio
        (mkRat b.currentFeed.maximumShortSqueezeRatio grapheneCollateralRatioDenom) else .ok p) = .ok q ∧
      SettlesAt b q ∧ ∀ c, FitsAt c p → FitsAt c q := by
  cases checkMarginCalls with
  | false => exact ⟨p, rfl, h.price, fun c hfits => hfits⟩
  | true =>
    have hast : p.base.assetId ≠ p.quote.assetId := by
      rw [h.price.base, h.price.quote]
      exact h.assets
    have hvalid : p.Valid := ⟨h.price.base_pos, h.price_pos rfl, hast⟩
    have hone : 1 < b.shortSqueezeRatio := by
      unfold BitassetData.shortSqueezeRatio grapheneCollateralRatioDenom
      rw [Rat.mkRat_eq_div, one_lt_div (by norm_num)]
      exact_mod_cast Nat.lt_of_lt_of_le (by norm_num) h.ratio
    have hpos : 0 < b.shortSqueezeRatio := one_pos.trans hone
    have hpro := Price.product_valid hvalid hpos
    have hmar := Price.product_sameMarket p b.shortSqueezeRatio
    refine ⟨p.product b.shortSqueezeRatio, Price.mulRatio_eq hvalid hpos hone.ne',
      ⟨hmar.1.trans h.price.base, hmar.2.trans h.price.quote, hpro.base, hpro.quote.le⟩, fun c hfits => ?_⟩
    rw [fitsAt_iff hvalid.quote] at hfits
    rw [fitsAt_iff hpro.quote, Price.product_value_of_one_lt hvalid hone]
    refine hfits.trans (mul_le_mul_of_nonneg_left (le_max_left _ _) (by positivity))

lemma Settleable.callOf (hc : c ∈ s.callRange b.shortBackingAsset b.assetId) :
    CallOf b c ∧ s.callOrders.find c.id = some c := by
  rw [callRange_eq h.bounded, mem_filter, decide_eq_true_eq] at hc
  have hmem := (mem_insertionSort _).1 hc.1
  exact ⟨⟨hc.2.2, hc.2.1, h.bounded c hmem⟩, find_of_mem hmem⟩

lemma Settleable.callRange_perm : (s.callRange b.shortBackingAsset b.assetId).Perm
      (s.callOrders.objects.filter fun c => c.debtType = b.assetId) := by
  rw [callRange_eq h.bounded]
  have hperm : s.callsByCollateral.Perm s.callOrders.objects := perm_insertionSort _ _
  refine (hperm.filter _).trans (List.Perm.of_eq (filter_congr fun c hc => ?_))
  rw [decide_eq_decide]
  exact ⟨And.right, fun he => ⟨h.backing c hc he, he⟩⟩

lemma ClosedAll.settled (hparts : parts.map Prod.fst = s.callRange b.shortBackingAsset b.assetId)
    (hall : ∀ part ∈ parts, IsClosing part.1 part.2) (hclo : ClosedAll s t parts)
    (hclose : s'.callOrders = t.callOrders) (hpoc : s'.pockets = t.pockets)
    (hsup : s'.currentSupply = t.currentSupply)
    (hbit : s'.bitassets.find b.assetId = some (b.settledGlobally
      ⟨⟨s.currentSupply.get b.assetId, b.assetId⟩,
        ⟨gathered parts + b.individualSettlementFund, b.shortBackingAsset⟩⟩
      (gathered parts + b.individualSettlementFund))) : GloballySettled s s' b parts := by
  have hperm : (parts.map Prod.fst).Perm
      (s.callOrders.objects.filter fun c => c.debtType = b.assetId) := hparts ▸ h.callRange_perm
  have hfind : ∀ id, s'.callOrders.find id
      = if id ∈ parts.map (fun part => part.1.id) then none else s.callOrders.find id := by
    rw [hclose]
    exact hclo.calls
  refine ⟨hperm, hall, ?_, hfind, fun c hc he => ?_, fun p => ?_, hsup.trans hclo.currentSupply,
    hbit⟩
  · rw [← collateral_split hall, MarketState.collateralOf, total]
    calc (s.callOrders.objects.map fun c => if c.debtType = b.assetId then c.collateral else 0).sum
        = ((s.callOrders.objects.filter fun c => c.debtType = b.assetId).map CallOrder.collateral).sum := by
          rw [sum_map_ite, map_const', sum_replicate, nsmul_zero, add_zero]
      _ = ((parts.map Prod.fst).map CallOrder.collateral).sum := (hperm.map _).sum_eq.symm
      _ = (parts.map fun part => part.1.collateral).sum := by rw [map_map]; rfl
  · -- a call order of the asset that is left would have been closed
    have hold := find_of_mem hc
    rw [hfind] at hold
    split at hold
    next => cases hold
    next hnot =>
      have hmem : c ∈ parts.map Prod.fst :=
        hperm.mem_iff.2 (mem_filter.2 ⟨mem_of_find hold, decide_eq_true he⟩)
      obtain ⟨part, hpart, rfl⟩ := mem_map.1 hmem
      exact hnot (mem_map_of_mem hpart)
  · rw [hpoc]
    exact hclo.pockets p

/-- A global settlement closes all positions and sets fund and settlement price, unless the product of
a debt and a price is too large. -/
lemma globallySettleAsset_run :
    (∃ s' parts, globallySettleAsset b.assetId p checkMarginCalls s = .ok () s' ∧
        GloballySettled s s' b parts) ∨
      (∃ c ∈ s.callOrders.objects, c.debtType = b.assetId ∧ ¬ FitsAt c p) ∧ ∃ e t,
        globallySettleAsset b.assetId p checkMarginCalls s = .error e t := by
  obtain ⟨q, hq, hset, hfits⟩ := h.fundReceivesPrice
  have hids : ((s.callRange b.shortBackingAsset b.assetId).map CallOrder.id).Nodup := by
    rw [(h.callRange_perm.map CallOrder.id).nodup_iff]
    exact (filter_sublist.map CallOrder.id).nodup s.callOrders.nodup
  rw [globallySettleAsset, bitassetData_bind h.found, require_bind (decide_eq_true h.notSettled),
    observe_bind, observe_bind, observe_bind, calculate_bind hq]
  rcases closeCalls_run (s.marginEnd b checkMarginCalls) (g := 0) h.found h.assets h.price hset
    (fun c hc => (h.callOf hc).1) (fun c hc => (h.callOf hc).2) hids with
    ⟨parts, t, hparts, hall, hclo, hrun⟩ | ⟨c, hc, hnot, e, t, herr⟩
  · left
    obtain ⟨u, hrm, hu⟩ := removeSettledDebtOrder_run (s := t) b.assetId
    have hdata : u.bitassets.find b.assetId = some b := by
      rw [hu]
      exact hclo.bitassets ▸ h.found
    have hdiv : div ⟨s.currentSupply.get b.assetId, b.assetId⟩
        ⟨0 + gathered parts + b.individualSettlementFund, b.shortBackingAsset⟩
        = .ok ⟨⟨s.currentSupply.get b.assetId, b.assetId⟩,
          ⟨0 + gathered parts + b.individualSettlementFund, b.shortBackingAsset⟩⟩ := by
      simp only [div, check, ne_eq, h.assets, not_false_eq_true, decide_true, if_true]
      rfl
    rw [bind_run hrun, bind_run hrm, bitassetData_bind hdata, calculate_bind hdiv]
    refine ⟨_, parts, modifyBitasset_run hdata _, hclo.settled h hparts hall ?_ ?_ ?_ ?_⟩
    · rw [hu]
    · rw [hu]
    · rw [hu]
    · refine (find_put _ _ _).trans ?_
      rw [zero_add]
      exact if_pos rfl
  · right
    refine ⟨⟨c, (mem_filter.1 (h.callRange_perm.mem_iff.1 hc)).1, (h.callOf hc).1.debtType,
      fun hfp => hnot ⟨hfp, hfits c hfp⟩⟩, .matching e, t, ?_⟩
    change EStateM.bind _ _ s = _
    simp only [EStateM.bind, herr]

end Graphene.Market
