import Graphene.Market.PriceFeed

/-!
# The black swan check

`check_for_blackswan`, up to its response: whether the least collateralized position of a
market-issued asset can be called at the best price there is.  With `no_settlement` the
current feed has been capped so that it can, up to the rounding of the two prices
involved: the cap is the price of the position times the maximum short squeeze ratio, and
the check divides by the same ratio.
-/

namespace Graphene.Market

open Protocol Lib Price

inductive SwanCheck where
  | alreadySettled
  | notDetected
  | detected (call : CallOrder)
deriving DecidableEq

variable {p : Price} {calls : List CallOrder} {call : CallOrder} {orders : List LimitOrder}
  {q : Price} {r : ℚ} {mssp : Price} (mssr : Nat)

namespace BitassetData

variable (b : BitassetData)

/-- The first limit order that sells the asset for its collateral, on the limit orders in the order
of `by_price`. -/
def firstLimitOrder (orders : List LimitOrder) : Option LimitOrder :=
  let highestPossibleBid := highest b.assetId b.shortBackingAsset
  let lowestPossibleBid := lowest b.assetId b.shortBackingAsset
  match orders.dropWhile fun o => highestPossibleBid.Less o.sellPrice with
  | [] => none
  | o :: _ => if o.sellPrice.Less lowestPossibleBid then none else some o

def callPaysPrice (o : LimitOrder) : Except AssetError Price :=
  o.sellPrice.mulRatio (b.currentFeed.marginCallPaysRatio b.marginCallFeeRatio)

/-- `highest`: the best price for the call order, without a limit order. -/
def highestWithoutOrder : Except AssetError Price :=
  if b.blackSwanResponseMethod = .individualSettlementToFund
  then b.medianFeed.maxShortSqueezePrice else b.currentFeed.maxShortSqueezePrice

/-- `highest`: the best price for the call order. -/
def highestPrice (limit : Option LimitOrder) : Except AssetError Price :=
  match limit with
  | none => b.highestWithoutOrder
  | some o => do
    let callPays ← b.callPaysPrice o
    let highest ← b.highestWithoutOrder
    check (highest.base.assetId = o.sellPrice.base.assetId) .assetMismatch
    if b.blackSwanResponseMethod ≠ .individualSettlementToFund then
      return callPays.greater highest
    else do
      let currentMssp ← b.currentFeed.maxShortSqueezePrice
      return if callPays.Less currentMssp then highest else callPays

/-- `check_for_blackswan`, one round of its loop.  `hasSettlement` says whether there is a force
settlement of the asset. -/
def checkForBlackswan (hasSettlement : Bool) (calls : List CallOrder) (orders : List LimitOrder) :
    Except AssetError SwanCheck :=
  if b.IsGloballySettled then .ok .alreadySettled
  else if b.currentFeed.settlementPrice.IsNull ∨ hasSettlement then .ok .notDetected
  else match b.findLeastCollateralizedShort calls with
    | none => .ok .notDetected
    | some call => do
      let highest ← b.highestPrice (b.firstLimitOrder orders)
      return if highest.Less call.collateralization.inv then .detected call else .notDetected

/-! ## Without force settlements and with any order book -/

variable {b}

lemma firstLimitOrder_spec {o : LimitOrder} (h : b.firstLimitOrder orders = some o) :
    o ∈ orders ∧ o.sellPrice.base.assetId = b.assetId ∧
      o.sellPrice.quote.assetId = b.shortBackingAsset := by
  unfold firstLimitOrder at h
  dsimp only at h
  split at h
  · cases h
  · rename_i o' rest hdrop
    split_ifs at h with hlow
    cases h
    have hmem : o ∈ orders := by
      apply (List.dropWhile_suffix fun o => (highest b.assetId b.shortBackingAsset).Less
        o.sellPrice).subset
      rw [hdrop]
      exact List.mem_cons_self
    have hhigh : ¬ (highest b.assetId b.shortBackingAsset).Less o.sellPrice := by
      have := List.head?_dropWhile_not
        (fun o : LimitOrder => decide ((highest b.assetId b.shortBackingAsset).Less o.sellPrice))
        orders
      rw [hdrop] at this
      simpa using this
    have hsame : (highest b.assetId b.shortBackingAsset).SameMarket
        (lowest b.assetId b.shortBackingAsset) := ⟨rfl, rfl⟩
    have hmar := sameMarket_of_not_less hsame hhigh hlow
    exact ⟨hmem, hmar.1, hmar.2⟩

lemma marginCallPaysRatio_pos {feed : PriceFeed} (h : 0 < feed.maximumShortSqueezeRatio)
    (mcfr : Option Nat) : 0 < feed.marginCallPaysRatio mcfr := by
  have hnum : 0 < feed.marginCallPriceNumerator mcfr := by
    unfold PriceFeed.marginCallPriceNumerator grapheneCollateralRatioDenom
    dsimp only
    split_ifs <;> omega
  exact mkRat_pos (by exact_mod_cast hnum) h

/-- A bitasset whose positions are called at the current feed price, with `no_settlement`. -/
structure Unsettleable (b : BitassetData) : Prop where
  response : b.blackSwanResponseMethod = .noSettlement
  notSettled : ¬ b.IsGloballySettled
  ratio : 1001 ≤ b.currentFeed.maximumShortSqueezeRatio ∧
    b.currentFeed.maximumShortSqueezeRatio ≤ 32000
  assets : b.assetId ≠ b.shortBackingAsset

structure Quotes (b : BitassetData) (p : Price) : Prop where
  valid : p.Valid
  base : p.base.assetId = b.assetId
  quote : p.quote.assetId = b.shortBackingAsset

section

variable (hp : b.Quotes p)
include hp

lemma Quotes.sameMarket (hq : b.Quotes q) : p.SameMarket q :=
  ⟨hp.base.trans hq.base.symm, hp.quote.trans hq.quote.symm⟩

lemma Quotes.less_iff (hq : b.Quotes q) : p.Less q ↔ p.value < q.value :=
  Price.less_iff hp.valid hq.valid (hp.sameMarket hq)

lemma Quotes.product (hr : 0 < r) : b.Quotes (p.product r) where
  valid := product_valid hp.valid hr
  base := (product_sameMarket p r).1.trans hp.base
  quote := (product_sameMarket p r).2.trans hp.quote

lemma Quotes.mulRatio (hr : 0 < r) : ∃ np, p.mulRatio r = .ok np ∧ b.Quotes np := by
  by_cases hone : r = 1
  · exact ⟨p, mulRatio_one hp.valid hone, hp⟩
  · exact ⟨_, mulRatio_eq hp.valid hr hone, hp.product hr⟩

lemma Quotes.greater (hq : b.Quotes q) : b.Quotes (p.greater q) := by
  unfold Price.greater
  split_ifs
  · exact hq
  · exact hp

end

def shortSqueezeRatio (b : BitassetData) : ℚ :=
  mkRat b.currentFeed.maximumShortSqueezeRatio grapheneCollateralRatioDenom

lemma Unsettleable.one_lt_ratio (h : b.Unsettleable) : 1 < b.shortSqueezeRatio := by
  unfold shortSqueezeRatio grapheneCollateralRatioDenom
  rw [Rat.mkRat_eq_div, one_lt_div (by norm_num)]
  exact_mod_cast Nat.lt_of_lt_of_le (by norm_num) h.ratio.1

lemma ratio_inv :
    mkRat grapheneCollateralRatioDenom b.currentFeed.maximumShortSqueezeRatio =
      b.shortSqueezeRatio⁻¹ := by
  unfold shortSqueezeRatio
  rw [Rat.mkRat_eq_div, Rat.mkRat_eq_div, inv_div]
  norm_cast

/-- The maximum short squeeze price: the feed price divided by the ratio, rounded, but not more than
the feed price. -/
lemma Unsettleable.maxShortSqueezePrice (h : b.Unsettleable)
    (hfeed : b.Quotes b.currentFeed.settlementPrice) :
    ∃ mssp, b.currentFeed.maxShortSqueezePrice = .ok mssp ∧ b.Quotes mssp ∧
      mssp.value = min b.currentFeed.settlementPrice.value
        (rounded grapheneMaxShareSupply (b.currentFeed.settlementPrice.value / b.shortSqueezeRatio)) := by
  have hone := h.one_lt_ratio
  have hpos : 0 < b.shortSqueezeRatio⁻¹ := inv_pos.2 (one_pos.trans hone)
  have hlt : b.shortSqueezeRatio⁻¹ < 1 := inv_lt_one_of_one_lt₀ hone
  refine ⟨b.currentFeed.settlementPrice.product b.shortSqueezeRatio⁻¹, ?_, hfeed.product hpos, ?_⟩
  · unfold PriceFeed.maxShortSqueezePrice
    rw [ratio_inv]
    exact mulRatio_eq hfeed.valid hpos hlt.ne
  · rw [product_value_of_lt_one hfeed.valid hpos hlt, div_eq_mul_inv]

lemma Unsettleable.highestPrice (h : b.Unsettleable)
    (hmssp : b.currentFeed.maxShortSqueezePrice = .ok mssp) (hquotes : b.Quotes mssp)
    (hord : ∀ o ∈ orders, o.sellPrice.Valid) :
    ∃ highest, b.highestPrice (b.firstLimitOrder orders) = .ok highest ∧ b.Quotes highest ∧
      mssp.value ≤ highest.value := by
  have hwit : b.highestWithoutOrder = .ok mssp := by
    unfold highestWithoutOrder
    rwa [h.response, if_neg (by decide)]
  unfold BitassetData.highestPrice
  cases hfst : b.firstLimitOrder orders with
  | none => exact ⟨mssp, hwit, hquotes, le_rfl⟩
  | some o =>
    obtain ⟨hmem, hbase, hquote⟩ := firstLimitOrder_spec hfst
    have ho : b.Quotes o.sellPrice := ⟨hord o hmem, hbase, hquote⟩
    have hratio := marginCallPaysRatio_pos (Nat.lt_of_lt_of_le (by norm_num) h.ratio.1)
      b.marginCallFeeRatio
    obtain ⟨callPays, hcal, hq⟩ := ho.mulRatio hratio
    have hchk : check (decide (mssp.base.assetId = o.sellPrice.base.assetId))
        AssetError.assetMismatch = .ok () :=
      check_eq_ok.2 (decide_eq_true (hquotes.base.trans hbase.symm))
    refine ⟨callPays.greater mssp, ?_, hq.greater hquotes, ?_⟩
    · simp only [callPaysPrice, hcal, hwit, ok_bind, hchk, h.response]
      rfl
    · rw [greater_value hq.valid hquotes.valid (hq.sameMarket hquotes)]
      exact le_max_right _ _

/-- No order book makes the check detect a black swan when the position can be called at the maximum
short squeeze price. -/
lemma Unsettleable.notDetected (h : b.Unsettleable) (hfeed : b.Quotes b.currentFeed.settlementPrice)
    (hmssp : b.currentFeed.maxShortSqueezePrice = .ok mssp) (hquotes : b.Quotes mssp)
    (hleast : b.findLeastCollateralizedShort calls = some call)
    (hcall : b.Quotes call.collateralization.inv)
    (hle : call.collateralization.inv.value ≤ mssp.value) (hord : ∀ o ∈ orders, o.sellPrice.Valid)
    (hasSettlement : Bool) : b.checkForBlackswan hasSettlement calls orders = .ok .notDetected := by
  have hnull : ¬ b.currentFeed.settlementPrice.IsNull := by
    rintro ⟨hbase, hquote⟩
    exact hfeed.valid.assets (hbase.trans hquote.symm)
  unfold checkForBlackswan
  rw [if_neg h.notSettled]
  cases hasSettlement with
  | true => rw [if_pos (.inr rfl)]
  | false =>
    obtain ⟨highest, hok, hq, hge⟩ := h.highestPrice hmssp hquotes hord
    have hless : ¬ highest.Less call.collateralization.inv := by
      rw [hq.less_iff hcall]
      exact not_lt.2 (hle.trans hge)
    rw [if_neg (by simp [hnull]), hleast]
    simp only [hok, ok_bind, if_neg hless]
    rfl

/-! ## The capped feed -/

/-- The price at which the position of the call order is closed with nothing left, debt over
collateral. -/
def swanPrice (call : CallOrder) : ℚ :=
  call.collateralization.inv.value

def cappedValue (b : BitassetData) (call : CallOrder) : ℚ :=
  max b.medianFeed.settlementPrice.value (max (swanPrice call)
    (rounded grapheneMaxShareSupply (swanPrice call * b.shortSqueezeRatio)))

lemma Unsettleable.cappedFeedPrice (h : b.Unsettleable)
    (hmedian : b.Quotes b.medianFeed.settlementPrice)
    (hleast : b.findLeastCollateralizedShort calls = some call)
    (hcall : b.Quotes call.collateralization.inv) :
    ∃ p, b.cappedFeedPrice calls = .ok p ∧ b.Quotes p ∧ p.value = b.cappedValue call := by
  have hone := h.one_lt_ratio
  have hpos : 0 < b.shortSqueezeRatio := one_pos.trans hone
  have hcap : call.collateralization.inv.divRatio
      (mkRat grapheneCollateralRatioDenom b.currentFeed.maximumShortSqueezeRatio) =
        .ok (call.collateralization.inv.product b.shortSqueezeRatio) := by
    unfold divRatio
    rw [ratio_inv, inv_inv]
    exact mulRatio_eq hcall.valid hpos hone.ne'
  have hquotes := hcall.product hpos
  refine ⟨_, ?_, hmedian.greater hquotes, ?_⟩
  · unfold BitassetData.cappedFeedPrice
    rw [h.response]
    simp only [hleast, hcap, ok_bind]
    rfl
  · rw [greater_value hmedian.valid hquotes.valid (hmedian.sameMarket hquotes),
      product_value_of_one_lt hcall.valid hone]
    rfl

lemma Unsettleable.updateBitassetCurrentFeed {b1 : BitassetData} {median : Option PriceFeed}
    (hb : b.refreshed median = .ok b1) (h : b1.Unsettleable)
    (hmedian : b1.Quotes b1.medianFeed.settlementPrice)
    (hcurrent : b1.currentFeed.settlementPrice.IsNull ∨ b1.currentFeed.settlementPrice.Valid)
    (hleast : b1.findLeastCollateralizedShort calls = some call)
    (hcall : b1.Quotes call.collateralization.inv) : ∃ p, b.updateBitassetCurrentFeed calls median =
        .ok { b1 with currentFeed := { b1.currentFeed with settlementPrice := p } } ∧
      b1.Quotes p ∧ p.value = b1.cappedValue call := by
  have hnull : ¬ b1.medianFeed.settlementPrice.IsNull := by
    rintro ⟨hbase, hquote⟩
    exact hmedian.valid.assets (hbase.trans hquote.symm)
  have hcap : b1.MayCap := .inl h.response
  obtain ⟨p, hp, hquotes, hvalue⟩ := h.cappedFeedPrice hmedian hleast hcall
  unfold BitassetData.updateBitassetCurrentFeed getDerivedCurrentFeedPrice
  rw [hb]
  simp only [ok_bind, if_pos hcap, if_neg hnull, hp]
  by_cases hsame : p.Same b1.currentFeed.settlementPrice
  · -- the current price is kept: it has the same value, perhaps as another fraction
    have hvalid : b1.currentFeed.settlementPrice.Valid := by
      refine hcurrent.resolve_left ?_
      rintro ⟨hbase, hquote⟩
      exact hquotes.valid.assets ((hsame.1.trans hbase).trans (hsame.2.1.trans hquote).symm)
    refine ⟨b1.currentFeed.settlementPrice, ?_, ⟨hvalid, ?_, ?_⟩, ?_⟩
    · simp only [if_pos hsame, pure, Except.pure, ok_bind]
      rfl
    · exact hsame.1.symm.trans hquotes.base
    · exact hsame.2.1.symm.trans hquotes.quote
    · rw [← same_value hquotes.valid hvalid hsame, hvalue]
  · refine ⟨p, ?_, hquotes, hvalue⟩
    simp only [if_neg hsame, pure, Except.pure, ok_bind]
    rfl

/-- The products of the cap and of the check are exact: the swan price times the short squeeze ratio
has parts of at most `GRAPHENE_MAX_SHARE_SUPPLY`, and so has the median price divided by the ratio where
the median price is the higher one. -/
structure Representable (b : BitassetData) (call : CallOrder) : Prop where
  swan : Fits grapheneMaxShareSupply (swanPrice call)
  cap : Fits grapheneMaxShareSupply (swanPrice call * b.shortSqueezeRatio)
  median : b.medianFeed.settlementPrice.value ≤ swanPrice call * b.shortSqueezeRatio ∨
    Fits grapheneMaxShareSupply (b.medianFeed.settlementPrice.value / b.shortSqueezeRatio)

lemma Representable.swanPrice_le (hrep : b.Representable call) (h : b.Unsettleable)
    (hcall : b.Quotes call.collateralization.inv) :
    swanPrice call ≤ rounded grapheneMaxShareSupply (b.cappedValue call / b.shortSqueezeRatio) := by
  have hone := h.one_lt_ratio
  have hpos : 0 < b.shortSqueezeRatio := one_pos.trans hone
  have hswan : 0 < swanPrice call := hcall.valid.value_pos
  have hvalue : b.cappedValue call =
      max b.medianFeed.settlementPrice.value (swanPrice call * b.shortSqueezeRatio) := by
    unfold cappedValue
    rw [rounded_of_fits (mul_pos hswan hpos) hrep.cap,
      max_eq_right (le_mul_of_one_le_right hswan.le hone.le)]
  rw [hvalue]
  rcases le_total b.medianFeed.settlementPrice.value (swanPrice call * b.shortSqueezeRatio)
    with hle | hge
  · rw [max_eq_right hle, mul_div_cancel_right₀ _ hpos.ne', rounded_of_fits hswan hrep.swan]
  · rw [max_eq_left hge]
    have hquot : swanPrice call ≤ b.medianFeed.settlementPrice.value / b.shortSqueezeRatio :=
      (le_div_iff₀ hpos).2 hge
    rcases hrep.median with hle | hfits
    · -- the two prices are equal
      rw [le_antisymm hle hge, mul_div_cancel_right₀ _ hpos.ne', rounded_of_fits hswan hrep.swan]
    · rwa [rounded_of_fits (hswan.trans_le hquot) hfits]

/-- With `no_settlement`, after the current feed has been updated, no order book makes the check
detect a black swan if the products involved can be represented. -/
theorem no_black_swan {b b1 : BitassetData} {median : Option PriceFeed}
    (hb : b.refreshed median = .ok b1) (h : b1.Unsettleable)
    (hmedian : b1.Quotes b1.medianFeed.settlementPrice)
    (hcurrent : b1.currentFeed.settlementPrice.IsNull ∨ b1.currentFeed.settlementPrice.Valid)
    {calls : List CallOrder} {call : CallOrder}
    (hleast : b1.findLeastCollateralizedShort calls = some call)
    (hcall : b1.Quotes call.collateralization.inv) (hrep : b1.Representable call) :
    ∃ b', b.updateBitassetCurrentFeed calls median = .ok b' ∧
      ∀ orders, (∀ o ∈ orders, o.sellPrice.Valid) → ∀ hasSettlement,
        b'.checkForBlackswan hasSettlement calls orders = .ok .notDetected := by
  obtain ⟨p, hupdate, hp, hvalue⟩ := h.updateBitassetCurrentFeed hb hmedian hcurrent hleast hcall
  refine ⟨_, hupdate, ?_⟩
  intro orders hord hasSettlement
  have h' : ({ b1 with currentFeed := { b1.currentFeed with settlementPrice := p } } :
      BitassetData).Unsettleable := ⟨h.response, h.notSettled, h.ratio, h.assets⟩
  obtain ⟨mssp, hmssp, hquotes, hmin⟩ := h'.maxShortSqueezePrice ⟨hp.valid, hp.base, hp.quote⟩
  refine h'.notDetected ⟨hp.valid, hp.base, hp.quote⟩ hmssp hquotes hleast
    ⟨hcall.valid, hcall.base, hcall.quote⟩ ?_ hord hasSettlement
  rw [hmin]
  refine le_min ?_ ?_
  · show swanPrice call ≤ p.value
    rw [hvalue]
    exact (le_max_left _ _).trans (le_max_right _ _)
  · show swanPrice call ≤ rounded grapheneMaxShareSupply (p.value / b1.shortSqueezeRatio)
    rw [hvalue]
    exact hrep.swanPrice_le h hcall

/-! ## Two positions -/

/-- Asset 1 backed by the core asset, with a feed of one to a million. -/
def sample (maximumShortSqueezeRatio : Nat) : BitassetData where
  assetId := 1
  shortBackingAsset := 0
  blackSwanResponseMethod := .noSettlement
  marginCallFeeRatio := none
  medianFeed := ⟨⟨⟨1, 1⟩, ⟨1000000, 0⟩⟩, 1750, maximumShortSqueezeRatio⟩
  currentFeed := ⟨⟨⟨1, 1⟩, ⟨1000000, 0⟩⟩, 1750, maximumShortSqueezeRatio⟩
  currentMaintenanceCollateralization := ⟨⟨1750000, 0⟩, ⟨1, 1⟩⟩
  isPredictionMarket := false
  settlementPrice := PriceFeed.nullPrice
  settlementFund := 0
  individualSettlementDebt := 0
  individualSettlementFund := 0

def samplePosition (debt collateral : Int) : CallOrder where
  id := 0
  borrower := 20
  collateral := collateral
  debt := debt
  collateralType := 0
  debtType := 1
  targetCollateralRatio := none

lemma sample_unsettleable {mssr : Nat} (h : 1001 ≤ mssr ∧ mssr ≤ 32000) :
    (sample mssr).Unsettleable :=
  ⟨rfl, fun hset => hset ⟨rfl, rfl⟩, h, Nat.one_ne_zero⟩

lemma sample_quotes : (sample mssr).Quotes (sample mssr).medianFeed.settlementPrice :=
  ⟨⟨Int.one_pos, by norm_num [sample], Nat.one_ne_zero⟩, rfl, rfl⟩

lemma samplePosition_quotes {debt collateral : Int} (hdebt : 0 < debt) (hcol : 0 < collateral) :
    (sample mssr).Quotes (samplePosition debt collateral).collateralization.inv :=
  ⟨⟨hdebt, hcol, Nat.one_ne_zero⟩, rfl, rfl⟩

/-- Two positions, the lower one of 1 to 2, and a ratio of 1.5 need no rounding. -/
theorem no_black_swan_sample : ∃ b', (sample 1500).updateBitassetCurrentFeed
        [samplePosition 1 2, samplePosition 100 500] none = .ok b' ∧
      ∀ orders, (∀ o ∈ orders, o.sellPrice.Valid) → ∀ hasSettlement,
        b'.checkForBlackswan hasSettlement [samplePosition 1 2, samplePosition 100 500] orders =
          .ok .notDetected :=
  no_black_swan (show (sample 1500).refreshed none = .ok (sample 1500) from rfl)
    (sample_unsettleable (by decide)) (sample_quotes 1500) (.inr (sample_quotes 1500).valid)
    (show (sample 1500).findLeastCollateralizedShort _ = some (samplePosition 1 2) by rfl)
    (samplePosition_quotes 1500 (by decide) (by decide))
    ⟨by decide +kernel, by decide +kernel, .inl (by decide +kernel)⟩

/-- A debt of 1000000001 against a collateral of 1000000000001, with a ratio of 1.101: the cap and
the maximum short squeeze price are both rounded, and the black swan is detected. -/
theorem black_swan_despite_cap : (sample 1101).Unsettleable ∧
      (sample 1101).Quotes (sample 1101).medianFeed.settlementPrice ∧
      (sample 1101).Quotes (samplePosition 1000000001 1000000000001).collateralization.inv ∧
      ((sample 1101).updateBitassetCurrentFeed [samplePosition 1000000001 1000000000001] none >>=
        fun b' => b'.checkForBlackswan false [samplePosition 1000000001 1000000000001] []) =
          .ok (.detected (samplePosition 1000000001 1000000000001)) :=
  ⟨sample_unsettleable (by decide), sample_quotes 1101,
    samplePosition_quotes 1101 (by decide) (by decide), by decide +kernel⟩

end BitassetData
end Graphene.Market
