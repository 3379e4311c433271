import Graphene.Market.Orders

/-!
# Price feeds of market-issued assets

The part of `asset_bitasset_data_object` that margin calls depend on: the median feed, the current feed
derived from it, and the prices computed from them.  With `no_settlement` and
`individual_settlement_to_fund` the current feed is capped.  All hard forks are taken as passed.
-/

namespace Graphene.Market

open Protocol Lib

inductive BlackSwanResponse where
  | globalSettlement
  | noSettlement
  | individualSettlementToFund
  | individualSettlementToOrder
deriving DecidableEq

/-- `price_feed`, without the core exchange rate. -/
structure PriceFeed where
  settlementPrice : Price
  maintenanceCollateralRatio : Nat
  maximumShortSqueezeRatio : Nat
deriving DecidableEq

namespace PriceFeed

variable (feed : PriceFeed)

def maxShortSqueezePrice : Except AssetError Price :=
  feed.settlementPrice.mulRatio
    (mkRat grapheneCollateralRatioDenom feed.maximumShortSqueezeRatio)

variable (mcfr : Option Nat)

def marginCallPriceNumerator : Nat :=
  let mcfr := mcfr.getD 0
  let numerator := if mcfr < feed.maximumShortSqueezeRatio
    then feed.maximumShortSqueezeRatio - mcfr else grapheneCollateralRatioDenom
  if numerator < grapheneCollateralRatioDenom then grapheneCollateralRatioDenom else numerator

def marginCallOrderRatio : ℚ :=
  mkRat (feed.marginCallPriceNumerator mcfr) grapheneCollateralRatioDenom

def marginCallOrderPrice : Except AssetError Price :=
  feed.settlementPrice.divRatio (feed.marginCallOrderRatio mcfr)

def marginCallPaysRatio : ℚ :=
  mkRat (feed.marginCallPriceNumerator mcfr) feed.maximumShortSqueezeRatio

/-- The default `price()`. -/
def nullPrice : Price :=
  ⟨⟨0, 0⟩, ⟨0, 0⟩⟩

def maintenanceCollateralization : Except AssetError Price :=
  if feed.settlementPrice.IsNull then .ok nullPrice
  else feed.settlementPrice.inv.mulRatio
    (mkRat feed.maintenanceCollateralRatio grapheneCollateralRatioDenom)

end PriceFeed

structure BitassetData where
  assetId : AssetId
  shortBackingAsset : AssetId
  blackSwanResponseMethod : BlackSwanResponse
  marginCallFeeRatio : Option Nat
  medianFeed : PriceFeed
  currentFeed : PriceFeed
  currentMaintenanceCollateralization : Price
  isPredictionMarket : Bool
  settlementPrice : Price
  settlementFund : Int
  individualSettlementDebt : Int
  individualSettlementFund : Int

namespace BitassetData

variable (b : BitassetData)

def IsGloballySettled : Prop :=
  ¬ b.settlementPrice.IsNull

instance (b : BitassetData) : Decidable b.IsGloballySettled := inferInstanceAs (Decidable (¬ _))

variable (calls : List CallOrder)

def findLeastCollateralizedShort : Option CallOrder :=
  let callMin := Price.lowest b.shortBackingAsset b.assetId
  match calls.dropWhile fun c => c.collateralization.Less callMin with
  | [] => none
  | c :: _ => if c.debtType = b.assetId then some c else none

/-- The price at which the current feed is capped, if it is. -/
def cappedFeedPrice : Except AssetError Price :=
  match b.blackSwanResponseMethod with
  | .noSettlement =>
    match b.findLeastCollateralizedShort calls with
    | none => .ok b.medianFeed.settlementPrice
    | some call => do
      let lowestCallableFeedPrice ← call.collateralization.inv.divRatio
        (mkRat grapheneCollateralRatioDenom b.currentFeed.maximumShortSqueezeRatio)
      return b.medianFeed.settlementPrice.greater lowestCallableFeedPrice
  | .individualSettlementToFund =>
    if 0 < b.individualSettlementDebt then do
      let fundPrice ← Asset.div ⟨b.individualSettlementDebt, b.assetId⟩
        ⟨b.individualSettlementFund, b.shortBackingAsset⟩
      let lowestCallableFeedPrice ← fundPrice.mulRatio
        (b.currentFeed.marginCallOrderRatio b.marginCallFeeRatio)
      return b.medianFeed.settlementPrice.greater lowestCallableFeedPrice
    else .ok b.medianFeed.settlementPrice
  | _ => .ok b.medianFeed.settlementPrice

/-- `get_derived_current_feed_price`: the new price, if it differs from the current one. -/
def getDerivedCurrentFeedPrice :
    Except AssetError (Option Price) :=
  if b.medianFeed.settlementPrice.IsNull then
    .ok (if b.currentFeed.settlementPrice.IsNull then none else b.medianFeed.settlementPrice)
  else do
    let result ← b.cappedFeedPrice calls
    return if result.Same b.currentFeed.settlementPrice then none else some result

def MayCap : Prop :=
  b.blackSwanResponseMethod = .noSettlement ∨
    b.blackSwanResponseMethod = .individualSettlementToFund

instance (b : BitassetData) : Decidable b.MayCap := inferInstanceAs (Decidable (_ ∨ _))

/-- `update_median_feeds` found a new median, and the current feed follows it. -/
def withMedian (median : PriceFeed) (maintenance : Price) : BitassetData :=
  { b with
    medianFeed := median
    currentFeed := median
    currentMaintenanceCollateralization := maintenance }

/-- `current_feed.settlement_price`, if there is a new one. -/
def withCurrentPrice : Option Price → BitassetData
  | none => b
  | some p => { b with currentFeed := { b.currentFeed with settlementPrice := p } }

/-- The first part of `update_bitasset_current_feed`: `median` is what `update_median_feeds` computes
from the published feeds; without it the median feed is kept. -/
def refreshed : Option PriceFeed → Except AssetError BitassetData
  | none => .ok b
  | some median => do
    let maintenance ← median.maintenanceCollateralization
    return b.withMedian median maintenance

def updateBitassetCurrentFeed
    (median : Option PriceFeed) : Except AssetError BitassetData := do
  let b ← b.refreshed median
  if b.MayCap then do
    let newPrice ← b.getDerivedCurrentFeedPrice calls
    return b.withCurrentPrice newPrice
  -- it is possible that the current feed was capped; after a new median it is not
  else if b.currentFeed.settlementPrice.Same b.medianFeed.settlementPrice then return b
  else return b.withCurrentPrice b.medianFeed.settlementPrice

end BitassetData
end Graphene.Market
