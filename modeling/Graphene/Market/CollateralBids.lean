import Graphene.Market.CallOrders

/-!
# Collateral bids

Bids of collateral for the debt of a globally settled asset, and `process_bids`, which at
maintenance turns bids that cover the whole supply into call orders and so revives the asset.
-/

namespace Graphene.Market

open Protocol Lib

/-- Halve numerator and denominator until both are within the maximum supply.  With 128-bit numbers
that takes less than the given number of rounds. -/
def fitting : Nat → ℚ → ℚ
  | 0, cp => cp
  | rounds + 1, cp =>
    if grapheneMaxShareSupply < cp.num ∨ grapheneMaxShareSupply < cp.den then
      fitting rounds (mkRat (cp.num / 2 + 1) (cp.den / 2 + 1))
    else cp

def callPrice (debt collateral : Asset) (collateralRatio : Nat) : Except AssetError Price :=
  let cp := fitting 128 (mkRat debt.amount collateral.amount.toNat *
    mkRat collateralRatio grapheneCollateralRatioDenom)
  Asset.div ⟨cp.den, collateral.assetId⟩ ⟨cp.num, debt.assetId⟩

namespace CollateralBid

def additionalCollateral (bid : CollateralBid) : Asset :=
  bid.invSwanPrice.base

def debtCovered (bid : CollateralBid) : Asset :=
  bid.invSwanPrice.quote

end CollateralBid

def cancelBid (bid : CollateralBid) : MarketM Unit := do
  adjustBalance bid.bidder bid.additionalCollateral
  let _ ← bidTable.remove bid.id

def CollateralBid.callOrder (bid : CollateralBid) (debtCovered collateralFromFund : Int) (id : Nat) :
    CallOrder where
  id := id
  borrower := bid.bidder
  collateral := bid.additionalCollateral.amount + collateralFromFund
  debt := debtCovered
  collateralType := bid.additionalCollateral.assetId
  debtType := bid.debtCovered.assetId
  targetCollateralRatio := none

def MarketState.hasCallOrder (s : MarketState) (borrower : AccountId) (debtType : AssetId) : Bool :=
  s.callOrders.objects.any fun c => c.borrower = borrower ∧ c.debtType = debtType

def executeBid (bid : CollateralBid) (debtCovered collateralFromFund : Int) : MarketM Unit := do
  let taken ← observe fun s => s.hasCallOrder bid.bidder bid.debtCovered.assetId
  require (!taken) .indexConstraint
  let c ← callOrderTable.create (bid.callOrder debtCovered collateralFromFund)
  addCoreInOrders bid.bidder ⟨c.collateral, bid.additionalCollateral.assetId⟩
  let _ ← bidTable.remove bid.id

def cancelBids : List CollateralBid → MarketM Unit
  | [] => return
  | bid :: rest => do
    cancelBid bid
    cancelBids rest

variable (b : BitassetData)

def BitassetData.revived : BitassetData :=
  { b with settlementPrice := PriceFeed.nullPrice, settlementFund := 0 }

def cancelBidsAndReviveMpa (a : AssetId) : MarketM Unit := do
  let b ← bitassetData a
  require b.IsGloballySettled .internal
  require (!b.isPredictionMarket) .internal
  let bids ← observe fun s => s.bidsByPrice a
  cancelBids bids
  modifyBitasset a BitassetData.revived

/-! ## `process_bids` -/

def CollateralBid.debtIn (bid : CollateralBid) (supply : Int) : Asset :=
  if supply < bid.debtCovered.amount then ⟨supply, bid.debtCovered.assetId⟩ else bid.debtCovered

/-- The debt with the collateral that it would get from the fund and the bid. -/
def BitassetData.collateralFor (supply : Int) (bid : CollateralBid) :
    Except AssetError Asset := do
  let fromFund ← (bid.debtIn supply).mul b.settlementPrice
  fromFund.add bid.additionalCollateral

/-- The test of a position against the feed: `~call_price < settlement_price`. -/
def BitassetData.isSafe (reviveRatio : Nat) (debt collateral : Asset) :
    Except AssetError Bool := do
  let price ← callPrice debt collateral reviveRatio
  return price.inv.Less b.currentFeed.settlementPrice

def BitassetData.accepts (reviveRatio : Nat) (supply : Int) (bid : CollateralBid) :
    Except AssetError Bool := do
  let totalCollateral ← b.collateralFor supply bid
  b.isSafe reviveRatio (bid.debtIn supply) totalCollateral

/-- The first loop: the bids until the supply is covered or a bid fails the test, and what they
cover. -/
def BitassetData.coveringBids (b : BitassetData) (reviveRatio : Nat) (supply : Int) :
    List CollateralBid → Int → Except AssetError (List CollateralBid × Int)
  | [], covered => .ok ([], covered)
  | bid :: rest, covered =>
    if covered < supply then do
      let accepted ← b.accepts reviveRatio supply bid
      if accepted then do
        let (bids, covered) ← b.coveringBids reviveRatio supply rest
          (covered + (bid.debtIn supply).amount)
        return (bid :: bids, covered)
      else .ok ([], covered)
    else .ok ([], covered)

/-- The second loop: bids are executed, and the last one gets what is left of debt and fund. -/
def BitassetData.executeBids (b : BitassetData) (supply : Int) :
    List CollateralBid → Int → Int → MarketM (Int × Int)
  | [], toCover, remainingFund => return (toCover, remainingFund)
  | bid :: rest, toCover, remainingFund => do
    let debtInBid := bid.debtIn supply
    let atPrice ← calculate (debtInBid.mul b.settlementPrice)
    let isLast : Bool := toCover ≤ debtInBid.amount
    let debt := if isLast then toCover else debtInBid.amount
    let collateral := if isLast then remainingFund else atPrice.amount
    executeBid bid debt collateral
    b.executeBids supply rest (toCover - debt) (remainingFund - collateral)

def Env.processBids (env : Env) (a : AssetId) : MarketM Unit := do
  let b ← bitassetData a
  if b.isPredictionMarket ∨ b.currentFeed.settlementPrice.IsNull then return
  else do
    let supply ← observe fun s => s.currentSupply.get a
    if supply = 0 then cancelBidsAndReviveMpa a
    else do
      let bids ← observe fun s => s.bidsByPrice a
      let (accepted, covered) ← calculate
        (b.coveringBids (env.initialCollateralRatio a) supply bids 0)
      if covered < supply then return
      else do
        let (toCover, remainingFund) ← b.executeBids supply accepted supply b.settlementFund
        require (remainingFund = 0) .internal
        require (toCover = 0) .internal
        cancelBidsAndReviveMpa a

end Graphene.Market
