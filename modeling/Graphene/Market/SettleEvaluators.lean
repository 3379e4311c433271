import Graphene.Market.LimitOrderEvaluators

/-!
# Settling and reserving assets

The evaluators of `asset_settle` and `asset_reserve`.  A settlement is paid
from the fund of a globally settled asset, or from the fund of positions that were settled
individually, and what is left of it becomes a force settlement.
-/

namespace Graphene.Market

open Protocol Lib

/-! ## `asset_settle` -/

structure AssetSettle where
  fee : Asset
  account : AccountId
  amount : Asset

structure SettleResult where
  paid : Asset
  received : Asset
  fees : List Asset
deriving DecidableEq

def Env.checkSettle (env : Env) (op : AssetSettle) : MarketM Unit := do
  require (0 ≤ op.amount.amount) .invalidOperation
  let asset ← env.getAsset op.amount.assetId
  let b ← bitassetData op.amount.assetId
  require (asset.canForceSettle = true ∨ b.IsGloballySettled ∨ b.IsIndividuallySettledToFund)
    .settlementRefused
  require (b.isPredictionMarket = false ∨ b.IsGloballySettled) .settlementRefused
  require (b.isPredictionMarket = true ∨ ¬ b.currentFeed.settlementPrice.IsNull ∨
    b.IsGloballySettled ∨ b.IsIndividuallySettledToFund) .settlementRefused
  let balance ← observe fun s => s.getBalance op.account op.amount.assetId
  require (op.amount.amount ≤ balance) .settlementRefused
  require (env.isAuthorizedAsset op.account op.amount.assetId) .unauthorizedAsset
  require (env.isAuthorizedAsset op.account b.shortBackingAsset) .unauthorizedAsset

/-- What the asset gets of a settlement that pays more than a margin call would. -/
def excessOverPrice (a : AssetId) (pays settled : Asset) (fillPrice : Price) :
    MarketM (Option Asset) := do
  let settledByPrice ← calculate (pays.multiplyAndRoundUp fillPrice)
  let isExcessive ← calculate (settledByPrice.less settled)
  if isExcessive then do
    let collateralFees ← calculate (settled.sub settledByPrice)
    accumulateFee a collateralFees
    return some collateralFees
  else return none

/-- `pay_collateral_fees`.  What is thrown after the price has been calculated is caught. -/
def payCollateralFees (a : AssetId) (pays settled : Asset) : MarketM (Option Asset) := do
  let b ← bitassetData a
  if b.isPredictionMarket = true ∨ b.currentFeed.settlementPrice.IsNull then return none
  else do
    let fillPrice ← calculate b.getMarginCallOrderPrice
    let fees ← attempt (excessOverPrice a pays settled fillPrice)
    return fees.join

/-- Pay out what was taken from a fund, after the fees: what is received, and the fees. -/
def Env.payOut (env : Env) (a : AssetId) (account : AccountId) (pays settled : Asset) :
    MarketM (Asset × List Asset) := do
  let collateralFees ← payCollateralFees a pays settled
  let left : Asset := ⟨settled.amount - collateralFees.elim 0 Asset.amount, settled.assetId⟩
  let issuerFees ← env.payMarketFees account left false
  let received : Asset := ⟨left.amount - issuerFees.amount, left.assetId⟩
  whenever (0 < received.amount) (adjustBalance account received)
  return (received, collateralFees.toList ++ [issuerFees])

namespace BitassetData

variable (b : BitassetData)

/-- What is taken from the fund: all of it for the whole supply, or else the part for the amount,
rounded down. -/
def settledAmount (supply : Int) (amount : Asset) : Except AssetError Asset :=
  if amount.amount = supply then .ok ⟨b.settlementFund, b.shortBackingAsset⟩
  else amount.mul b.settlementPrice

def paysForSettled (supply : Int) (amount settled : Asset) :
    Except AssetError Asset :=
  if amount.amount ≠ supply ∧ settled.amount ≠ 0 then settled.multiplyAndRoundUp b.settlementPrice
  else .ok amount

def takeFromFund (amount : Int) : BitassetData :=
  { b with settlementFund := b.settlementFund - amount }

/-- What is paid to and taken from the fund of individual settlements. -/
def individualAmounts (amount : Asset) : Except AssetError (Asset × Asset) :=
  if amount.amount < b.individualSettlementDebt then do
    let price ← b.getIndividualSettlementPrice
    let settled ← amount.mul price
    let pays ← settled.multiplyAndRoundUp price
    return (pays, settled)
  else return (⟨b.individualSettlementDebt, b.assetId⟩,
    ⟨b.individualSettlementFund, b.shortBackingAsset⟩)

end BitassetData

def Env.payFromFund (env : Env) (a : AssetId) (account : AccountId) (pays settled : Asset) :
    MarketM (Asset × List Asset) :=
  if 0 < settled.amount then do
    modifyBitasset a fun b => b.takeFromFund settled.amount
    env.payOut a account pays settled
  else return (settled, [⟨0, settled.assetId⟩])

def Env.paySettleFromGsFund (env : Env) (op : AssetSettle) : MarketM SettleResult := do
  let b ← bitassetData op.amount.assetId
  let supply ← observe fun s => s.currentSupply.get op.amount.assetId
  let settled ← calculate (b.settledAmount supply op.amount)
  require (op.amount.amount = supply ∨ settled.amount ≤ b.settlementFund) .fundInsufficient
  require (settled.amount ≠ 0 ∨ b.isPredictionMarket = true) .settlementRefused
  let pays ← calculate (b.paysForSettled supply op.amount settled)
  adjustBalance op.account pays.neg
  let (received, fees) ← env.payFromFund op.amount.assetId op.account pays settled
  changeSupply op.amount.assetId (-pays.amount)
  return ⟨pays, received, fees⟩

/-- `pay_settle_from_individual_pool` up to its end, where the call orders are checked if the pool is
empty and the feed has changed. -/
def Env.payIntoPool (env : Env) (op : AssetSettle) : MarketM (SettleResult × Bool) := do
  let b ← bitassetData op.amount.assetId
  let (pays, settled) ← calculate (b.individualAmounts op.amount)
  require (b.individualSettlementDebt ≤ op.amount.amount ∨ 0 < settled.amount) .settlementRefused
  adjustBalance op.account pays.neg
  modifyBitasset op.amount.assetId fun b => b.payBack pays.amount settled.amount
  changeSupply op.amount.assetId (-pays.amount)
  let (received, fees) ← env.payOut op.amount.assetId op.account pays settled
  updateBitassetCurrentFeed op.amount.assetId none
  let now ← bitassetData op.amount.assetId
  return (⟨pays, received, fees⟩, now.individualSettlementDebt = 0 ∧
    ¬ b.currentFeed.settlementPrice.Same now.currentFeed.settlementPrice)

namespace Context

variable (cx : Context)

def paySettleFromIndividualPool (op : AssetSettle) : MarketM SettleResult := do
  let (result, isEmpty) ← cx.env.payIntoPool op
  whenever isEmpty (do
    let _ ← cx.checkCallOrders op.amount.assetId true false)
  return result

/-- The rest of an amount becomes a force settlement; the result is its id, if there is one. -/
def forceSettle (account : AccountId) (asset : AssetObject) (toSettle : Asset) :
    MarketM (Option Nat) := do
  let b ← bitassetData toSettle.assetId
  if toSettle.amount = 0 ∨ b.currentFeed.settlementPrice.IsNull then return none
  else do
    adjustBalance account toSettle.neg
    let settle ← settlementTable.create fun id =>
      ⟨id, account, toSettle, cx.env.headBlockTime + asset.forceSettlementDelaySec⟩
    cx.applyForceSettlement settle.id toSettle.assetId
    return some settle.id

def settleWithPool (op : AssetSettle) (asset : AssetObject) :
    MarketM (Option SettleResult × Option Nat) := do
  let result ← cx.paySettleFromIndividualPool op
  let b ← bitassetData op.amount.assetId
  if b.IsIndividuallySettledToFund ∨ asset.canForceSettle = false then return (some result, none)
  else do
    let settle ← cx.forceSettle op.account asset
      ⟨op.amount.amount - result.paid.amount, op.amount.assetId⟩
    return (some result, settle)

def applySettle (op : AssetSettle) : MarketM (Option SettleResult × Option Nat) := do
  let asset ← cx.env.getAsset op.amount.assetId
  let b ← bitassetData op.amount.assetId
  if b.IsGloballySettled then do
    let result ← cx.env.paySettleFromGsFund op
    return (some result, none)
  else if b.IsIndividuallySettledToFund then cx.settleWithPool op asset
  else do
    let settle ← cx.forceSettle op.account asset op.amount
    return (none, settle)

def assetSettle (op : AssetSettle) : MarketM (Option SettleResult × Option Nat) := do
  let coreFeePaid ← cx.env.prepareFee op.account op.fee cx.env.fees.assetSettle
  cx.env.checkSettle op
  cx.env.convertAndPayFee op.account op.fee coreFeePaid
  let result ← cx.applySettle op
  adjustBalance op.account op.fee.neg
  return result

end Context

structure AssetReserve where
  fee : Asset
  payer : AccountId
  amountToReserve : Asset

def Env.checkReserve (env : Env) (op : AssetReserve) : MarketM Unit := do
  require (0 < op.amountToReserve.amount ∧ op.amountToReserve.amount ≤ grapheneMaxShareSupply)
    .invalidOperation
  let asset ← env.getAsset op.amountToReserve.assetId
  let isMarketIssued ← observe fun s => (s.bitassets.find op.amountToReserve.assetId).isSome
  require (!isMarketIssued) .settlementRefused
  require (env.isAuthorizedAsset op.payer op.amountToReserve.assetId) .unauthorizedAsset
  let supply ← observe fun s => s.currentSupply.get op.amountToReserve.assetId
  require (if asset.isLiquidityPoolShareAsset then op.amountToReserve.amount < supply
    else op.amountToReserve.amount ≤ supply) .settlementRefused

def applyReserve (op : AssetReserve) : MarketM Unit := do
  adjustBalance op.payer op.amountToReserve.neg
  changeSupply op.amountToReserve.assetId (-op.amountToReserve.amount)

def Env.assetReserve (env : Env) (op : AssetReserve) : MarketM Unit :=
  env.withFee op.payer op.fee env.fees.assetReserve (env.checkReserve op) (applyReserve op)

end Graphene.Market
