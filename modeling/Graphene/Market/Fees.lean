import Graphene.Market.State

/-!
# Fees

The fees of the market: what a fill pays to the issuer of the received asset and who shares it,
the deferred fees of limit orders, and the fees of operations.

An operation runs in an environment, `Env`: the options of assets, the accounts, the parameters
of the chain and the time of the head block.  Operations of this development do not change it.
-/

namespace Graphene.Market

open Protocol Lib

/-- The members of `asset_object` and of its options that the market functions read. -/
structure AssetObject where
  issuer : AccountId
  chargesMarketFees : Bool
  marketFeePercent : Nat
  takerFeePercent : Option Nat
  maxMarketFee : Nat
  rewardPercent : Option Nat
  whitelistMarketFeeSharing : List AccountId
  coreExchangeRate : Price
  whitelistMarkets : List AssetId
  blacklistMarkets : List AssetId
  canForceSettle : Bool
  forceSettleFeePercent : Option Nat
  forceSettlementOffsetPercent : Nat
  forceSettlementDelaySec : Nat
  isLiquidityPoolShareAsset : Bool
  canCreateNewSupply : Bool
  maxSupply : Nat

structure AccountObject where
  registrar : AccountId
  referrer : AccountId
  referrerRewardsPercentage : Nat

structure ChainParameters where
  makerFeeDiscountPercent : Nat
  marketFeeNetworkPercent : Nat
  cashbackVestingThreshold : Int

structure FeeSchedule where
  limitOrderCreate : Nat
  limitOrderUpdate : Nat
  limitOrderCancel : Nat
  assetSettle : Nat
  assetReserve : Nat

structure Env where
  asset : AssetId → Option AssetObject
  account : AccountId → Option AccountObject
  isAuthorizedAsset : AccountId → AssetId → Bool
  parameters : ChainParameters
  fees : FeeSchedule
  headBlockTime : Nat
  /-- `call_order_object::get_max_debt_to_cover` -/
  getMaxDebtToCover : CallOrder → Price → Price → Nat → Price → Int
  /-- `current_feed.initial_collateral_ratio` -/
  initialCollateralRatio : AssetId → Nat
  fuel : Nat

def AssetObject.plain : AssetObject where
  issuer := 0
  chargesMarketFees := false
  marketFeePercent := 0
  takerFeePercent := none
  maxMarketFee := 0
  rewardPercent := none
  whitelistMarketFeeSharing := []
  coreExchangeRate := ⟨⟨1, 1⟩, ⟨1, 0⟩⟩
  whitelistMarkets := []
  blacklistMarkets := []
  canForceSettle := true
  forceSettleFeePercent := none
  forceSettlementOffsetPercent := 0
  forceSettlementDelaySec := 0
  isLiquidityPoolShareAsset := false
  canCreateNewSupply := true
  maxSupply := 1000000000000000

def Env.plain : Env where
  asset := fun _ => some AssetObject.plain
  account := fun _ => some ⟨0, 0, 0⟩
  isAuthorizedAsset := fun _ _ => true
  parameters := ⟨0, 0, 0⟩
  fees := ⟨0, 0, 0, 0, 0⟩
  headBlockTime := 0
  getMaxDebtToCover := fun call _ _ _ _ => call.debt
  initialCollateralRatio := fun _ => 1750
  fuel := 20

variable (env : Env)

def Env.getAsset (a : AssetId) : MarketM AssetObject :=
  orThrow .unknownAsset (env.asset a)

def Env.getAccount (a : AccountId) : MarketM AccountObject :=
  orThrow .unknownAccount (env.account a)

/-! ## Market fees -/

def calculatePercent (value : Int) (percent : Nat) : MarketM Int := do
  require (0 ≤ value ∧ value * percent / graphene100Percent ≤ grapheneMaxShareSupply)
    .percentOverflow
  return value * percent / graphene100Percent

variable (account : AccountId)

def depositMarketFeeVestingBalance (delta : Asset) : MarketM Unit := do
  require (0 ≤ delta.amount) .internal
  deposit (.vesting account delta.assetId) delta.amount

def AssetObject.feePercent (asset : AssetObject) (isMaker : Bool) : Nat :=
  if isMaker then asset.marketFeePercent else asset.takerFeePercent.getD asset.marketFeePercent

def AssetObject.calculateMarketFee (asset : AssetObject) (tradeAmount : Int) (isMaker : Bool) :
    MarketM Int :=
  if asset.chargesMarketFees = false ∨ asset.feePercent isMaker = 0 then return 0
  else do
    let value ← calculatePercent tradeAmount (asset.feePercent isMaker)
    return min value asset.maxMarketFee

def Env.payNetworkFee (assetId : AssetId) (fees : Int) : MarketM Int :=
  if 0 < fees ∧ 0 < env.parameters.marketFeeNetworkPercent then do
    let networkFees ← calculatePercent fees env.parameters.marketFeeNetworkPercent
    require (networkFees ≤ fees) .feeTooLarge
    depositMarketFeeVestingBalance grapheneCommitteeAccount ⟨networkFees, assetId⟩
    return networkFees
  else return 0

def redirected : AccountId :=
  if account = grapheneTempAccount then grapheneCommitteeAccount else account

def Env.payReferrer (seller : AccountObject) (assetId : AssetId) (reward : Int) :
    MarketM Int :=
  if redirected seller.referrer ≠ redirected seller.registrar then do
    let value ← calculatePercent reward seller.referrerRewardsPercentage
    if 0 < value ∧ env.isAuthorizedAsset (redirected seller.referrer) assetId then do
      require (value ≤ reward) .feeTooLarge
      depositMarketFeeVestingBalance (redirected seller.referrer) ⟨value, assetId⟩
      return value
    else return 0
  else return 0

def Env.shareReward (seller : AccountObject) (assetId : AssetId) (reward : Int) :
    MarketM Unit := do
  let referrerReward ← env.payReferrer seller assetId reward
  whenever (0 < reward - referrerReward)
    (depositMarketFeeVestingBalance (redirected seller.registrar) ⟨reward - referrerReward, assetId⟩)

/-- Whether fees of the asset are shared with the registrar of the seller, and how much. -/
def AssetObject.rewardPercentFor (asset : AssetObject) (seller : AccountObject) : Nat :=
  if asset.whitelistMarketFeeSharing = [] ∨ seller.registrar ∈ asset.whitelistMarketFeeSharing
  then asset.rewardPercent.getD 0 else 0

def Env.payReward (seller : AccountObject) (assetId : AssetId) (asset : AssetObject)
    (issuerFees : Int) : MarketM Int :=
  if 0 < issuerFees ∧ 0 < asset.rewardPercentFor seller then do
    let reward ← calculatePercent issuerFees (asset.rewardPercentFor seller)
    if 0 < reward ∧ env.isAuthorizedAsset seller.registrar assetId then do
      require (reward ≤ issuerFees) .feeTooLarge
      env.shareReward seller assetId reward
      return reward
    else return 0
  else return 0

def AssetObject.marketFees (asset : AssetObject) (amount : Int) (isMaker : Bool) :
    Option Int → MarketM Int
  | some fees => pure fees
  | none => asset.calculateMarketFee amount isMaker

def Env.paySellerReward (seller : Option AccountObject) (assetId : AssetId)
    (asset : AssetObject) (issuerFees : Int) : MarketM Int :=
  match seller with
  | some account => env.payReward account assetId asset issuerFees
  | none => pure 0

/-- `pay_market_fees`; there may be no seller. -/
def Env.distributeMarketFees (seller : Option AccountObject) (asset : AssetObject)
    (receives : Asset) (isMaker : Bool) (calculated : Option Int) : MarketM Asset := do
  let marketFees ← asset.marketFees receives.amount isMaker calculated
  require (marketFees ≤ receives.amount) .feeTooLarge
  let networkFees ← env.payNetworkFee receives.assetId marketFees
  let reward ← env.paySellerReward seller receives.assetId asset (marketFees - networkFees)
  whenever (reward < marketFees - networkFees)
    (deposit (.accumulatedFees receives.assetId) (marketFees - networkFees - reward))
  return ⟨marketFees, receives.assetId⟩

/-- `pay_market_fees`, for fees that are not calculated yet; the result is what the seller pays. -/
def Env.payMarketFees (seller : AccountId) (receives : Asset) (isMaker : Bool) : MarketM Asset := do
  let sellerObject ← env.getAccount seller
  let asset ← env.getAsset receives.assetId
  env.distributeMarketFees (some sellerObject) asset receives isMaker none

def accumulateFee (mia : AssetId) (fee : Asset) : MarketM Unit :=
  if fee.amount = 0 then return
  else do
    require (0 ≤ fee.amount) .feeNotAccepted
    if fee.assetId = mia then deposit (.accumulatedFees mia) fee.amount
    else do
      let bitasset ← bitassetData mia
      require (fee.assetId = bitasset.shortBackingAsset) .feeNotAccepted
      deposit (.collateralFees mia fee.assetId) fee.amount

/-! ## Deferred fees -/

def Env.payFee (coreFee : Int) : MarketM Unit :=
  if env.parameters.cashbackVestingThreshold < coreFee
  then deposit (.pendingFees account) coreFee
  else deposit (.pendingVestedFees account) coreFee

variable (o : LimitOrder)

/-- Deduct a fee for the cancellation of an order from its deferred fees; what is left of them. -/
def Env.deductCancelFee (coreCancelFee : Int) (fromPaid : Bool) :
    MarketM DeferredFees :=
  if 0 < coreCancelFee then do
    env.payFee o.seller coreCancelFee
    if fromPaid then do
      -- round up( paid fee * cancel fee / deferred fee )
      let cancelFeeAmount :=
        (o.deferredPaidFee.amount * coreCancelFee + o.deferredFee - 1) / o.deferredFee
      deposit (.accumulatedFees o.deferredPaidFee.assetId) cancelFeeAmount
      return ⟨o.deferredFee - coreCancelFee,
        ⟨o.deferredPaidFee.amount - cancelFeeAmount, o.deferredPaidFee.assetId⟩⟩
    else return ⟨o.deferredFee - coreCancelFee, o.deferredPaidFee⟩
  else return o.deferredFees

def refundFees (left : DeferredFees) : MarketM Unit :=
  if o.deferredPaidFee.amount = 0 then adjustBalance o.seller ⟨left.fee, coreAsset⟩
  else do
    adjustBalance o.seller left.paidFee
    deposit (.feePool left.paidFee.assetId) left.fee

def Env.makerDiscount (fee : Int) (isMaker : Bool) : MarketM Int :=
  if isMaker ∧ 0 < env.parameters.makerFeeDiscountPercent
  then calculatePercent fee env.parameters.makerFeeDiscountPercent
  else return 0

/-- What is left of the deferred fee in core after the fee paid in another asset has been processed:
the maker gets a discount, and the fee pool of the asset gets the corresponding core amount. -/
def Env.settlePaidFee (isMaker : Bool) : MarketM Int := do
  let refund ← env.makerDiscount o.deferredPaidFee.amount isMaker
  if 0 < refund then do
    require (refund ≤ o.deferredPaidFee.amount) .internal
    adjustBalance o.seller ⟨refund, o.deferredPaidFee.assetId⟩
    require (0 < o.deferredFee) .internal
    let feePoolRefund ← calculatePercent o.deferredFee env.parameters.makerFeeDiscountPercent
    require (feePoolRefund ≤ o.deferredFee) .internal
    deposit (.accumulatedFees o.deferredPaidFee.assetId) (o.deferredPaidFee.amount - refund)
    deposit (.feePool o.deferredPaidFee.assetId) feePoolRefund
    return o.deferredFee - feePoolRefund
  else do
    deposit (.accumulatedFees o.deferredPaidFee.assetId) o.deferredPaidFee.amount
    return o.deferredFee

/-- What is left of a deferred fee that was paid in core, after the discount of a maker. -/
def Env.refundMaker (isMaker : Bool) : MarketM Int := do
  let refund ← env.makerDiscount o.deferredFee isMaker
  if 0 < refund then do
    require (refund ≤ o.deferredFee) .internal
    adjustBalance o.seller ⟨refund, coreAsset⟩
    return o.deferredFee - refund
  else return o.deferredFee

/-- What is left of the deferred fee in core for the network. -/
def Env.discountedFee (isMaker : Bool) : MarketM Int :=
  if 0 < o.deferredPaidFee.amount then env.settlePaidFee o isMaker
  else if 0 < o.deferredFee then env.refundMaker o isMaker
  else return o.deferredFee

/-- The deferred fees of an order, when it is filled for the first time. -/
def Env.settleDeferredFees (isMaker : Bool) : MarketM Unit := do
  let deferredFee ← env.discountedFee o isMaker
  whenever (0 < o.deferredFee ∧ 0 < deferredFee) (env.payFee o.seller deferredFee)

/-- The value of a fee in core, for which the fee pool of the asset must suffice. -/
def AssetObject.coreFeePaid (feeAsset : AssetObject) (fee : Asset) : MarketM Int :=
  if fee.assetId = coreAsset then return fee.amount
  else do
    let feeFromPool ← liftAs .fee (fee.mul feeAsset.coreExchangeRate)
    require (feeFromPool.assetId = coreAsset) .invalidFee
    let feePool ← observe fun s => s.pockets.get (.feePool fee.assetId)
    require (feeFromPool.amount ≤ feePool) .invalidFee
    return feeFromPool.amount

/-- `prepare_fee` and the check of the fee; the result is `core_fee_paid`. -/
def Env.prepareFee (fee : Asset) (requiredFee : Nat) :
    MarketM Int := do
  require (0 ≤ fee.amount) .invalidFee
  let _ ← env.getAccount account
  let feeAsset ← env.getAsset fee.assetId
  require (env.isAuthorizedAsset account fee.assetId) .unauthorizedAsset
  let coreFeePaid ← feeAsset.coreFeePaid fee
  require (requiredFee ≤ coreFeePaid) .insufficientFee
  return coreFeePaid

/-- `convert_fee` and `pay_fee` of the evaluators that defer the fee. -/
def deferFee (fee : Asset) (coreFeePaid : Int) : MarketM DeferredFees :=
  if fee.assetId = coreAsset then return ⟨coreFeePaid, ⟨0, coreAsset⟩⟩
  else do
    deposit (.feePool fee.assetId) (-coreFeePaid)
    return ⟨coreFeePaid, fee⟩

/-- `convert_fee` and `pay_fee` of the other evaluators. -/
def Env.convertAndPayFee (fee : Asset) (coreFeePaid : Int) :
    MarketM Unit := do
  whenever (fee.assetId ≠ coreAsset) (do
    deposit (.accumulatedFees fee.assetId) fee.amount
    deposit (.feePool fee.assetId) (-coreFeePaid))
  env.payFee account coreFeePaid

/-- The fee of an operation that does not defer it, around its `do_evaluate` and `do_apply`. -/
def Env.withFee (payer : AccountId) (fee : Asset) (requiredFee : Nat)
    (evaluate apply : MarketM Unit) : MarketM Unit := do
  let coreFeePaid ← env.prepareFee payer fee requiredFee
  evaluate
  env.convertAndPayFee payer fee coreFeePaid
  apply
  adjustBalance payer fee.neg

end Graphene.Market
