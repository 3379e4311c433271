import Graphene.Market.BlackSwan
import Graphene.Market.LimitOrders

/-!
# Call orders, force settlements and settlements of undercollateralized positions

Filling call orders and force settlements, the current feed with the order of the settled debt
that follows it, and what happens at a black swan: positions are settled individually, or the
asset globally.
-/

namespace Graphene.Market

open Protocol Lib

/-! ## Filling -/

def CallOrder.filled (c : CallOrder) (pays receives : Asset) : CallOrder :=
  { c with
    debt := c.debt - receives.amount
    collateral := if c.debt = receives.amount then 0 else c.collateral - pays.amount }

/-- `collateral_freed`, as an amount: what the borrower gets back when the whole debt is paid. -/
def CallOrder.collateralFreed (c : CallOrder) (pays receives : Asset) : Int :=
  if c.debt = receives.amount then c.collateral - pays.amount else 0

def fillCallOrder (id : Nat) (pays receives marginCallFee : Asset) (reduceCurrentSupply : Bool) :
    MarketM Bool := do
  let c ← callOrderTable.fetch id
  require (c.debtType = receives.assetId ∧ c.collateralType = pays.assetId ∧
    pays.amount ≤ c.collateral) .internal
  let _ ← bitassetData receives.assetId
  let _ ← callOrderTable.modify id fun c => c.filled pays receives
  whenever reduceCurrentSupply (changeSupply receives.assetId (-receives.amount))
  -- if the whole debt is paid, the borrower gets the collateral that is left
  whenever (c.debt = receives.amount)
    (adjustBalance c.borrower ⟨c.collateral - pays.amount, c.collateralType⟩)
  addCoreInOrders c.borrower ⟨-pays.amount - c.collateralFreed pays receives, pays.assetId⟩
  accumulateFee receives.assetId marginCallFee
  if c.debt = receives.amount then do
    let _ ← callOrderTable.remove id
    return true
  else return false

def cancelSettleOrder (id : Nat) : MarketM Unit := do
  let settle ← settlementTable.fetch id
  adjustBalance settle.owner settle.balance
  let _ ← settlementTable.remove id

def Env.payForceSettleFees (env : Env) (mia : AssetId) (collatReceives : Asset) : MarketM Asset := do
  require (mia ≠ collatReceives.assetId) .internal
  let asset ← env.getAsset mia
  let percent := asset.forceSettleFeePercent.getD 0
  if percent = 0 then return ⟨0, collatReceives.assetId⟩
  else do
    let value ← calculatePercent collatReceives.amount percent
    whenever (0 < value) (accumulateFee mia ⟨value, collatReceives.assetId⟩)
    return ⟨value, collatReceives.assetId⟩

def Env.forceSettleFees (env : Env) (mia : AssetId) (collatReceives : Asset) (pay : Bool) :
    MarketM Asset :=
  if pay then env.payForceSettleFees mia collatReceives else return ⟨0, collatReceives.assetId⟩

def Env.fillSettleOrder (env : Env) (id : Nat) (pays receives : Asset)
    (isMaker payForceSettleFee : Bool) : MarketM Bool := do
  let settle ← settlementTable.fetch id
  let marketFees ← env.payMarketFees settle.owner receives isMaker
  let forceSettleFees ← env.forceSettleFees pays.assetId
    ⟨receives.amount - marketFees.amount, receives.assetId⟩ payForceSettleFee
  let isPart ← calculate (pays.less settle.balance)
  adjustBalance settle.owner
    ⟨receives.amount - marketFees.amount - forceSettleFees.amount, receives.assetId⟩
  if isPart then do
    let _ ← settlementTable.modify id fun s =>
      { s with balance := ⟨s.balance.amount - pays.amount, s.balance.assetId⟩ }
    return false
  else do
    let _ ← settlementTable.remove id
    return true

namespace BitassetData

variable (b : BitassetData)

def getMarginCallOrderPrice : Except AssetError Price :=
  b.currentFeed.marginCallOrderPrice b.marginCallFeeRatio

def getMarginCallPaysRatio : ℚ :=
  b.currentFeed.marginCallPaysRatio b.marginCallFeeRatio

def getIndividualSettlementPrice : Except AssetError Price :=
  Asset.div ⟨b.individualSettlementDebt, b.assetId⟩ ⟨b.individualSettlementFund, b.shortBackingAsset⟩

def IsCurrentFeedPriceCapped : Prop :=
  ¬ b.medianFeed.settlementPrice.Same b.currentFeed.settlementPrice

instance (b : BitassetData) : Decidable b.IsCurrentFeedPriceCapped :=
  inferInstanceAs (Decidable (¬ _))

def IsIndividuallySettledToFund : Prop :=
  b.individualSettlementDebt ≠ 0 ∧ b.blackSwanResponseMethod = .individualSettlementToFund

instance (b : BitassetData) : Decidable b.IsIndividuallySettledToFund :=
  inferInstanceAs (Decidable (_ ∧ _))

def sellAll : Except AssetError (Int × Price) := do
  let price ← b.getIndividualSettlementPrice
  return (b.individualSettlementFund, price.inv)

/-- The amount and the price of the settled debt order: enough to buy back the debt at the margin call
order price, or else everything.  An overflow is caught. -/
def settledDebtOffer (sellPrice : Price) (receiveAssetId : AssetId) :
    Except AssetError (Int × Price) :=
  match Asset.multiplyAndRoundUp ⟨b.individualSettlementDebt, receiveAssetId⟩ sellPrice with
  | .ok forSale =>
    if forSale.amount ≤ b.individualSettlementFund then .ok (forSale.amount, sellPrice)
    else b.sellAll
  | .error _ => b.sellAll

end BitassetData

def setOffer (id : Nat) (offer : Int × Price) : MarketM LimitOrder :=
  limitOrderTable.modify id fun o => { o with forSale := offer.1, sellPrice := offer.2 }

variable (a : AssetId)

def updateSettledDebtOrder : MarketM Unit := do
  let b ← bitassetData a
  if b.currentFeed.settlementPrice.IsNull then return
  else do
    let order ← observe fun s => s.findSettledDebtOrder a
    match order with
    | none => return
    | some o => do
      let price ← calculate b.getMarginCallOrderPrice
      let offer ← calculate (b.settledDebtOffer price.inv o.receiveAssetId)
      let _ ← setOffer o.id offer

/-- `update_bitasset_current_feed`; without a new median this is `skip_median_update`. -/
def updateBitassetCurrentFeed (a : AssetId) (median : Option PriceFeed) : MarketM Unit := do
  let b ← bitassetData a
  let calls ← observe MarketState.callsByCollateral
  let updated ← calculate (b.updateBitassetCurrentFeed calls median)
  modifyBitasset a fun _ => updated
  whenever (median.isSome ∧ b.blackSwanResponseMethod = .individualSettlementToOrder)
    (updateSettledDebtOrder a)

/-! ## Global settlement -/

/-- What a call order pays at a global settlement, and what of it goes to the fund. -/
structure Closing where
  pays : Asset
  fundReceives : Asset
  marginCallFee : Asset

def closing (c : CallOrder) (isMarginCall : Bool) (callPaysPrice fundReceivesPrice : Price) :
    Except AssetError Closing := do
  let atPrice ← c.getDebt.multiplyAndRoundUp callPaysPrice
  let pays ← c.getCollateral.least atPrice
  if isMarginCall then do
    let fundAtPrice ← c.getDebt.multiplyAndRoundUp fundReceivesPrice
    let fundReceives ← pays.least fundAtPrice
    let marginCallFee ← pays.sub fundReceives
    return ⟨pays, fundReceives, marginCallFee⟩
  else return ⟨pays, pays, ⟨0, pays.assetId⟩⟩

/-- The loop of `globally_settle_asset_impl` over the call orders; the result is the collateral
gathered. -/
def closeCalls (marginEnd : Option Nat) (fundReceivesPrice : Price) :
    List CallOrder → Bool → Price → Asset → MarketM Asset
  | [], _, _, gathered => return gathered
  | c :: rest, isMarginCall, callPaysPrice, gathered => do
    let atEnd : Bool := isMarginCall ∧ marginEnd = some c.id
    let isMarginCall := isMarginCall && !atEnd
    let callPaysPrice := if atEnd then fundReceivesPrice else callPaysPrice
    let x ← calculate (closing c isMarginCall callPaysPrice fundReceivesPrice)
    let gathered ← calculate (gathered.add x.fundReceives)
    let filled ← fillCallOrder c.id x.pays c.getDebt x.marginCallFee false
    require filled .internal
    closeCalls marginEnd fundReceivesPrice rest isMarginCall callPaysPrice gathered

/-- The call orders between `lower_bound( price::min )` and `upper_bound( price::max )`. -/
def MarketState.callRange (s : MarketState) (collateral debt : AssetId) : List CallOrder :=
  (s.callsByCollateral.dropWhile fun c =>
    c.collateralization.Less (Price.lowest collateral debt)).takeWhile fun c =>
      ¬ (Price.highest collateral debt).Less c.collateralization

/-- Where the margin calls end, in the index `by_collateral`. -/
def MarketState.marginEnd (s : MarketState) (b : BitassetData) (checkMarginCalls : Bool) : Option Nat :=
  if checkMarginCalls then s.callUpperBound b.currentMaintenanceCollateralization
  else s.callUpperBound (Price.highest b.shortBackingAsset b.assetId)

def BitassetData.settledGlobally (b : BitassetData) (settlementPrice : Price) (fund : Int) :
    BitassetData :=
  { b with
    blackSwanResponseMethod := .globalSettlement
    currentFeed := b.medianFeed
    individualSettlementDebt := 0
    individualSettlementFund := 0
    settlementPrice := settlementPrice
    settlementFund := fund }

def removeSettledDebtOrder : MarketM Unit := do
  let order ← observe fun s => s.findSettledDebtOrder a
  match order with
  | none => return
  | some o => do
    let _ ← limitOrderTable.remove o.id

def globallySettleAsset (settlementPrice : Price) (checkMarginCalls : Bool) :
    MarketM Unit := do
  let b ← bitassetData a
  require (¬ b.IsGloballySettled) .internal
  let originalSupply ← observe fun s => s.currentSupply.get a
  let calls ← observe fun s => s.callRange b.shortBackingAsset b.assetId
  let marginEnd ← observe fun s => s.marginEnd b checkMarginCalls
  let fundReceivesPrice ← calculate (if checkMarginCalls then settlementPrice.mulRatio
    (mkRat b.currentFeed.maximumShortSqueezeRatio grapheneCollateralRatioDenom)
    else .ok settlementPrice)
  let isMarginCall : Bool := checkMarginCalls ∧ calls.head?.map CallOrder.id ≠ marginEnd
  let gathered ← closeCalls marginEnd fundReceivesPrice calls isMarginCall settlementPrice
    ⟨0, b.shortBackingAsset⟩
  removeSettledDebtOrder a
  let b ← bitassetData a
  let fund : Asset := ⟨gathered.amount + b.individualSettlementFund, gathered.assetId⟩
  let price ← calculate (Asset.div ⟨originalSupply, a⟩ fund)
  modifyBitasset a fun b => b.settledGlobally price fund.amount

/-! ## Individual settlement -/

def BitassetData.fundReceives (b : BitassetData) (c : CallOrder) : Except AssetError Asset := do
  let price ← c.collateralization.inv.divRatio b.getMarginCallPaysRatio
  let atPrice ← c.getDebt.multiplyAndRoundUp price
  return if c.collateral < atPrice.amount then ⟨c.collateral, atPrice.assetId⟩ else atPrice

def BitassetData.addSettled (b : BitassetData) (debt fund : Int) : BitassetData :=
  { b with
    individualSettlementDebt := b.individualSettlementDebt + debt
    individualSettlementFund := b.individualSettlementFund + fund }

def settledDebtOrder (forSale : Int) (price : Price) (id : Nat) : LimitOrder where
  id := id
  expiration := timePointSecMaximum
  seller := grapheneNullAccount
  forSale := forSale
  sellPrice := price
  deferredFee := 0
  deferredPaidFee := ⟨0, coreAsset⟩
  isSettledDebt := true
  onFill := none
  takeProfitOrderId := none

def settleToOrder (debt fundReceives : Asset) : MarketM Unit := do
  let b ← bitassetData a
  let order ← observe fun s => s.findSettledDebtOrder a
  match order with
  | some o => do
    let price ← calculate b.getMarginCallOrderPrice
    let offer ← calculate (b.settledDebtOffer price.inv price.base.assetId)
    let _ ← setOffer o.id offer
  | none => do
    let price ← calculate (fundReceives.div debt)
    let _ ← limitOrderTable.create (settledDebtOrder fundReceives.amount price)

def individuallySettle (c : CallOrder) : MarketM Unit := do
  let b ← bitassetData a
  require (a = c.debtType) .internal
  require (b.blackSwanResponseMethod = .individualSettlementToFund ∨
    b.blackSwanResponseMethod = .individualSettlementToOrder) .internal
  let fundReceives ← calculate (b.fundReceives c)
  let marginCallFee ← calculate (c.getCollateral.sub fundReceives)
  modifyBitasset a fun b => b.addSettled c.debt fundReceives.amount
  whenever (b.blackSwanResponseMethod = .individualSettlementToOrder)
    (settleToOrder a c.getDebt fundReceives)
  let filled ← fillCallOrder c.id c.getCollateral c.getDebt marginCallFee false
  require filled .internal
  whenever (b.blackSwanResponseMethod = .individualSettlementToFund)
    (updateBitassetCurrentFeed a none)

/-- The loop of `check_for_blackswan`, which goes on as long as positions are settled individually. -/
def blackswanLoop (a : AssetId) (limit : Option LimitOrder) (enableBlackSwan : Bool) :
    Nat → CallOrder → Bool → MarketM Bool
  | 0, _, _ => throw .outOfFuel
  | fuel + 1, c, settledSome => do
    let b ← bitassetData a
    let highest ← calculate (b.highestPrice limit)
    if highest.Less c.collateralization.inv then do
      require enableBlackSwan .blackSwan
      if b.blackSwanResponseMethod = .individualSettlementToFund ∨
          b.blackSwanResponseMethod = .individualSettlementToOrder then do
        individuallySettle a c
        let b ← bitassetData a
        let next ← observe fun s => b.findLeastCollateralizedShort s.callsByCollateral
        match next with
        | none => return true
        | some c => blackswanLoop a limit enableBlackSwan fuel c true
      else do
        globallySettleAsset a c.collateralization.inv true
        return true
    else return settledSome

def Env.checkForBlackswan (env : Env) (a : AssetId) (enableBlackSwan : Bool) : MarketM Bool := do
  let bitasset ← observe fun s => s.bitassets.find a
  match bitasset with
  | none => return false
  | some b =>
    if b.IsGloballySettled then return true
    else do
      let hasSettlement ← observe fun s => (s.firstSettlement a).isSome
      let least ← observe fun s => b.findLeastCollateralizedShort s.callsByCollateral
      let limit ← observe fun s => b.firstLimitOrder s.limitsByPrice
      match least with
      | none => return false
      | some c =>
        if b.currentFeed.settlementPrice.IsNull ∨ hasSettlement then return false
        else blackswanLoop a limit enableBlackSwan env.fuel c false

end Graphene.Market
