import Graphene.Market.CallOrders

/-!
# Matching two orders

The functions that match two orders: two limit orders, a limit order and the settled debt, a limit
order and a call order, a force settlement and a call order.  The amounts are calculated first;
each side is rounded in favour of the bigger order, and the other side is stabilized.
-/

namespace Graphene.Market

open Protocol Lib

inductive MatchResult where
  | noneFilled
  | onlyTakerFilled
  | onlyMakerFilled
  | bothFilled
deriving DecidableEq

def getMatchResult : Bool → Bool → MatchResult
  | false, false => .noneFilled
  | true, false => .onlyTakerFilled
  | false, true => .onlyMakerFilled
  | true, true => .bothFilled

structure LimitMatch where
  takerReceives : Asset
  makerReceives : Asset
  cullTaker : Bool

/-- The amounts of `match_limit_normal_limit`; nothing when the taker would pay something for
nothing. -/
def limitMatch (takerForSale makerForSale : Asset) (matchPrice : Price) :
    Except AssetError (Option LimitMatch) := do
  let makerValue ← makerForSale.mul matchPrice
  let takerIsBigger ← makerValue.less takerForSale
  if takerIsBigger then do
    let makerReceives ← makerForSale.mul matchPrice
    let takerReceives ← makerReceives.multiplyAndRoundUp matchPrice
    return some ⟨takerReceives, makerReceives, false⟩
  else do
    let takerReceives ← takerForSale.mul matchPrice
    if takerReceives.amount = 0 then return none
    else do
      let makerReceives ← takerReceives.multiplyAndRoundUp matchPrice
      return some ⟨takerReceives, makerReceives, true⟩

variable (cx : Context)

def Context.matchLimitNormalLimit (taker maker : LimitOrder) (matchPrice : Price) :
    MarketM MatchResult := do
  require (maker.isSettledDebt = false) .internal
  require (taker.isSettledDebt = false) .internal
  let amounts ← calculate (limitMatch taker.amountForSale maker.amountForSale matchPrice)
  match amounts with
  | none => return .onlyTakerFilled
  | some x => do
    let takerFilled ← cx.fillLimitOrder taker.id x.makerReceives x.takerReceives x.cullTaker false
    let makerFilled ← cx.fillLimitOrder maker.id x.takerReceives x.makerReceives true true
    require (getMatchResult takerFilled makerFilled ≠ .noneFilled) .internal
    return getMatchResult takerFilled makerFilled

/-! ## Limit orders and the settled debt -/

structure DebtMatch where
  callReceives : Asset
  orderReceives : Asset
  debtFilled : Bool

def limitSettledDebtMatch (usdForSale usdToBuy makerForSale : Asset) (matchPrice : Price) :
    Except AssetError (Option DebtMatch) := do
  let orderIsSmaller ← usdForSale.less usdToBuy
  if orderIsSmaller then do
    let orderReceives ← usdForSale.mul matchPrice
    if orderReceives.amount = 0 then return none
    else do
      let callReceives ← orderReceives.multiplyAndRoundUp matchPrice
      return some ⟨callReceives, orderReceives, false⟩
  else return some ⟨usdToBuy, makerForSale, true⟩

def settledDebtLimitMatch (usdForSale usdToBuy : Asset) (matchPrice : Price) :
    Except AssetError DebtMatch := do
  let orderIsSmaller ← usdForSale.less usdToBuy
  if orderIsSmaller then do
    let orderReceives ← usdForSale.mul matchPrice
    let callReceives ← orderReceives.multiplyAndRoundUp matchPrice
    return ⟨callReceives, orderReceives, false⟩
  else do
    let orderReceives ← usdToBuy.multiplyAndRoundUp matchPrice
    return ⟨usdToBuy, orderReceives, true⟩

namespace BitassetData

variable (b : BitassetData)

def fundPays (forSale : Int) (x : DebtMatch) : Except AssetError Asset :=
  if x.debtFilled then .ok ⟨b.individualSettlementFund, x.orderReceives.assetId⟩
  else if forSale ≠ b.individualSettlementFund then do
    let price ← b.getIndividualSettlementPrice
    x.callReceives.mul price
  else .ok x.orderReceives

/-- `call_pays`: what the individual settlement fund pays, not less than what the order receives. -/
def callPays (forSale : Int) (x : DebtMatch) : Except AssetError Asset := do
  let pays ← b.fundPays forSale x
  let tooSmall ← pays.less x.orderReceives
  return if tooSmall then x.orderReceives else pays

def payBack (debt fund : Int) : BitassetData :=
  { b with
    individualSettlementDebt := b.individualSettlementDebt - debt
    individualSettlementFund := b.individualSettlementFund - fund }

def offerLeft (o : LimitOrder) : Except AssetError (Int × Price) := do
  let forSale ← Asset.multiplyAndRoundUp ⟨b.individualSettlementDebt, o.receiveAssetId⟩ o.sellPrice
  if b.individualSettlementFund < forSale.amount then b.sellAll
  else return (forSale.amount, o.sellPrice)

end BitassetData

/-- The settled debt order's side of a match: the supply, the collateral fees, the fund, the order. -/
def fillSettledDebt (mia : AssetId) (id : Nat) (x : DebtMatch) : MarketM Unit := do
  let b ← bitassetData mia
  let o ← limitOrderTable.fetch id
  let pays ← calculate (b.callPays o.forSale x)
  changeSupply mia (-x.callReceives.amount)
  deposit (.collateralFees mia b.shortBackingAsset) (pays.amount - x.orderReceives.amount)
  modifyBitasset mia fun b => b.payBack x.callReceives.amount pays.amount
  if x.debtFilled then do
    let _ ← limitOrderTable.remove id
  else do
    let b ← bitassetData mia
    let offer ← calculate (b.offerLeft o)
    let _ ← setOffer id offer

def Context.matchLimitSettledDebt (taker maker : LimitOrder) (matchPrice : Price) :
    MarketM MatchResult := do
  require (maker.isSettledDebt = true) .internal
  require (taker.isSettledDebt = false) .internal
  let b ← bitassetData maker.receiveAssetId
  let amounts ← calculate (limitSettledDebtMatch taker.amountForSale
    ⟨b.individualSettlementDebt, maker.receiveAssetId⟩ maker.amountForSale matchPrice)
  match amounts with
  | none => return .onlyTakerFilled
  | some x => do
    let takerFilled ←
      cx.fillLimitOrder taker.id x.callReceives x.orderReceives (!x.debtFilled) false
    fillSettledDebt maker.receiveAssetId maker.id x
    return getMatchResult takerFilled x.debtFilled

def Context.matchSettledDebtLimit (taker maker : LimitOrder) (matchPrice : Price) :
    MarketM MatchResult := do
  require (maker.isSettledDebt = false) .internal
  require (taker.isSettledDebt = true) .internal
  let b ← bitassetData taker.receiveAssetId
  let x ← calculate (settledDebtLimitMatch maker.amountForSale
    ⟨b.individualSettlementDebt, taker.receiveAssetId⟩ matchPrice)
  fillSettledDebt taker.receiveAssetId taker.id x
  let makerFilled ← cx.fillLimitOrder maker.id x.callReceives x.orderReceives true true
  return getMatchResult x.debtFilled makerFilled

def Context.matchLimits (takerId makerId : Nat) : MarketM MatchResult := do
  let taker ← limitOrderTable.fetch takerId
  let maker ← limitOrderTable.fetch makerId
  require (taker.receiveAssetId = maker.sellAssetId ∧ taker.sellAssetId = maker.receiveAssetId ∧
    0 < taker.forSale ∧ 0 < maker.forSale) .internal
  if maker.isSettledDebt then cx.matchLimitSettledDebt taker maker maker.sellPrice
  else cx.matchLimitNormalLimit taker maker maker.sellPrice

/-! ## A limit order and a call order -/

structure CallMatch where
  callPays : Asset
  callReceives : Asset
  orderReceives : Asset
  cullTaker : Bool

def limitCallMatch (usdForSale usdToBuy : Asset) (matchPrice callPaysPrice : Price) :
    Except AssetError (Option CallMatch) := do
  let orderIsSmaller ← usdForSale.less usdToBuy
  if orderIsSmaller then do
    let orderReceives ← usdForSale.mul matchPrice
    if orderReceives.amount = 0 then return none
    else do
      let callReceives ← orderReceives.multiplyAndRoundUp matchPrice
      let callPays ← callReceives.mul callPaysPrice
      return some ⟨callPays, callReceives, orderReceives, true⟩
  else do
    let orderReceives ← usdToBuy.multiplyAndRoundUp matchPrice
    let callPays ← usdToBuy.multiplyAndRoundUp callPaysPrice
    return some ⟨callPays, usdToBuy, orderReceives, false⟩

def Env.debtToCover (env : Env) (b : BitassetData) (c : CallOrder) (callPaysPrice : Price) : Asset :=
  ⟨env.getMaxDebtToCover c callPaysPrice b.medianFeed.settlementPrice
    b.currentFeed.maintenanceCollateralRatio b.currentMaintenanceCollateralization, c.debtType⟩

/-- With `no_settlement` the current feed changes when a call order has been filled. -/
def updateFeedAfterFill (a : AssetId) : MarketM Unit := do
  let b ← bitassetData a
  whenever (b.blackSwanResponseMethod = .noSettlement) (updateBitassetCurrentFeed a none)

/-- The margin call fee: what the call order pays more than the other side receives. -/
def marginCallFee (callPays orderReceives : Asset) : MarketM Asset := do
  let tooSmall ← calculate (callPays.less orderReceives)
  require (!tooSmall) .internal
  calculate (callPays.sub orderReceives)

def Context.matchLimitCall (bidId askId : Nat) (a : AssetId)
    (matchPrice callPaysPrice : Price) : MarketM MatchResult := do
  let bid ← limitOrderTable.fetch bidId
  let ask ← callOrderTable.fetch askId
  let b ← bitassetData a
  require (bid.sellAssetId = ask.debtType ∧ bid.receiveAssetId = ask.collateralType ∧
    0 < bid.forSale ∧ 0 < ask.debt ∧ 0 < ask.collateral) .internal
  let amounts ← calculate (limitCallMatch bid.amountForSale (cx.env.debtToCover b ask callPaysPrice)
    matchPrice callPaysPrice)
  match amounts with
  | none => return .onlyTakerFilled
  | some x => do
    let fee ← marginCallFee x.callPays x.orderReceives
    let takerFilled ← cx.fillLimitOrder bidId x.callReceives x.orderReceives x.cullTaker false
    let makerFilled ← fillCallOrder askId x.callPays x.callReceives fee true
    updateFeedAfterFill a
    return getMatchResult takerFilled makerFilled

variable (c : CallOrder)

/-- The amounts when a limit order is the maker; nothing when the call order is undercollateralized. -/
def callLimitMatch (usdForSale usdToBuy : Asset) (matchPrice callPaysPrice : Price) :
    Except AssetError (Option CallMatch) := do
  let orderIsSmaller ← usdForSale.less usdToBuy
  if orderIsSmaller then do
    let orderReceives ← usdForSale.mul matchPrice
    let callReceives ← orderReceives.multiplyAndRoundUp matchPrice
    let callPays ← callReceives.mul callPaysPrice
    if c.collateral ≤ callPays.amount then return none
    else do
      let newCollateral ← c.getCollateral.sub callPays
      let newDebt ← c.getDebt.sub callReceives
      let newCollateralization ← newCollateral.div newDebt
      if newCollateralization.Less c.collateralization then return none
      else return some ⟨callPays, callReceives, orderReceives, true⟩
  else do
    let callPays ← usdToBuy.multiplyAndRoundUp callPaysPrice
    if c.collateral < callPays.amount then return none
    else do
      let atPrice ← usdToBuy.multiplyAndRoundUp matchPrice
      let orderReceives : Asset := ⟨min atPrice.amount c.collateral, atPrice.assetId⟩
      return some ⟨callPays, usdToBuy, orderReceives, true⟩

/-! ## A force settlement and a call order -/

/-- What comes of a match with a force settlement. -/
inductive SettleMatch where
  | cancel
  | skip
  | fill (callPays callReceives settleReceives : Asset) (cullSettleOrder : Bool)

/-- The prices at which a call order with too little collateral is filled. -/
def cappedPrices (paysRatio : ℚ) : Except AssetError (Price × Price) := do
  let matchPrice ← c.getDebt.div c.getCollateral
  let fillPrice ← matchPrice.divRatio paysRatio
  return (matchPrice, fillPrice)

/-- The amounts when a margin call is bigger than the force settlement: `settle_receives`,
`call_receives` and `call_pays`; nothing when nothing would be received. -/
def settleAtFillPrice (settlePays : Asset) (matchPrice fillPrice : Price) :
    Except AssetError (Option (Asset × Asset × Asset)) := do
  let settleReceives ← settlePays.mul fillPrice
  if settleReceives.amount = 0 then return none
  else do
    let callReceives ← settleReceives.multiplyAndRoundUp fillPrice
    let callPays ← callReceives.mul matchPrice
    return some (settleReceives, callReceives, callPays)

def capPrice (callPays callReceives : Asset) : Except AssetError Bool :=
  if c.collateral ≤ callPays.amount then return true
  else do
    let newCollateral ← c.getCollateral.sub callPays
    let newDebt ← c.getDebt.sub callReceives
    let newCollateralization ← newCollateral.div newDebt
    return decide (newCollateralization.Less c.collateralization)

def smallSettleMatch (settlePays : Asset) (matchPrice fillPrice : Price)
    (paysRatio : ℚ) : Except AssetError (Option (Asset × Asset × Asset)) := do
  let amounts ← settleAtFillPrice settlePays matchPrice fillPrice
  match amounts with
  | none => return none
  | some (settleReceives, callReceives, callPays) => do
    let cap ← capPrice c callPays callReceives
    if cap then do
      let (matchPrice, fillPrice) ← cappedPrices c paysRatio
      settleAtFillPrice settlePays matchPrice fillPrice
    else return some (settleReceives, callReceives, callPays)

/-- The call order is completely covered: `call_pays` and `settle_receives`. -/
def wholeCallMatch (matchPrice fillPrice : Price) (paysRatio : ℚ)
    (isMarginCall : Bool) : Except AssetError (Asset × Asset) := do
  let callPays ← c.getDebt.multiplyAndRoundUp matchPrice
  if isMarginCall then do
    if c.collateral < callPays.amount then do
      let (_, fillPrice) ← cappedPrices c paysRatio
      let settleReceives ← c.getDebt.multiplyAndRoundUp fillPrice
      return (⟨c.collateral, callPays.assetId⟩, settleReceives)
    else do
      let settleReceives ← c.getDebt.multiplyAndRoundUp fillPrice
      return (callPays, settleReceives)
  else return (callPays, callPays)

/-- The amounts of `match_impl` when the call order is not completely covered; `settlePays` are the
amounts that both could exchange, `callPays` their value rounded down. -/
def partCallMatch (settlePays callPays maxSettlement : Asset)
    (matchPrice fillPrice : Price) (paysRatio : ℚ) (isMarginCall : Bool) :
    Except AssetError (Option (Asset × Asset × Asset)) :=
  if isMarginCall = false then do
    let callReceives ← callPays.multiplyAndRoundUp matchPrice
    return some (callPays, callReceives, callPays)
  else if settlePays = maxSettlement then do
    let callPays ← settlePays.multiplyAndRoundUp matchPrice
    let settleReceives ← settlePays.multiplyAndRoundUp fillPrice
    return some (settleReceives, settlePays, callPays)
  else smallSettleMatch c settlePays matchPrice fillPrice paysRatio

/-- The amounts of `match_impl`. -/
def settleMatch (settle : ForceSettlement) (c : CallOrder) (matchPrice : Price)
    (maxSettlement : Asset) (fillPrice : Price) (paysRatio : ℚ) (isMarginCall : Bool) :
    Except AssetError SettleMatch := do
  let settleForSale ← settle.balance.least maxSettlement
  let settlePays ← settleForSale.least c.getDebt
  let callPays ← settlePays.mul matchPrice
  if callPays.amount = 0 then
    if settlePays = c.getDebt then
      return .fill ⟨1, callPays.assetId⟩ settlePays ⟨1, callPays.assetId⟩ false
    else if settlePays = settle.balance then return .cancel
    else if isMarginCall = false then return .skip
    else return .fill ⟨1, callPays.assetId⟩ settlePays ⟨1, callPays.assetId⟩ false
  else if settlePays = c.getDebt then do
    let (callPays, settleReceives) ← wholeCallMatch c matchPrice fillPrice paysRatio isMarginCall
    return .fill callPays settlePays settleReceives false
  else do
    let amounts ← partCallMatch c settlePays callPays maxSettlement matchPrice fillPrice paysRatio
      isMarginCall
    match amounts with
    | none => return .cancel
    | some (settleReceives, callReceives, callPays) =>
      return .fill callPays callReceives settleReceives
        (settlePays = settle.balance ∧ callReceives ≠ settle.balance)

/-- `match_impl`; the result is what the call order receives. -/
def Env.matchSettleCall (env : Env) (settleId callId : Nat) (matchPrice : Price) (a : AssetId)
    (maxSettlement : Asset) (fillPrice : Price) (isMarginCall settleIsTaker : Bool) :
    MarketM Int := do
  let settle ← settlementTable.fetch settleId
  let c ← callOrderTable.fetch callId
  let b ← bitassetData a
  require (c.debtType = settle.balance.assetId ∧ 0 < c.debt ∧ 0 < c.collateral ∧
    0 < settle.balance.amount) .internal
  let amounts ← calculate (settleMatch settle c matchPrice maxSettlement fillPrice
    b.getMarginCallPaysRatio isMarginCall)
  match amounts with
  | .cancel => do
    cancelSettleOrder settleId
    return 0
  | .skip => return 0
  | .fill callPays callReceives settleReceives cullSettleOrder => do
    let fee ← calculate (callPays.sub settleReceives)
    let _ ← fillCallOrder callId callPays callReceives fee true
    let _ ← env.fillSettleOrder settleId callReceives settleReceives (!settleIsTaker) (!isMarginCall)
    updateFeedAfterFill a
    whenever cullSettleOrder (cancelSettleOrder settleId)
    return callReceives.amount

end Graphene.Market
