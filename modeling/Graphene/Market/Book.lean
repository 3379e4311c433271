import Graphene.Market.Matching

/-!
# Walking the order book

`apply_order`, `check_call_orders`, `apply_force_settlement` and the loops below them: which orders
are matched, and in which order.  Each loop is given a number of rounds in which it has to end.
-/

namespace Graphene.Market

open Protocol Lib Price

def Env.matchForceSettlementsLoop (env : Env) (a : AssetId) (callMin : Price) (callEnd : Option Nat)
    (callMatchPrice callPaysPrice : Price) : Nat → MarketM Bool
  | 0 => throw .outOfFuel
  | fuel + 1 => do
    let settle ← observe fun s => s.firstSettlement a
    let call ← observe fun s => s.callLowerBound callMin
    match settle, call with
    | some settle, some call =>
      if some call = callEnd then return false
      else do
        let b ← bitassetData a
        let c ← callOrderTable.fetch call
        if b.currentMaintenanceCollateralization.Less c.collateralization then return false
        else do
          let covered ← env.matchSettleCall settle.id call callPaysPrice a
            (env.debtToCover b c callPaysPrice) callMatchPrice true false
          if 0 < covered then return true
          else env.matchForceSettlementsLoop a callMin callEnd callMatchPrice callPaysPrice fuel
    | _, _ => return false

def Env.matchForceSettlements (env : Env) (a : AssetId) : MarketM Bool := do
  let b ← bitassetData a
  require (b.isPredictionMarket = false ∧ ¬ b.IsGloballySettled ∧
    ¬ b.currentFeed.settlementPrice.IsNull) .internal
  let callEnd ← observe fun s => s.callUpperBound (highest b.shortBackingAsset a)
  let callMatchPrice ← calculate b.getMarginCallOrderPrice
  let callPaysPrice ← calculate b.currentFeed.maxShortSqueezePrice
  env.matchForceSettlementsLoop a (lowest b.shortBackingAsset a) callEnd callMatchPrice
    callPaysPrice env.fuel

namespace Context

variable (cx : Context)

def settledDebtLoop (debtId : Nat) : Nat → Option Nat → Option Nat → MarketM Unit
  | 0, _, _ => throw .outOfFuel
  | fuel + 1, limitItr, limitEnd =>
    if limitItr = limitEnd then return
    else do
      let i ← orThrow .unknownLimitOrder limitItr
      let maker ← limitOrderTable.fetch i
      let next ← observe fun s => s.limitNext i
      let taker ← limitOrderTable.fetch debtId
      let result ← cx.matchSettledDebtLimit taker maker maker.sellPrice
      if result = .onlyMakerFilled then do
        let now ← limitOrderTable.fetch debtId
        let limitEnd ← observe fun s =>
          if taker.sellPrice.Same now.sellPrice then limitEnd
          else s.limitUpperBound now.sellPrice.inv
        settledDebtLoop debtId fuel next limitEnd
      else return

variable (a : AssetId)

def checkSettledDebtOrder : MarketM Unit := do
  let b ← bitassetData a
  let order ← observe fun s => s.findSettledDebtOrder a
  match order with
  | none => return
  | some o =>
    if b.blackSwanResponseMethod ≠ .individualSettlementToOrder then return
    else do
      let limitItr ← observe fun s => s.limitLowerBound (highest a b.shortBackingAsset)
      let limitEnd ← observe fun s => s.limitUpperBound o.sellPrice.inv
      cx.settledDebtLoop o.id cx.env.fuel limitItr limitEnd

/-! ## `check_call_orders` -/

structure CallLoop where
  callItr : Option Nat
  limitItr : Option Nat
  limitEnd : Option Nat
  marginCalled : Bool
  updateCurrentFeed : Bool

def marginCallLimitEnd : MarketM (Option Nat) := do
  let b ← bitassetData a
  let minPrice ← calculate b.getMarginCallOrderPrice
  observe fun s => s.limitUpperBound minPrice

/-- `update_current_feed` after a call order was filled, with the new end of the limit orders. -/
def refreshed (v : CallLoop) : MarketM CallLoop :=
  if v.updateCurrentFeed then do
    let limitEnd ← marginCallLimitEnd a
    let b ← bitassetData a
    return { v with limitEnd := limitEnd, updateCurrentFeed := b.IsCurrentFeedPriceCapped }
  else return v

def fillMarginCall (callMin : Price) (c : CallOrder) (o : LimitOrder) (x : CallMatch)
    (v : CallLoop) : MarketM CallLoop := do
  let fee ← marginCallFee x.callPays x.orderReceives
  let _ ← fillCallOrder c.id x.callPays x.callReceives fee true
  whenever v.updateCurrentFeed (updateBitassetCurrentFeed a none)
  let v ← refreshed a v
  let callItr ← observe fun s => s.callLowerBound callMin
  let next ← observe fun s => s.limitNext o.id
  let reallyFilled ← cx.fillLimitOrder o.id x.callReceives x.orderReceives true true
  return { v with callItr := callItr, limitItr := if reallyFilled then next else v.limitItr }

/-- The amounts of a margin call against the limit order at an iterator, if there is one that the
call order can pay. -/
def marginCallAmounts (c : CallOrder) (v : CallLoop) :
    MarketM (Option (LimitOrder × CallMatch)) :=
  if v.limitItr = v.limitEnd then return none
  else do
    let i ← orThrow .unknownLimitOrder v.limitItr
    let o ← limitOrderTable.fetch i
    let b ← bitassetData a
    let callPaysPrice ← calculate (o.sellPrice.mulRatio b.getMarginCallPaysRatio)
    let x ← calculate (callLimitMatch c o.amountForSale (cx.env.debtToCover b c callPaysPrice)
      o.sellPrice callPaysPrice)
    return x.map fun x => (o, x)

/-- What follows the black swan check in one round of the loop: new values of the variables if the
loop goes on, or else the result. -/
def marginCallRound (callMin : Price) (skipMatchingSettleOrders : Bool) (c : CallOrder)
    (v : CallLoop) : MarketM (Bool ⊕ CallLoop) := do
  let marginCalled : Bool := v.marginCalled ∨ v.limitItr ≠ v.limitEnd
  let amounts ← cx.marginCallAmounts a c v
  match amounts with
  | some (o, x) => do
    let v ← cx.fillMarginCall a callMin c o x { v with marginCalled := marginCalled }
    return .inr v
  | none => do
    let settle ← observe fun s => s.firstSettlement a
    if skipMatchingSettleOrders = true ∨ settle = none then return .inl marginCalled
    else do
      let matched ← cx.env.matchForceSettlements a
      if matched then do
        let callItr ← observe fun s => s.callLowerBound callMin
        let v ← refreshed a { v with marginCalled := true, callItr := callItr }
        return .inr v
      else return .inr { v with marginCalled := marginCalled }

def afterSettling (callMin : Price) (callEnd : Option Nat) (settledSome : Bool)
    (v : CallLoop) : MarketM CallLoop := do
  let b ← bitassetData a
  let callItr ← observe fun s => if settledSome then s.callLowerBound callMin else v.callItr
  if settledSome ∧ b.blackSwanResponseMethod = .individualSettlementToFund ∧ callItr ≠ callEnd then do
    let limitEnd ← marginCallLimitEnd a
    return { v with callItr := callItr, limitEnd := limitEnd, marginCalled := true }
  else return { v with callItr := callItr, marginCalled := v.marginCalled || settledSome }

def callOrdersLoop (a : AssetId) (callMin : Price) (callEnd : Option Nat)
    (enableBlackSwan skipMatchingSettleOrders : Bool) : Nat → CallLoop → MarketM Bool
  | 0, _ => throw .outOfFuel
  | fuel + 1, v =>
    if v.callItr = callEnd then do
      cx.checkSettledDebtOrder a
      return v.marginCalled
    else do
      let settledSome ← cx.env.checkForBlackswan a enableBlackSwan
      let b ← bitassetData a
      if b.IsGloballySettled then return v.marginCalled
      else do
        let v ← afterSettling a callMin callEnd settledSome v
        if v.callItr = callEnd then do
          cx.checkSettledDebtOrder a
          return true
        else do
          let i ← orThrow .unknownCallOrder v.callItr
          let c ← callOrderTable.fetch i
          let b ← bitassetData a
          if b.currentMaintenanceCollateralization.Less c.collateralization then do
            cx.checkSettledDebtOrder a
            return v.marginCalled
          else do
            let round ← cx.marginCallRound a callMin skipMatchingSettleOrders c v
            match round with
            | .inl result => return result
            | .inr v =>
              callOrdersLoop a callMin callEnd enableBlackSwan skipMatchingSettleOrders fuel v

/-- The black swan check in front of the loop, for assets that are not settled individually. -/
def swanFirst (b : BitassetData) (enableBlackSwan : Bool) : MarketM Bool :=
  if b.blackSwanResponseMethod = .individualSettlementToFund ∨
    b.blackSwanResponseMethod = .individualSettlementToOrder then return false
  else cx.env.checkForBlackswan b.assetId enableBlackSwan

def checkCallOrders (enableBlackSwan skipMatchingSettleOrders : Bool) : MarketM Bool := do
  let bitasset ← observe fun s => s.bitassets.find a
  match bitasset with
  | none => return false
  | some b =>
    if b.isPredictionMarket then return false
    else do
      let swan ← cx.swanFirst b enableBlackSwan
      if swan = true ∨ b.currentFeed.settlementPrice.IsNull then return false
      else do
        let limitEnd ← marginCallLimitEnd a
        let limitItr ← observe fun s => s.limitLowerBound (highest a b.shortBackingAsset)
        let callItr ← observe fun s => s.callLowerBound (lowest b.shortBackingAsset a)
        let callEnd ← observe fun s => s.callUpperBound (highest b.shortBackingAsset a)
        cx.callOrdersLoop a (lowest b.shortBackingAsset a) callEnd enableBlackSwan
          skipMatchingSettleOrders cx.env.fuel
          { callItr := callItr, limitItr := limitItr, limitEnd := limitEnd, marginCalled := false,
            updateCurrentFeed :=
              b.blackSwanResponseMethod = .noSettlement ∧ b.IsCurrentFeedPriceCapped }

/-! ## `apply_order` -/

/-- The loops of `apply_order` over limit orders: whether the new order is done, and the iterator. -/
def matchWhile (takerId : Nat) (limitEnd : Option Nat) : Nat → Option Nat → MarketM (Bool × Option Nat)
  | 0, _ => throw .outOfFuel
  | fuel + 1, limitItr =>
    if limitItr = limitEnd then return (false, limitItr)
    else do
      let i ← orThrow .unknownLimitOrder limitItr
      let next ← observe fun s => s.limitNext i
      let result ← cx.matchLimits takerId i
      if result = .onlyMakerFilled then matchWhile takerId limitEnd fuel next
      else return (true, next)

/-- The loop of `apply_order` over margin calls: whether the new order is done. -/
def matchCalls (takerId : Nat) (a : AssetId) (callMin : Price) :
    Nat → Price → Price → Bool → MarketM Bool
  | 0, _, _, _ => throw .outOfFuel
  | fuel + 1, callMatchPrice, callPaysPrice, updateCallPrice => do
    let call ← observe fun s => s.callLowerBound callMin
    match call with
    | none => return false
    | some i => do
      let c ← callOrderTable.fetch i
      let b ← bitassetData a
      if c.debtType ≠ a ∨ b.currentMaintenanceCollateralization.Less c.collateralization then
        return false
      else do
        let result ← cx.matchLimitCall takerId i a callMatchPrice callPaysPrice
        if result = .onlyTakerFilled ∨ result = .bothFilled then return true
        else if updateCallPrice then do
          let b ← bitassetData a
          let callMatchPrice ← calculate b.getMarginCallOrderPrice
          let callPaysPrice ← calculate b.currentFeed.maxShortSqueezePrice
          matchCalls takerId a callMin fuel callMatchPrice.inv callPaysPrice.inv
            b.IsCurrentFeedPriceCapped
        else matchCalls takerId a callMin fuel callMatchPrice callPaysPrice updateCallPrice

/-- The asset that the order sells is market-issued, and margin calls of it may match the order. -/
def mayMatchCalls (b : BitassetData) (receiveAssetId : AssetId) : Bool :=
  b.shortBackingAsset = receiveAssetId ∧ b.isPredictionMarket = false ∧ ¬ b.IsGloballySettled ∧
    ¬ b.currentFeed.settlementPrice.IsNull

/-- The part of `apply_order` about margin calls: whether the new order is done, the iterator, and
whether the feed price was updated. -/
def applyToCalls (o : LimitOrder) (b : BitassetData) (limitItr : Option Nat) :
    MarketM (Bool × Option Nat × Bool) := do
  let marginCallOrderPrice ← calculate b.getMarginCallOrderPrice
  let maxShortSqueezePrice ← calculate b.currentFeed.maxShortSqueezePrice
  if marginCallOrderPrice.inv.Less o.sellPrice.inv then return (false, limitItr, false)
  else do
    let afterCall ← observe fun s => s.limitLowerBound marginCallOrderPrice.inv
    let (finished, limitItr) ← cx.matchWhile o.id afterCall cx.env.fuel limitItr
    if finished then return (true, limitItr, false)
    else do
      let b ← bitassetData o.sellAssetId
      let finished ← cx.matchCalls o.id o.sellAssetId (lowest o.receiveAssetId o.sellAssetId)
        cx.env.fuel marginCallOrderPrice.inv maxShortSqueezePrice.inv
        (b.blackSwanResponseMethod = .noSettlement ∧ b.IsCurrentFeedPriceCapped)
      let now ← bitassetData o.sellAssetId
      return (finished, limitItr, b.blackSwanResponseMethod = .noSettlement ∧
        ¬ now.currentFeed.settlementPrice.Same b.currentFeed.settlementPrice)

def applyToCallsOf (o : LimitOrder) (limitItr : Option Nat) : MarketM (Bool × Option Nat × Bool) := do
  let bitasset ← observe fun s => s.bitassets.find o.sellAssetId
  match bitasset with
  | none => return (false, limitItr, false)
  | some b =>
    if mayMatchCalls b o.receiveAssetId then cx.applyToCalls o b limitItr
    else return (false, limitItr, false)

def matchRest (takerId : Nat) (finished : Bool) (limitItr limitEnd : Option Nat) : MarketM Unit :=
  if finished then return
  else do
    let _ ← cx.matchWhile takerId limitEnd cx.env.fuel limitItr

def cullIfLeft (id : Nat) : MarketM Bool := do
  let left ← observe fun s => (s.limitOrders.find id).isSome
  if left then cx.env.maybeCullSmallOrder id else return true

/-- The order before it in the book sells the same asset for the same asset. -/
def isBehind (o : LimitOrder) (s : MarketState) : Bool :=
  (s.limitPrevious o.id).any fun p =>
    p.sellAssetId = o.sellAssetId ∧ p.receiveAssetId = o.receiveAssetId

def applyOrder (id : Nat) : MarketM Bool := do
  let o ← limitOrderTable.fetch id
  let behind ← observe (isBehind o)
  if behind then return false
  else do
    let limitItr ← observe fun s => s.limitLowerBound (highest o.receiveAssetId o.sellAssetId)
    let limitEnd ← observe fun s => s.limitUpperBound o.sellPrice.inv
    let (finished, limitItr, feedPriceUpdated) ← cx.applyToCallsOf o limitItr
    cx.matchRest id finished limitItr limitEnd
    let isGone ← cx.cullIfLeft id
    if isGone = true ∧ feedPriceUpdated = true then do
      let _ ← cx.checkCallOrders o.sellAssetId true false
      return isGone
    else return isGone

def forceSettlementLoop (settleId : Nat) (a : AssetId) (callMin : Price) :
    Nat → Price → Price → Bool → MarketM Unit
  | 0, _, _, _ => throw .outOfFuel
  | fuel + 1, callMatchPrice, callPaysPrice, updateCallPrice => do
    let call ← observe fun s => s.callLowerBound callMin
    match call with
    | none => return
    | some i => do
      let c ← callOrderTable.fetch i
      let b ← bitassetData a
      if c.debtType ≠ a ∨ b.currentMaintenanceCollateralization.Less c.collateralization then
        return
      else do
        let _ ← cx.env.matchSettleCall settleId i callPaysPrice a
          (cx.env.debtToCover b c callPaysPrice) callMatchPrice true true
        let isLeft ← observe fun s => (s.settlements.find settleId).isSome
        whenever updateCallPrice (do
          let _ ← cx.checkCallOrders a true true)
        if isLeft = false then return
        else if updateCallPrice then do
          let b ← bitassetData a
          let callMatchPrice ← calculate b.getMarginCallOrderPrice
          let callPaysPrice ← calculate b.currentFeed.maxShortSqueezePrice
          forceSettlementLoop settleId a callMin fuel callMatchPrice callPaysPrice
            b.IsCurrentFeedPriceCapped
        else
          forceSettlementLoop settleId a callMin fuel callMatchPrice callPaysPrice
            updateCallPrice

def applyForceSettlement (settleId : Nat) (a : AssetId) : MarketM Unit := do
  let b ← bitassetData a
  require (b.isPredictionMarket = false ∧ ¬ b.IsGloballySettled ∧
    ¬ b.currentFeed.settlementPrice.IsNull) .internal
  let callMatchPrice ← calculate b.getMarginCallOrderPrice
  let callPaysPrice ← calculate b.currentFeed.maxShortSqueezePrice
  cx.forceSettlementLoop settleId a (lowest b.shortBackingAsset a) cx.env.fuel callMatchPrice
    callPaysPrice (b.blackSwanResponseMethod = .noSettlement ∧ b.IsCurrentFeedPriceCapped)

end Context

end Graphene.Market
