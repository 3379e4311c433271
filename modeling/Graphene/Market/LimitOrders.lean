import Graphene.Market.Fees

/-!
# Limit orders

Cancelling, filling and culling limit orders, with the automatic actions of a filled order.

An `on_fill` action pushes a virtual operation that creates or updates a take profit order.  The
operation is evaluated like any other, so it may match orders in turn, while the order that
triggered it is still as it was before the fill.  What `try_push_virtual_operation` does is a
parameter of the functions here, in `Context`.
-/

namespace Graphene.Market

open Protocol Lib

structure LimitOrderCreate where
  fee : Asset
  seller : AccountId
  amountToSell : Asset
  minToReceive : Asset
  expiration : Nat
  fillOrKill : Bool
  onFill : Option TakeProfitAction
deriving DecidableEq

/-- `limit_order_update_operation`; the inner `none` of `onFill` is an empty list of actions. -/
structure LimitOrderUpdate where
  fee : Asset
  seller : AccountId
  order : Nat
  newPrice : Option Price
  deltaAmountToSell : Option Asset
  newExpiration : Option Nat
  onFill : Option (Option TakeProfitAction)
deriving DecidableEq

structure Context where
  env : Env
  /-- `try_push_virtual_operation`, with a creation -/
  pushCreate : LimitOrderCreate → MarketM Nat
  /-- `try_push_virtual_operation`, with an update -/
  pushUpdate : LimitOrderUpdate → MarketM Unit

def setLink (id : Nat) (link : Option Nat) : MarketM LimitOrder :=
  limitOrderTable.modify id fun o => { o with takeProfitOrderId := link }

def unlink : Option Nat → MarketM Unit
  | none => return
  | some t => do
    let _ ← setLink t none

def cleanupAndRemoveLimitOrder (o : LimitOrder) : MarketM LimitOrder := do
  unlink o.takeProfitOrderId
  limitOrderTable.remove o.id

def Env.cancelFee (env : Env) (o : LimitOrder) (createVirtualOp : Bool) : Int :=
  if createVirtualOp ∧ 0 < o.deferredFee then min env.fees.limitOrderCancel o.deferredFee else 0

def Env.cancelLimitOrder (env : Env) (id : Nat) (createVirtualOp : Bool) : MarketM Unit := do
  let o ← limitOrderTable.fetch id
  let left ← env.deductCancelFee o (env.cancelFee o createVirtualOp) (o.deferredPaidFee.amount ≠ 0)
  addCoreInOrders o.seller o.amountForSale.neg
  adjustBalance o.seller o.amountForSale
  refundFees o left
  let _ ← cleanupAndRemoveLimitOrder o

def Env.maybeCullSmallOrder (env : Env) (id : Nat) : MarketM Bool := do
  let o ← limitOrderTable.fetch id
  let toReceive ← calculate o.amountToReceive
  if toReceive.amount = 0 then do
    env.cancelLimitOrder id true
    return true
  else return false

/-! ## Automatic actions -/

namespace TakeProfitAction

variable (action : TakeProfitAction)

/-- The amount to sell in the take profit order: a part of what was received, rounded up. -/
def saleAmount (received : Int) : Int :=
  (received * action.sizePercent + (graphene100Percent - 1)) / graphene100Percent

def expiration (headBlockTime : Nat) : Nat :=
  if headBlockTime < timePointSecMaximum - action.expirationSeconds
  then headBlockTime + action.expirationSeconds else timePointSecMaximum

def minToReceive (o : LimitOrder) (forSale : Asset) :
    Except AssetError Asset := do
  let sellPrice ← o.sellPrice.inv.mulRatio
    (mkRat graphene100Percent (graphene100Percent + action.spreadPercent))
  forSale.multiplyAndRoundUp sellPrice

end TakeProfitAction

def Env.feeIn (env : Env) (assetId : AssetId) (fee : Nat) : MarketM Asset :=
  if assetId = coreAsset then return ⟨fee, coreAsset⟩
  else do
    let feeAsset ← env.getAsset assetId
    liftAs .fee (Asset.multiplyAndRoundUp ⟨fee, coreAsset⟩ feeAsset.coreExchangeRate)

namespace Context

/-- The new price of a take profit order that was generated by this order. -/
def takeProfitPrice (action : TakeProfitAction) (o : LimitOrder) (link : Nat) (forSale : Asset) :
    MarketM (Option Price) :=
  if o.id < link then do
    let takeProfitOrder ← limitOrderTable.fetch link
    let total : Asset := ⟨forSale.amount + takeProfitOrder.forSale, forSale.assetId⟩
    let newMinToReceive ← liftAs .evaluating (action.minToReceive o total)
    let newPrice ← liftAs .evaluating (total.div newMinToReceive)
    return some newPrice
  else return none

variable (cx : Context)

def updateTakeProfit (action : TakeProfitAction) (o : LimitOrder) (link : Nat)
    (forSale : Asset) : MarketM Unit := do
  let fee ← cx.env.feeIn action.feeAssetId cx.env.fees.limitOrderUpdate
  let newPrice ← takeProfitPrice action o link forSale
  require (newPrice.all fun p => o.sellPrice.Less p.inv) .internal
  cx.pushUpdate {
    fee := fee
    seller := o.seller
    order := link
    newPrice := newPrice
    deltaAmountToSell := some forSale
    newExpiration := some (action.expiration cx.env.headBlockTime)
    onFill := none }

def createTakeProfit (action : TakeProfitAction) (o : LimitOrder) (forSale : Asset) :
    MarketM Nat := do
  let fee ← cx.env.feeIn action.feeAssetId cx.env.fees.limitOrderCreate
  let minToReceive ← liftAs .evaluating (action.minToReceive o forSale)
  let price ← liftAs .evaluating (forSale.div minToReceive)
  require (o.sellPrice.Less price.inv) .internal
  cx.pushCreate {
    fee := fee
    seller := o.seller
    amountToSell := forSale
    minToReceive := minToReceive
    expiration := action.expiration cx.env.headBlockTime
    fillOrKill := false
    onFill := if action.repeats then some action else none }

/-- `process_limit_order_on_fill`; the result is the take profit order if a new one was created. -/
def processLimitOrderOnFill (o : LimitOrder) (orderReceives : Asset) :
    MarketM (Option Nat) :=
  match o.onFill with
  | none => return none
  | some action =>
    let forSale : Asset := ⟨action.saleAmount orderReceives.amount, orderReceives.assetId⟩
    if forSale.amount ≤ 0 then return none
    else match o.takeProfitOrderId with
      | some link => do
        let _ ← attempt (cx.updateTakeProfit action o link forSale)
        return none
      | none => attempt (cx.createTakeProfit action o forSale)

def payOrder (receiver : AccountId) (receives pays : Asset) : MarketM Unit := do
  addCoreInOrders receiver pays.neg
  adjustBalance receiver receives

def partlyFilled (pays : Asset) (takeProfit : Option Nat) (o : LimitOrder) : LimitOrder :=
  { o with
    forSale := o.forSale - pays.amount
    deferredFee := 0
    deferredPaidFee := ⟨0, o.deferredPaidFee.assetId⟩
    takeProfitOrderId := takeProfit.or o.takeProfitOrderId }

def linkBack (id : Nat) : Option Nat → MarketM Unit
  | none => return
  | some t => do
    let _ ← setLink t (some id)

/-- The end of `fill_limit_order`: `o` is the order as it was when its deferred fees were paid. -/
def finishFill (o : LimitOrder) (pays : Asset) (takeProfit : Option Nat)
    (cullIfSmall : Bool) : MarketM Bool := do
  let now ← limitOrderTable.fetch o.id
  recordDroppedFees now.deferredFees o.deferredFees
  if pays = now.amountForSale then do
    let _ ← cleanupAndRemoveLimitOrder now
    return true
  else do
    linkBack o.id takeProfit
    let _ ← limitOrderTable.modify o.id (partlyFilled pays takeProfit)
    if cullIfSmall then cx.env.maybeCullSmallOrder o.id else return false

def fillLimitOrder (id : Nat) (pays receives : Asset) (cullIfSmall isMaker : Bool) :
    MarketM Bool := do
  let o ← limitOrderTable.fetch id
  require (o.sellAssetId = pays.assetId ∧ pays.assetId ≠ receives.assetId) .internal
  let issuerFees ← cx.env.payMarketFees o.seller receives isMaker
  let orderReceives : Asset := ⟨receives.amount - issuerFees.amount, receives.assetId⟩
  payOrder o.seller orderReceives pays
  cx.env.settleDeferredFees o isMaker
  let takeProfit ← cx.processLimitOrderOnFill o orderReceives
  cx.finishFill o pays takeProfit cullIfSmall

end Context

end Graphene.Market
