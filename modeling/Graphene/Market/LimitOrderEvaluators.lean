import Graphene.Market.Book

/-!
# Creating, updating and cancelling limit orders

The evaluators of the three operations on limit orders.  Filled orders push virtual operations,
which are evaluated in an undo session of their own; the number of nested sessions is limited.
-/

namespace Graphene.Market

open Protocol Lib

def TakeProfitAction.isValid (action : TakeProfitAction) : Bool :=
  0 < action.spreadPercent ∧ 0 < action.sizePercent ∧ action.sizePercent ≤ graphene100Percent ∧
    0 < action.expirationSeconds

def LimitOrderCreate.isValid (op : LimitOrderCreate) : Bool :=
  op.amountToSell.assetId ≠ op.minToReceive.assetId ∧ 0 ≤ op.fee.amount ∧
    0 < op.amountToSell.amount ∧ 0 < op.minToReceive.amount ∧
    op.onFill.all TakeProfitAction.isValid

/-- `price::validate`, as a test. -/
def isValidPrice (p : Price) : Bool :=
  0 < p.base.amount ∧ 0 < p.quote.amount ∧ p.base.assetId ≠ p.quote.assetId

def LimitOrderUpdate.isValid (op : LimitOrderUpdate) : Bool :=
  0 ≤ op.fee.amount ∧
    (op.newPrice.isSome ∨ op.deltaAmountToSell.isSome ∨ op.newExpiration.isSome ∨ op.onFill.isSome) ∧
    op.newPrice.all isValidPrice ∧ op.deltaAmountToSell.all (fun delta => delta.amount ≠ 0) ∧
    op.onFill.all fun actions => actions.all TakeProfitAction.isValid

/-! ## Evaluation -/

variable (env : Env)

def Env.checkAction : Option TakeProfitAction → MarketM Unit
  | none => return
  | some action => do
    let _ ← env.getAsset action.feeAssetId

def Env.checkMarket (seller : AccountId) (sellAssetId receiveAssetId : AssetId) :
    MarketM Unit := do
  let sellAsset ← env.getAsset sellAssetId
  let _ ← env.getAsset receiveAssetId
  require (sellAsset.whitelistMarkets = [] ∨ receiveAssetId ∈ sellAsset.whitelistMarkets)
    .marketNotAllowed
  require (receiveAssetId ∉ sellAsset.blacklistMarkets) .marketNotAllowed
  require (env.isAuthorizedAsset seller sellAssetId) .unauthorizedAsset
  require (env.isAuthorizedAsset seller receiveAssetId) .unauthorizedAsset

def Env.evaluateCreate (op : LimitOrderCreate) : MarketM Unit := do
  env.checkAction op.onFill
  require (env.headBlockTime ≤ op.expiration) .expired
  env.checkMarket op.seller op.amountToSell.assetId op.minToReceive.assetId
  let balance ← observe fun s => s.getBalance op.seller op.amountToSell.assetId
  require (op.amountToSell.amount ≤ balance) .insufficientBalance

namespace LimitOrderUpdate

variable (op : LimitOrderUpdate)

def delta : Int :=
  op.deltaAmountToSell.elim 0 Asset.amount

variable (o : LimitOrder)

def priceFits (price : Price) : Bool :=
  price.base.assetId = o.sellAssetId ∧ price.quote.assetId = o.receiveAssetId ∧
    price.base.amount ≤ max o.forSale o.sellPrice.base.amount + op.delta

def deltaFits (delta : Asset) : Bool :=
  delta.assetId = o.sellAssetId ∧ (delta.amount < 0 → -delta.amount < o.forSale)

/-- The order must not become too small; an order whose amount grows at the same price is not
checked. -/
def checkDust : MarketM Unit :=
  if op.newPrice.isSome ∨ op.delta < 0 then do
    let newAmountToReceive ← liftAs .evaluating
      (Asset.mul ⟨o.forSale + op.delta, o.sellAssetId⟩ (op.newPrice.getD o.sellPrice))
    require (0 < newAmountToReceive.amount) .orderTooSmall
  else return

/-- `limit_order_update_evaluator::do_evaluate`; the result is the order. -/
def evaluate (env : Env) : MarketM LimitOrder := do
  env.checkAction (op.onFill.getD none)
  let o ← limitOrderTable.fetch op.order
  require (op.seller = o.seller) .ownerMismatch
  require (op.newPrice.all (op.priceFits o)) .incompatibleUpdate
  require (op.deltaAmountToSell.all (deltaFits o)) .incompatibleUpdate
  op.checkDust o
  require (op.newExpiration.all fun t => env.headBlockTime ≤ t) .expired
  env.checkMarket op.seller o.sellAssetId o.receiveAssetId
  return o

def updateCancelFee : Int :=
  let fee : Int :=
    if 0 < env.fees.limitOrderCreate
    then env.fees.limitOrderCancel * env.fees.limitOrderUpdate / env.fees.limitOrderCreate
    else env.fees.limitOrderCancel
  min fee o.deferredFee

/-- `process_deferred_fee`; the result is what has been paid out of the deferred fees. -/
def processDeferredFee : MarketM DeferredFees :=
  if o.deferredFee ≤ 0 then return .zero
  else do
    let left ← env.deductCancelFee o (updateCancelFee env o) (0 < o.deferredPaidFee.amount)
    refundFees o left
    return o.deferredFees

def isLinkedTpOrderCompatible : Bool :=
  match op.onFill with
  | none => true
  | some none => o.onFill.isNone
  | some (some action) =>
    o.onFill.any fun old => old.spreadPercent = action.spreadPercent ∧ old.repeats = action.repeats

def unlinks (skipPriceCheck : Bool) : Bool :=
  o.takeProfitOrderId.isSome ∧
    (skipPriceCheck = false ∧ op.newPrice.any (fun p => ¬ p.Same o.sellPrice) ∨
      op.isLinkedTpOrderCompatible o = false)

def updated (fees : DeferredFees) (unlinked : Bool) (o : LimitOrder) : LimitOrder :=
  { o with
    sellPrice := op.newPrice.getD o.sellPrice
    forSale := o.forSale + op.delta
    expiration := op.newExpiration.getD o.expiration
    deferredFee := fees.fee
    deferredPaidFee := fees.paidFee
    onFill := op.onFill.getD o.onFill
    takeProfitOrderId := if unlinked then none else o.takeProfitOrderId }

end LimitOrderUpdate

def LimitOrderCreate.newOrder (op : LimitOrderCreate) (price : Price) (fees : DeferredFees)
    (id : Nat) : LimitOrder where
  id := id
  expiration := op.expiration
  seller := op.seller
  forSale := op.amountToSell.amount
  sellPrice := price
  deferredFee := fees.fee
  deferredPaidFee := fees.paidFee
  isSettledDebt := false
  onFill := op.onFill
  takeProfitOrderId := none

def placeNew (mk : Nat → LimitOrder) : MarketM LimitOrder := do
  let o ← limitOrderTable.create mk
  recordPlaced o
  return o

/-- Change an order; the result is the order as it was. -/
def placeAgain (id : Nat) (f : LimitOrder → LimitOrder) : MarketM LimitOrder := do
  let old ← limitOrderTable.modify id f
  recordPlaced (f old)
  return old

namespace Context

variable (cx : Context)

/-! ## Application -/

def applyCreate (op : LimitOrderCreate) (fees : DeferredFees) : MarketM Nat := do
  addCoreInOrders op.seller op.amountToSell
  adjustBalance op.seller op.amountToSell.neg
  let price ← liftAs .evaluating (op.amountToSell.div op.minToReceive)
  let o ← placeNew (op.newOrder price fees)
  let filled ← cx.applyOrder o.id
  require (op.fillOrKill = false ∨ filled = true) .killUnfilled
  return o.id

def limitOrderCreate (op : LimitOrderCreate) : MarketM Nat := do
  require op.isValid .invalidOperation
  let coreFeePaid ← cx.env.prepareFee op.seller op.fee cx.env.fees.limitOrderCreate
  cx.env.evaluateCreate op
  let fees ← deferFee op.fee coreFeePaid
  let id ← cx.applyCreate op fees
  adjustBalance op.seller op.fee.neg
  return id

/-- `limit_order_update_evaluator::do_apply`, with the order found and its new deferred fees. -/
def applyUpdate (op : LimitOrderUpdate) (skipPriceCheck : Bool) (o : LimitOrder)
    (fees : DeferredFees) : MarketM Unit := do
  adjustBalance op.seller ⟨-op.delta, o.sellAssetId⟩
  addCoreInOrders op.seller ⟨op.delta, o.sellAssetId⟩
  let paid ← LimitOrderUpdate.processDeferredFee cx.env o
  whenever (op.unlinks o skipPriceCheck) (unlink o.takeProfitOrderId)
  let old ← placeAgain o.id (op.updated fees (op.unlinks o skipPriceCheck))
  recordDroppedFees old.deferredFees paid
  let _ ← cx.applyOrder o.id

def limitOrderUpdate (op : LimitOrderUpdate) (skipPriceCheck : Bool) : MarketM Unit := do
  require op.isValid .invalidOperation
  let coreFeePaid ← cx.env.prepareFee op.seller op.fee cx.env.fees.limitOrderUpdate
  let o ← op.evaluate cx.env
  let fees ← deferFee op.fee coreFeePaid
  cx.applyUpdate op skipPriceCheck o fees
  adjustBalance op.seller op.fee.neg

end Context

structure LimitOrderCancel where
  fee : Asset
  feePayingAccount : AccountId
  order : Nat
deriving DecidableEq

def LimitOrderCancel.evaluate (op : LimitOrderCancel) : MarketM Unit := do
  let o ← limitOrderTable.fetch op.order
  require (o.seller = op.feePayingAccount) .ownerMismatch

def Env.limitOrderCancel (env : Env) (op : LimitOrderCancel) : MarketM Unit :=
  env.withFee op.feePayingAccount op.fee env.fees.limitOrderCancel op.evaluate
    (env.cancelLimitOrder op.order false)

inductive LimitOperation where
  | create (op : LimitOrderCreate)
  | update (op : LimitOrderUpdate)
  | cancel (op : LimitOrderCancel)

def Env.context (env : Env) : Nat → Context
  | 0 => {
      env := env
      pushCreate := fun _ => throw .nestedTooDeeply
      pushUpdate := fun _ => throw .nestedTooDeeply }
  | depth + 1 => {
      env := env
      pushCreate := fun op => (env.context depth).limitOrderCreate op
      pushUpdate := fun op => (env.context depth).limitOrderUpdate op true }

def LimitOperation.perform (depth : Nat) : LimitOperation → MarketM Unit
  | .create op => do
    let _ ← (env.context depth).limitOrderCreate op
  | .update op => (env.context depth).limitOrderUpdate op false
  | .cancel op => env.limitOrderCancel op

def LimitOrder.ExpiresBefore (a b : LimitOrder) : Prop :=
  a.expiration < b.expiration ∨ a.expiration = b.expiration ∧ a.id ≤ b.id

instance : DecidableRel LimitOrder.ExpiresBefore := fun _ _ => inferInstanceAs (Decidable (_ ∨ _))

def MarketState.limitsByExpiration (s : MarketState) : List LimitOrder :=
  s.limitOrders.objects.insertionSort LimitOrder.ExpiresBefore

/-- The loop of `clear_expired_orders`, in at most as many rounds as the number says. -/
def Env.clearExpiredOrders (env : Env) : Nat → MarketM Unit
  | 0 => throw .outOfFuel
  | fuel + 1 => do
    let first ← observe fun s => s.limitsByExpiration.head?
    match first with
    | none => return
    | some o =>
      if o.expiration ≤ env.headBlockTime then do
        env.cancelLimitOrder o.id true
        env.clearExpiredOrders fuel
      else return

end Graphene.Market
