import Graphene.Lib.Keyed
import Graphene.Market.PriceFeed

/-!
# The state of the market

What the market functions of `database` read and write: balances and fees, the supply of each
asset, limit orders, call orders, force settlements, collateral bids and the data of
market-issued assets.

A function of the source is a computation in `MarketM`: it succeeds with a result and a new
state, or fails where the source throws.  A failed computation keeps the state it failed in,
which is what the source throws away when the enclosing undo session is undone.

Amounts are integers.  The indices `by_price`, `by_collateral` and so on are the sorted lists of
the objects of a table; an iterator is the id of the object it points to, or `none` for `end()`.
-/

namespace Graphene.Market

open Protocol Lib

structure ForceSettlement where
  id : Nat
  owner : AccountId
  balance : Asset
  settlementDate : Nat

structure CollateralBid where
  id : Nat
  bidder : AccountId
  invSwanPrice : Price
deriving DecidableEq

/-- Where amounts are kept that are not part of an order, a settlement or a bid. -/
inductive Pocket where
  /-- `account_balance_object` -/
  | balance (account : AccountId) (assetId : AssetId)
  /-- the `vesting_balance_object` of type `market_fee_sharing` -/
  | vesting (account : AccountId) (assetId : AssetId)
  /-- `account_statistics_object::pending_fees` -/
  | pendingFees (account : AccountId)
  /-- `account_statistics_object::pending_vested_fees` -/
  | pendingVestedFees (account : AccountId)
  /-- `asset_dynamic_data_object::accumulated_fees` -/
  | accumulatedFees (assetId : AssetId)
  /-- `asset_dynamic_data_object::accumulated_collateral_fees`, with the backing asset -/
  | collateralFees (assetId backing : AssetId)
  /-- `asset_dynamic_data_object::fee_pool` -/
  | feePool (assetId : AssetId)
deriving DecidableEq

def coreAsset : AssetId := 0

def Pocket.denomination : Pocket → AssetId
  | .balance _ a => a
  | .vesting _ a => a
  | .pendingFees _ => coreAsset
  | .pendingVestedFees _ => coreAsset
  | .accumulatedFees a => a
  | .collateralFees _ backing => backing
  | .feePool _ => coreAsset

/-- The fees that an order has deferred: the core value, and what was paid if that was not core. -/
structure DeferredFees where
  fee : Int
  paidFee : Asset

def LimitOrder.deferredFees (o : LimitOrder) : DeferredFees :=
  ⟨o.deferredFee, o.deferredPaidFee⟩

def DeferredFees.zero : DeferredFees :=
  ⟨0, ⟨0, coreAsset⟩⟩

/-- What has happened, as far as statements about runs refer to it.  No function reads it. -/
structure History where
  placed : List LimitOrder
  /-- deferred fees that were overwritten or removed, less what was paid out for them -/
  droppedFees : Tally AssetId

/-- The objects of the database that the market functions work on. -/
structure MarketState where
  pockets : Tally Pocket
  /-- `asset_dynamic_data_object::current_supply` -/
  currentSupply : Tally AssetId
  /-- `account_statistics_object::total_core_in_orders` -/
  coreInOrders : Tally AccountId
  limitOrders : Store LimitOrder.id
  callOrders : Store CallOrder.id
  settlements : Store ForceSettlement.id
  bids : Store CollateralBid.id
  bitassets : Keyed BitassetData.assetId
  history : History

def MarketState.empty : MarketState where
  pockets := Keyed.empty
  currentSupply := Keyed.empty
  coreInOrders := Keyed.empty
  limitOrders := Store.empty
  callOrders := Store.empty
  settlements := Store.empty
  bids := Store.empty
  bitassets := Keyed.empty
  history := ⟨[], Keyed.empty⟩

/-! ## Failures -/

inductive MarketError where
  /-- arithmetic on assets and prices, while orders are matched or settled -/
  | matching (e : AssetError)
  /-- arithmetic on assets and prices, while a fee is calculated -/
  | fee (e : AssetError)
  /-- arithmetic on assets and prices, while an operation is evaluated -/
  | evaluating (e : AssetError)
  /-- "overflow when calculating percent" -/
  | percentOverflow
  | insufficientBalance
  /-- an object does not exist, or an iterator points to an object that has been removed -/
  | unknownLimitOrder
  | unknownCallOrder
  | unknownSettlement
  | unknownBid
  | unknownAccount
  | unknownAsset
  /-- `bitasset_data` of an asset that is not market-issued -/
  | notMarketIssued
  | indexConstraint
  | invalidOperation
  | invalidFee
  /-- "Insufficient Fee Paid" -/
  | insufficientFee
  | unauthorizedAsset
  | marketNotAllowed
  | expired
  /-- "Limit order is owned by someone else" -/
  | ownerMismatch
  | incompatibleUpdate
  /-- "order becomes too small; cancel order instead" -/
  | orderTooSmall
  /-- "Killing limit order due to unable to fill" -/
  | killUnfilled
  | internal
  /-- "Market fee shouldn't be greater than receives" and the like -/
  | feeTooLarge
  /-- "Asset cannot accept fee of asset" -/
  | feeNotAccepted
  /-- "Black swan was detected during a margin update which is not allowed to trigger a blackswan" -/
  | blackSwan
  | settlementRefused
  | positionRefused
  /-- "Cannot borrow asset with no price feed." -/
  | insufficientFeeds
  /-- "amount in the global settlement fund is not sufficient to pay the settlement" -/
  | fundInsufficient
  /-- "undo sessions nested too deeply" -/
  | nestedTooDeeply
  | outOfFuel
deriving DecidableEq

abbrev MarketM := EStateM MarketError MarketState

section Basics

variable {α : Type}

def observe (f : MarketState → α) : MarketM α :=
  fun s => .ok (f s) s

/-- `FC_ASSERT`. -/
def require (ok : Bool) (e : MarketError) : MarketM Unit :=
  if ok then pure () else throw e

def liftAs (wrap : AssetError → MarketError) (x : Except AssetError α) : MarketM α :=
  match x with
  | .ok a => pure a
  | .error e => throw (wrap e)

def calculate (x : Except AssetError α) : MarketM α :=
  liftAs .matching x

def orThrow (e : MarketError) : Option α → MarketM α
  | some a => pure a
  | none => throw e

def whenever (c : Bool) (x : MarketM Unit) : MarketM Unit :=
  if c then x else pure ()

/-- Catch whatever is thrown; the state is then the one before. -/
def attempt (x : MarketM α) : MarketM (Option α) := fun s =>
  match x s with
  | .ok a s' => .ok (some a) s'
  | .error _ _ => .ok none s

end Basics

/-! ## Tables -/

structure Table {α : Type} (key : α → ℕ) where
  get : MarketState → Store key
  set : Store key → MarketState → MarketState
  missing : MarketError

namespace Table

variable {α : Type} {key : α → ℕ}

def fetch (T : Table key) (i : ℕ) : MarketM α := fun s =>
  match (T.get s).find i with
  | some o => .ok o s
  | none => .error T.missing s

/-- `modify`; the result is the object as it was. -/
def modify (T : Table key) (i : ℕ) (f : α → α) : MarketM α := fun s =>
  match (T.get s).find i with
  | some o => .ok o (T.set ((T.get s).write (f o)) s)
  | none => .error T.missing s

/-- `remove`; the result is the object as it was. -/
def remove (T : Table key) (i : ℕ) : MarketM α := fun s =>
  match (T.get s).find i with
  | some o => .ok o (T.set ((T.get s).remove i) s)
  | none => .error T.missing s

/-- `create`, from the next id. -/
def create (T : Table key) (mk : ℕ → α) : MarketM α := fun s =>
  .ok (mk (T.get s).nextId) (T.set ((T.get s).write (mk (T.get s).nextId)) s)

end Table

def limitOrderTable : Table LimitOrder.id where
  get := MarketState.limitOrders
  set := fun t s => { s with limitOrders := t }
  missing := .unknownLimitOrder

def callOrderTable : Table CallOrder.id where
  get := MarketState.callOrders
  set := fun t s => { s with callOrders := t }
  missing := .unknownCallOrder

def settlementTable : Table ForceSettlement.id where
  get := MarketState.settlements
  set := fun t s => { s with settlements := t }
  missing := .unknownSettlement

def bidTable : Table CollateralBid.id where
  get := MarketState.bids
  set := fun t s => { s with bids := t }
  missing := .unknownBid

variable (a : AssetId)

def bitassetData : MarketM BitassetData := fun s =>
  match s.bitassets.find a with
  | some b => .ok b s
  | none => .error .notMarketIssued s

def modifyBitasset (f : BitassetData → BitassetData) : MarketM Unit := fun s =>
  match s.bitassets.find a with
  | some b => .ok () { s with bitassets := s.bitassets.put (f b) }
  | none => .error .notMarketIssued s

def deposit (p : Pocket) (x : Int) : MarketM Unit := fun s =>
  .ok () { s with pockets := s.pockets.add p x }

def changeSupply (x : Int) : MarketM Unit := fun s =>
  .ok () { s with currentSupply := s.currentSupply.add a x }

/-- `total_core_in_orders` after a change of an order, which counts if the amount is of core. -/
def MarketState.coreCounted (s : MarketState) (account : AccountId) (delta : Asset) :
    Tally AccountId :=
  if delta.assetId = coreAsset then s.coreInOrders.add account delta.amount else s.coreInOrders

def addCoreInOrders (account : AccountId) (delta : Asset) : MarketM Unit := fun s =>
  .ok () { s with coreInOrders := s.coreCounted account delta }

def MarketState.getBalance (s : MarketState) (account : AccountId) (a : AssetId) : Int :=
  s.pockets.get (.balance account a)

def adjustBalance (account : AccountId) (delta : Asset) : MarketM Unit := do
  let balance ← observe fun s => s.getBalance account delta.assetId
  require (0 ≤ delta.amount ∨ -delta.amount ≤ balance) .insufficientBalance
  deposit (.balance account delta.assetId) delta.amount

def recordPlaced (o : LimitOrder) : MarketM Unit := fun s =>
  .ok () { s with history := { s.history with placed := o :: s.history.placed } }

def DeferredFees.addTo (sign : Int) (fees : DeferredFees) (t : Tally AssetId) : Tally AssetId :=
  (t.add coreAsset (sign * fees.fee)).add fees.paidFee.assetId (sign * fees.paidFee.amount)

/-- Deferred fees that an order had, less those that were paid out. -/
def recordDroppedFees (had paid : DeferredFees) : MarketM Unit := fun s =>
  .ok () { s with history := { s.history with
    droppedFees := paid.addTo (-1) (had.addTo 1 s.history.droppedFees) } }

/-! ## Runs -/

def endOf {α : Type} (x : MarketM α) (s : MarketState) : MarketState :=
  match x s with
  | .ok _ t => t
  | .error _ t => t

def errorOf {α : Type} (x : MarketM α) (s : MarketState) : Option MarketError :=
  match x s with
  | .ok _ _ => none
  | .error e _ => some e

def resultOf {α : Type} (x : MarketM α) (s : MarketState) : Option α :=
  match x s with
  | .ok r _ => some r
  | .error _ _ => none

lemma run_endOf {α : Type} {x : MarketM α} {s : MarketState} {r : α} (h : resultOf x s = some r) :
    x s = .ok r (endOf x s) := by
  unfold resultOf at h
  unfold endOf
  split at h
  next hx =>
    cases h
    rw [hx]
  next => cases h

/-! ## Sorted indices -/

/-- The order of `by_price`: the best price first. -/
def LimitOrder.Before (a b : LimitOrder) : Prop :=
  b.sellPrice.Less a.sellPrice ∨ ¬ a.sellPrice.Less b.sellPrice ∧ a.id ≤ b.id

instance : DecidableRel LimitOrder.Before := fun _ _ => inferInstanceAs (Decidable (_ ∨ _))

def CallOrder.Before (a b : CallOrder) : Prop :=
  a.collateralization.Less b.collateralization ∨
    ¬ b.collateralization.Less a.collateralization ∧ a.id ≤ b.id

instance : DecidableRel CallOrder.Before := fun _ _ => inferInstanceAs (Decidable (_ ∨ _))

def ForceSettlement.Before (a b : ForceSettlement) : Prop :=
  a.balance.assetId < b.balance.assetId ∨ a.balance.assetId = b.balance.assetId ∧
    (a.settlementDate < b.settlementDate ∨ a.settlementDate = b.settlementDate ∧ a.id ≤ b.id)

instance : DecidableRel ForceSettlement.Before := fun _ _ => inferInstanceAs (Decidable (_ ∨ _))

/-- The order of `by_price` among the bids for one asset. -/
def CollateralBid.Before (a b : CollateralBid) : Prop :=
  b.invSwanPrice.Less a.invSwanPrice ∨ ¬ a.invSwanPrice.Less b.invSwanPrice ∧ a.id ≤ b.id

instance : DecidableRel CollateralBid.Before := fun _ _ => inferInstanceAs (Decidable (_ ∨ _))

namespace MarketState

variable (s : MarketState)

def limitsByPrice : List LimitOrder :=
  s.limitOrders.objects.insertionSort LimitOrder.Before

def callsByCollateral : List CallOrder :=
  s.callOrders.objects.insertionSort CallOrder.Before

def settlementsByExpiration : List ForceSettlement :=
  s.settlements.objects.insertionSort ForceSettlement.Before

def bidsByPrice (a : AssetId) : List CollateralBid :=
  (s.bids.objects.filter fun b => b.invSwanPrice.quote.assetId = a).insertionSort
    CollateralBid.Before

def limitLowerBound (p : Price) : Option Nat :=
  (s.limitsByPrice.dropWhile fun o => p.Less o.sellPrice).head?.map LimitOrder.id

def limitUpperBound (p : Price) : Option Nat :=
  (s.limitsByPrice.dropWhile fun o => ¬ o.sellPrice.Less p).head?.map LimitOrder.id

def limitNext (i : Nat) : Option Nat :=
  ((s.limitsByPrice.dropWhile fun o => o.id ≠ i).drop 1).head?.map LimitOrder.id

def limitPrevious (i : Nat) : Option LimitOrder :=
  (s.limitsByPrice.takeWhile fun o => o.id ≠ i).getLast?

def callLowerBound (p : Price) : Option Nat :=
  (s.callsByCollateral.dropWhile fun c => c.collateralization.Less p).head?.map CallOrder.id

def callUpperBound (p : Price) : Option Nat :=
  (s.callsByCollateral.dropWhile fun c => ¬ p.Less c.collateralization).head?.map CallOrder.id

def firstSettlement (a : AssetId) : Option ForceSettlement :=
  s.settlementsByExpiration.find? fun f => f.balance.assetId = a

def findSettledDebtOrder (a : AssetId) : Option LimitOrder :=
  ((s.limitOrders.objects.filter fun o => o.isSettledDebt ∧ o.receiveAssetId = a).insertionSort
    fun a b => a.id ≤ b.id).head?

def debtOf (a : AssetId) : Int :=
  s.callOrders.total fun c => if c.debtType = a then c.debt else 0

def collateralOf (a : AssetId) : Int :=
  s.callOrders.total fun c => if c.debtType = a then c.collateral else 0

end MarketState

end Graphene.Market
