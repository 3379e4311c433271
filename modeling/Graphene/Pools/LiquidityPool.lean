import Graphene.Accounts.Balance
import Graphene.Lib.Proportion

/-!
# Liquidity pools

`liquidity_pool_object` and its evaluators: create, delete, update, deposit, withdraw and
exchange; and `asset_reserve`, by which holders of a share asset give up shares.

The amounts in a pool are at most the maximum supply of the assets, so that the products that the
source computes in 128 bits are exact: the model computes with integers.  How a market fee is
calculated and to whom it is paid does not matter to a pool; here it is part of the rules that
the evaluators run under.
-/

namespace Graphene.Pools

open Lib Protocol Accounts

inductive PoolError where
  | invalidOperation
  | unknownObject
  | notOwner
  | unsuitableShareAsset
  /-- "Can not delete a non-empty pool" -/
  | poolNotEmpty
  | withdrawalFeeInTheWay
  | assetMismatch
  | internalError
  /-- "Can not create new supply for the share asset" -/
  | noNewSupply
  | unauthorizedAsset
  | initialDepositTooLarge
  /-- "Aborting due to zero outcome" -/
  | zeroOutcome
  /-- "The pool has not been initialized" -/
  | notInitialized
  | exceedsSupply
  | feeTooHigh
  | marketNotAllowed
  /-- "Unable to exchange at expected price" -/
  | unfillablePrice
  | insufficientBalance
  /-- "Cannot reserve because it is a market-issued asset" -/
  | reserveInvalidOnMia
  | marketFee
deriving DecidableEq

structure LiquidityPool where
  id : Nat
  assetA : AssetId
  assetB : AssetId
  balanceA : Int
  balanceB : Int
  shareAsset : AssetId
  takerFeePercent : Nat
  withdrawalFeePercent : Nat
  virtualValue : Int

/-- The balances after a change, with `update_virtual_value`. -/
def LiquidityPool.withBalances (p : LiquidityPool) (a b : Int) : LiquidityPool :=
  { p with balanceA := a, balanceB := b, virtualValue := a * b }

structure ShareAsset where
  issuer : AccountId
  isMarketIssued : Bool
  canCreateNewSupply : Bool
  maxSupply : Int
  whitelistMarkets : List AssetId
  blacklistMarkets : List AssetId

structure PoolRules where
  asset : AssetId → Option ShareAsset
  isAuthorizedAsset : AccountId → AssetId → Bool
  /-- `calculate_market_fee`, of an amount, for a maker or a taker; it may fail -/
  calculateMarketFee : Asset → Bool → Option Int
  /-- whether `pay_market_fees`, by an account, of an amount, for a maker or a taker, goes through -/
  payMarketFees : AccountId → Asset → Bool → Int → Bool

structure PoolState where
  rules : PoolRules
  balances : Balances
  /-- `asset_dynamic_data_object::current_supply` -/
  currentSupply : Tally AssetId
  /-- `asset_object::for_liquidity_pool` -/
  forLiquidityPool : AssetId → Option Nat
  pools : Store LiquidityPool.id

namespace PoolState

variable (s : PoolState)

def asset (a : AssetId) : Except PoolError ShareAsset :=
  match s.rules.asset a with
  | some o => .ok o
  | none => .error .unknownObject

def calculateMarketFee (amount : Asset) (isMaker : Bool) : Except PoolError Int :=
  match s.rules.calculateMarketFee amount isMaker with
  | some fee => .ok fee
  | none => .error .marketFee

def pool (id : Nat) : Except PoolError LiquidityPool :=
  match s.pools.find id with
  | some p => .ok p
  | none => .error .unknownObject

def supply (a : AssetId) : Int :=
  s.currentSupply.get a

/-- `adjust_balance`. -/
def adjust (account : AccountId) (delta : Asset) : Except PoolError PoolState := do
  let balances ← adjustBalance .insufficientBalance s.balances account delta
  return { s with balances := balances }

end PoolState

structure LiquidityPoolCreate where
  account : AccountId
  assetA : AssetId
  assetB : AssetId
  shareAsset : AssetId
  takerFeePercent : Nat
  withdrawalFeePercent : Nat

def LiquidityPoolCreate.newPool (op : LiquidityPoolCreate) (id : Nat) : LiquidityPool where
  id := id
  assetA := op.assetA
  assetB := op.assetB
  balanceA := 0
  balanceB := 0
  shareAsset := op.shareAsset
  takerFeePercent := op.takerFeePercent
  withdrawalFeePercent := op.withdrawalFeePercent
  virtualValue := 0

structure LiquidityPoolDelete where
  account : AccountId
  pool : Nat

structure LiquidityPoolUpdate where
  account : AccountId
  pool : Nat
  takerFeePercent : Option Nat
  withdrawalFeePercent : Option Nat

def LiquidityPoolUpdate.updated (op : LiquidityPoolUpdate) (p : LiquidityPool) : LiquidityPool :=
  { p with
    takerFeePercent := op.takerFeePercent.getD p.takerFeePercent
    withdrawalFeePercent := op.withdrawalFeePercent.getD p.withdrawalFeePercent }

namespace PoolState

variable (s : PoolState)

def liquidityPoolCreate (op : LiquidityPoolCreate) : Except PoolError PoolState := do
  check (op.assetA < op.assetB) .invalidOperation
  check (op.assetA ≠ op.shareAsset ∧ op.assetB ≠ op.shareAsset) .invalidOperation
  check (op.takerFeePercent ≤ graphene100Percent) .invalidOperation
  check (op.withdrawalFeePercent ≤ graphene100Percent) .invalidOperation
  let _ ← s.asset op.assetA
  let _ ← s.asset op.assetB
  let shareAsset ← s.asset op.shareAsset
  check (shareAsset.issuer = op.account) .notOwner
  check (!shareAsset.isMarketIssued) .unsuitableShareAsset
  check (s.forLiquidityPool op.shareAsset).isNone .unsuitableShareAsset
  check (s.supply op.shareAsset = 0) .unsuitableShareAsset
  let id := s.pools.nextId
  return { s with
    pools := s.pools.write (op.newPool id)
    forLiquidityPool := Function.update s.forLiquidityPool op.shareAsset (some id) }

def liquidityPoolDelete (op : LiquidityPoolDelete) : Except PoolError PoolState := do
  let pool ← s.pool op.pool
  check (pool.balanceA = 0 ∧ pool.balanceB = 0) .poolNotEmpty
  let shareAsset ← s.asset pool.shareAsset
  check (shareAsset.issuer = op.account) .notOwner
  return { s with
    pools := s.pools.remove op.pool
    forLiquidityPool := Function.update s.forLiquidityPool pool.shareAsset none }

def liquidityPoolUpdate (op : LiquidityPoolUpdate) : Except PoolError PoolState := do
  check (op.takerFeePercent.isSome || op.withdrawalFeePercent.isSome) .invalidOperation
  check (op.takerFeePercent.all (· ≤ graphene100Percent)) .invalidOperation
  check (op.withdrawalFeePercent.all (· = 0)) .invalidOperation
  let pool ← s.pool op.pool
  let shareAsset ← s.asset pool.shareAsset
  check (shareAsset.issuer = op.account) .notOwner
  check (op.takerFeePercent.isNone || pool.withdrawalFeePercent = 0
    || op.withdrawalFeePercent = some 0) .withdrawalFeeInTheWay
  return { s with pools := s.pools.write (op.updated pool) }

end PoolState

/-! ## Deposit -/

structure LiquidityPoolDeposit where
  account : AccountId
  pool : Nat
  amountA : Asset
  amountB : Asset

structure DepositResult where
  poolReceivesA : Int
  poolReceivesB : Int
  accountReceives : Int

def initialDeposit (maxSupply amountA amountB : Int) : Except PoolError DepositResult := do
  let shareAmount := max amountA amountB
  check (shareAmount ≤ maxSupply) .initialDepositTooLarge
  return ⟨amountA, amountB, shareAmount⟩

def laterDeposit (p : LiquidityPool) (supply maxSupply amountA amountB : Int) :
    Except PoolError DepositResult := do
  let maxNewSupply := maxSupply - supply
  let newSupplyIfA := supply * amountA / p.balanceA
  let newSupplyIfB := supply * amountB / p.balanceB
  let newSupply := min (min newSupplyIfA newSupplyIfB) maxNewSupply
  check (0 < newSupply) .zeroOutcome
  let a := divUp (newSupply * p.balanceA) supply
  check (a ≤ amountA) .internalError
  let b := divUp (newSupply * p.balanceB) supply
  check (b ≤ amountB) .internalError
  return ⟨a, b, newSupply⟩

namespace PoolState

variable (s : PoolState)

def checkAuthorized (account : AccountId) (assets : List AssetId) : Except PoolError Unit :=
  check (assets.all (s.rules.isAuthorizedAsset account)) .unauthorizedAsset

def evaluateDeposit (op : LiquidityPoolDeposit) (pool : LiquidityPool) :
    Except PoolError DepositResult := do
  check (op.amountA.assetId = pool.assetA) .assetMismatch
  check (op.amountB.assetId = pool.assetB) .assetMismatch
  check (decide (pool.balanceA = 0) == decide (pool.balanceB = 0)) .internalError
  let shareAsset ← s.asset pool.shareAsset
  check shareAsset.canCreateNewSupply .noNewSupply
  check (pool.balanceA ≠ 0 || shareAsset.issuer = op.account) .notOwner
  let supply := s.supply pool.shareAsset
  check (decide (pool.balanceA = 0) == decide (supply = 0)) .internalError
  check (supply < shareAsset.maxSupply) .noNewSupply
  s.checkAuthorized op.account [pool.shareAsset, pool.assetA, pool.assetB]
  if pool.balanceA = 0 then
    initialDeposit shareAsset.maxSupply op.amountA.amount op.amountB.amount
  else laterDeposit pool supply shareAsset.maxSupply op.amountA.amount op.amountB.amount

def liquidityPoolDeposit (op : LiquidityPoolDeposit) : Except PoolError PoolState := do
  check (0 < op.amountA.amount ∧ 0 < op.amountB.amount) .invalidOperation
  check (op.amountA.assetId < op.amountB.assetId) .invalidOperation
  let pool ← s.pool op.pool
  let r ← s.evaluateDeposit op pool
  let s ← s.adjust op.account ⟨-r.poolReceivesA, pool.assetA⟩
  let s ← s.adjust op.account ⟨-r.poolReceivesB, pool.assetB⟩
  let s ← s.adjust op.account ⟨r.accountReceives, pool.shareAsset⟩
  let pool := pool.withBalances (pool.balanceA + r.poolReceivesA) (pool.balanceB + r.poolReceivesB)
  let currentSupply := s.currentSupply.add pool.shareAsset r.accountReceives
  check (0 < pool.balanceA ∧ 0 < pool.balanceB) .internalError
  check (0 < currentSupply.get pool.shareAsset) .internalError
  return { s with pools := s.pools.write pool, currentSupply := currentSupply }

end PoolState

structure LiquidityPoolWithdraw where
  account : AccountId
  pool : Nat
  shareAmount : Asset

/-- What is paid for part of the shares out of one balance, and the fee that stays in the pool. -/
def withdrawPart (balance supply shareAmount : Int) (feePercent : Nat) :
    Except PoolError (Int × Int) := do
  let amount := shareAmount * balance / supply
  check (amount < balance) .internalError
  let fee := amount * feePercent / graphene100Percent
  check (fee ≤ amount) .feeTooHigh
  return (amount - fee, fee)

namespace PoolState

variable (s : PoolState)

/-- `liquidity_pool_withdraw_evaluator::do_evaluate`: what the pool pays of each asset. -/
def evaluateWithdraw (op : LiquidityPoolWithdraw) (pool : LiquidityPool) :
    Except PoolError (Int × Int) := do
  check (op.shareAmount.assetId = pool.shareAsset) .assetMismatch
  check (0 < pool.balanceA ∧ 0 < pool.balanceB) .notInitialized
  s.checkAuthorized op.account [pool.shareAsset, pool.assetA, pool.assetB]
  let supply := s.supply pool.shareAsset
  check (op.shareAmount.amount ≤ supply) .exceedsSupply
  if supply = op.shareAmount.amount then return (pool.balanceA, pool.balanceB)
  else do
    let (a, _) ← withdrawPart pool.balanceA supply op.shareAmount.amount pool.withdrawalFeePercent
    let (b, _) ← withdrawPart pool.balanceB supply op.shareAmount.amount pool.withdrawalFeePercent
    check (0 < a ∨ 0 < b) .zeroOutcome
    return (a, b)

def liquidityPoolWithdraw (op : LiquidityPoolWithdraw) : Except PoolError PoolState := do
  check (0 < op.shareAmount.amount) .invalidOperation
  let pool ← s.pool op.pool
  let (a, b) ← s.evaluateWithdraw op pool
  let s ← s.adjust op.account op.shareAmount.neg
  let s ← s.adjust op.account ⟨a, pool.assetA⟩
  let s ← s.adjust op.account ⟨b, pool.assetB⟩
  let currentSupply := s.currentSupply.add pool.shareAsset (-op.shareAmount.amount)
  let pool := pool.withBalances (pool.balanceA - a) (pool.balanceB - b)
  check (decide (pool.balanceA = 0) == decide (pool.balanceB = 0)) .internalError
  check (decide (pool.balanceA = 0) == decide (currentSupply.get pool.shareAsset = 0))
    .internalError
  return { s with pools := s.pools.write pool, currentSupply := currentSupply }

end PoolState

/-! ## Exchange -/

structure LiquidityPoolExchange where
  account : AccountId
  pool : Nat
  amountToSell : Asset
  minToReceive : Asset

/-- By how much the other balance can fall when one balance grows, so that the product of the two
does not fall below the virtual value. -/
def exchangeDelta (virtualValue balance other receives : Int) : Except PoolError Int := do
  let newOther := divUp virtualValue (balance + receives)
  check (newOther ≤ other) .internalError
  return other - newOther

def LiquidityPool.delta (p : LiquidityPool) (sellsA : Bool) (receives : Int) :
    Except PoolError Int :=
  if sellsA then exchangeDelta p.virtualValue p.balanceA p.balanceB receives
  else exchangeDelta p.virtualValue p.balanceB p.balanceA receives

def ShareAsset.allowsMarket (a : ShareAsset) (other : AssetId) : Bool :=
  (a.whitelistMarkets.isEmpty || other ∈ a.whitelistMarkets) && other ∉ a.blacklistMarkets

structure ExchangeResult where
  makerMarketFee : Int
  poolReceives : Int
  poolPays : Int
  takerMarketFee : Int
  accountReceives : Int

namespace PoolState

variable (s : PoolState)

variable (op : LiquidityPoolExchange)

def exchangeAmounts (pool : LiquidityPool) (sellsA : Bool) :
    Except PoolError ExchangeResult := do
  let makerMarketFee ← s.calculateMarketFee op.amountToSell true
  check (makerMarketFee < op.amountToSell.amount) .feeTooHigh
  let poolReceives := op.amountToSell.amount - makerMarketFee
  let delta ← pool.delta sellsA poolReceives
  let poolTakerFee := delta * pool.takerFeePercent / graphene100Percent
  check (poolTakerFee ≤ delta) .feeTooHigh
  let poolPays := delta - poolTakerFee
  let takerMarketFee ← s.calculateMarketFee ⟨poolPays, op.minToReceive.assetId⟩ false
  check (takerMarketFee ≤ poolPays) .feeTooHigh
  let accountReceives := poolPays - takerMarketFee
  check (op.minToReceive.amount ≤ accountReceives) .unfillablePrice
  return ⟨makerMarketFee, poolReceives, poolPays, takerMarketFee, accountReceives⟩

def evaluateExchange (pool : LiquidityPool) :
    Except PoolError ExchangeResult := do
  check (0 < pool.balanceA ∧ 0 < pool.balanceB) .notInitialized
  check (op.amountToSell.assetId = pool.assetA && op.minToReceive.assetId = pool.assetB
    || op.amountToSell.assetId = pool.assetB && op.minToReceive.assetId = pool.assetA)
    .assetMismatch
  let assetA ← s.asset pool.assetA
  let assetB ← s.asset pool.assetB
  s.checkAuthorized op.account [pool.assetA, pool.assetB]
  check (assetA.allowsMarket pool.assetB && assetB.allowsMarket pool.assetA) .marketNotAllowed
  s.exchangeAmounts op pool (op.amountToSell.assetId = pool.assetA)

def exchanged (pool : LiquidityPool) (sellsA : Bool) (r : ExchangeResult) : LiquidityPool :=
  if sellsA then pool.withBalances (pool.balanceA + r.poolReceives) (pool.balanceB - r.poolPays)
  else pool.withBalances (pool.balanceA - r.poolPays) (pool.balanceB + r.poolReceives)

def liquidityPoolExchange : Except PoolError PoolState := do
  check (0 < op.amountToSell.amount) .invalidOperation
  check (0 < op.minToReceive.amount) .invalidOperation
  check (op.amountToSell.assetId ≠ op.minToReceive.assetId) .invalidOperation
  let pool ← s.pool op.pool
  let r ← s.evaluateExchange op pool
  let s ← s.adjust op.account op.amountToSell.neg
  let s ← s.adjust op.account ⟨r.accountReceives, op.minToReceive.assetId⟩
  let shareAsset ← s.asset pool.shareAsset
  check (s.rules.payMarketFees shareAsset.issuer op.amountToSell true r.makerMarketFee) .marketFee
  check (s.rules.payMarketFees op.account ⟨r.poolPays, op.minToReceive.assetId⟩ false
    r.takerMarketFee) .marketFee
  let newPool := exchanged pool (op.amountToSell.assetId = pool.assetA) r
  check (0 < newPool.balanceA ∧ 0 < newPool.balanceB) .internalError
  check (pool.virtualValue ≤ newPool.virtualValue) .internalError
  return { s with pools := s.pools.write newPool }

end PoolState

structure AssetReserve where
  payer : AccountId
  amountToReserve : Asset

def PoolState.assetReserve (s : PoolState) (op : AssetReserve) : Except PoolError PoolState := do
  check (op.amountToReserve.amount ≤ grapheneMaxShareSupply) .invalidOperation
  check (0 < op.amountToReserve.amount) .invalidOperation
  let a := op.amountToReserve.assetId
  let asset ← s.asset a
  check (!asset.isMarketIssued) .reserveInvalidOnMia
  check (s.rules.isAuthorizedAsset op.payer a) .unauthorizedAsset
  -- of a share asset, not the whole supply can be given up
  check (if (s.forLiquidityPool a).isNone then decide (op.amountToReserve.amount ≤ s.supply a)
    else decide (op.amountToReserve.amount < s.supply a)) .exceedsSupply
  let s ← s.adjust op.payer op.amountToReserve.neg
  return { s with currentSupply := s.currentSupply.add a (-op.amountToReserve.amount) }

end Graphene.Pools
