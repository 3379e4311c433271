import Graphene.Protocol.PriceValue

/-!
# Limit orders and call orders
-/

namespace Graphene.Market

open Protocol

structure TakeProfitAction where
  feeAssetId : AssetId
  spreadPercent : Nat
  sizePercent : Nat
  expirationSeconds : Nat
  repeats : Bool
deriving DecidableEq

/-- `limit_order_object`.  The list `on_fill` has at most one action. -/
structure LimitOrder where
  id : Nat
  expiration : Nat
  seller : AccountId
  forSale : Int
  sellPrice : Price
  deferredFee : Int
  deferredPaidFee : Asset
  isSettledDebt : Bool
  onFill : Option TakeProfitAction
  takeProfitOrderId : Option Nat

namespace LimitOrder

def sellAssetId (o : LimitOrder) : AssetId :=
  o.sellPrice.base.assetId

def receiveAssetId (o : LimitOrder) : AssetId :=
  o.sellPrice.quote.assetId

def amountForSale (o : LimitOrder) : Asset :=
  ⟨o.forSale, o.sellAssetId⟩

def amountToReceive (o : LimitOrder) : Except AssetError Asset :=
  o.amountForSale.mul o.sellPrice

end LimitOrder

structure CallOrder where
  id : Nat
  borrower : AccountId
  collateral : Int
  debt : Int
  collateralType : AssetId
  debtType : AssetId
  targetCollateralRatio : Option Nat
deriving DecidableEq

namespace CallOrder

def getDebt (c : CallOrder) : Asset :=
  ⟨c.debt, c.debtType⟩

def getCollateral (c : CallOrder) : Asset :=
  ⟨c.collateral, c.collateralType⟩

/-- `collateralization`; the two assets of a call order differ. -/
def collateralization (c : CallOrder) : Price :=
  ⟨c.getCollateral, c.getDebt⟩

end CallOrder

end Graphene.Market
