import Graphene.Market.OverflowSafety
import Graphene.Market.QuietMarkets

/-!
# Fair matches

Two limit orders that cross are matched at the price of the maker.  Each side receives at least what it
asks for, rounded down, and what is left of the order that is filled is worth nothing, so it is culled.
-/

namespace Graphene.Market

open Protocol Lib Keyed RunLogic Context
open LimitOrder (asks forSale)

variable {taker maker o : LimitOrder} {x : LimitMatch} {s t : MarketState}

section

variable (h : Opposite taker maker) (hcross : Crosses taker maker) (hvld : taker.sellPrice.Valid)
  (hx : limitMatch taker.amountForSale maker.amountForSale maker.sellPrice = .ok (some x))
include h hcross hvld hx

end

lemma LimitOrder.Fits.rest (h : o.Fits) (hvalid : o.sellPrice.Valid) {pays : ℤ} (hpays : 0 ≤ pays) :
    { o with forSale := o.forSale - pays }.asks ≤ (grapheneMaxShareSupply : ℤ) := by
  refine le_trans (LimitOrder.asks_le hvalid rfl ?_) h.2
  exact sub_le_self _ hpays

/-! ## The balances -/

section

variable {β : Type} {env : Env} {isMaker : Bool}

lemma Moves.of_eq (hpockets : t.pockets = s.pockets) (hsupply : t.currentSupply = s.currentSupply)
    (hbitassets : t.bitassets = s.bitassets) : Moves s t 0 where
  balances := fun account a => by
    rw [MarketState.getBalance, hpockets]
    exact (add_zero _).symm
  held := fun a => by
    rw [MarketState.held, hpockets]
    exact (add_zero _).symm
  supply := fun a => by
    rw [hsupply]
    exact (add_zero _).symm
  fund := fun a => by
    rw [hbitassets]
    exact (Moves.refl s).fund a
  solid := fun h account a => by
    rw [MarketState.getBalance, hpockets]
    exact h account a

def LimitOrder.returned (o : LimitOrder) (pays : Asset) (filled : Bool) : FundChange :=
  if filled then credit o.seller ⟨o.forSale - pays.amount, o.sellAssetId⟩ else 0

variable (cx : Context) {pays receives : Asset}

variable (ho : s.limitOrders.find o.id = some o) (hlink : o.takeProfitOrderId = none)
  (hbase : 0 < o.sellPrice.base.amount)
  (hfits : { o with forSale := o.forSale - pays.amount }.asks ≤ (grapheneMaxShareSupply : ℤ))
  (hle : pays.amount ≤ o.forSale)
include ho hlink hbase hfits hle

end

end Graphene.Market
