import Graphene.Market.SettlementFund

/-!
# The pool of individual settlements

Positions that are settled individually leave their debt and their collateral to a pool, and with
`asset_settle` accounts pay debt of the pool for a part of its fund.  The part is rounded down, and
then the payment for it is rounded up, at the price of the pool before.  So the fund per debt never
falls, and the last payment takes the whole fund.
-/

namespace Graphene.Market

open Protocol Lib Keyed Asset

structure OpenPool (b : BitassetData) : Prop where
  debt_pos : 0 < b.individualSettlementDebt
  fund_pos : 0 < b.individualSettlementFund
  response : b.blackSwanResponseMethod = .individualSettlementToFund
  notSettled : ¬ b.IsGloballySettled
  assets : b.assetId ≠ b.shortBackingAsset

def SettleResult.taken (r : SettleResult) : ℤ :=
  r.received.amount + (r.fees.map amount).sum

/-- What a payment of an account that asked to settle an amount leaves of a pool: all of it is used
up at once, or the fund per debt does not fall. -/
structure PaysFairly (b : BitassetData) (asked paid taken : ℤ) : Prop where
  le_asked : paid ≤ asked
  left : paid = b.individualSettlementDebt ∧ taken = b.individualSettlementFund ∨
    paid < b.individualSettlementDebt ∧ taken < b.individualSettlementFund ∧
      b.individualSettlementFund * (b.individualSettlementDebt - paid) ≤
        (b.individualSettlementFund - taken) * b.individualSettlementDebt

variable {cx : Context} {op : AssetSettle} {s t u : MarketState} {b : BitassetData}
  {r : SettleResult}

/-! ## One payment -/

variable {b' : BitassetData}

variable {x : Option SettleResult × Option ℕ}

section

variable (hb : s.bitassets.find op.amount.assetId = some b)
include hb

end

/-! ## Sequences of settlements -/

/-- The pool still has debt, and its fund per debt is not below that of the pool `b`. -/
structure NotWorse (b b' : BitassetData) : Prop extends OpenPool b' where
  ratio : b.individualSettlementFund * b'.individualSettlementDebt ≤
    b'.individualSettlementFund * b.individualSettlementDebt

lemma NotWorse.settle {asked : ℤ} (h : OpenPool b) (h' : NotWorse b b')
    (hfair : PaysFairly b' asked r.paid.amount r.taken)
    (hne : r.paid.amount ≠ b'.individualSettlementDebt) (feed : PriceFeed) :
    NotWorse b { b'.payBack r.paid.amount r.taken with currentFeed := feed } := by
  obtain ⟨heq, -⟩ | ⟨hdebt, hfund, hstep⟩ := hfair.left
  · exact absurd heq hne
  refine ⟨⟨sub_pos.2 hdebt, sub_pos.2 hfund, h'.response, h'.notSettled, h'.assets⟩, ?_⟩
  exact ratio_trans h.debt_pos.le h'.debt_pos (sub_pos.2 hdebt).le h'.ratio hstep

variable {a : AssetId}

end Graphene.Market
