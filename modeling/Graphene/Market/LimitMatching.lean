import Graphene.Market.Matching
import Graphene.Protocol.Rounding

/-!
# The amounts of a match of two limit orders

A match of two normal limit orders is done at the price of the maker.  The smaller one receives the
value of what it sells, rounded down, and gives what that is worth, rounded up.  No product is too large
if for both orders the amount for sale, and what is asked for it, are within the maximum supply.
-/

namespace Graphene.Market

open Protocol Lib Asset
open Asset (less mul mulBy multiplyAndRoundUp scale)

namespace LimitOrder

structure IsNormal (o : LimitOrder) : Prop where
  notSettledDebt : o.isSettledDebt = false
  valid : o.sellPrice.Valid

def asks (o : LimitOrder) : Int :=
  o.forSale * o.sellPrice.quote.amount / o.sellPrice.base.amount

/-- The amount for sale, and what is asked for it, are within the maximum supply. -/
def Fits (o : LimitOrder) : Prop :=
  o.forSale ≤ grapheneMaxShareSupply ∧ o.asks ≤ grapheneMaxShareSupply

instance (o : LimitOrder) : Decidable o.Fits := inferInstanceAs (Decidable (_ ∧ _))

variable {o o' : LimitOrder}

lemma asks_le (hvalid : o.sellPrice.Valid) (hprice : o'.sellPrice = o.sellPrice)
    (hle : o'.forSale ≤ o.forSale) : o'.asks ≤ o.asks := by
  unfold asks
  rw [hprice]
  exact Int.ediv_le_ediv hvalid.base (mul_le_mul_of_nonneg_right hle hvalid.quote.le)

lemma amountToReceive_eq_ok {r : Asset} :
    o.amountToReceive = .ok r ↔ 0 < o.sellPrice.base.amount ∧ o.asks ≤ grapheneMaxShareSupply ∧
      r = ⟨o.asks, o.receiveAssetId⟩ := by
  unfold LimitOrder.amountToReceive mul
  rw [mulBy_base (show o.amountForSale.assetId = o.sellPrice.base.assetId from rfl)]
  exact scale_eq_ok

lemma Fits.amountToReceive (h : o.Fits) : o.amountToReceive ≠ .error .resultTooLarge := by
  unfold LimitOrder.amountToReceive mul
  rw [mulBy_base (show o.amountForSale.assetId = o.sellPrice.base.assetId from rfl)]
  exact scale_ne_resultTooLarge h.2

end LimitOrder

/-! ## The amounts -/

structure Opposite (taker maker : LimitOrder) : Prop where
  pays : taker.sellAssetId = maker.receiveAssetId
  taker_pos : 0 < taker.forSale
  maker_pos : 0 < maker.forSale
  valid : maker.sellPrice.Valid

/-- What the taker gets for all that it sells, at the price of the maker, rounded down. -/
def takerGets (taker maker : LimitOrder) : Int :=
  taker.forSale * maker.sellPrice.base.amount / maker.sellPrice.quote.amount

def makerFilledMatch (maker : LimitOrder) : LimitMatch where
  takerReceives := ⟨divUp (maker.asks * maker.sellPrice.base.amount) maker.sellPrice.quote.amount,
    maker.sellAssetId⟩
  makerReceives := ⟨maker.asks, maker.receiveAssetId⟩
  cullTaker := false

def takerFilledMatch (taker maker : LimitOrder) : LimitMatch where
  takerReceives := ⟨takerGets taker maker, maker.sellAssetId⟩
  makerReceives := ⟨divUp (takerGets taker maker * maker.sellPrice.quote.amount)
    maker.sellPrice.base.amount, maker.receiveAssetId⟩
  cullTaker := true

section Amounts

variable {taker maker : LimitOrder}

lemma Opposite.mulBy_receive (h : Opposite taker maker) (divide : Int → Int → Int) (n : Int) :
    mulBy divide ⟨n, maker.receiveAssetId⟩ maker.sellPrice
      = scale divide n maker.sellPrice.base.amount maker.sellPrice.quote.amount
        maker.sellAssetId :=
  mulBy_quote h.valid.assets rfl

lemma mulBy_sell (divide : Int → Int → Int) (n : Int) :
    mulBy divide ⟨n, maker.sellAssetId⟩ maker.sellPrice
      = scale divide n maker.sellPrice.quote.amount maker.sellPrice.base.amount
        maker.receiveAssetId :=
  mulBy_base rfl

section

variable (h : Opposite taker maker)
include h

lemma Opposite.less_eq (n : Int) :
    less ⟨n, maker.receiveAssetId⟩ taker.amountForSale = .ok (decide (n < taker.forSale)) :=
  less_eq_ok.2 ⟨h.pays.symm, rfl⟩

lemma Opposite.limitMatch_cases {r : Option LimitMatch}
    (hr : limitMatch taker.amountForSale maker.amountForSale maker.sellPrice = .ok r) :
    (maker.asks < taker.forSale ∧ r = some (makerFilledMatch maker)) ∨
      (taker.forSale ≤ maker.asks ∧ takerGets taker maker = 0 ∧ r = none) ∨
      (taker.forSale ≤ maker.asks ∧ takerGets taker maker ≠ 0 ∧
        r = some (takerFilledMatch taker maker)) := by
  obtain ⟨value, hval, hr⟩ := bind_eq_ok.1 hr
  obtain ⟨-, -, rfl⟩ := LimitOrder.amountToReceive_eq_ok.1 hval
  rw [h.less_eq, ok_bind] at hr
  by_cases hbig : maker.asks < taker.forSale
  · left
    refine ⟨hbig, ?_⟩
    rw [if_pos (decide_eq_true hbig), hval, ok_bind, multiplyAndRoundUp, h.mulBy_receive] at hr
    obtain ⟨back, hback, hr⟩ := bind_eq_ok.1 hr
    obtain ⟨-, -, rfl⟩ := scale_eq_ok.1 hback
    cases hr
    rfl
  · right
    have hpays : taker.amountForSale = ⟨taker.forSale, maker.receiveAssetId⟩ := by
      rw [LimitOrder.amountForSale, h.pays]
    rw [if_neg (by simpa using hbig), mul, hpays, h.mulBy_receive] at hr
    obtain ⟨gets, hgets, hr⟩ := bind_eq_ok.1 hr
    obtain ⟨-, -, rfl⟩ := scale_eq_ok.1 hgets
    change (if takerGets taker maker = 0 then _ else _) = _ at hr
    by_cases hzero : takerGets taker maker = 0
    · left
      rw [if_pos hzero] at hr
      cases hr
      exact ⟨not_lt.1 hbig, hzero, rfl⟩
    · right
      rw [if_neg hzero, multiplyAndRoundUp, mulBy_sell] at hr
      obtain ⟨back, hback, hr⟩ := bind_eq_ok.1 hr
      obtain ⟨-, -, rfl⟩ := scale_eq_ok.1 hback
      cases hr
      exact ⟨not_lt.1 hbig, hzero, rfl⟩

lemma Opposite.takerGets_le (hle : taker.forSale ≤ maker.asks) :
    takerGets taker maker ≤ maker.forSale := by
  apply Int.ediv_le_of_le_mul h.valid.quote
  calc taker.forSale * maker.sellPrice.base.amount
      ≤ maker.asks * maker.sellPrice.base.amount := mul_le_mul_of_nonneg_right hle h.valid.base.le
    _ ≤ maker.forSale * maker.sellPrice.quote.amount := Int.ediv_mul_le _ h.valid.base.ne'

lemma Opposite.limitMatch_fits (ht : taker.Fits) (hm : maker.Fits) :
    limitMatch taker.amountForSale maker.amountForSale maker.sellPrice ≠ .error .resultTooLarge := by
  have hval : maker.amountForSale.mul maker.sellPrice ≠ .error .resultTooLarge := hm.amountToReceive
  have hpays : taker.amountForSale = ⟨taker.forSale, maker.receiveAssetId⟩ := by
    rw [LimitOrder.amountForSale, h.pays]
  refine bind_ne_error hval fun value hv => ?_
  obtain ⟨-, -, rfl⟩ := LimitOrder.amountToReceive_eq_ok.1 hv
  rw [h.less_eq, ok_bind]
  by_cases hbig : maker.asks < taker.forSale
  · -- the maker is filled: down to what it receives, and up again
    rw [if_pos (decide_eq_true hbig), hv, ok_bind, multiplyAndRoundUp, h.mulBy_receive]
    refine bind_ne_error (scale_ne_resultTooLarge ?_) fun _ _ => by rintro ⟨⟩
    exact (divUp_ediv_le h.valid.quote h.valid.base).trans hm.1
  · -- the taker is filled: it receives no more than the maker sells
    rw [if_neg (by simpa using hbig), mul, hpays, h.mulBy_receive]
    refine bind_ne_error (scale_ne_resultTooLarge ?_) fun gets hgets => ?_
    · exact (h.takerGets_le (not_lt.1 hbig)).trans hm.1
    · obtain ⟨-, -, rfl⟩ := scale_eq_ok.1 hgets
      split
      · rintro ⟨⟩
      · rw [multiplyAndRoundUp, mulBy_sell]
        refine bind_ne_error (scale_ne_resultTooLarge ?_) fun _ _ => by rintro ⟨⟩
        exact (divUp_ediv_le h.valid.base h.valid.quote).trans ht.1

lemma Opposite.asks_nonneg : 0 ≤ maker.asks :=
  Int.ediv_nonneg (mul_nonneg h.maker_pos.le h.valid.quote.le) h.valid.base.le

lemma Opposite.takerGets_nonneg : 0 ≤ takerGets taker maker :=
  Int.ediv_nonneg (mul_nonneg h.taker_pos.le h.valid.base.le) h.valid.quote.le

end

variable {x : LimitMatch}

variable (h : Opposite taker maker)
  (hx : limitMatch taker.amountForSale maker.amountForSale maker.sellPrice = .ok (some x))
include h hx

lemma Opposite.amounts_nonneg : 0 ≤ x.takerReceives.amount ∧ 0 ≤ x.makerReceives.amount := by
  have hgets := h.takerGets_nonneg
  have hasks := h.asks_nonneg
  rcases h.limitMatch_cases hx with ⟨-, hr⟩ | ⟨-, -, hr⟩ | ⟨-, -, hr⟩
  · cases hr
    exact ⟨divUp_nonneg (mul_nonneg hasks h.valid.base.le) h.valid.quote, hasks⟩
  · cases hr
  · cases hr
    exact ⟨hgets, divUp_nonneg (mul_nonneg hgets h.valid.quote.le) h.valid.base⟩

lemma Opposite.amounts_le :
    x.makerReceives.amount ≤ taker.forSale ∧ x.takerReceives.amount ≤ maker.forSale := by
  rcases h.limitMatch_cases hx with ⟨hlt, hr⟩ | ⟨-, -, hr⟩ | ⟨hle, -, hr⟩
  · cases hr
    exact ⟨hlt.le, divUp_ediv_le h.valid.quote h.valid.base⟩
  · cases hr
  · cases hr
    exact ⟨divUp_ediv_le h.valid.base h.valid.quote, h.takerGets_le hle⟩

end Amounts

end Graphene.Market
