import Graphene.Market.IndexOrder
import Graphene.Market.Owned

/-!
# Markets without margin calls

A set of markets in which there are no call orders and no settled debt.  An order that was placed is
matched with the orders of the other side from the best price on.  The walk is described by places in the
index: all orders that cross the new one are at the iterator or behind it.
-/

namespace Graphene.Market

open Protocol Lib RunLogic Keyed Option
open LimitOrder (asks forSale onFill receiveAssetId sellAssetId sellPrice unlinked)

structure Facing (o o' : LimitOrder) : Prop where
  sells : o.sellAssetId = o'.receiveAssetId
  buys : o.receiveAssetId = o'.sellAssetId

/-- Two orders on opposite sides of a market cross: the product of their prices is at least one. -/
structure Crosses (o o' : LimitOrder) : Prop extends Facing o o' where
  prices : 1 ≤ o.sellPrice.value * o'.sellPrice.value

section Prices

variable {o o' p : LimitOrder}

lemma Facing.symm (h : Facing o o') : Facing o' o := ⟨h.buys.symm, h.sells.symm⟩

lemma Crosses.symm (h : Crosses o o') : Crosses o' o :=
  ⟨h.toFacing.symm, mul_comm o.sellPrice.value _ ▸ h.prices⟩

lemma Facing.crosses_iff (h : Facing o o') (ho : o.sellPrice.Valid) (ho' : o'.sellPrice.Valid) :
    Crosses o o' ↔ ¬ o'.sellPrice.Less o.sellPrice.inv := by
  have hmar : o'.sellPrice.SameMarket o.sellPrice.inv := ⟨h.buys.symm, h.sells.symm⟩
  rw [Price.less_iff ho' ho.inv hmar, Price.inv_value, not_lt, inv_le_iff_one_le_mul₀ ho.value_pos,
    mul_comm]
  exact ⟨fun hc => hc.prices, fun hprices => ⟨h, hprices⟩⟩

lemma Crosses.of_better (h : Crosses o o') (ho : o.sellPrice.Valid) (ho' : o'.sellPrice.Valid)
    (hp : p.sellPrice.Valid) (hmar : p.sellPrice.SameMarket o.sellPrice)
    (hbet : ¬ p.sellPrice.Less o.sellPrice) : Crosses p o' := by
  rw [Price.less_iff hp ho hmar, not_lt] at hbet
  refine ⟨⟨hmar.1.trans h.sells, hmar.2.trans h.buys⟩, ?_⟩
  calc 1 ≤ o.sellPrice.value * o'.sellPrice.value := h.prices
    _ ≤ p.sellPrice.value * o'.sellPrice.value :=
        mul_le_mul_of_nonneg_right hbet ho'.value_pos.le

lemma Crosses.ne (h : Crosses o o') (ho : o.sellPrice.Valid) : o ≠ o' := by
  rintro rfl
  exact ho.assets h.sells

end Prices

/-! ## The book -/

structure LimitOrder.Resting (o : LimitOrder) : Prop where
  notSettledDebt : o.isSettledDebt = false
  noAction : o.onFill = none
  asks : 1 ≤ o.asks
  forSale_le : o.forSale ≤ grapheneMaxShareSupply

section Markets

variable (M : AssetId → AssetId → Prop)

/-- Markets are taken from both sides. -/
def TwoSided : Prop :=
  ∀ ⦃a b⦄, M a b → M b a

def LimitOrder.In (o : LimitOrder) : Prop :=
  M o.sellAssetId o.receiveAssetId

/-- There are no call orders in the markets.  Call orders are backed by the backing asset, and feeds
are prices in it. -/
structure NoMargin (s : MarketState) : Prop where
  noCalls : ∀ c ∈ s.callOrders.objects, ¬ M c.debtType c.collateralType
  backed : ∀ c ∈ s.callOrders.objects, ∀ b, s.bitassets.find c.debtType = some b →
    c.collateralType = b.shortBackingAsset
  fed : ∀ a b, s.bitassets.find a = some b → ¬ b.currentFeed.settlementPrice.IsNull →
    b.currentFeed.settlementPrice.base.assetId = a ∧
      b.currentFeed.settlementPrice.quote.assetId = b.shortBackingAsset

/-- The markets are quiet, not counting one order. -/
structure QuietBut (i : Nat) (s : MarketState) : Prop where
  valid : ∀ o ∈ s.limitOrders.objects, o.sellPrice.Valid
  resting : ∀ o ∈ s.limitOrders.objects, o.id ≠ i → o.In M → o.Resting
  apart : ∀ o ∈ s.limitOrders.objects, ∀ o' ∈ s.limitOrders.objects, o.id ≠ i → o'.id ≠ i → o.In M →
    ¬ Crosses o o'
  calm : NoMargin M s

/-- The markets are quiet: there are no call orders in them, and the limit orders in them are worth
something and do not cross. -/
structure QuietBook (s : MarketState) : Prop where
  valid : ∀ o ∈ s.limitOrders.objects, o.sellPrice.Valid
  resting : ∀ o ∈ s.limitOrders.objects, o.In M → o.Resting
  apart : ∀ o ∈ s.limitOrders.objects, ∀ o' ∈ s.limitOrders.objects, o.In M → ¬ Crosses o o'
  calm : NoMargin M s

end Markets

variable {M : AssetId → AssetId → Prop} {s t u : MarketState} {env : Env} {cx : Context}
  {o o' taker maker : LimitOrder} {i : Nat}

lemma NoMargin.congr (h : NoMargin M s) (hclose : t.callOrders = s.callOrders)
    (hbit : t.bitassets = s.bitassets) : NoMargin M t := by
  refine ⟨hclose ▸ h.noCalls, ?_, hbit ▸ h.fed⟩
  rw [hclose, hbit]
  exact h.backed

lemma QuietBook.but (h : QuietBook M s) (i : Nat) : QuietBut M i s :=
  ⟨h.valid, fun o ho _ => h.resting o ho, fun o ho o' ho' _ _ => h.apart o ho o' ho', h.calm⟩

lemma QuietBut.comparable (h : QuietBut M i s) : s.LimitsComparable :=
  fun o ho => (h.valid o ho).quote

lemma Facing.in (h : Facing o o') (hM : TwoSided M) (ho : o.In M) : o'.In M := by
  have := hM ho
  rwa [h.sells, h.buys] at this

lemma QuietBut.of_gone (h : QuietBut M i s) (hgone : s.limitOrders.find i = none) :
    QuietBook M s := by
  have hne : ∀ o ∈ s.limitOrders.objects, o.id ≠ i := by
    rintro o ho rfl
    rw [find_of_mem ho] at hgone
    cases hgone
  exact ⟨h.valid, fun o ho => h.resting o ho (hne o ho),
    fun o ho o' ho' => h.apart o ho o' ho' (hne o ho) (hne o' ho'), h.calm⟩

lemma QuietBut.of_resting (h : QuietBut M i s) (hM : TwoSided M)
    (hfind : s.limitOrders.find i = some o) (hrest : o.In M → o.Resting)
    (hapart : ∀ o' ∈ s.limitOrders.objects, o.In M → ¬ Crosses o o') : QuietBook M s := by
  have huni : ∀ x ∈ s.limitOrders.objects, x.id = i → x = o := by
    rintro x hx rfl
    exact mem_unique (find_of_mem hx) hfind
  refine ⟨h.valid, fun x hx hin => ?_, fun x hx y hy hin hcrs => ?_, h.calm⟩
  · by_cases hid : x.id = i
    · obtain rfl := huni x hx hid
      exact hrest hin
    · exact h.resting x hx hid hin
  · by_cases hid : x.id = i
    · obtain rfl := huni x hx hid
      exact hapart y hy hin hcrs
    · by_cases hid' : y.id = i
      · obtain rfl := huni y hy hid'
        exact hapart x hx (hcrs.toFacing.in hM hin) hcrs.symm
      · exact h.apart x hx y hy hid hid' hin hcrs

/-! ## What a trade does to the book -/

structure LimitOrder.Left (o o' : LimitOrder) : Prop where
  id : o'.id = o.id
  price : o'.sellPrice = o.sellPrice
  isSettledDebt : o'.isSettledDebt = o.isSettledDebt
  onFill : o'.onFill = o.onFill
  nonneg : 0 ≤ o'.forSale
  le : o'.forSale ≤ o.forSale

lemma LimitOrder.Left.refl (h : 0 ≤ o.forSale) : o.Left o := ⟨rfl, rfl, rfl, rfl, h, le_rfl⟩

variable {o'' : LimitOrder} {n : Int}

lemma LimitOrder.Left.trans (h : o.Left o') (h' : o'.Left o'') : o.Left o'' :=
  ⟨h'.id.trans h.id, h'.price.trans h.price, h'.isSettledDebt.trans h.isSettledDebt,
    h'.onFill.trans h.onFill, h'.nonneg, h'.le.trans h.le⟩

lemma LimitOrder.Remains.left (h : o.Remains n o') (hpos : 0 ≤ n) (hle : n ≤ o.forSale) :
    o.Left o' where
  id := h.id
  price := h.price
  isSettledDebt := h.isSettledDebt
  onFill := h.onFill
  nonneg := h.forSale ▸ sub_nonneg.2 hle
  le := h.forSale ▸ sub_le_self _ hpos

lemma remains_of_unlinked (h : o'.unlinked = o.unlinked) : o.Remains 0 o' := by
  have hid := congrArg LimitOrder.id h
  have hprice := congrArg sellPrice h
  have hfos := congrArg forSale h
  have hdebt := congrArg LimitOrder.isSettledDebt h
  have hact := congrArg onFill h
  exact ⟨hid, hprice, hfos.trans (sub_zero _).symm, hdebt, hact⟩

lemma Crosses.congr {x x' y y' : LimitOrder} (h : Crosses x' y') (hx : x'.sellPrice = x.sellPrice)
    (hy : y'.sellPrice = y.sellPrice) : Crosses x y := by
  obtain ⟨⟨hsells, hbuys⟩, hprices⟩ := h
  rw [sellAssetId, receiveAssetId, hx, hy] at hsells
  rw [sellAssetId, receiveAssetId, hx, hy] at hbuys
  rw [hx, hy] at hprices
  exact ⟨⟨hsells, hbuys⟩, hprices⟩

lemma LimitOrder.Left.crosses_iff (h : o.Left o') : Crosses o' maker ↔ Crosses o maker :=
  ⟨fun hcrs => hcrs.congr h.price rfl, fun hcrs => hcrs.congr h.price.symm rfl⟩

lemma LimitOrder.place_congr (hid : o'.id = o.id) (hprice : o'.sellPrice = o.sellPrice) :
    o'.place = o.place := by
  rw [place, place, Lib.place, Lib.place, key, key, hprice, hid]

lemma LimitOrder.Left.place (h : o.Left o') : o'.place = o.place := place_congr h.id h.price

lemma LimitOrder.asks_nonneg (h : 0 ≤ o.forSale) (hvalid : o.sellPrice.Valid) : 0 ≤ o.asks :=
  Int.ediv_nonneg (mul_nonneg h hvalid.quote.le) hvalid.base.le

lemma LimitOrder.Left.resting (h : o.Left o') (ho : o.Resting) (hvalid : o.sellPrice.Valid)
    (hasks : o'.asks ≠ 0) : o'.Resting where
  notSettledDebt := h.isSettledDebt.trans ho.notSettledDebt
  noAction := h.onFill.trans ho.noAction
  asks := Int.add_one_le_iff.2 (lt_of_le_of_ne (asks_nonneg h.nonneg (h.price ▸ hvalid)) hasks.symm)
  forSale_le := h.le.trans ho.forSale_le

/-- Every order but one is left of an order that was there, and rests if that one did. -/
structure Worn (i : Nat) (s t : MarketState) : Prop where
  left : ∀ o' ∈ t.limitOrders.objects, o'.id ≠ i → ∃ o ∈ s.limitOrders.objects,
    o'.id = o.id ∧ o'.sellPrice = o.sellPrice ∧ (o.Resting → o'.Resting)
  callOrders : t.callOrders = s.callOrders
  bitassets : t.bitassets = s.bitassets

lemma Worn.quiet (h : Worn i s t) (hs : QuietBut M i s)
    (hvalid : ∀ o, t.limitOrders.find i = some o → o.sellPrice.Valid) : QuietBut M i t where
  valid := by
    intro o' ho'
    by_cases hid : o'.id = i
    · exact hvalid o' (hid ▸ find_of_mem ho')
    · obtain ⟨o, ho, -, hprice, -⟩ := h.left o' ho' hid
      exact hprice ▸ hs.valid o ho
  resting := by
    intro o' ho' hid hin
    obtain ⟨o, ho, hid', hprice, hrest⟩ := h.left o' ho' hid
    refine hrest (hs.resting o ho (hid' ▸ hid) ?_)
    rwa [LimitOrder.In, sellAssetId, receiveAssetId, hprice] at hin
  apart := by
    intro x' hx' y' hy' hx hy hin hcrs
    obtain ⟨x, hxs, hxid, hxpr, -⟩ := h.left x' hx' hx
    obtain ⟨y, hys, hyid, hypr, -⟩ := h.left y' hy' hy
    rw [LimitOrder.In, sellAssetId, receiveAssetId, hxpr] at hin
    exact hs.apart x hxs y hys (hxid ▸ hx) (hyid ▸ hy) hin (hcrs.congr hxpr hypr)
  calm := hs.calm.congr h.callOrders h.bitassets

lemma exists_of_unlinked {j : Nat} (h : (t.limitOrders.find j).map unlinked
    = (s.limitOrders.find j).map unlinked) (ho' : t.limitOrders.find j = some o') :
    ∃ o, s.limitOrders.find j = some o ∧ o'.unlinked = o.unlinked := by
  rw [ho', map_some, eq_comm, map_eq_some_iff] at h
  obtain ⟨o, ho, heq⟩ := h
  exact ⟨o, ho, heq.symm⟩

lemma LimitOrder.Remains.asks_eq (h : o.Remains 0 o') : o'.asks = o.asks := by
  rw [asks, h.price, h.forSale, sub_zero]
  rfl

lemma LimitOrder.Remains.resting (h : o.Remains 0 o') (ho : o.Resting) : o'.Resting where
  notSettledDebt := h.isSettledDebt.trans ho.notSettledDebt
  noAction := h.onFill.trans ho.noAction
  asks := h.asks_eq ▸ ho.asks
  forSale_le := by
    rw [h.forSale, sub_zero]
    exact ho.forSale_le

lemma OnlyOrder.worn (h : OnlyOrder i s t) : Worn i s t where
  left := by
    intro o' ho' hne
    obtain ⟨o, ho, heq⟩ := exists_of_unlinked (h.others o'.id hne) (find_of_mem ho')
    have hsame := remains_of_unlinked heq
    exact ⟨o, mem_of_find ho, hsame.id, hsame.price, hsame.resting⟩
  callOrders := h.callOrders
  bitassets := h.bitassets

lemma OnlyOrder.exists_remains (h : OnlyOrder i s t) (ho : s.limitOrders.find o.id = some o)
    (hne : o.id ≠ i) : ∃ o', o.Remains 0 o' ∧ t.limitOrders.find o'.id = some o' := by
  have hoth := h.others o.id hne
  rw [ho, map_some, map_eq_some_iff] at hoth
  obtain ⟨o', ho', heq⟩ := hoth
  have hsame := remains_of_unlinked heq
  exact ⟨o', hsame, hsame.id ▸ ho'⟩

/-! ## Matching two orders -/

structure Traded (taker maker : LimitOrder) (r : MatchResult) (s t : MarketState) : Prop where
  others : ∀ j, j ≠ taker.id → j ≠ maker.id →
    (t.limitOrders.find j).map LimitOrder.unlinked = (s.limitOrders.find j).map LimitOrder.unlinked
  callOrders : t.callOrders = s.callOrders
  bitassets : t.bitassets = s.bitassets
  makerLeft : ∀ m, t.limitOrders.find maker.id = some m →
    r ≠ .onlyMakerFilled ∧ maker.Left m ∧ m.asks ≠ 0
  takerLeft : ∀ o, t.limitOrders.find taker.id = some o →
    taker.Left o ∧ (r ≠ .onlyMakerFilled → o.asks = 0)
  takerStays : r = .onlyMakerFilled → ∃ o, t.limitOrders.find taker.id = some o
  owned : ownLogic.step s t 0

lemma Crosses.asks_le (h : Crosses taker maker) (htkr : taker.sellPrice.Valid)
    (hmkr : maker.sellPrice.Valid) (hpos : 0 ≤ taker.forSale) :
    taker.asks ≤ takerGets taker maker := by
  have hcrs : taker.sellPrice.quote.amount * maker.sellPrice.quote.amount
      ≤ taker.sellPrice.base.amount * maker.sellPrice.base.amount := by
    have hprices := h.prices
    have hq : (0 : ℚ) < taker.sellPrice.quote.amount * maker.sellPrice.quote.amount :=
      mul_pos (Int.cast_pos.2 htkr.quote) (Int.cast_pos.2 hmkr.quote)
    rw [Price.value, Price.value, div_mul_div_comm, le_div_iff₀ hq, one_mul] at hprices
    exact_mod_cast hprices
  apply Int.le_ediv_of_mul_le hmkr.quote
  refine le_of_mul_le_mul_right ?_ htkr.base
  calc taker.asks * maker.sellPrice.quote.amount * taker.sellPrice.base.amount
      = taker.asks * taker.sellPrice.base.amount * maker.sellPrice.quote.amount := by ring
    _ ≤ taker.forSale * taker.sellPrice.quote.amount * maker.sellPrice.quote.amount :=
        mul_le_mul_of_nonneg_right (Int.ediv_mul_le _ htkr.base.ne') hmkr.quote.le
    _ = taker.forSale * (taker.sellPrice.quote.amount * maker.sellPrice.quote.amount) := by ring
    _ ≤ taker.forSale * (taker.sellPrice.base.amount * maker.sellPrice.base.amount) :=
        mul_le_mul_of_nonneg_left hcrs hpos
    _ = taker.forSale * maker.sellPrice.base.amount * taker.sellPrice.base.amount := by ring

lemma Crosses.id_ne (h : Crosses taker maker) (htkr : s.limitOrders.find taker.id = some taker)
    (hmkr : s.limitOrders.find maker.id = some maker) (hvalid : taker.sellPrice.Valid) :
    taker.id ≠ maker.id := by
  intro hid
  rw [hid, hmkr] at htkr
  exact h.ne hvalid (some.inj htkr).symm

/-- A taker that would get nothing asks for nothing at its own price. -/
lemma Opposite.asks_eq_zero (h : Opposite taker maker) (hcrs : Crosses taker maker)
    (hvalid : taker.sellPrice.Valid)
    (hok : limitMatch taker.amountForSale maker.amountForSale maker.sellPrice = .ok none) :
    taker.asks = 0 := by
  rcases h.limitMatch_cases hok with ⟨-, hr⟩ | ⟨-, hzero, -⟩ | ⟨-, -, hr⟩
  · cases hr
  · exact le_antisymm (hzero ▸ hcrs.asks_le hvalid h.valid h.taker_pos.le)
      (LimitOrder.asks_nonneg h.taker_pos.le hvalid)
  · cases hr

lemma LimitOrder.Remains.relinked (h : o.Remains n o') (h' : o'.Remains 0 o'') : o.Remains n o'' :=
  ⟨h'.id.trans h.id, h'.price.trans h.price, by rw [h'.forSale, sub_zero, h.forSale],
    h'.isSettledDebt.trans h.isSettledDebt, h'.onFill.trans h.onFill⟩

lemma traded_of_filled {x : LimitMatch} {takerFilled makerFilled : Bool} {maker' : LimitOrder}
    (hne : taker.id ≠ maker.id) (hsame : maker.Remains 0 maker')
    (hx : 0 ≤ x.takerReceives.amount ∧ 0 ≤ x.makerReceives.amount)
    (hle : x.makerReceives.amount ≤ taker.forSale ∧ x.takerReceives.amount ≤ maker.forSale)
    (h1 : FilledOrder taker x.makerReceives x.cullTaker takerFilled s t)
    (h2 : FilledOrder maker' x.takerReceives true makerFilled t u)
    (hown1 : ownLogic.step s t (amounts x.takerReceives - amounts x.makerReceives))
    (hown2 : ownLogic.step t u (amounts x.makerReceives - amounts x.takerReceives))
    (hres : getMatchResult takerFilled makerFilled ≠ .noneFilled) :
    Traded taker maker (getMatchResult takerFilled makerFilled) s u where
  others := fun j hj hj' => (h2.only.others j (hsame.id ▸ hj')).trans (h1.only.others j hj)
  callOrders := h2.only.callOrders.trans h1.only.callOrders
  bitassets := h2.only.bitassets.trans h1.only.bitassets
  makerLeft := by
    intro m hm
    rw [← hsame.id] at hm
    cases makerFilled with
    | true => rw [h2.gone rfl] at hm; cases hm
    | false =>
      obtain ⟨m', hm', hrem, hasks⟩ := h2.remains rfl
      obtain rfl : m' = m := mem_unique hm' hm
      have hleft : maker'.Left m' := hrem.left hx.1 (by
        rw [hsame.forSale, sub_zero]
        exact hle.2)
      refine ⟨?_, ⟨hleft.id.trans hsame.id, hleft.price.trans hsame.price,
        hleft.isSettledDebt.trans hsame.isSettledDebt, hleft.onFill.trans hsame.onFill, hleft.nonneg,
        hleft.le.trans (by rw [hsame.forSale, sub_zero])⟩, hasks rfl⟩
      cases takerFilled <;> exact nofun
  takerLeft := by
    intro o ho
    obtain ⟨o1, ho1, heq⟩ := exists_of_unlinked (h2.only.others taker.id (hsame.id ▸ hne)) ho
    cases takerFilled with
    | true => rw [h1.gone rfl] at ho1; cases ho1
    | false =>
      obtain ⟨o2, ho2, hrem, -⟩ := h1.remains rfl
      obtain rfl : o2 = o1 := mem_unique ho2 ho1
      refine ⟨(hrem.relinked (remains_of_unlinked heq)).left hx.2 hle.1, fun hr => ?_⟩
      cases makerFilled with
      | true => exact absurd rfl hr
      | false => exact absurd rfl hres
  takerStays := by
    intro hr
    cases takerFilled with
    | true => cases makerFilled <;> cases hr
    | false =>
      obtain ⟨o1, ho1, -⟩ := h1.remains rfl
      have hoth := h2.only.others taker.id (hsame.id ▸ hne)
      rw [ho1, map_some, map_eq_some_iff] at hoth
      obtain ⟨o, ho, -⟩ := hoth
      exact ⟨o, ho⟩
  owned := by
    -- the one pays what the other receives
    have hsum := ownLogic.trans hown1 hown2
    rwa [sub_add_sub_cancel, sub_self] at hsum

variable {r : MatchResult} (htkr : s.limitOrders.find taker.id = some taker)
  (hmkr : s.limitOrders.find maker.id = some maker)
include htkr hmkr

lemma completes_matchLimits (hact : taker.onFill = none) (hvalid : taker.sellPrice.Valid)
    (hvld' : maker.sellPrice.Valid) (hrest : maker.Resting) (hcrs : Crosses taker maker) :
    Completes s (cx.matchLimits taker.id maker.id) fun r t => Traded taker maker r s t := by
  have hne := hcrs.id_ne htkr hmkr hvalid
  refine completes_fetchOrder fun taker' htaker' => completes_fetchOrder fun maker' hmaker' => ?_
  obtain rfl : taker = taker' := mem_unique htkr htaker'
  obtain rfl : maker = maker' := mem_unique hmkr hmaker'
  refine completes_require nofun fun hok => ?_
  obtain ⟨-, hpays, htap, hmap⟩ := of_decide_eq_true hok
  have hopp : Opposite taker maker := ⟨hpays, htap, hmap, hvld'⟩
  rw [if_neg (by simp [hrest.notSettledDebt])]
  refine completes_require nofun fun _ => completes_require nofun fun _ => ?_
  refine completes_calculate fun amounts hamounts => ?_
  cases amounts with
  | none =>
    have hasks := hopp.asks_eq_zero hcrs hvalid hamounts
    refine ends_pure ⟨fun _ _ _ => rfl, rfl, rfl, fun m hm => ?_, fun o ho => ?_, nofun,
      ownLogic.refl s⟩
    · obtain rfl : maker = m := mem_unique hmkr hm
      exact ⟨nofun, .refl hmap.le, (Int.lt_of_lt_of_le Int.zero_lt_one hrest.asks).ne'⟩
    · obtain rfl : taker = o := mem_unique htkr ho
      exact ⟨.refl htap.le, fun _ => hasks⟩
  | some x =>
    have hle := hopp.amounts_le hamounts
    refine ((completes_fillLimitOrder htkr hact _ _ _ _).and_holds
      (own_fillLimitOrder htkr hact hle.1 _ _ _)).bind ?_
    rintro takerFilled t ⟨h1, hown1⟩
    obtain ⟨maker1, hsame, hfind⟩ := h1.only.exists_remains hmkr hne.symm
    have hact' := hsame.onFill.trans hrest.noAction
    have hle' : x.takerReceives.amount ≤ maker1.forSale := by
      rw [hsame.forSale, sub_zero]
      exact hle.2
    rw [← hsame.id]
    refine ((completes_fillLimitOrder hfind hact' _ _ _ _).and_holds
      (own_fillLimitOrder hfind hact' hle' _ _ _)).bind ?_
    rintro makerFilled u ⟨h2, hown2⟩
    refine completes_require nofun fun hres => ends_pure ?_
    exact traded_of_filled hne hsame (hopp.amounts_nonneg hamounts) hle h1 h2 hown1 hown2
      (of_decide_eq_true hres)

omit htkr in
lemma Traded.worn (h : Traded taker maker r s t) (hvalid : maker.sellPrice.Valid) :
    Worn taker.id s t where
  left := by
    intro o' ho' hne
    by_cases hid : o'.id = maker.id
    · obtain ⟨-, hleft, hasks⟩ := h.makerLeft o' (hid ▸ find_of_mem ho')
      exact ⟨maker, mem_of_find hmkr, hid, hleft.price, fun ho => hleft.resting ho hvalid hasks⟩
    · obtain ⟨o, ho, heq⟩ := exists_of_unlinked (h.others o'.id hne hid) (find_of_mem ho')
      have hsame := remains_of_unlinked heq
      exact ⟨o, mem_of_find ho, hsame.id, hsame.price, hsame.resting⟩
  callOrders := h.callOrders
  bitassets := h.bitassets

lemma Traded.ids (h : Traded taker maker r s t) :
    ∀ x ∈ t.limitOrders.objects, x.id ∈ s.limitOrders.objects.map LimitOrder.id := by
  intro x hx
  by_cases hid : x.id = taker.id
  · exact List.mem_map.2 ⟨taker, mem_of_find htkr, hid.symm⟩
  · by_cases hid' : x.id = maker.id
    · exact List.mem_map.2 ⟨maker, mem_of_find hmkr, hid'.symm⟩
    · obtain ⟨o, ho, -⟩ := exists_of_unlinked (h.others x.id hid hid') (find_of_mem hx)
      exact List.mem_map.2 ⟨o, mem_of_find ho, key_of_find ho⟩

lemma Traded.places (h : Traded taker maker .onlyMakerFilled s t) :
    t.limitPlaces = s.limitPlaces \ {maker.place} := by
  have hplace : ∀ {x y : LimitOrder}, x.id ≠ y.id → x.place ≠ y.place := fun hid => place_ne hid
  ext p
  rw [Set.mem_sdiff, Set.mem_singleton_iff, mem_limitPlaces, mem_limitPlaces]
  constructor
  · rintro ⟨x, hx, rfl⟩
    have hfind := find_of_mem hx
    have hid' : x.id ≠ maker.id := fun hid' => (h.makerLeft x (hid' ▸ hfind)).1 rfl
    by_cases hid : x.id = taker.id
    · obtain ⟨hleft, -⟩ := h.takerLeft x (hid ▸ hfind)
      exact ⟨⟨taker, mem_of_find htkr, hleft.place.symm⟩, hplace hid'⟩
    · obtain ⟨o, ho, heq⟩ := exists_of_unlinked (h.others x.id hid hid') hfind
      have hsame := remains_of_unlinked heq
      exact ⟨⟨o, mem_of_find ho, (LimitOrder.place_congr hsame.id hsame.price).symm⟩, hplace hid'⟩
  · rintro ⟨⟨x, hx, rfl⟩, hneq⟩
    have hfind := find_of_mem hx
    have hid' : x.id ≠ maker.id := by
      intro hid'
      rw [hid', hmkr] at hfind
      exact hneq (congrArg LimitOrder.place (some.inj hfind)).symm
    by_cases hid : x.id = taker.id
    · obtain ⟨o, ho⟩ := h.takerStays rfl
      obtain ⟨hleft, -⟩ := h.takerLeft o ho
      rw [hid, htkr] at hfind
      cases hfind
      exact ⟨o, mem_of_find ho, hleft.place⟩
    · have hoth := h.others x.id hid hid'
      rw [hfind, map_some, map_eq_some_iff] at hoth
      obtain ⟨o, ho, heq⟩ := hoth
      have hsame := remains_of_unlinked heq
      exact ⟨o, mem_of_find ho, LimitOrder.place_congr hsame.id hsame.price⟩

end Graphene.Market
