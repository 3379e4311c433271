import Graphene.Market.QuietMarkets

/-!
# The order book invariant

In quiet markets an order that is placed is matched until it is gone, or worth nothing, or crosses
no order any more.  So after every operation the resting orders do not cross, and as many rounds as
there are limit orders are enough for the walk.
-/

namespace Graphene.Market

open Protocol Lib RunLogic Keyed Price Option Set
open Price (below highest notAbove value)

variable {M : AssetId → AssetId → Prop} {s t u : MarketState} {env : Env} {cx : Context}
  {o o' taker maker : LimitOrder} {i : Nat}
  {C E : Set LimitPlace} {itr stop : Option ℕ}

/-! ## The walk -/

/-- A range of places: what is at or behind `C`, but not yet at `E`, crosses the order. -/
structure WalkRange (taker : LimitOrder) (C E : Set LimitPlace) : Prop where
  sub : E ⊆ C
  upper : IsUpperSet C
  upper_end : IsUpperSet E
  crosses : ∀ o : LimitOrder, o.sellPrice.Valid → o.place ∈ C → o.place ∉ E → Crosses taker o

/-- The walk is at an iterator: all orders that cross are at it or behind it. -/
structure Walking (M : AssetId → AssetId → Prop) (taker : LimitOrder)
    (C E : Set LimitPlace) (itr stop : Option ℕ) (s : MarketState) : Prop where
  book : QuietBut M taker.id s
  present : ∃ o, s.limitOrders.find taker.id = some o ∧ taker.Left o
  first : IsFirst (s.limitPlaces ∩ C) itr
  last : IsFirst (s.limitPlaces ∩ E) stop
  ahead : ∀ o ∈ s.limitOrders.objects, Crosses taker o → o.place ∈ C

/-- How a walk ends: the order is gone or worth nothing, or the end of the range is reached. -/
structure Walked (M : AssetId → AssetId → Prop) (taker : LimitOrder)
    (E : Set LimitPlace) (s : MarketState) (r : Bool × Option ℕ)
    (t : MarketState) : Prop where
  book : QuietBut M taker.id t
  left : ∀ o, t.limitOrders.find taker.id = some o → taker.Left o
  count : t.limitOrders.objects.length ≤ s.limitOrders.objects.length
  callOrders : t.callOrders = s.callOrders
  bitassets : t.bitassets = s.bitassets
  owned : ownLogic.step s t 0
  finished : r.1 = true → ∀ o, t.limitOrders.find taker.id = some o → o.asks = 0
  present : r.1 = false → ∃ o, t.limitOrders.find taker.id = some o
  places : r.1 = false → t.limitPlaces ∩ E = s.limitPlaces ∩ E
  reached : r.1 = false → IsFirst (t.limitPlaces ∩ E) r.2
  behind : r.1 = false → ∀ o ∈ t.limitOrders.objects, Crosses taker o → o.place ∈ E

lemma Walking.walked {D} (h : Walking M taker C E itr stop s)
    (hreached : IsFirst (s.limitPlaces ∩ D) itr)
    (hbehind : ∀ o ∈ s.limitOrders.objects, Crosses taker o → o.place ∈ D) :
    Walked M taker D s (false, itr) s where
  book := h.book
  left := by
    intro o ho
    obtain ⟨o', ho', hleft⟩ := h.present
    obtain rfl : o' = o := mem_unique ho' ho
    exact hleft
  count := le_rfl
  callOrders := rfl
  bitassets := rfl
  owned := ownLogic.refl s
  finished := nofun
  present := fun _ => h.present.imp fun _ ho => ho.1
  places := fun _ => rfl
  reached := fun _ => hreached
  behind := fun _ => hbehind

lemma Walking.at_end (h : Walking M taker C E itr stop s) (hrng : WalkRange taker C E)
    (hend : itr = stop) : Walked M taker E s (false, itr) s := by
  refine h.walked (hend ▸ h.last) fun o ho hcrs => ?_
  have hC := h.ahead o ho hcrs
  have hplace : o.place ∈ s.limitPlaces := mem_limitPlaces.2 ⟨o, ho, rfl⟩
  -- the end is the first place of both sets
  rcases h.first with ⟨hemp, -⟩ | ⟨p, hp, rfl⟩
  · exact absurd (show o.place ∈ s.limitPlaces ∩ C from ⟨hplace, hC⟩) (hemp ▸ notMem_empty _)
  · rcases h.last with ⟨-, hnone⟩ | ⟨q, hq, hsome⟩
    · rw [hnone] at hend
      cases hend
    · rw [hsome] at hend
      obtain ⟨x, hx, rfl⟩ := mem_limitPlaces.1 hp.1.1
      obtain ⟨y, hy, rfl⟩ := mem_limitPlaces.1 hq.1.1
      have hid : x.id = y.id := some.inj hend
      obtain rfl := eq_of_key_eq hx hy hid
      exact hrng.upper_end (hp.2 ⟨hplace, hC⟩) hq.1.2

lemma Walking.at_maker (h : Walking M taker C E itr stop s) (hrng : WalkRange taker C E)
    (hne : itr ≠ stop) : ∃ maker ∈ s.limitOrders.objects, itr = some maker.id ∧
      IsLeast (s.limitPlaces ∩ C) maker.place ∧ maker.place ∉ E ∧ Crosses taker maker := by
  rcases h.first with ⟨hemp, rfl⟩ | ⟨p, hp, rfl⟩
  · -- nothing is left, so the end is reached as well
    refine absurd (IsFirst.unique (A := s.limitPlaces ∩ E) (.inl ⟨?_, rfl⟩) h.last) hne
    rw [eq_empty_iff_forall_notMem] at hemp ⊢
    exact fun q hq => hemp q ⟨hq.1, hrng.sub hq.2⟩
  · obtain ⟨maker, hmkr, rfl⟩ := mem_limitPlaces.1 hp.1.1
    have hE : maker.place ∉ E := by
      intro hE
      have hlst : IsLeast (s.limitPlaces ∩ E) maker.place :=
        ⟨⟨hp.1.1, hE⟩, fun q hq => hp.2 ⟨hq.1, hrng.sub hq.2⟩⟩
      exact hne (IsFirst.unique (.inr ⟨_, hlst, rfl⟩) h.last)
    exact ⟨maker, hmkr, rfl, hp, hE, hrng.crosses maker (h.book.valid maker hmkr) hp.1.2 hE⟩

lemma WalkRange.next (h : WalkRange taker C E) (hC : maker.place ∈ C) (hE : maker.place ∉ E) :
    WalkRange taker (Set.Ioi maker.place) E where
  sub := fun _ hp => not_le.1 fun hle => hE (h.upper_end hle hp)
  upper := fun _ _ hle hlt => lt_of_lt_of_le hlt hle
  upper_end := h.upper_end
  crosses := fun o ho hplace => h.crosses o ho (h.upper (le_of_lt hplace) hC)

lemma Walking.step (h : Walking M taker C E itr stop s)
    (ho : s.limitOrders.find taker.id = some o) (hleft : taker.Left o)
    (hmkr : maker ∈ s.limitOrders.objects) (hlst : IsLeast (s.limitPlaces ∩ C) maker.place)
    (hE : maker.place ∉ E) (htra : Traded o maker .onlyMakerFilled s t) :
    Walking M taker (Set.Ioi maker.place) E (s.limitNext maker.id) stop t ∧
      t.limitPlaces ∩ E = s.limitPlaces ∩ E := by
  have ho' : s.limitOrders.find o.id = some o := hleft.id ▸ ho
  have hfind := find_of_mem hmkr
  have hpla := htra.places ho' hfind
  have hkeep : ∀ D : Set LimitPlace, maker.place ∉ D →
      t.limitPlaces ∩ D = s.limitPlaces ∩ D := by
    intro D hD
    ext p
    rw [hpla, mem_inter_iff, mem_inter_iff, mem_sdiff, mem_singleton_iff]
    exact and_congr_left fun hp => and_iff_left_of_imp fun _ he => hD (he ▸ hp)
  have hworn := htra.worn hfind (h.book.valid maker hmkr)
  rw [hleft.id] at hworn
  have hvalid : ∀ x, t.limitOrders.find taker.id = some x → x.sellPrice.Valid := by
    intro x hx
    rw [← hleft.id] at hx
    rw [(htra.takerLeft x hx).1.price]
    exact h.book.valid o (mem_of_find ho)
  refine ⟨⟨hworn.quiet h.book hvalid, ?_, ?_, ?_, ?_⟩, hkeep E hE⟩
  · obtain ⟨x, hx⟩ := htra.takerStays rfl
    exact ⟨x, hleft.id ▸ hx, hleft.trans (htra.takerLeft x hx).1⟩
  · rw [hkeep _ (by simp)]
    exact isFirst_limitNext h.book.comparable hmkr
  · rw [hkeep E hE]
    exact h.last
  · intro x hx hcrs
    -- the order was there before, at the same place, behind the maker
    have hmem : x.place ∈ t.limitPlaces := mem_limitPlaces.2 ⟨x, hx, rfl⟩
    rw [hpla, mem_sdiff, mem_singleton_iff] at hmem
    obtain ⟨y, hy, hypl⟩ := mem_limitPlaces.1 hmem.1
    have hyC : y.place ∈ C := by
      refine h.ahead y hy ?_
      by_cases hid : x.id = taker.id
      · -- the order does not cross itself
        have hxleft := (htra.takerLeft x (hleft.id.symm ▸ hid ▸ find_of_mem hx)).1
        have hself : Crosses x x := (hleft.trans hxleft).crosses_iff.2 hcrs
        refine absurd rfl (hself.ne ?_)
        rw [(hleft.trans hxleft).price, ← hleft.price]
        exact h.book.valid o (mem_of_find ho)
      · obtain ⟨z, hz, hzid, hzpr, -⟩ := hworn.left x hx hid
        have hyid : y.id = z.id := (congrArg numberAt hypl).trans hzid
        obtain rfl := eq_of_key_eq hy hz hyid
        obtain ⟨⟨hsells, hbuys⟩, hprices⟩ := hcrs
        have hquote : x.receiveAssetId = y.receiveAssetId := congrArg (·.quote.assetId) hzpr
        have hbase : x.sellAssetId = y.sellAssetId := congrArg (·.base.assetId) hzpr
        exact ⟨⟨hsells.trans hquote, hbuys.trans hbase⟩, hzpr ▸ hprices⟩
    rw [← hypl] at hmem ⊢
    exact lt_of_le_of_ne (hlst.2 ⟨hmem.1, hyC⟩) (Ne.symm hmem.2)

lemma completes_matchWhile (hM : TwoSided M) (hin : taker.In M)
    (hact : taker.onFill = none) (fuel : Nat) :
    ∀ {s : MarketState} {C : Set LimitPlace} {itr : Option ℕ},
      s.limitOrders.objects.length < fuel → WalkRange taker C E → Walking M taker C E itr stop s →
      Completes s (cx.matchWhile taker.id stop fuel itr) fun r t => Walked M taker E s r t := by
  induction fuel with
  | zero => exact fun hfuel => absurd hfuel (Nat.not_lt_zero _)
  | succ fuel ih =>
    intro s C itr hfuel hrng h
    unfold Context.matchWhile
    split
    next hend => exact ends_pure (h.at_end hrng hend)
    next hend =>
      obtain ⟨maker, hmkr, rfl, hlst, hE, hcrs⟩ := h.at_maker hrng hend
      obtain ⟨o, ho, hleft⟩ := h.present
      have hfind := find_of_mem hmkr
      have ho' : s.limitOrders.find o.id = some o := hleft.id ▸ ho
      have hvalid := h.book.valid o (mem_of_find ho)
      have hvld' := h.book.valid maker hmkr
      have hcrs' := hleft.crosses_iff.2 hcrs
      have hne : maker.id ≠ taker.id := by
        intro hid
        rw [hid, ho] at hfind
        exact hcrs'.ne hvalid (some.inj hfind)
      have hrest := h.book.resting maker hmkr hne (hcrs.toFacing.in hM hin)
      refine completes_orThrow nofun fun i hi => completes_observe ?_
      cases hi
      have hmatch : Completes _ (cx.matchLimits _ maker.id) _ :=
        completes_matchLimits ho' hfind (hleft.onFill.trans hact) hvalid hvld' hrest hcrs'
      rw [hleft.id] at hmatch
      refine hmatch.bind fun r t htra => ?_
      have hids := htra.ids ho' hfind
      split
      next hr =>
        subst hr
        obtain ⟨hnext, hpla⟩ := h.step ho hleft hmkr hlst hE htra
        have hgone : t.limitOrders.find maker.id = none := by
          rw [eq_none_iff_forall_ne_some]
          exact fun m hm => (htra.makerLeft m hm).1 rfl
        have hlt := length_lt_of_gone hfind hgone hids
        refine (ih (by omega) (hrng.next hlst.1.2 hE) hnext).mono fun r u hu => ?_
        exact { hu with
          count := hu.count.trans hlt.le
          callOrders := hu.callOrders.trans htra.callOrders
          bitassets := hu.bitassets.trans htra.bitassets
          owned := (add_zero (0 : AssetId → ℤ)) ▸ ownLogic.trans htra.owned hu.owned
          places := fun hr => (hu.places hr).trans hpla }
      next hr =>
        have hworn := htra.worn hfind hvld'
        rw [hleft.id] at hworn
        refine ends_pure ⟨hworn.quiet h.book fun x hx => ?_, fun x hx => ?_,
          length_le_of_keys hids, htra.callOrders, htra.bitassets, htra.owned, fun _ x hx => ?_,
          nofun, nofun, nofun, nofun⟩
        · rw [← hleft.id] at hx
          rwa [(htra.takerLeft x hx).1.price]
        · exact hleft.trans (htra.takerLeft x (hleft.id.symm ▸ hx)).1
        · exact (htra.takerLeft x (hleft.id.symm ▸ hx)).2 hr

/-! ## The ranges of `apply_order` -/

lemma highest_quote (a b : AssetId) : 0 < (highest a b).quote.amount := Int.one_pos

lemma LimitOrder.Resting.not_above (h : o.Resting) (hvalid : o.sellPrice.Valid) :
    ¬ (highest o.sellAssetId o.receiveAssetId).Less o.sellPrice := by
  have hmax : (highest o.sellAssetId o.receiveAssetId).Valid :=
    ⟨show (0 : Int) < grapheneMaxShareSupply by decide, Int.one_pos, hvalid.assets⟩
  have hbase : o.sellPrice.base.amount ≤ grapheneMaxShareSupply * o.sellPrice.quote.amount :=
    calc o.sellPrice.base.amount = 1 * o.sellPrice.base.amount := (one_mul _).symm
      _ ≤ o.asks * o.sellPrice.base.amount := mul_le_mul_of_nonneg_right h.asks hvalid.base.le
      _ ≤ o.forSale * o.sellPrice.quote.amount := Int.ediv_mul_le _ hvalid.base.ne'
      _ ≤ grapheneMaxShareSupply * o.sellPrice.quote.amount :=
          mul_le_mul_of_nonneg_right h.forSale_le hvalid.quote.le
  rw [less_iff hmax hvalid ⟨rfl, rfl⟩, not_lt, value, value,
    div_le_iff₀ (Int.cast_pos.2 hvalid.quote)]
  change (o.sellPrice.base.amount : ℚ)
    ≤ (grapheneMaxShareSupply : ℤ) / ((1 : ℤ) : ℚ) * o.sellPrice.quote.amount
  rw [Int.cast_one, div_one]
  exact_mod_cast hbase

/-- The other side of the market of an order, from its best price on. -/
def otherSide (taker : LimitOrder) : Set LimitPlace :=
  Price.notAbove (Price.highest taker.receiveAssetId taker.sellAssetId)

variable {p : Price}

lemma QuietBut.not_between (h : QuietBut M taker.id s) (hM : TwoSided M)
    (hin : taker.In M) (hvalid : taker.sellPrice.Valid)
    (hfind : s.limitOrders.find taker.id = some taker) (hp : p.SameMarket taker.sellPrice.inv)
    (ho : o ∈ s.limitOrders.objects) (hnot : ¬ p.Less o.sellPrice) : o.place ∈ otherSide taker := by
  have hquote := (h.valid o ho).quote
  refine (place_mem_notAbove hquote (highest_quote _ _)).2 fun habv => ?_
  -- the order would be of this side of the market
  have hlow : ¬ o.sellPrice.Less (highest taker.receiveAssetId taker.sellAssetId) := by
    rw [less_iff_rank hquote (highest_quote _ _)]
    rw [less_iff_rank (highest_quote _ _) hquote] at habv
    exact habv.not_gt
  have hmar := sameMarket_of_not_less (q := p)
    (r := highest taker.receiveAssetId taker.sellAssetId) ⟨hp.1, hp.2⟩ hnot hlow
  have hbase : o.sellAssetId = taker.receiveAssetId := hmar.1.trans hp.1
  have hquo' : o.receiveAssetId = taker.sellAssetId := hmar.2.trans hp.2
  have hne : o.id ≠ taker.id := by
    intro hid
    have hfind' := find_of_mem ho
    rw [hid, hfind] at hfind'
    obtain rfl := some.inj hfind'
    exact hvalid.assets hbase
  have hinM : o.In M := by
    have := hM hin
    rwa [← hbase, ← hquo'] at this
  refine (h.resting o ho hne hinM).not_above (h.valid o ho) ?_
  rwa [hbase, hquo']

structure Bound (taker : LimitOrder) (p : Price) : Prop where
  valid : p.Valid
  market : p.SameMarket taker.sellPrice.inv
  bound : ¬ p.Less taker.sellPrice.inv

lemma crosses_of_between (hvalid : taker.sellPrice.Valid) (ho : o.sellPrice.Valid) {q : Price}
    (hq : q.SameMarket taker.sellPrice.inv) (hhigh : ¬ q.Less o.sellPrice)
    (hlow : ¬ o.sellPrice.Less taker.sellPrice.inv) : Crosses taker o := by
  have hmar := sameMarket_of_not_less hq hhigh hlow
  have hfac : Facing taker o := ⟨(hmar.2.trans hq.2).symm, (hmar.1.trans hq.1).symm⟩
  exact (hfac.crosses_iff hvalid ho).2 hlow

lemma highest_sameMarket :
    (highest taker.receiveAssetId taker.sellAssetId).SameMarket taker.sellPrice.inv :=
  ⟨rfl, rfl⟩

section

variable (hvalid : taker.sellPrice.Valid)
include hvalid

lemma walkRange_whole :
    WalkRange taker (otherSide taker ∪ below taker.sellPrice.inv)
      (below taker.sellPrice.inv) where
  sub := subset_union_right
  upper := (isUpperSet_notAbove _).union (isUpperSet_below _)
  upper_end := isUpperSet_below _
  crosses := by
    intro o ho hC hE
    have hside := hC.resolve_right hE
    rw [place_mem_below ho.quote hvalid.inv.quote] at hE
    exact crosses_of_between hvalid ho highest_sameMarket
      ((place_mem_notAbove ho.quote (highest_quote _ _)).1 hside) hE

lemma walkRange_first (hp : Bound taker p) :
    WalkRange taker (otherSide taker ∪ notAbove p) (notAbove p) where
  sub := subset_union_right
  upper := (isUpperSet_notAbove _).union (isUpperSet_notAbove _)
  upper_end := isUpperSet_notAbove _
  crosses := by
    intro o ho hC hE
    have hside := hC.resolve_right hE
    rw [place_mem_notAbove ho.quote hp.valid.quote, not_not] at hE
    refine crosses_of_between hvalid ho highest_sameMarket
      ((place_mem_notAbove ho.quote (highest_quote _ _)).1 hside) ?_
    -- the order is above the margin calls, and these are not below the inverse price
    have hbnd := hp.bound
    rw [less_iff_rank hp.valid.quote ho.quote] at hE
    rw [less_iff_rank hp.valid.quote hvalid.inv.quote, not_lt] at hbnd
    rw [less_iff_rank ho.quote hvalid.inv.quote]
    exact (hbnd.trans_lt hE).not_gt

lemma walkRange_rest (hp : Bound taker p) :
    WalkRange taker (notAbove p) (below taker.sellPrice.inv) where
  sub := by
    intro x hx
    have hbnd := hp.bound
    rw [less_iff_rank hp.valid.quote hvalid.inv.quote, not_lt] at hbnd
    have hlt : OrderDual.toDual taker.sellPrice.inv.rank < (ofLex x).1 := hx
    have hle : OrderDual.toDual p.rank ≤ OrderDual.toDual taker.sellPrice.inv.rank := hbnd
    exact hle.trans hlt.le
  upper := isUpperSet_notAbove _
  upper_end := isUpperSet_below _
  crosses := by
    intro o ho hC hE
    rw [place_mem_notAbove ho.quote hp.valid.quote] at hC
    rw [place_mem_below ho.quote hvalid.inv.quote] at hE
    exact crosses_of_between hvalid ho hp.market hC hE

end

structure Placed (M : AssetId → AssetId → Prop) (taker : LimitOrder) (s : MarketState) : Prop where
  book : QuietBut M taker.id s
  found : s.limitOrders.find taker.id = some taker
  within : taker.In M
  resting : taker.Resting

section

variable (h : Placed M taker s)
include h

lemma Placed.valid : taker.sellPrice.Valid :=
  h.book.valid taker (mem_of_find h.found)

lemma Placed.forSale_nonneg : 0 ≤ taker.forSale := by
  by_contra hneg
  have hlt : taker.forSale * taker.sellPrice.quote.amount < 0 :=
    mul_neg_of_neg_of_pos (not_le.1 hneg) h.valid.quote
  have hasks : taker.asks < 0 := Int.ediv_neg_of_neg_of_pos hlt h.valid.base
  exact absurd h.resting.asks (by omega)

lemma Placed.ahead (hM : TwoSided M) :
    ∀ o ∈ s.limitOrders.objects, Crosses taker o → o.place ∈ otherSide taker := by
  intro o ho hcrs
  have hne : o.id ≠ taker.id := by
    intro hid
    have hfind := find_of_mem ho
    rw [hid, h.found] at hfind
    exact hcrs.ne h.valid (some.inj hfind)
  refine (place_mem_notAbove (h.book.valid o ho).quote (highest_quote _ _)).2 ?_
  rw [hcrs.buys, hcrs.sells]
  exact (h.book.resting o ho hne (hcrs.toFacing.in hM h.within)).not_above (h.book.valid o ho)

end

variable {D : Set LimitPlace}

lemma Placed.walking (h : Placed M taker s) (hM : TwoSided M)
    (hD : ∀ o ∈ s.limitOrders.objects, o.place ∈ D → o.place ∈ otherSide taker)
    (hstop : IsFirst (s.limitPlaces ∩ D) stop) : Walking M taker (otherSide taker ∪ D) D
      (s.limitLowerBound (highest taker.receiveAssetId taker.sellAssetId)) stop s where
  book := h.book
  present := ⟨taker, h.found, .refl h.forSale_nonneg⟩
  first := by
    have hsame : s.limitPlaces ∩ (otherSide taker ∪ D) = s.limitPlaces ∩ otherSide taker := by
      ext p
      constructor
      · rintro ⟨hp, hside | hD'⟩
        · exact ⟨hp, hside⟩
        · obtain ⟨o, ho, rfl⟩ := mem_limitPlaces.1 hp
          exact ⟨hp, hD o ho hD'⟩
      · exact fun ⟨hp, hside⟩ => ⟨hp, .inl hside⟩
    rw [hsame]
    exact isFirst_limitLowerBound h.book.comparable (highest_quote _ _)
  last := hstop
  ahead := fun o ho hcrs => .inl (h.ahead hM o ho hcrs)

/-! ## `apply_order` -/

lemma NoMargin.matchCalls_eq (h : NoMargin M s) {a backing : AssetId} {b : BitassetData}
    (hb : s.bitassets.find a = some b) (hbac : b.shortBackingAsset = backing) (hM : M a backing)
    {fuel : Nat} (hfuel : 0 < fuel) (takerId : Nat) (callMin p q : Price) (update : Bool) :
    Completes s (cx.matchCalls takerId a callMin fuel p q update) fun r t => r = false ∧ t = s := by
  obtain ⟨fuel, rfl⟩ := Nat.exists_eq_succ_of_ne_zero hfuel.ne'
  refine completes_observe ?_
  split
  · exact ends_pure ⟨rfl, rfl⟩
  · refine completes_fetch nofun fun c hc => completes_bitassetData fun b' hb' => ?_
    have hmem : c ∈ s.callOrders.objects := mem_of_find hc
    have hdebt : c.debtType ≠ a := by
      rintro rfl
      have hcol := h.backed c hmem b hb
      exact h.noCalls c hmem (hcol.trans hbac ▸ hM)
    rw [if_pos (.inl hdebt)]
    exact ends_pure ⟨rfl, rfl⟩

lemma Walking.not_started (h : Walking M taker C E itr stop s) :
    Walked M taker C s (false, itr) s :=
  h.walked h.first h.ahead

lemma Placed.completes_applyToCallsOf (h : Placed M taker s) (hM : TwoSided M)
    (hfuel : s.limitOrders.objects.length < cx.env.fuel) (hitr :
      itr = s.limitLowerBound (highest taker.receiveAssetId taker.sellAssetId)) :
    Completes s (cx.applyToCallsOf taker itr) fun r t => r.2.2 = false ∧
      ∃ D, WalkRange taker D (below taker.sellPrice.inv) ∧ Walked M taker D s (r.1, r.2.1) t := by
  subst hitr
  have hquote := h.valid.inv.quote
  have hwhole := h.walking hM (fun o ho hbel => h.book.not_between hM h.within h.valid h.found
      (p := taker.sellPrice.inv) ⟨rfl, rfl⟩ ho (by
        rw [less_iff_rank hquote (h.book.valid o ho).quote]
        exact hbel.not_gt))
    (isFirst_limitUpperBound h.book.comparable hquote)
  have hno := hwhole.not_started
  refine completes_observe ?_
  cases hb : s.bitassets.find taker.sellAssetId with
  | none => exact ends_pure ⟨rfl, _, walkRange_whole h.valid, hno⟩
  | some b =>
    dsimp only
    split
    next hmay =>
      obtain ⟨hbac, -, -, hnull⟩ := of_decide_eq_true hmay
      have hfed := h.book.calm.fed _ b hb hnull
      refine completes_calculate fun price hprice => completes_calculate fun _ _ => ?_
      obtain ⟨hpva, hpma⟩ := valid_of_mulRatio hprice
      split
      next => exact ends_pure ⟨rfl, _, walkRange_whole h.valid, hno⟩
      next hless =>
        have hbnd : Bound taker price.inv :=
          ⟨hpva.inv, ⟨(hpma.2.trans hfed.2).trans hbac, hpma.1.trans hfed.1⟩, hless⟩
        have hfst := h.walking hM (fun o ho hnot => h.book.not_between hM h.within h.valid h.found
            hbnd.market ho ((place_mem_notAbove (h.book.valid o ho).quote hbnd.valid.quote).1 hnot))
          (isFirst_limitLowerBound h.book.comparable hbnd.valid.quote)
        refine completes_observe ?_
        refine (completes_matchWhile hM h.within h.resting.noAction cx.env.fuel hfuel
          (walkRange_first h.valid hbnd) hfst).bind fun r t hwal => ?_
        obtain ⟨finished, itr⟩ := r
        cases finished with
        | true => exact ends_pure ⟨rfl, _, walkRange_rest h.valid hbnd, hwal⟩
        | false =>
          refine completes_bitassetData fun b' hb' => ?_
          obtain rfl : b = b' := by
            rw [hwal.bitassets, hb] at hb'
            exact some.inj hb'
          refine (hwal.book.calm.matchCalls_eq hb' hbac h.within
            (Nat.zero_lt_of_lt hfuel) _ _ _ _ _).bind ?_
          rintro _ _ ⟨rfl, rfl⟩
          refine completes_bitassetData fun now hnow => ends_pure ⟨?_, _, walkRange_rest h.valid hbnd,
            hwal⟩
          obtain rfl : b = now := mem_unique hb' hnow
          exact decide_eq_false fun hcha => hcha.2 ⟨rfl, rfl, rfl⟩
    next => exact ends_pure ⟨rfl, _, walkRange_whole h.valid, hno⟩

lemma Walked.walking (h : Walked M taker D s (false, itr) t) (hED : E ⊆ D)
    (hstop : IsFirst (s.limitPlaces ∩ E) stop) : Walking M taker D E itr stop t where
  book := h.book
  present := (h.present rfl).imp fun o ho => ⟨ho, h.left o ho⟩
  first := h.reached rfl
  last := by
    have hcut : ∀ A : Set LimitPlace, A ∩ E = A ∩ D ∩ E := by
      intro A
      rw [inter_assoc, inter_eq_self_of_subset_right hED]
    rwa [hcut, h.places rfl, ← hcut]
  ahead := h.behind rfl

/-- The order has been matched: it is gone or worth nothing, or it crosses nothing any more. -/
structure Matched (M : AssetId → AssetId → Prop) (taker : LimitOrder) (t : MarketState) : Prop where
  book : QuietBut M taker.id t
  left : ∀ o, t.limitOrders.find taker.id = some o → taker.Left o
  done : ∀ o, t.limitOrders.find taker.id = some o → o.asks = 0 ∨
    ∀ x ∈ t.limitOrders.objects, ¬ Crosses taker x

lemma Walked.matched {r : Bool × Option ℕ} (h : Walked M taker (below taker.sellPrice.inv) s r t)
    (hvalid : taker.sellPrice.Valid) : Matched M taker t where
  book := h.book
  left := h.left
  done := by
    intro o ho
    cases hr : r.1 with
    | true => exact .inl (h.finished hr o ho)
    | false =>
      refine .inr fun x hx hcrs => ?_
      have hx' := h.book.valid x hx
      have hbel := h.behind hr x hx hcrs
      rw [place_mem_below hx'.quote hvalid.inv.quote] at hbel
      exact (hcrs.toFacing.crosses_iff hvalid hx').1 hcrs hbel

lemma completes_matchRest (hM : TwoSided M) (hin : taker.In M)
    (hact : taker.onFill = none) (hvalid : taker.sellPrice.Valid) {finished : Bool}
    (hfuel : s.limitOrders.objects.length < cx.env.fuel)
    (hrng : WalkRange taker D (below taker.sellPrice.inv))
    (hstop : IsFirst (s.limitPlaces ∩ below taker.sellPrice.inv) stop)
    (h : Walked M taker D s (finished, itr) t) :
    Completes t (cx.matchRest taker.id finished itr stop) fun _ u =>
      Matched M taker u ∧ ownLogic.step s u 0 := by
  cases finished with
  | true => exact ends_pure ⟨⟨h.book, h.left, fun o ho => .inl (h.finished rfl o ho)⟩, h.owned⟩
  | false =>
    have hwa := h.walking hrng.sub hstop
    exact (completes_matchWhile hM hin hact cx.env.fuel (h.count.trans_lt hfuel) hrng hwa).bind
      fun _ _ hwal => ends_pure ⟨hwal.matched hvalid,
        (add_zero (0 : AssetId → ℤ)) ▸ ownLogic.trans h.owned hwal.owned⟩

lemma Matched.completes_cullIfLeft (h : Matched M taker s) (hM : TwoSided M)
    (hrest : taker.Resting) (hvalid : taker.sellPrice.Valid) :
    Completes s (cx.cullIfLeft taker.id) fun _ t => QuietBook M t ∧ ownLogic.step s t 0 := by
  refine completes_observe ?_
  cases hfind : s.limitOrders.find taker.id with
  | none => exact ends_pure ⟨h.book.of_gone hfind, ownLogic.refl s⟩
  | some o =>
    have hleft := h.left o hfind
    have ho : s.limitOrders.find o.id = some o := hleft.id ▸ hfind
    rw [if_pos (by rfl), ← hleft.id]
    refine ((completes_maybeCull ho).and_holds (own_maybeCullSmallOrder o.id)).mono ?_
    rintro culled t ⟨⟨honly, hgone, hstays⟩, howned⟩
    refine ⟨?_, howned⟩
    cases culled with
    | true =>
      have hgone := hgone rfl
      have hworn := honly.worn
      rw [hleft.id] at hgone hworn
      refine (hworn.quiet h.book fun x hx => ?_).of_gone hgone
      rw [hgone] at hx
      cases hx
    | false =>
      obtain ⟨rfl, hasks⟩ := hstays rfl
      have hapart := (h.done o hfind).resolve_left hasks
      exact h.book.of_resting hM hfind (fun _ => hleft.resting hrest hvalid hasks)
        fun x hx _ hcrs => hapart x hx (hleft.crosses_iff.1 hcrs)

/-- An order that is not at the front crosses nothing, since the order before it crosses nothing. -/
lemma Placed.quiet_of_behind (h : Placed M taker s) (hM : TwoSided M)
    (hbeh : Context.isBehind taker s = true) : QuietBook M s := by
  obtain ⟨q, hq, hsame⟩ := (any_eq_true _ _).1 hbeh
  obtain ⟨hsells, hbuys⟩ := of_decide_eq_true hsame
  obtain ⟨hmem, hne, hless⟩ :=
    limitPrevious_not_less h.book.comparable (mem_of_find h.found) hq
  refine h.book.of_resting hM h.found (fun _ => h.resting) fun x hx _ hcrs => ?_
  have hx' : x.id ≠ taker.id := by
    intro hid
    have hfind := find_of_mem hx
    rw [hid, h.found] at hfind
    exact hcrs.ne h.valid (some.inj hfind)
  have hin : q.In M := by
    rw [LimitOrder.In, hsells, hbuys]
    exact h.within
  exact h.book.apart q hmem x hx hne hx' hin
    (hcrs.of_better h.valid (h.book.valid x hx) (h.book.valid q hmem) ⟨hsells, hbuys⟩ hless)

lemma Placed.completes_applyOrder (h : Placed M taker s) (hM : TwoSided M)
    (hfuel : s.limitOrders.objects.length < cx.env.fuel) :
    Completes s (cx.applyOrder taker.id) fun _ t => QuietBook M t ∧ ownLogic.step s t 0 := by
  refine completes_fetchOrder fun o ho => completes_observe ?_
  obtain rfl : taker = o := mem_unique h.found ho
  split
  next hbeh => exact ends_pure ⟨h.quiet_of_behind hM hbeh, ownLogic.refl s⟩
  next =>
    refine completes_observe (completes_observe ?_)
    refine (h.completes_applyToCallsOf hM hfuel rfl).bind ?_
    rintro ⟨finished, itr, updated⟩ t ⟨rfl, D, hrng, hwal⟩
    refine (completes_matchRest hM h.within h.resting.noAction h.valid hfuel hrng
      (isFirst_limitUpperBound h.book.comparable h.valid.inv.quote) hwal).bind ?_
    rintro _ u ⟨hmat, howned⟩
    refine (hmat.completes_cullIfLeft hM h.resting h.valid).bind ?_
    rintro isGone v ⟨hquiet, howned'⟩
    rw [if_neg (by simp)]
    exact ends_pure ⟨hquiet, (add_zero (0 : AssetId → ℤ)) ▸ ownLogic.trans howned howned'⟩

end Graphene.Market
