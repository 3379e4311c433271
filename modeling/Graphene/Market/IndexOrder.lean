import Graphene.Lib.SortedIndex
import Graphene.Market.CallOrders

/-!
# The indices of call orders and of limit orders

`by_collateral` and `by_price` sort by prices, and prices with a positive quote are ordered by
their rank.  So the two indices are sorted lists, and `lower_bound` and `upper_bound` of a price
split them.
-/

namespace Graphene.Market

open Protocol Lib List Price LimitOrder
open Price (highest lowest)

variable {s : MarketState}

/-! ## Call orders -/

def CallOrder.rank (c : CallOrder) : AssetId ×ₗ AssetId ×ₗ ℚ :=
  c.collateralization.rank

lemma pairwise_callsByCollateral (h : ∀ c ∈ s.callOrders.objects, 0 < c.debt) :
    s.callsByCollateral.Pairwise (KeyBefore CallOrder.rank CallOrder.id) :=
  pairwise_keyBefore fun a ha b hb => by
    rw [CallOrder.Before, less_iff_rank (h a ha) (h b hb), less_iff_rank (h b hb) (h a ha)]
    rfl

structure CallOrder.Bounded (c : CallOrder) : Prop where
  debt_pos : 0 < c.debt
  collateral_pos : 0 < c.collateral
  debt_le : c.debt ≤ grapheneMaxShareSupply
  collateral_le : c.collateral ≤ grapheneMaxShareSupply

lemma CallOrder.Bounded.between_iff {c : CallOrder} (h : c.Bounded) {collateral debt : AssetId} :
    ¬ c.collateralization.Less (lowest collateral debt) ∧
        ¬ (highest collateral debt).Less c.collateralization ↔
      c.collateralType = collateral ∧ c.debtType = debt := by
  constructor
  · rintro ⟨hlow, hhigh⟩
    exact sameMarket_of_not_less (q := highest collateral debt)
      (r := lowest collateral debt) ⟨rfl, rfl⟩ hhigh hlow
  · rintro ⟨rfl, rfl⟩
    have hlow : c.debt * 1 ≤ c.collateral * grapheneMaxShareSupply := by
      calc c.debt * 1 ≤ 1 * grapheneMaxShareSupply := by
            rw [mul_one, one_mul]
            exact h.debt_le
        _ ≤ c.collateral * grapheneMaxShareSupply :=
            mul_le_mul_of_nonneg_right h.collateral_pos (by decide)
    have hhigh : 1 * c.collateral ≤ c.debt * grapheneMaxShareSupply := by
      calc 1 * c.collateral ≤ 1 * grapheneMaxShareSupply := by
            rw [one_mul, one_mul]
            exact h.collateral_le
        _ ≤ c.debt * grapheneMaxShareSupply := mul_le_mul_of_nonneg_right h.debt_pos (by decide)
    have hl : (lowest c.collateralType c.debtType).quote.amount * c.collateral
        = c.collateral * grapheneMaxShareSupply := mul_comm _ _
    refine ⟨?_, ?_⟩
    · rintro (hlt | ⟨-, hlt | ⟨-, hlt⟩⟩)
      · exact absurd hlt (lt_irrefl _)
      · exact absurd hlt (lt_irrefl _)
      · change (lowest c.collateralType c.debtType).quote.amount * c.collateral < c.debt * 1 at hlt
        rw [hl] at hlt
        exact absurd hlt (not_lt.2 hlow)
    · rintro (hlt | ⟨-, hlt | ⟨-, hlt⟩⟩)
      · exact absurd hlt (lt_irrefl _)
      · exact absurd hlt (lt_irrefl _)
      · exact absurd hlt (not_lt.2 hhigh)

lemma callRange_eq (h : ∀ c ∈ s.callOrders.objects, c.Bounded) (collateral debt : AssetId) :
    s.callRange collateral debt = s.callsByCollateral.filter fun c =>
      c.collateralType = collateral ∧ c.debtType = debt := by
  have hpos : ∀ c ∈ s.callsByCollateral, 0 < c.debt := fun c hc =>
    (h c ((mem_insertionSort _).1 hc)).debt_pos
  have hsor := pairwise_callsByCollateral fun c hc => (h c hc).debt_pos
  have hmax : 0 < (lowest collateral debt).quote.amount := show (0 : Int) < grapheneMaxShareSupply by decide
  have hone : 0 < (highest collateral debt).quote.amount := show (0 : Int) < 1 by decide
  have hdrop : s.callsByCollateral.dropWhile (fun c =>
      decide (c.collateralization.Less (lowest collateral debt)))
      = s.callsByCollateral.filter fun c =>
        !decide (c.collateralization.Less (lowest collateral debt)) := by
    refine dropWhile_eq_filter hsor fun a ha b hb hab => ?_
    rw [decide_eq_true_eq, decide_eq_true_eq, less_iff_rank (hpos b hb) hmax,
      less_iff_rank (hpos a ha) hmax]
    exact hab.le.trans_lt
  rw [MarketState.callRange, hdrop, takeWhile_eq_filter (hsor.sublist filter_sublist)]
  · rw [filter_filter]
    refine filter_congr fun c hc => ?_
    rw [← decide_not, ← Bool.decide_and, decide_eq_decide, and_comm]
    exact (h c ((mem_insertionSort _).1 hc)).between_iff
  · intro a ha b hb hab
    have ha' := hpos a (mem_filter.1 ha).1
    have hb' := hpos b (mem_filter.1 hb).1
    rw [decide_eq_true_eq, decide_eq_true_eq, less_iff_rank hone hb',
      less_iff_rank hone ha', not_lt, not_lt]
    exact hab.le.trans

/-! ## Limit orders -/

/-- Places in the index of limit orders by price. -/
abbrev LimitPlace := (AssetId ×ₗ AssetId ×ₗ ℚ)ᵒᵈ ×ₗ ℕ

def LimitOrder.key (o : LimitOrder) : (AssetId ×ₗ AssetId ×ₗ ℚ)ᵒᵈ :=
  OrderDual.toDual o.sellPrice.rank

def LimitOrder.place (o : LimitOrder) : LimitPlace :=
  Lib.place key id o

def MarketState.limitPlaces (s : MarketState) : Set LimitPlace :=
  places key id s.limitsByPrice

def Price.notAbove (p : Price) : Set LimitPlace :=
  {x | OrderDual.toDual p.rank ≤ (ofLex x).1}

def Price.below (p : Price) : Set LimitPlace :=
  {x | OrderDual.toDual p.rank < (ofLex x).1}

def MarketState.LimitsComparable (s : MarketState) : Prop :=
  ∀ o ∈ s.limitOrders.objects, 0 < o.sellPrice.quote.amount

variable {o : LimitOrder} {p : Price}

lemma place_mem_notAbove (ho : 0 < o.sellPrice.quote.amount) (hp : 0 < p.quote.amount) :
    o.place ∈ Price.notAbove p ↔ ¬ p.Less o.sellPrice := by
  rw [less_iff_rank hp ho, not_lt]
  exact Iff.rfl

lemma place_mem_below (ho : 0 < o.sellPrice.quote.amount) (hp : 0 < p.quote.amount) :
    o.place ∈ Price.below p ↔ o.sellPrice.Less p := by
  rw [less_iff_rank ho hp]
  exact Iff.rfl

lemma isUpperSet_notAbove (p : Price) : IsUpperSet (Price.notAbove p) := by
  intro x y hxy hx
  exact le_trans hx (Prod.Lex.monotone_fst_ofLex hxy)

lemma isUpperSet_below (p : Price) : IsUpperSet (Price.below p) := by
  intro x y hxy hx
  exact lt_of_lt_of_le hx (Prod.Lex.monotone_fst_ofLex hxy)

lemma limitBefore_iff {a b : LimitOrder} (ha : 0 < a.sellPrice.quote.amount)
    (hb : 0 < b.sellPrice.quote.amount) : a.Before b ↔ KeyBefore key id a b := by
  rw [LimitOrder.Before, less_iff_rank ha hb, less_iff_rank hb ha]
  rfl

lemma mem_limitsByPrice : o ∈ s.limitsByPrice ↔ o ∈ s.limitOrders.objects :=
  mem_insertionSort _

lemma pairwise_limitsByPrice (h : s.LimitsComparable) :
    s.limitsByPrice.Pairwise (KeyBefore key id) :=
  pairwise_keyBefore fun a ha b hb => limitBefore_iff (h a ha) (h b hb)

lemma mem_limitPlaces {x : LimitPlace} :
    x ∈ s.limitPlaces ↔ ∃ o ∈ s.limitOrders.objects, o.place = x := by
  refine exists_congr fun o => and_congr_left' mem_limitsByPrice

variable (h : s.LimitsComparable)
include h

lemma isFirst_limitLowerBound (hp : 0 < p.quote.amount) :
    IsFirst (s.limitPlaces ∩ Price.notAbove p) (s.limitLowerBound p) := by
  refine isFirst_dropWhile (pairwise_limitsByPrice h) fun o ho => ?_
  rw [decide_eq_true_eq, less_iff_rank hp (h o (mem_limitsByPrice.1 ho))]
  exact not_le.symm

lemma isFirst_limitUpperBound (hp : 0 < p.quote.amount) :
    IsFirst (s.limitPlaces ∩ Price.below p) (s.limitUpperBound p) := by
  refine isFirst_dropWhile (pairwise_limitsByPrice h) fun o ho => ?_
  rw [decide_eq_true_eq, less_iff_rank (h o (mem_limitsByPrice.1 ho)) hp]
  exact Iff.rfl

variable (ho : o ∈ s.limitOrders.objects)
include ho

lemma isFirst_limitNext : IsFirst (s.limitPlaces ∩ Set.Ioi o.place) (s.limitNext o.id) :=
  isFirst_next (pairwise_limitsByPrice h)
    (((perm_insertionSort _ _).map _).nodup_iff.2 s.limitOrders.nodup) (mem_limitsByPrice.2 ho)

lemma limitPrevious_not_less {q : LimitOrder} (hq : s.limitPrevious o.id = some q) :
    q ∈ s.limitOrders.objects ∧ q.id ≠ o.id ∧ ¬ q.sellPrice.Less o.sellPrice := by
  obtain ⟨hmem, hne, hle⟩ := previous_le (pairwise_limitsByPrice h) (mem_limitsByPrice.2 ho) hq
  rw [mem_limitsByPrice] at hmem
  refine ⟨hmem, hne, ?_⟩
  rw [less_iff_rank (h q hmem) (h o ho)]
  exact not_lt.2 (keyBefore_iff.2 hle).le

end Graphene.Market
