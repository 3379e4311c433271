import Graphene.Lib.Proportion
import Graphene.Protocol.PriceValue

/-!
# Products of amounts and prices

The two roundings of the product of an amount and a price: what succeeds, in which asset the result
is, and how rounding down and then up again with the same price comes out.
-/

namespace Graphene.Protocol

open Lib

namespace Asset

variable {x r : Asset} {p : Price} {divide : Int → Int → Int}

variable {i : AssetId}

lemma scale_eq_ok {a n d : Int} : scale divide a n d i = .ok r ↔
      0 < d ∧ divide (a * n) d ≤ grapheneMaxShareSupply ∧ r = ⟨divide (a * n) d, i⟩ := by
  unfold scale
  simp only [bind_eq_ok, check_eq_ok, decide_eq_true_eq, exists_and_left, exists_const]
  constructor
  · rintro ⟨hd, hmax, h⟩
    cases h
    exact ⟨hd, hmax, rfl⟩
  · rintro ⟨hd, hmax, rfl⟩
    exact ⟨hd, hmax, rfl⟩

lemma scale_ne_resultTooLarge {a n d : Int} (h : divide (a * n) d ≤ grapheneMaxShareSupply) :
    scale divide a n d i ≠ .error .resultTooLarge := by
  intro he
  unfold scale check at he
  by_cases hd : 0 < d
  · simp [hd, h] at he
  · simp [hd] at he
    cases he

lemma mulBy_base (h : x.assetId = p.base.assetId) :
    mulBy divide x p = scale divide x.amount p.quote.amount p.base.amount p.quote.assetId :=
  if_pos h

lemma mulBy_quote (hne : p.base.assetId ≠ p.quote.assetId) (h : x.assetId = p.quote.assetId) :
    mulBy divide x p = scale divide x.amount p.base.amount p.quote.amount p.base.assetId := by
  have hbase : x.assetId ≠ p.base.assetId := by
    rw [h]
    exact hne.symm
  rw [mulBy, if_neg hbase, if_pos h]

variable {a b y : Asset}

lemma withSame_eq_ok {α : Type} {f : Int → Int → α} {y : α} :
    withSame f a b = .ok y ↔ a.assetId = b.assetId ∧ y = f a.amount b.amount := by
  unfold withSame
  simp only [bind_eq_ok, check_eq_ok, decide_eq_true_eq, exists_and_left, exists_const]
  constructor
  · rintro ⟨h, hy⟩
    cases hy
    exact ⟨h, rfl⟩
  · rintro ⟨h, rfl⟩
    exact ⟨h, rfl⟩

lemma less_eq_ok {y : Bool} :
    a.less b = .ok y ↔ a.assetId = b.assetId ∧ y = decide (a.amount < b.amount) :=
  withSame_eq_ok

lemma sub_eq_ok : a.sub b = .ok y ↔ a.assetId = b.assetId ∧ y = ⟨a.amount - b.amount, a.assetId⟩ :=
  withSame_eq_ok

lemma add_eq_ok : a.add b = .ok y ↔ a.assetId = b.assetId ∧ y = ⟨a.amount + b.amount, a.assetId⟩ :=
  withSame_eq_ok

lemma least_eq_ok :
    x.least y = .ok r ↔ x.assetId = y.assetId ∧ r = ⟨min x.amount y.amount, x.assetId⟩ := by
  unfold least
  simp only [bind_eq_ok, less_eq_ok]
  constructor
  · rintro ⟨_, ⟨hasset, rfl⟩, hr⟩
    refine ⟨hasset.symm, ?_⟩
    cases hr
    by_cases hlt : y.amount < x.amount
    · rw [if_pos (decide_eq_true hlt), min_eq_right hlt.le, ← hasset]
    · rw [if_neg (by simpa using hlt), min_eq_left (not_lt.1 hlt)]
  · rintro ⟨hasset, rfl⟩
    refine ⟨_, ⟨hasset.symm, rfl⟩, ?_⟩
    by_cases hlt : y.amount < x.amount
    · rw [if_pos (decide_eq_true hlt), min_eq_right hlt.le, hasset]
      rfl
    · rw [if_neg (by simpa using hlt), min_eq_left (not_lt.1 hlt)]
      rfl

/-- One side of a price: `n` multiplies and `d` divides, and on the way back they change places. -/
lemma mul_and_back {k : Asset} {n d : Int} (hn : 0 < n)
    (hmul : ∀ a, mul ⟨a, x.assetId⟩ p = scale (fun n d => n / d) a n d i)
    (hup : ∀ a, multiplyAndRoundUp ⟨a, i⟩ p = scale (fun n d => (n + d - 1) / d) a d n x.assetId)
    (hk : x.mul p = .ok k) (hpos : 0 < k.amount) (hy : k.multiplyAndRoundUp p = .ok y) :
    0 < y.amount ∧ y.amount ≤ x.amount ∧ y.assetId = x.assetId ∧ y.mul p = .ok k ∧
      (∀ z < y.amount, mul ⟨z, x.assetId⟩ p ≠ .ok k) ∧
      ∃ rest, x.sub y = .ok rest ∧ rest.mul p = .ok ⟨0, k.assetId⟩ := by
  obtain ⟨hd, hmax, rfl⟩ := scale_eq_ok.1 ((hmul x.amount).symm.trans hk)
  obtain ⟨-, -, rfl⟩ := scale_eq_ok.1 ((hup _).symm.trans hy)
  have hback : divUp (x.amount * n / d * d) n * n / d = x.amount * n / d := divUp_ediv_mul_ediv hn hd
  have hrest : (x.amount - divUp (x.amount * n / d * d) n) * n / d = 0 := rest_ediv_eq_zero hn hd
  refine ⟨divUp_pos (mul_pos hpos hd) hn, divUp_ediv_le hn hd, rfl, (hmul _).trans ?_,
    fun z hz hsame => ?_, _, sub_eq_ok.2 ⟨rfl, rfl⟩, (hmul _).trans ?_⟩
  · exact scale_eq_ok.2 ⟨hd, hback.trans_le hmax, congrArg (Asset.mk · i) hback.symm⟩
  · -- whatever has the product `k` is at least what rounding up gives
    have heq : x.amount * n / d = z * n / d :=
      congrArg amount (scale_eq_ok.1 ((hmul z).symm.trans hsame)).2.2
    refine hz.not_ge ((divUp_le_iff hn).2 ?_)
    exact (congrArg (· * d) heq).trans_le (Int.ediv_mul_le _ hd.ne')
  · exact scale_eq_ok.2 ⟨hd, hrest.trans_le (by decide), congrArg (Asset.mk · i) hrest.symm⟩

/-- A product that is rounded down and taken back with rounding up at the same price gives the least
amount with that product, and the rest of the amount has the product zero. -/
theorem mul_multiplyAndRoundUp {k : Asset} (hbase : 0 < p.base.amount)
    (hquote : 0 < p.quote.amount) (hne : p.base.assetId ≠ p.quote.assetId) (hk : x.mul p = .ok k)
    (hpos : 0 < k.amount) (hy : k.multiplyAndRoundUp p = .ok y) :
    0 < y.amount ∧ y.amount ≤ x.amount ∧ y.assetId = x.assetId ∧ y.mul p = .ok k ∧
      (∀ z < y.amount, mul ⟨z, x.assetId⟩ p ≠ .ok k) ∧
      ∃ rest, x.sub y = .ok rest ∧ rest.mul p = .ok ⟨0, k.assetId⟩ := by
  by_cases hx : x.assetId = p.base.assetId
  · refine mul_and_back hquote (fun a => mulBy_base hx) (fun a => ?_) hk hpos hy
    rw [hx]
    exact mulBy_quote hne rfl
  by_cases hx' : x.assetId = p.quote.assetId
  · refine mul_and_back hbase (fun a => mulBy_quote hne hx') (fun a => ?_) hk hpos hy
    rw [hx']
    exact mulBy_base rfl
  · rw [mul, mulBy, if_neg hx, if_neg hx'] at hk
    cases hk

theorem mul_multiplyAndRoundUp_seven : ∃ rest, sub ⟨7, 0⟩ ⟨6, 0⟩ = .ok rest ∧
    rest.mul ⟨⟨3, 0⟩, ⟨2, 1⟩⟩ = .ok ⟨0, 1⟩ :=
  (mul_multiplyAndRoundUp (k := ⟨4, 1⟩) (p := ⟨⟨3, 0⟩, ⟨2, 1⟩⟩) (by decide) (by decide) (by decide) rfl
    (by decide) rfl).2.2.2.2.2

/-- With one asset on both sides both products take the same branch. -/
theorem mul_multiplyAndRoundUp_same_asset : mul ⟨1, 0⟩ ⟨⟨1, 0⟩, ⟨2, 0⟩⟩ = .ok ⟨2, 0⟩ ∧
    multiplyAndRoundUp ⟨2, 0⟩ ⟨⟨1, 0⟩, ⟨2, 0⟩⟩ = .ok ⟨4, 0⟩ :=
  ⟨rfl, rfl⟩

end Asset
end Graphene.Protocol
