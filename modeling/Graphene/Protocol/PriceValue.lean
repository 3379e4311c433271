import Graphene.Protocol.Asset

/-!
# Prices as fractions

Valid prices of one market are ordered like their values, and the product of a price and a
ratio has the rounded product as its value, except that it never goes to the wrong side
of the price.
-/

namespace Graphene.Protocol

open Lib Int

namespace Price

/-- What `validate` accepts. -/
structure Valid (p : Price) : Prop where
  base : 0 < p.base.amount
  quote : 0 < p.quote.amount
  assets : p.base.assetId ≠ p.quote.assetId

def SameMarket (p q : Price) : Prop :=
  p.base.assetId = q.base.assetId ∧ p.quote.assetId = q.quote.assetId

variable {p q : Price}

lemma validate_eq_ok : p.validate = .ok () ↔ p.Valid := by
  unfold validate
  simp only [bind_eq_ok, check_eq_ok, decide_eq_true_eq]
  constructor
  · rintro ⟨-, hbase, -, hquote, hast⟩
    exact ⟨hbase, hquote, hast⟩
  · intro h
    exact ⟨(), h.base, (), h.quote, h.assets⟩

lemma sameMarket_of_not_less {r : Price} (h : SameMarket q r) (hq : ¬ q.Less p) (hr : ¬ p.Less r) :
    SameMarket p q := by
  unfold Less at hq hr
  push Not at hq hr
  rw [← h.1, ← h.2] at hr
  have hbase : p.base.assetId = q.base.assetId := le_antisymm hq.1 hr.1
  refine ⟨hbase, le_antisymm (hq.2 hbase.symm).1 (hr.2 hbase).1⟩

lemma Valid.value_pos (h : p.Valid) : 0 < p.value := by
  have hb : (0 : ℚ) < p.base.amount := cast_pos.2 h.base
  have hq : (0 : ℚ) < p.quote.amount := cast_pos.2 h.quote
  exact div_pos hb hq

lemma less_iff (hp : p.Valid) (hq : q.Valid) (h : SameMarket p q) : p.Less q ↔ p.value < q.value := by
  have hpq : (0 : ℚ) < p.quote.amount := cast_pos.2 hp.quote
  have hqq : (0 : ℚ) < q.quote.amount := cast_pos.2 hq.quote
  have hcrs : p.Less q ↔ q.quote.amount * p.base.amount < p.quote.amount * q.base.amount := by
    simp [Less, h.1, h.2]
  rw [hcrs, value, value, div_lt_div_iff₀ hpq hqq]
  constructor
  · intro hlt
    have : ((q.quote.amount * p.base.amount : Int) : ℚ) < (p.quote.amount * q.base.amount : Int) :=
      cast_lt.2 hlt
    push_cast at this
    linarith
  · intro hlt
    have : ((q.quote.amount * p.base.amount : Int) : ℚ) < (p.quote.amount * q.base.amount : Int) := by
      push_cast
      linarith
    exact cast_lt.1 this

/-- The place of a price in the order of all prices: by base, by quote, by value. -/
def rank (p : Price) : AssetId ×ₗ AssetId ×ₗ ℚ :=
  toLex (p.base.assetId, toLex (p.quote.assetId, p.value))

lemma less_iff_rank (hp : 0 < p.quote.amount) (hq : 0 < q.quote.amount) :
    p.Less q ↔ p.rank < q.rank := by
  have hpq : (0 : ℚ) < p.quote.amount := cast_pos.2 hp
  have hqq : (0 : ℚ) < q.quote.amount := cast_pos.2 hq
  have hval : q.quote.amount * p.base.amount < p.quote.amount * q.base.amount
      ↔ p.value < q.value := by
    rw [value, value, div_lt_div_iff₀ hpq hqq, mul_comm (p.base.amount : ℚ),
      mul_comm (q.base.amount : ℚ)]
    exact_mod_cast Iff.rfl
  rw [rank, rank, Prod.Lex.toLex_lt_toLex, Prod.Lex.toLex_lt_toLex, Less, hval]

lemma same_value (hp : p.Valid) (hq : q.Valid) (h : p.Same q) : p.value = q.value := by
  have hpq : (p.quote.amount : ℚ) ≠ 0 := (cast_pos.2 hp.quote).ne'
  have hqq : (q.quote.amount : ℚ) ≠ 0 := (cast_pos.2 hq.quote).ne'
  have hcrs : (q.quote.amount : ℚ) * p.base.amount = p.quote.amount * q.base.amount := by
    exact_mod_cast h.2.2
  rw [value, value, div_eq_div_iff hpq hqq]
  linarith

lemma greater_value (hp : p.Valid) (hq : q.Valid) (h : SameMarket p q) :
    (p.greater q).value = max p.value q.value := by
  unfold greater
  split_ifs with hless
  · exact (max_eq_right ((less_iff hp hq h).1 hless).le).symm
  · exact (max_eq_left (not_lt.1 fun hlt => hless ((less_iff hp hq h).2 hlt))).symm

lemma inv_value (p : Price) : p.inv.value = p.value⁻¹ := (inv_div _ _).symm

lemma Valid.inv (h : p.Valid) : p.inv.Valid := ⟨h.quote, h.base, h.assets.symm⟩

/-! ## The product with a ratio -/

lemma withValue_value (p : Price) (x : ℚ) : (p.withValue x).value = x := Rat.num_div_den x

lemma withValue_valid (hp : p.Valid) {x : ℚ} (hx : 0 < x) : (p.withValue x).Valid :=
  ⟨Rat.num_pos.2 hx, natCast_pos.2 x.den_pos, hp.assets⟩

variable {r : ℚ}

lemma num_eq_den_iff : r.num = r.den ↔ r = 1 := by
  constructor
  · intro h
    rw [← Rat.num_div_den r, h]
    exact div_self (by exact_mod_cast r.den_pos.ne')
  · rintro rfl
    rfl

lemma den_lt_num_iff : r.den < r.num ↔ 1 < r := by
  have hd : (0 : ℚ) < r.den := by exact_mod_cast r.den_pos
  constructor
  · intro h
    rw [← Rat.num_div_den r, one_lt_div hd]
    exact_mod_cast h
  · intro h
    rw [← Rat.num_div_den r, one_lt_div hd] at h
    exact_mod_cast h

def product (p : Price) (r : ℚ) : Price :=
  if (approximate grapheneMaxShareSupply (p.value * r)).2 ∧
      p.Flipped r (p.withValue (rounded grapheneMaxShareSupply (p.value * r))) then p
  else p.withValue (rounded grapheneMaxShareSupply (p.value * r))

lemma product_sameMarket (p : Price) (r : ℚ) : SameMarket (p.product r) p := by
  unfold product
  split_ifs
  · exact ⟨rfl, rfl⟩
  · exact ⟨rfl, rfl⟩

lemma product_valid (hp : p.Valid) (hr : 0 < r) : (p.product r).Valid := by
  unfold product
  split_ifs
  · exact hp
  · exact withValue_valid hp (rounded_pos (by decide) (mul_pos hp.value_pos hr))

lemma mulRatio_eq (hp : p.Valid) (hr : 0 < r) (hr' : r ≠ 1) : p.mulRatio r = .ok (p.product r) := by
  have hvalid := validate_eq_ok.2 hp
  have hres := validate_eq_ok.2 (product_valid hp hr)
  have hne : r.num ≠ r.den := fun h => hr' (num_eq_den_iff.1 h)
  have hchk : check (decide (0 < r)) AssetError.ratioNotPositive = .ok () :=
    check_eq_ok.2 (decide_eq_true hr)
  unfold mulRatio
  rw [hvalid, hchk]
  simp only [bind, Except.bind, if_neg hne]
  unfold product rounded at hres ⊢
  rw [hres]
  rfl

lemma mulRatio_one (hp : p.Valid) (hr : r = 1) : p.mulRatio r = .ok p := by
  subst hr
  unfold mulRatio
  rw [validate_eq_ok.2 hp]
  rfl

lemma valid_of_mulRatio (h : p.mulRatio r = .ok q) : q.Valid ∧ q.SameMarket p := by
  have hrun := h
  obtain ⟨_, hvalid, h⟩ := bind_eq_ok.1 h
  obtain ⟨_, hpos, -⟩ := bind_eq_ok.1 h
  have hp := validate_eq_ok.1 hvalid
  have hr0 : 0 < r := of_decide_eq_true (check_eq_ok.1 hpos)
  by_cases hr : r = 1
  · rw [mulRatio_one hp hr] at hrun
    cases hrun
    exact ⟨hp, rfl, rfl⟩
  · rw [mulRatio_eq hp hr0 hr] at hrun
    cases hrun
    exact ⟨product_valid hp hr0, product_sameMarket p r⟩

/-- The product is the rounded one, unless rounding turned the ratio around; an exact product never
does. -/
lemma product_value {bad : Prop} [Decidable bad] (hp : p.Valid) (hr0 : 0 < r)
    (hflip : p.Flipped r (p.withValue (rounded grapheneMaxShareSupply (p.value * r))) ↔ bad)
    (hexc : rounded grapheneMaxShareSupply (p.value * r) = p.value * r → ¬bad) :
    (p.product r).value = if bad then p.value else rounded grapheneMaxShareSupply (p.value * r) := by
  have hpos := mul_pos hp.value_pos hr0
  unfold product
  simp only [hflip]
  split_ifs with h hbad hbad
  · rfl
  · exact absurd h.2 hbad
  · have hfits := fits_of_exact hpos (Bool.eq_false_iff.2 fun happrox => h ⟨happrox, hbad⟩)
    exact absurd hbad (hexc (rounded_of_fits hpos hfits))
  · rw [withValue_value]

lemma product_value_of_one_lt (hp : p.Valid) (hr : 1 < r) :
    (p.product r).value = max p.value (rounded grapheneMaxShareSupply (p.value * r)) := by
  have hr0 : 0 < r := one_pos.trans hr
  have hnp := withValue_valid hp
    (rounded_pos (show 0 < grapheneMaxShareSupply by decide) (mul_pos hp.value_pos hr0))
  rw [max_comm, max_def_lt]
  refine product_value hp hr0 ?_ fun heq => ?_
  · unfold Flipped
    rw [if_pos (den_lt_num_iff.2 hr), less_iff hnp hp ⟨rfl, rfl⟩, withValue_value]
  · rw [heq, not_lt]
    exact le_mul_of_one_le_right hp.value_pos.le hr.le

lemma product_value_of_lt_one (hp : p.Valid) (hr0 : 0 < r) (hr : r < 1) :
    (p.product r).value = min p.value (rounded grapheneMaxShareSupply (p.value * r)) := by
  have hnp := withValue_valid hp
    (rounded_pos (show 0 < grapheneMaxShareSupply by decide) (mul_pos hp.value_pos hr0))
  rw [min_def_lt]
  refine product_value hp hr0 ?_ fun heq => ?_
  · unfold Flipped
    rw [if_neg (fun h => (den_lt_num_iff.1 h).not_gt hr), less_iff hp hnp ⟨rfl, rfl⟩, withValue_value]
  · rw [heq, not_lt]
    exact mul_le_of_le_one_right hp.value_pos.le hr.le

end Price
end Graphene.Protocol
