import Mathlib.Tactic.Linarith
import Mathlib.Tactic.Ring

/-!
# Rounded proportions

Integer division that rounds up, and what happens to the amount per share of a fund when shares
are issued or redeemed at rounded prices.  Amounts per share are compared by cross multiplication.
-/

namespace Graphene.Lib

def divUp (n d : Int) : Int :=
  (n + d - 1) / d

variable {n d x f s : Int}

lemma divUp_le (hd : 0 < d) (h : n ≤ x * d) : divUp n d ≤ x := by
  have hlt : n + d - 1 < (x + 1) * d := by
    have : (x + 1) * d = x * d + d := by ring
    omega
  exact Int.lt_add_one_iff.1 (Int.ediv_lt_of_lt_mul hd hlt)

lemma divUp_ediv_le (hn : 0 < n) (hd : 0 < d) : divUp (x * n / d * d) n ≤ x :=
  divUp_le hn (Int.ediv_mul_le _ hd.ne')

lemma le_divUp_mul (hd : 0 < d) : n ≤ divUp n d * d := by
  have hlt : n + d - 1 < (divUp n d + 1) * d := Int.lt_ediv_add_one_mul_self _ hd
  have hexp : (divUp n d + 1) * d = divUp n d * d + d := by ring
  omega

lemma divUp_le_iff (hd : 0 < d) : divUp n d ≤ x ↔ n ≤ x * d :=
  ⟨fun h => (le_divUp_mul hd).trans (mul_le_mul_of_nonneg_right h hd.le), divUp_le hd⟩

lemma divUp_pos (hn : 0 < n) (hd : 0 < d) : 0 < divUp n d := by
  by_contra h
  have hle := le_divUp_mul (n := n) hd
  have hmul : divUp n d * d ≤ 0 := mul_nonpos_of_nonpos_of_nonneg (not_lt.1 h) hd.le
  omega

/-- The least amount that is worth a rounded value is worth no more. -/
lemma divUp_ediv_mul_ediv (hn : 0 < n) (hd : 0 < d) : divUp (x * n / d * d) n * n / d = x * n / d :=
  le_antisymm (Int.ediv_le_ediv hd (mul_le_mul_of_nonneg_right (divUp_ediv_le hn hd) hn.le))
    (Int.le_ediv_of_mul_le hd (le_divUp_mul hn))

lemma divUp_nonneg (hn : 0 ≤ n) (hd : 0 < d) : 0 ≤ divUp n d :=
  Int.ediv_nonneg (by omega) hd.le

/-- When the payment for a rounded amount is rounded up, what is left is worth nothing. -/
lemma rest_ediv_eq_zero (hn : 0 < n) (hd : 0 < d) : (x - divUp (x * n / d * d) n) * n / d = 0 := by
  have hpaid := le_divUp_mul (n := x * n / d * d) hn
  have hlt := Int.lt_ediv_add_one_mul_self (x * n) hd
  refine Int.ediv_eq_zero_of_lt (mul_nonneg (sub_nonneg.2 (divUp_ediv_le hn hd)) hn.le) ?_
  rw [sub_mul]
  rw [add_mul, one_mul] at hlt
  omega

lemma redeem_keeps {y : Int} (hs : 0 < s) (hy : y ≤ x * f / s) : f * (s - x) ≤ (f - y) * s := by
  have hpaid : y * s ≤ x * f :=
    le_trans (mul_le_mul_of_nonneg_right hy hs.le) (Int.ediv_mul_le _ hs.ne')
  calc f * (s - x) = f * s - x * f := by ring
    _ ≤ f * s - y * s := sub_le_sub_left hpaid _
    _ = (f - y) * s := by ring

lemma redeem_lt (hf : 0 < f) (hs : 0 < s) (hx : x < s) : x * f / s < f := by
  apply Int.ediv_lt_of_lt_mul hs
  calc x * f < s * f := mul_lt_mul_of_pos_right hx hf
    _ = f * s := mul_comm _ _

lemma issue_keeps (hs : 0 < s) : f * (s + x) ≤ (f + divUp (x * f) s) * s := by
  have hpaid : x * f ≤ divUp (x * f) s * s := le_divUp_mul hs
  calc f * (s + x) = f * s + x * f := by ring
    _ ≤ f * s + divUp (x * f) s * s := add_le_add_right hpaid _
    _ = (f + divUp (x * f) s) * s := by ring

lemma issue_price_le {y : Int} (hf : 0 < f) (hs : 0 < s) (hx : x ≤ s * y / f) :
    divUp (x * f) s ≤ y := by
  apply divUp_le hs
  calc x * f ≤ s * y / f * f := mul_le_mul_of_nonneg_right hx hf.le
    _ ≤ s * y := Int.ediv_mul_le _ hf.ne'
    _ = y * s := mul_comm _ _

/-- The product of two funds, per share squared: it does not fall when neither fund per share
does. -/
lemma product_keeps {a b a' b' s' : Int} (hb : 0 ≤ b) (hs : 0 ≤ s) (hs' : 0 ≤ s') (ha' : 0 ≤ a')
    (h1 : a * s' ≤ a' * s) (h2 : b * s' ≤ b' * s) : a * b * s' ^ 2 ≤ a' * b' * s ^ 2 := by
  calc a * b * s' ^ 2 = (a * s') * (b * s') := by ring
    _ ≤ (a' * s) * (b' * s) := mul_le_mul h1 h2 (mul_nonneg hb hs') (mul_nonneg ha' hs)
    _ = a' * b' * s ^ 2 := by ring

/-- Amounts per share are compared through a third one. -/
lemma ratio_trans {v v' v'' s' s'' : Int} (hs : 0 ≤ s) (hs' : 0 < s') (hs'' : 0 ≤ s'')
    (h1 : v * s' ≤ v' * s) (h2 : v' * s'' ≤ v'' * s') : v * s'' ≤ v'' * s := by
  apply le_of_mul_le_mul_right _ hs'
  calc v * s'' * s' = v * s' * s'' := by ring
    _ ≤ v' * s * s'' := mul_le_mul_of_nonneg_right h1 hs''
    _ = v' * s'' * s := by ring
    _ ≤ v'' * s' * s := mul_le_mul_of_nonneg_right h2 hs
    _ = v'' * s * s' := by ring

end Graphene.Lib
