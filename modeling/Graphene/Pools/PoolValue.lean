import Graphene.Pools.LiquidityPool

/-!
# The value of a share of a liquidity pool

The balances of a pool and the supply of its share asset are zero together or positive together,
the virtual value is their product, and while somebody holds shares the product of the balances
per share squared does not fall.
-/

namespace Graphene.Pools

open Lib Protocol Accounts

/-- What holds of a pool and the supply of its share asset. -/
structure Balanced (p : LiquidityPool) (supply : Int) : Prop where
  value_eq : p.virtualValue = p.balanceA * p.balanceB
  together : p.balanceA = 0 ∧ p.balanceB = 0 ∧ supply = 0 ∨
    0 < p.balanceA ∧ 0 < p.balanceB ∧ 0 < supply

def KeepsValue (p : LiquidityPool) (supply : Int) (p' : LiquidityPool) (supply' : Int) : Prop :=
  p.balanceA * p.balanceB * supply' ^ 2 ≤ p'.balanceA * p'.balanceB * supply ^ 2

namespace Balanced

variable {p : LiquidityPool} {supply : Int}

variable (h : Balanced p supply)
include h

lemma nonneg : 0 ≤ p.balanceA ∧ 0 ≤ p.balanceB ∧ 0 ≤ supply := by
  rcases h.together with ⟨ha, hb, hs⟩ | ⟨ha, hb, hs⟩ <;> omega

lemma positive (hs : 0 < supply) : 0 < p.balanceA ∧ 0 < p.balanceB := by
  rcases h.together with ⟨ha, hb, hs⟩ | ⟨ha, hb, hs⟩ <;> omega

lemma positive_of_balanceA (ha : p.balanceA ≠ 0) :
    0 < p.balanceA ∧ 0 < p.balanceB ∧ 0 < supply := by
  rcases h.together with ⟨ha, hb, hs⟩ | ⟨ha, hb, hs⟩ <;> omega

end Balanced

variable {p : LiquidityPool} {supply : Int}

lemma Balanced.checks (h : Balanced p supply) :
    (decide (p.balanceA = 0) == decide (p.balanceB = 0)) = true ∧
      (decide (p.balanceA = 0) == decide (supply = 0)) = true := by
  rcases h.together with ⟨ha, hb, hs⟩ | ⟨ha, hb, hs⟩
  · simp [ha, hb, hs]
  · simp [ha.ne', hb.ne', hs.ne']

lemma balanced_withBalances {a b : Int} (ha : 0 < a) (hb : 0 < b) (hs : 0 < supply) :
    Balanced (p.withBalances a b) supply :=
  ⟨rfl, .inr ⟨ha, hb, hs⟩⟩

/-! ### Deposits -/

section Deposit

variable {maxSupply amountA amountB : Int} {r : DepositResult}

lemma initialDeposit_eq_ok (h : initialDeposit maxSupply amountA amountB = .ok r) :
    r = ⟨amountA, amountB, max amountA amountB⟩ := by
  simp only [initialDeposit, bind_eq_ok, check_eq_ok, exists_const, pure_eq_ok] at h
  exact h.2.symm

/-- What a later deposit computes: the shares it buys and their price. -/
lemma laterDeposit_eq_ok (h : laterDeposit p supply maxSupply amountA amountB = .ok r) :
    0 < r.accountReceives ∧
      r.poolReceivesA = divUp (r.accountReceives * p.balanceA) supply ∧
      r.poolReceivesB = divUp (r.accountReceives * p.balanceB) supply := by
  simp only [laterDeposit, bind_eq_ok, check_eq_ok, exists_const, decide_eq_true_eq, pure_eq_ok] at h
  obtain ⟨hpos, -, -, rfl⟩ := h
  exact ⟨hpos, rfl, rfl⟩

lemma laterDeposit_ne_internalError (ha : 0 < p.balanceA) (hb : 0 < p.balanceB) (hs : 0 < supply) :
    laterDeposit p supply maxSupply amountA amountB ≠ .error .internalError := by
  have hA := issue_price_le ha hs (le_trans (min_le_left
    (min (supply * amountA / p.balanceA) (supply * amountB / p.balanceB)) (maxSupply - supply))
    (min_le_left _ _))
  have hB := issue_price_le hb hs (le_trans (min_le_left
    (min (supply * amountA / p.balanceA) (supply * amountB / p.balanceB)) (maxSupply - supply))
    (min_le_right _ _))
  unfold laterDeposit
  simp only [check, hA, hB, decide_true, if_true, ok_bind]
  split
  · rintro ⟨⟩
  · rintro ⟨⟩

lemma laterDeposit_keepsValue (hp : Balanced p supply) (ha : p.balanceA ≠ 0)
    (h : laterDeposit p supply maxSupply amountA amountB = .ok r) : KeepsValue p supply
      (p.withBalances (p.balanceA + r.poolReceivesA) (p.balanceB + r.poolReceivesB))
      (supply + r.accountReceives) := by
  obtain ⟨ha, hb, hs⟩ := hp.positive_of_balanceA ha
  obtain ⟨hpos, hA, hB⟩ := laterDeposit_eq_ok h
  have hpaid : 0 < r.poolReceivesA := hA ▸ divUp_pos (mul_pos hpos ha) hs
  refine product_keeps hb.le hs.le (by omega) (by change 0 ≤ p.balanceA + _; omega) ?_ ?_
  · rw [hA]
    exact issue_keeps hs
  · rw [hB]
    exact issue_keeps hs

end Deposit

/-! ### Withdrawals -/

section Withdraw

variable {balance shareAmount fee pays : Int} {feePercent : Nat}

lemma withdrawPart_eq_ok (h : withdrawPart balance supply shareAmount feePercent = .ok (pays, fee)) :
    fee = shareAmount * balance / supply * feePercent / graphene100Percent ∧
      pays = shareAmount * balance / supply - fee ∧ shareAmount * balance / supply < balance := by
  simp only [withdrawPart, bind_eq_ok, check_eq_ok, exists_const, decide_eq_true_eq, pure_eq_ok,
    Prod.mk.injEq] at h
  obtain ⟨hlt, -, rfl, rfl⟩ := h
  exact ⟨rfl, rfl, hlt⟩

lemma withdrawPart_ne_internalError (hb : 0 < balance) (hs : 0 < supply)
    (hx : shareAmount < supply) :
    withdrawPart balance supply shareAmount feePercent ≠ .error .internalError := by
  have hlt := redeem_lt hb hs hx
  unfold withdrawPart
  simp only [check, hlt, decide_true, if_true, ok_bind]
  split
  · rintro ⟨⟩
  · rintro ⟨⟩

lemma withdrawPart_bounds (hb : 0 < balance) (hs : 0 < supply) (hx : 0 < shareAmount)
    (h : withdrawPart balance supply shareAmount feePercent = .ok (pays, fee)) :
    pays ≤ shareAmount * balance / supply ∧ pays < balance := by
  obtain ⟨hfee, hpays, hlt⟩ := withdrawPart_eq_ok h
  have hamt : 0 ≤ shareAmount * balance / supply :=
    Int.ediv_nonneg (mul_nonneg hx.le hb.le) hs.le
  have hnon : 0 ≤ fee := by
    rw [hfee]
    exact Int.ediv_nonneg (mul_nonneg hamt (Int.natCast_nonneg _)) (by decide)
  omega

end Withdraw

/-! ### Exchanges -/

section Exchange

variable {balance other receives delta virtualValue : Int}

lemma exchangeDelta_eq_ok (h : exchangeDelta virtualValue balance other receives = .ok delta) :
    divUp virtualValue (balance + receives) ≤ other ∧
      delta = other - divUp virtualValue (balance + receives) := by
  simp only [exchangeDelta, bind_eq_ok, check_eq_ok, exists_const, decide_eq_true_eq,
    pure_eq_ok] at h
  exact ⟨h.1, h.2.symm⟩

lemma exchangeDelta_ne_internalError (hb : 0 < balance) (ho : 0 < other) (hr : 0 < receives) :
    exchangeDelta (balance * other) balance other receives ≠ .error .internalError := by
  have hle : divUp (balance * other) (balance + receives) ≤ other := by
    apply divUp_le (by omega)
    calc balance * other ≤ (balance + receives) * other :=
          mul_le_mul_of_nonneg_right (by omega) ho.le
      _ = other * (balance + receives) := mul_comm _ _
  unfold exchangeDelta
  simp only [check, hle, decide_true, if_true, ok_bind]
  rintro ⟨⟩

lemma exchange_product_le (hb : 0 < balance) (ho : 0 < other) (hr : 0 < receives) {pays : Int}
    (h : exchangeDelta (balance * other) balance other receives = .ok delta) (hp : pays ≤ delta) :
    0 < other - pays ∧ balance * other ≤ (balance + receives) * (other - pays) := by
  obtain ⟨-, hdel⟩ := exchangeDelta_eq_ok h
  have hsum : 0 < balance + receives := by omega
  have hpos : 0 < divUp (balance * other) (balance + receives) := divUp_pos (mul_pos hb ho) hsum
  have hle : divUp (balance * other) (balance + receives) ≤ other - pays := by omega
  refine ⟨by omega, ?_⟩
  calc balance * other ≤ divUp (balance * other) (balance + receives) * (balance + receives) :=
        le_divUp_mul hsum
    _ ≤ (other - pays) * (balance + receives) := mul_le_mul_of_nonneg_right hle hsum.le
    _ = (balance + receives) * (other - pays) := mul_comm _ _

end Exchange

end Graphene.Pools
