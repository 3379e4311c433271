import Graphene.Pools.PoolValue

/-!
# Liquidity pools over time

All pools of a database, under any sequence of operations.  Each operation changes at most one pool
and the supply of its share asset; no two pools have the same share asset.
-/

namespace Graphene.Pools

open Lib Protocol Accounts Keyed PoolState Option Function
open PoolState (supply)

inductive PoolOperation where
  | create (op : LiquidityPoolCreate)
  | delete (op : LiquidityPoolDelete)
  | update (op : LiquidityPoolUpdate)
  | deposit (op : LiquidityPoolDeposit)
  | withdraw (op : LiquidityPoolWithdraw)
  | exchange (op : LiquidityPoolExchange)
  | reserve (op : AssetReserve)

def PoolOperation.perform : PoolOperation → PoolState → Except PoolError PoolState
  | create op, s => s.liquidityPoolCreate op
  | delete op, s => s.liquidityPoolDelete op
  | update op, s => s.liquidityPoolUpdate op
  | deposit op, s => s.liquidityPoolDeposit op
  | withdraw op, s => s.liquidityPoolWithdraw op
  | exchange op, s => s.liquidityPoolExchange op
  | reserve op, s => s.assetReserve op

/-! ## What an operation changes -/

/-- A pool and its supply before and after an operation on it. -/
structure Moves (p : LiquidityPool) (supply : Int) (p' : LiquidityPool) (supply' : Int) : Prop where
  id_eq : p'.id = p.id
  shareAsset_eq : p'.shareAsset = p.shareAsset
  balanced : Balanced p supply → Balanced p' supply'
  keepsValue : Balanced p supply → 0 < supply → 0 < supply' → KeepsValue p supply p' supply'

/-- The effect of an operation on the pools and on the supply of their share assets. -/
inductive Effect (s s' : PoolState) : Prop where
  | created (p : LiquidityPool) :
      p.id = s.pools.nextId → p.balanceA = 0 → p.balanceB = 0 → p.virtualValue = 0 →
      s.forLiquidityPool p.shareAsset = none → s.supply p.shareAsset = 0 →
      s'.pools = s.pools.write p → s'.currentSupply = s.currentSupply →
      s'.forLiquidityPool = update s.forLiquidityPool p.shareAsset (some p.id) →
      Effect s s'
  | deleted (p : LiquidityPool) :
      s.pools.find p.id = some p → s'.pools = s.pools.remove p.id →
      s'.currentSupply = s.currentSupply →
      s'.forLiquidityPool = update s.forLiquidityPool p.shareAsset none → Effect s s'
  | moved (p p' : LiquidityPool) (supply' : Int) :
      s.pools.find p.id = some p → Moves p (s.supply p.shareAsset) p' supply' →
      s'.pools = s.pools.write p' →
      (∀ a, s'.supply a = if a = p.shareAsset then supply' else s.supply a) →
      s'.forLiquidityPool = s.forLiquidityPool → Effect s s'
  | reserved (a : AssetId) (x : Int) :
      0 < x → ((s.forLiquidityPool a).isSome → x < s.supply a) → s'.pools = s.pools →
      (∀ b, s'.supply b = if b = a then s.supply a - x else s.supply b) →
      s'.forLiquidityPool = s.forLiquidityPool → Effect s s'

variable {p : LiquidityPool} {op : LiquidityPoolExchange} {sellsA : Bool} {r : ExchangeResult}

namespace PoolState

variable {s s' : PoolState}

lemma pool_eq_ok {id : Nat} : s.pool id = .ok p ↔ s.pools.find id = some p := by
  unfold pool
  cases s.pools.find id <;> simp

lemma supply_add (t : Tally AssetId) (a b : AssetId) (x : Int) :
    (t.add a x).get b = if b = a then t.get a + x else t.get b := by
  rw [Tally.get_add, Pi.add_apply]
  by_cases h : b = a
  · subst h
    simp
  · simp [h]

lemma create_effect {op : LiquidityPoolCreate} (h : s.liquidityPoolCreate op = .ok s') :
    Effect s s' := by
  simp only [liquidityPoolCreate, bind_eq_ok, check_eq_ok, exists_const, decide_eq_true_eq,
    pure_eq_ok, isNone_iff_eq_none] at h
  obtain ⟨-, -, -, -, -, -, -, -, -, -, -, -, hnone, hsup, rfl⟩ := h
  exact .created (op.newPool s.pools.nextId) rfl rfl rfl rfl hnone hsup rfl rfl rfl

lemma delete_effect {op : LiquidityPoolDelete} (h : s.liquidityPoolDelete op = .ok s') :
    Effect s s' := by
  simp only [liquidityPoolDelete, bind_eq_ok, ↓check_then, pure_eq_ok, pool_eq_ok] at h
  obtain ⟨p, hp, -, -, -, -, rfl⟩ := h
  have hid : p.id = op.pool := key_of_find hp
  exact .deleted p (hid ▸ hp) (hid ▸ rfl) rfl rfl

lemma update_effect {op : LiquidityPoolUpdate} (h : s.liquidityPoolUpdate op = .ok s') :
    Effect s s' := by
  simp only [liquidityPoolUpdate, bind_eq_ok, check_eq_ok, exists_const, decide_eq_true_eq,
    pure_eq_ok, pool_eq_ok] at h
  obtain ⟨-, -, -, p, hp, -, -, -, -, rfl⟩ := h
  have hid : p.id = op.pool := key_of_find hp
  refine .moved p (op.updated p) (s.supply p.shareAsset) (hid ▸ hp) ?_ rfl ?_ rfl
  · exact ⟨rfl, rfl, fun hb => ⟨hb.value_eq, hb.together⟩, fun _ _ _ => le_rfl⟩
  · intro a
    split
    · next ha => rw [ha]; rfl
    · rfl

lemma evaluateDeposit_moves {op : LiquidityPoolDeposit} {r : DepositResult}
    (hA : 0 < op.amountA.amount) (hB : 0 < op.amountB.amount) (h : s.evaluateDeposit op p = .ok r) :
    Moves p (s.supply p.shareAsset)
      (p.withBalances (p.balanceA + r.poolReceivesA) (p.balanceB + r.poolReceivesB))
      (s.supply p.shareAsset + r.accountReceives) := by
  simp only [evaluateDeposit, checkAuthorized, bind_eq_ok, check_eq_ok, exists_const,
    decide_eq_true_eq] at h
  obtain ⟨-, -, -, shareAsset, -, -, -, -, -, -, h⟩ := h
  split at h
  next hzero =>
    -- the initial deposit
    obtain rfl := initialDeposit_eq_ok h
    have hboth : Balanced p (s.supply p.shareAsset) → p.balanceB = 0 ∧ s.supply p.shareAsset = 0 := by
      intro hp
      rcases hp.together with ⟨-, hb, hs⟩ | ⟨ha, -, -⟩
      · exact ⟨hb, hs⟩
      · exact absurd hzero ha.ne'
    refine ⟨rfl, rfl, fun hp => ?_, fun hp hs => ?_⟩
    · obtain ⟨hb, hs⟩ := hboth hp
      rw [hzero, hb, hs, zero_add, zero_add, zero_add]
      exact balanced_withBalances hA hB (lt_max_of_lt_left hA)
    · exact absurd (hboth hp).2 hs.ne'
  next hne =>
    obtain ⟨hpos, ha, hb⟩ := laterDeposit_eq_ok h
    refine ⟨rfl, rfl, fun hp => ?_, fun hp _ _ => laterDeposit_keepsValue hp hne h⟩
    obtain ⟨hpa, hpb, hs⟩ := hp.positive_of_balanceA hne
    have hra : 0 < r.poolReceivesA := ha ▸ divUp_pos (mul_pos hpos hpa) hs
    have hrb : 0 < r.poolReceivesB := hb ▸ divUp_pos (mul_pos hpos hpb) hs
    exact balanced_withBalances (by omega) (by omega) (by omega)

lemma deposit_effect {op : LiquidityPoolDeposit} (h : s.liquidityPoolDeposit op = .ok s') :
    Effect s s' := by
  simp only [liquidityPoolDeposit, adjust, bind_eq_ok, check_eq_ok, exists_const, decide_eq_true_eq,
    pure_eq_ok, pool_eq_ok] at h
  obtain ⟨⟨hA, hB⟩, -, p, hp, r, hr, _, ⟨b1, -, rfl⟩, _, ⟨b2, -, rfl⟩, _, ⟨b3, -, rfl⟩, -, -, rfl⟩ := h
  have hid : p.id = op.pool := key_of_find hp
  exact .moved p _ _ (hid ▸ hp) (evaluateDeposit_moves hA hB hr) rfl
    (fun a => supply_add _ _ _ _) rfl

lemma evaluateWithdraw_moves {op : LiquidityPoolWithdraw} {a b : Int}
    (hx : 0 < op.shareAmount.amount) (h : s.evaluateWithdraw op p = .ok (a, b)) :
    Moves p (s.supply p.shareAsset) (p.withBalances (p.balanceA - a) (p.balanceB - b))
      (s.supply p.shareAsset + -op.shareAmount.amount) := by
  simp only [evaluateWithdraw, checkAuthorized, bind_eq_ok, check_eq_ok, exists_const,
    decide_eq_true_eq] at h
  obtain ⟨-, ⟨hpa, hpb⟩, -, hle, h⟩ := h
  split at h
  next hall =>
    -- all shares are redeemed
    obtain ⟨rfl, rfl⟩ := h
    refine ⟨rfl, rfl, fun _ => ?_, fun _ _ hs => ?_⟩
    · rw [hall, sub_self, sub_self, add_neg_cancel]
      exact ⟨rfl, .inl ⟨rfl, rfl, rfl⟩⟩
    · rw [hall, add_neg_cancel] at hs
      exact absurd hs (lt_irrefl _)
  next hpart =>
    simp only [bind_eq_ok, Prod.exists, ↓check_then, pure_eq_ok, Prod.mk.injEq] at h
    obtain ⟨a', feeA, ha, b', feeB, hb, -, rfl, rfl⟩ := h
    have hs : 0 < s.supply p.shareAsset := lt_of_lt_of_le hx hle
    have hlt : op.shareAmount.amount < s.supply p.shareAsset := lt_of_le_of_ne hle (Ne.symm hpart)
    obtain ⟨hA, hA'⟩ := withdrawPart_bounds hpa hs hx ha
    obtain ⟨hB, hB'⟩ := withdrawPart_bounds hpb hs hx hb
    refine ⟨rfl, rfl, fun _ => balanced_withBalances (by omega) (by omega) (by omega), ?_⟩
    intro _ _ _
    refine product_keeps hpb.le hs.le (by omega) (by change 0 ≤ p.balanceA - _; omega) ?_ ?_
    · exact redeem_keeps hs hA
    · exact redeem_keeps hs hB

lemma withdraw_effect {op : LiquidityPoolWithdraw} (h : s.liquidityPoolWithdraw op = .ok s') :
    Effect s s' := by
  simp only [liquidityPoolWithdraw, adjust, bind_eq_ok, check_eq_ok, exists_const, decide_eq_true_eq,
    pure_eq_ok, pool_eq_ok, Prod.exists] at h
  obtain ⟨hx, p, hp, a, b, hab, _, ⟨b1, -, rfl⟩, _, ⟨b2, -, rfl⟩, _, ⟨b3, -, rfl⟩, -, -, rfl⟩ := h
  have hid : p.id = op.pool := key_of_find hp
  exact .moved p _ _ (hid ▸ hp) (evaluateWithdraw_moves hx hab) rfl (fun a => supply_add _ _ _ _) rfl

lemma exchangeAmounts_eq_ok (h : s.exchangeAmounts op p sellsA = .ok r) :
    0 < r.poolReceives ∧ ∃ delta, p.delta sellsA r.poolReceives = .ok delta ∧
      r.poolPays = delta - delta * p.takerFeePercent / graphene100Percent := by
  simp only [exchangeAmounts, bind_eq_ok, ↓check_then, pure_eq_ok] at h
  obtain ⟨fee, -, hfee, delta, hdel, -, fee', -, -, -, rfl⟩ := h
  exact ⟨sub_pos.2 hfee, delta, hdel, rfl⟩

lemma exchanged_product_le (hpa : 0 < p.balanceA) (hpb : 0 < p.balanceB)
    (hval : p.virtualValue = p.balanceA * p.balanceB) (h : s.exchangeAmounts op p sellsA = .ok r) :
    0 < (exchanged p sellsA r).balanceA ∧ 0 < (exchanged p sellsA r).balanceB ∧
      p.balanceA * p.balanceB
        ≤ (exchanged p sellsA r).balanceA * (exchanged p sellsA r).balanceB := by
  obtain ⟨hr, delta, hdel, hpays⟩ := exchangeAmounts_eq_ok h
  -- the taker fee of the pool stays in it
  have hle : 0 ≤ delta → r.poolPays ≤ delta := by
    intro hnon
    have hfee : 0 ≤ delta * p.takerFeePercent / graphene100Percent :=
      Int.ediv_nonneg (mul_nonneg hnon (Int.natCast_nonneg _)) (by decide)
    omega
  unfold LiquidityPool.delta at hdel
  rw [hval] at hdel
  cases sellsA with
  | true =>
    obtain ⟨hoth, rfl⟩ := exchangeDelta_eq_ok hdel
    obtain ⟨hpos, hprod⟩ := exchange_product_le hpa hpb hr hdel (hle (by omega))
    exact ⟨by change 0 < p.balanceA + r.poolReceives; omega, hpos, hprod⟩
  | false =>
    rw [if_neg (by decide), mul_comm p.balanceA] at hdel
    obtain ⟨hoth, rfl⟩ := exchangeDelta_eq_ok hdel
    obtain ⟨hpos, hprod⟩ := exchange_product_le hpb hpa hr hdel (hle (by omega))
    refine ⟨hpos, by change 0 < p.balanceB + r.poolReceives; omega, ?_⟩
    calc p.balanceA * p.balanceB = p.balanceB * p.balanceA := mul_comm _ _
      _ ≤ (p.balanceB + r.poolReceives) * (p.balanceA - r.poolPays) := hprod
      _ = _ := mul_comm _ _

lemma exchanged_virtualValue :
    (exchanged p sellsA r).virtualValue
      = (exchanged p sellsA r).balanceA * (exchanged p sellsA r).balanceB := by
  cases sellsA <;> rfl

lemma exchangeAmounts_moves (hpa : 0 < p.balanceA) (hpb : 0 < p.balanceB)
    (h : s.exchangeAmounts op p sellsA = .ok r) (supply : Int) :
    Moves p supply (exchanged p sellsA r) supply := by
  refine ⟨?_, ?_, fun hp => ?_, fun hp _ _ => ?_⟩
  · cases sellsA <;> rfl
  · cases sellsA <;> rfl
  · obtain ⟨ha, hb, -⟩ := exchanged_product_le hpa hpb hp.value_eq h
    exact ⟨exchanged_virtualValue, .inr ⟨ha, hb, (hp.positive_of_balanceA hpa.ne').2.2⟩⟩
  · exact mul_le_mul_of_nonneg_right (exchanged_product_le hpa hpb hp.value_eq h).2.2 (sq_nonneg _)

lemma exchange_effect (h : s.liquidityPoolExchange op = .ok s') : Effect s s' := by
  simp only [liquidityPoolExchange, adjust, bind_eq_ok, check_eq_ok, exists_const, decide_eq_true_eq,
    pure_eq_ok, pool_eq_ok] at h
  obtain ⟨-, -, -, p, hp, r, hr, _, ⟨b1, -, rfl⟩, _, ⟨b2, -, rfl⟩, -, -, -, -, -, -, rfl⟩ := h
  simp only [evaluateExchange, checkAuthorized, bind_eq_ok, check_eq_ok, exists_const,
    decide_eq_true_eq] at hr
  obtain ⟨⟨hpa, hpb⟩, -, -, -, -, -, -, -, hr⟩ := hr
  have hid : p.id = op.pool := key_of_find hp
  refine .moved p _ (s.supply p.shareAsset) (hid ▸ hp) (exchangeAmounts_moves hpa hpb hr _) rfl ?_ rfl
  intro a
  split
  · next ha => rw [ha]; rfl
  · rfl

lemma reserve_effect {op : AssetReserve} (h : s.assetReserve op = .ok s') : Effect s s' := by
  simp only [assetReserve, adjust, bind_eq_ok, check_eq_ok, exists_const, decide_eq_true_eq,
    pure_eq_ok] at h
  obtain ⟨-, hx, -, -, -, -, hsup, _, ⟨b1, -, rfl⟩, rfl⟩ := h
  refine .reserved op.amountToReserve.assetId op.amountToReserve.amount hx ?_ rfl
    (fun b => supply_add _ _ _ _) rfl
  intro hsome
  rw [if_neg (by simpa [isSome_iff_ne_none] using hsome)] at hsup
  simpa using hsup

end PoolState

lemma PoolOperation.effect {op : PoolOperation} {s s' : PoolState} (h : op.perform s = .ok s') :
    Effect s s' := by
  cases op with
  | create => exact create_effect h
  | delete => exact delete_effect h
  | update => exact update_effect h
  | deposit => exact deposit_effect h
  | withdraw => exact withdraw_effect h
  | exchange => exact exchange_effect h
  | reserve => exact reserve_effect h

/-! ## All pools -/

structure Sound (s : PoolState) : Prop where
  balanced : ∀ p ∈ s.pools.objects, Balanced p (s.supply p.shareAsset)
  bound : ∀ p ∈ s.pools.objects, s.forLiquidityPool p.shareAsset = some p.id

lemma Sound.shareAsset_ne {s : PoolState} (h : Sound s) {q : LiquidityPool}
    (hp : p ∈ s.pools.objects) (hq : q ∈ s.pools.objects) (hne : p.id ≠ q.id) :
    p.shareAsset ≠ q.shareAsset := by
  intro he
  have hp := h.bound p hp
  rw [he, h.bound q hq] at hp
  exact hne (some.inj hp).symm

lemma KeepsValue.refl (p : LiquidityPool) (supply : Int) : KeepsValue p supply p supply := le_rfl

namespace Effect

variable {s s' : PoolState}

lemma sound (he : Effect s s') (h : Sound s) : Sound s' := by
  cases he with
  | created p hid ha hb hv hnone hzero hpls hsup hfor =>
    have hne : ∀ q ∈ s.pools.objects, q.shareAsset ≠ p.shareAsset := by
      intro q hq he
      have := h.bound q hq
      rw [he, hnone] at this
      cases this
    constructor
    · intro q hq
      rw [hpls] at hq
      have hsame : s'.supply q.shareAsset = s.supply q.shareAsset := by
        rw [supply, hsup, supply]
      rw [hsame]
      rcases mem_put hq with rfl | hq
      · exact ⟨by rw [hv, ha, zero_mul], .inl ⟨ha, hb, hzero⟩⟩
      · exact h.balanced q hq
    · intro q hq
      rw [hpls] at hq
      rw [hfor]
      rcases mem_put hq with rfl | hq
      · exact update_self _ _ _
      · rw [update_of_ne (hne q hq)]
        exact h.bound q hq
  | deleted p hp hpls hsup hfor =>
    have hp := mem_of_find hp
    constructor
    · intro q hq
      rw [hpls] at hq
      rw [supply, hsup]
      exact h.balanced q (mem_erase hq)
    · intro q hq
      rw [hpls] at hq
      have hne := h.shareAsset_ne (mem_erase hq) hp (key_ne_of_mem_erase hq)
      rw [hfor, update_of_ne hne]
      exact h.bound q (mem_erase hq)
  | moved p p' supply' hp hmoves hpls hsup hfor =>
    have hp := mem_of_find hp
    constructor
    · intro q hq
      rw [hpls] at hq
      rw [hsup]
      rcases List.mem_cons.1 hq with rfl | hq
      · rw [if_pos hmoves.shareAsset_eq]
        exact hmoves.balanced (h.balanced p hp)
      · rw [if_neg (h.shareAsset_ne (mem_erase hq) hp (hmoves.id_eq ▸ key_ne_of_mem_erase hq))]
        exact h.balanced q (mem_erase hq)
    · intro q hq
      rw [hpls] at hq
      rw [hfor]
      rcases mem_put hq with rfl | hq
      · rw [hmoves.shareAsset_eq, hmoves.id_eq]
        exact h.bound p hp
      · exact h.bound q hq
  | reserved a x hx hlt hpls hsup hfor =>
    constructor
    · intro q hq
      rw [hpls] at hq
      have hq' := h.balanced q hq
      rw [hsup]
      split
      next he =>
        subst he
        have hlt := hlt (by rw [h.bound q hq]; rfl)
        obtain ⟨hqa, hqb⟩ := hq'.positive (by omega)
        exact ⟨hq'.value_eq, .inr ⟨hqa, hqb, by omega⟩⟩
      next => exact hq'
    · intro q hq
      rw [hpls] at hq
      rw [hfor]
      exact h.bound q hq

lemma keepsValue (he : Effect s s') (h : Sound s) {id : Nat} {p' : LiquidityPool}
    (hp : s.pools.find id = some p) (hp' : s'.pools.find id = some p')
    (hs : 0 < s.supply p.shareAsset) (hs' : 0 < s'.supply p'.shareAsset) :
    KeepsValue p (s.supply p.shareAsset) p' (s'.supply p'.shareAsset) := by
  cases he with
  | created q hid _ _ _ _ _ hpls hsup _ =>
    rw [hpls] at hp'
    rw [Store.write, find_put, hid, if_neg (Store.lt_nextId hp).ne, hp] at hp'
    obtain rfl := some.inj hp'
    rw [supply, supply, hsup]
    exact KeepsValue.refl _ _
  | deleted q hq hpls hsup _ =>
    rw [hpls] at hp'
    rw [Store.remove, find_erase] at hp'
    split at hp'
    · cases hp'
    · rw [hp] at hp'
      obtain rfl := some.inj hp'
      rw [supply, supply, hsup]
      exact KeepsValue.refl _ _
  | moved q q' supply' hq hmoves hpls hsup _ =>
    rw [hpls] at hp'
    rw [hsup] at hs' ⊢
    rw [Store.write, find_put] at hp'
    split at hp'
    next hid =>
      obtain rfl := some.inj hp'
      rw [hmoves.id_eq] at hid
      rw [hid, hq] at hp
      obtain rfl := some.inj hp
      rw [if_pos hmoves.shareAsset_eq] at hs' ⊢
      exact hmoves.keepsValue (h.balanced q (mem_of_find hq)) hs hs'
    next hid =>
      rw [hp] at hp'
      obtain rfl := some.inj hp'
      have hne : p.id ≠ q.id := by
        rwa [key_of_find hp, ← hmoves.id_eq]
      rw [if_neg (h.shareAsset_ne (mem_of_find hp) (mem_of_find hq) hne)]
      exact KeepsValue.refl _ _
  | reserved a x hx _ hpls hsup _ =>
    rw [hpls, hp] at hp'
    obtain rfl := some.inj hp'
    have hb := h.balanced p (mem_of_find hp)
    obtain ⟨ha, hb⟩ := hb.positive hs
    rw [hsup] at hs' ⊢
    split at hs'
    next he =>
      rw [if_pos he]
      subst he
      apply mul_le_mul_of_nonneg_left _ (mul_pos ha hb).le
      exact pow_le_pow_left₀ hs'.le (by omega) 2
    next he =>
      rw [if_neg he]
      exact KeepsValue.refl _ _

end Effect

end Graphene.Pools
