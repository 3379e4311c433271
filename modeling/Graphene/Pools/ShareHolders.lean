import Graphene.Market.SettleEvaluators
import Graphene.Market.StateRules
import Graphene.Pools.PoolHistory

/-!
# Share holders of a liquidity pool

None of the internal assertions of the pool evaluators fails in a state that is reached, and while
there are share holders the value of their shares does not fall.
-/

namespace Graphene.Pools

open Lib Protocol Accounts Keyed

/-! ## The internal assertions -/

variable {p : LiquidityPool}

namespace PoolState

variable {s : PoolState}

lemma asset_ne_internalError (a : AssetId) : s.asset a ≠ .error .internalError := by
  unfold asset
  cases s.rules.asset a <;> nofun

lemma pool_ne_internalError (id : Nat) : s.pool id ≠ .error .internalError := by
  unfold pool
  cases s.pools.find id <;> nofun

lemma calculateMarketFee_ne_internalError (amount : Asset) (isMaker : Bool) :
    s.calculateMarketFee amount isMaker ≠ .error .internalError := by
  unfold calculateMarketFee
  cases s.rules.calculateMarketFee amount isMaker <;> nofun

lemma adjust_ne_internalError (account : AccountId) (delta : Asset) :
    s.adjust account delta ≠ .error .internalError :=
  bind_ne_error (check_bind_ne nofun nofun) nofun

lemma adjust_bind_ne {α : Type} {account : AccountId} {delta : Asset}
    {f : PoolState → Except PoolError α} (hf : ∀ b, f { s with balances := b } ≠ .error .internalError) :
    (s.adjust account delta >>= f) ≠ .error .internalError := by
  refine bind_ne_error (adjust_ne_internalError _ _) fun s' h => ?_
  simp only [adjust, bind_eq_ok, pure_eq_ok] at h
  obtain ⟨b, -, rfl⟩ := h
  exact hf b

lemma create_ne_internalError (op : LiquidityPoolCreate) :
    s.liquidityPoolCreate op ≠ .error .internalError := by
  iterate 4 refine check_bind_ne nofun fun _ _ => ?_
  iterate 3 refine bind_ne_error (asset_ne_internalError _) fun _ _ => ?_
  iterate 3 refine check_bind_ne nofun fun _ _ => ?_
  exact check_bind_ne nofun nofun

lemma delete_ne_internalError (op : LiquidityPoolDelete) :
    s.liquidityPoolDelete op ≠ .error .internalError := by
  refine bind_ne_error (pool_ne_internalError _) fun _ _ => ?_
  refine check_bind_ne nofun fun _ _ => ?_
  refine bind_ne_error (asset_ne_internalError _) fun _ _ => ?_
  exact check_bind_ne nofun nofun

lemma update_ne_internalError (op : LiquidityPoolUpdate) :
    s.liquidityPoolUpdate op ≠ .error .internalError := by
  iterate 3 refine check_bind_ne nofun fun _ _ => ?_
  refine bind_ne_error (pool_ne_internalError _) fun _ _ => ?_
  refine bind_ne_error (asset_ne_internalError _) fun _ _ => ?_
  refine check_bind_ne nofun fun _ _ => ?_
  exact check_bind_ne nofun nofun

lemma reserve_ne_internalError (op : AssetReserve) : s.assetReserve op ≠ .error .internalError := by
  iterate 2 refine check_bind_ne nofun fun _ _ => ?_
  refine bind_ne_error (asset_ne_internalError _) fun _ _ => ?_
  iterate 3 refine check_bind_ne nofun fun _ _ => ?_
  exact bind_ne_error (adjust_ne_internalError _ _) nofun

lemma evaluateDeposit_pos {op : LiquidityPoolDeposit} {r : DepositResult}
    (hA : 0 < op.amountA.amount) (h : s.evaluateDeposit op p = .ok r) : 0 < r.accountReceives := by
  simp only [evaluateDeposit, checkAuthorized, bind_eq_ok, check_eq_ok, exists_const,
    decide_eq_true_eq] at h
  obtain ⟨-, -, -, shareAsset, -, -, -, -, -, -, h⟩ := h
  split at h
  · rw [initialDeposit_eq_ok h]
    exact lt_max_of_lt_left hA
  · exact (laterDeposit_eq_ok h).1

lemma evaluateDeposit_ne_internalError (op : LiquidityPoolDeposit)
    (hp : Balanced p (s.supply p.shareAsset)) : s.evaluateDeposit op p ≠ .error .internalError := by
  iterate 2 refine check_bind_ne nofun fun _ _ => ?_
  refine bind_ne_error (check_ne_error_of hp.checks.1) fun _ _ => ?_
  refine bind_ne_error (asset_ne_internalError _) fun _ _ => ?_
  iterate 2 refine check_bind_ne nofun fun _ _ => ?_
  refine bind_ne_error (check_ne_error_of hp.checks.2) fun _ _ => ?_
  iterate 2 refine check_bind_ne nofun fun _ _ => ?_
  split
  · exact check_bind_ne nofun nofun
  · next hne =>
      obtain ⟨ha, hb, hs⟩ := hp.positive_of_balanceA hne
      exact laterDeposit_ne_internalError ha hb hs

lemma deposit_ne_internalError (hs : Sound s) (op : LiquidityPoolDeposit) :
    s.liquidityPoolDeposit op ≠ .error .internalError := by
  refine check_bind_ne nofun fun _ hpos => ?_
  refine check_bind_ne nofun fun _ _ => ?_
  refine bind_ne_error (pool_ne_internalError _) fun p hp => ?_
  have hp := hs.balanced p (mem_of_find (pool_eq_ok.1 hp))
  refine bind_ne_error (evaluateDeposit_ne_internalError op hp) fun r hr => ?_
  obtain ⟨hA, hB⟩ : 0 < op.amountA.amount ∧ 0 < op.amountB.amount := by
    simpa [check_eq_ok] using hpos
  -- what the last two assertions are about
  have hsup : 0 < s.supply p.shareAsset + r.accountReceives := by
    have := evaluateDeposit_pos hA hr
    have := hp.nonneg
    omega
  have hp' := ((evaluateDeposit_moves hA hB hr).balanced hp).positive hsup
  iterate 3 refine adjust_bind_ne fun _ => ?_
  refine bind_ne_error (check_ne_error_of (decide_eq_true hp')) fun _ _ => ?_
  refine bind_ne_error (check_ne_error_of (decide_eq_true ?_)) nofun
  rwa [supply_add, if_pos rfl]

lemma evaluateWithdraw_ne_internalError {op : LiquidityPoolWithdraw}
    (hx : 0 < op.shareAmount.amount) : s.evaluateWithdraw op p ≠ .error .internalError := by
  refine check_bind_ne nofun fun _ _ => ?_
  refine check_bind_ne nofun fun _ hpos => ?_
  refine check_bind_ne nofun fun _ _ => ?_
  refine check_bind_ne nofun fun _ hle => ?_
  obtain ⟨ha, hb⟩ : 0 < p.balanceA ∧ 0 < p.balanceB := by simpa [check_eq_ok] using hpos
  have hle : op.shareAmount.amount ≤ s.supply p.shareAsset := by simpa [check_eq_ok] using hle
  split
  · nofun
  · next hne =>
      have hlt : op.shareAmount.amount < s.supply p.shareAsset := lt_of_le_of_ne hle (Ne.symm hne)
      have hs : 0 < s.supply p.shareAsset := lt_trans hx hlt
      refine bind_ne_error (withdrawPart_ne_internalError ha hs hlt) fun _ _ => ?_
      refine bind_ne_error (withdrawPart_ne_internalError hb hs hlt) fun _ _ => ?_
      exact check_bind_ne nofun nofun

lemma withdraw_ne_internalError (hs : Sound s) (op : LiquidityPoolWithdraw) :
    s.liquidityPoolWithdraw op ≠ .error .internalError := by
  refine check_bind_ne nofun fun _ hpos => ?_
  have hx : 0 < op.shareAmount.amount := by simpa [check_eq_ok] using hpos
  refine bind_ne_error (pool_ne_internalError _) fun p hp => ?_
  have hp := hs.balanced p (mem_of_find (pool_eq_ok.1 hp))
  refine bind_ne_error (evaluateWithdraw_ne_internalError hx) fun r hr => ?_
  obtain ⟨a, b⟩ := r
  have hsup : (s.currentSupply.add p.shareAsset (-op.shareAmount.amount)).get p.shareAsset
      = s.supply p.shareAsset + -op.shareAmount.amount := by
    rw [supply_add, if_pos rfl]
    rfl
  have hp' := ((evaluateWithdraw_moves hx hr).balanced hp).checks
  rw [← hsup] at hp'
  iterate 3 refine adjust_bind_ne fun _ => ?_
  refine bind_ne_error (check_ne_error_of hp'.1) fun _ _ => ?_
  exact bind_ne_error (check_ne_error_of hp'.2) nofun

lemma exchangeAmounts_ne_internalError (op : LiquidityPoolExchange) {sellsA : Bool}
    (ha : 0 < p.balanceA) (hb : 0 < p.balanceB) (hval : p.virtualValue = p.balanceA * p.balanceB) :
    s.exchangeAmounts op p sellsA ≠ .error .internalError := by
  refine bind_ne_error (calculateMarketFee_ne_internalError _ _) fun fee _ => ?_
  refine check_bind_ne nofun fun _ hfee => ?_
  have hr : 0 < op.amountToSell.amount - fee := by simpa [check_eq_ok] using hfee
  refine bind_ne_error ?_ fun delta _ => ?_
  · unfold LiquidityPool.delta
    rw [hval]
    cases sellsA with
    | true => exact exchangeDelta_ne_internalError ha hb hr
    | false =>
      rw [mul_comm]
      exact exchangeDelta_ne_internalError hb ha hr
  · refine check_bind_ne nofun fun _ _ => ?_
    refine bind_ne_error (calculateMarketFee_ne_internalError _ _) fun _ _ => ?_
    refine check_bind_ne nofun fun _ _ => ?_
    exact check_bind_ne nofun nofun

lemma exchange_ne_internalError (hs : Sound s) (op : LiquidityPoolExchange) :
    s.liquidityPoolExchange op ≠ .error .internalError := by
  iterate 3 refine check_bind_ne (by rintro ⟨⟩) fun _ _ => ?_
  refine bind_ne_error (pool_ne_internalError _) fun p hp => ?_
  have hval := (hs.balanced p (mem_of_find (pool_eq_ok.1 hp))).value_eq
  refine bind_ne_error ?_ fun r hr => ?_
  · refine check_bind_ne (by rintro ⟨⟩) fun _ hpos => ?_
    obtain ⟨ha, hb⟩ : 0 < p.balanceA ∧ 0 < p.balanceB := by simpa [check_eq_ok] using hpos
    refine check_bind_ne (by rintro ⟨⟩) fun _ _ => ?_
    iterate 2 refine bind_ne_error (asset_ne_internalError _) fun _ _ => ?_
    iterate 2 refine check_bind_ne (by rintro ⟨⟩) fun _ _ => ?_
    exact exchangeAmounts_ne_internalError op ha hb hval
  · simp only [evaluateExchange, checkAuthorized, bind_eq_ok, check_eq_ok, exists_const,
      decide_eq_true_eq] at hr
    obtain ⟨⟨ha, hb⟩, -, -, -, -, -, -, -, hr⟩ := hr
    obtain ⟨ha', hb', hprod⟩ := exchanged_product_le ha hb hval hr
    iterate 2 refine adjust_bind_ne fun _ => ?_
    refine bind_ne_error (asset_ne_internalError _) fun _ _ => ?_
    iterate 2 refine check_bind_ne (by rintro ⟨⟩) fun _ _ => ?_
    refine bind_ne_error (check_ne_error_of (decide_eq_true ⟨ha', hb'⟩)) fun _ _ => ?_
    refine bind_ne_error (check_ne_error_of (decide_eq_true ?_)) (by rintro _ _ ⟨⟩)
    rwa [exchanged_virtualValue, hval]

end PoolState

variable {s : PoolState}

lemma PoolOperation.ne_internalError (hs : Sound s) (op : PoolOperation) :
    op.perform s ≠ .error .internalError := by
  cases op with
  | create op => exact PoolState.create_ne_internalError op
  | delete op => exact PoolState.delete_ne_internalError op
  | update op => exact PoolState.update_ne_internalError op
  | deposit op => exact PoolState.deposit_ne_internalError hs op
  | withdraw op => exact PoolState.withdraw_ne_internalError hs op
  | exchange op => exact PoolState.exchange_ne_internalError hs op
  | reserve op => exact PoolState.reserve_ne_internalError op

/-! ## Runs -/

/-- A step of the database: an operation, or a change elsewhere, which does not touch pools or the
supply of their share assets. -/
inductive Step (s s' : PoolState) : Prop where
  | operation (op : PoolOperation) : op.perform s = .ok s' → Step s s'
  | elsewhere : s'.pools = s.pools → s'.forLiquidityPool = s.forLiquidityPool →
      (∀ p ∈ s.pools.objects, s'.supply p.shareAsset = s.supply p.shareAsset) → Step s s'

variable {s' : PoolState}

lemma Step.sound (h : Step s s') (hs : Sound s) : Sound s' := by
  cases h with
  | operation op hop => exact (PoolOperation.effect hop).sound hs
  | elsewhere hpls hfor hsup =>
    constructor
    · intro p hp
      rw [hpls] at hp
      rw [hsup p hp]
      exact hs.balanced p hp
    · intro p hp
      rw [hpls] at hp
      rw [hfor]
      exact hs.bound p hp

variable {id : Nat} {p' : LiquidityPool}

lemma Step.keepsValue (h : Step s s') (hs : Sound s) (hp : s.pools.find id = some p)
    (hp' : s'.pools.find id = some p') (hpos : 0 < s.supply p.shareAsset)
    (hpos' : 0 < s'.supply p'.shareAsset) :
    KeepsValue p (s.supply p.shareAsset) p' (s'.supply p'.shareAsset) := by
  cases h with
  | operation op hop => exact (PoolOperation.effect hop).keepsValue hs hp hp' hpos hpos'
  | elsewhere hpls _ hsup =>
    rw [hpls, hp] at hp'
    obtain rfl := Option.some.inj hp'
    rw [hsup p (mem_of_find hp)]
    exact KeepsValue.refl _ _

def Reachable (s : PoolState) : Prop :=
  ∃ s0, s0.pools.objects = [] ∧ Relation.ReflTransGen Step s0 s

lemma Reachable.sound (h : Reachable s) : Sound s := by
  obtain ⟨s0, hemp, hrun⟩ := h
  induction hrun with
  | refl =>
    constructor
    · rw [hemp]
      nofun
    · rw [hemp]
      nofun
  | tail _ hstep ih => exact hstep.sound ih

def Held (id : Nat) (s : PoolState) : Prop :=
  ∃ p, s.pools.find id = some p ∧ 0 < s.supply p.shareAsset

def HeldStep (id : Nat) (s s' : PoolState) : Prop :=
  Step s s' ∧ Held id s ∧ Held id s'

lemma keepsValue_of_held (hs : Sound s) (hrun : Relation.ReflTransGen (HeldStep id) s s')
    (hp : s.pools.find id = some p) (hp' : s'.pools.find id = some p') :
    KeepsValue p (s.supply p.shareAsset) p' (s'.supply p'.shareAsset) := by
  induction hrun using Relation.ReflTransGen.head_induction_on generalizing p with
  | refl =>
    rw [hp] at hp'
    obtain rfl := Option.some.inj hp'
    exact KeepsValue.refl _ _
  | head hstep _ ih =>
    obtain ⟨hstep, ⟨q, hq, hpos⟩, ⟨r, hr, hpos'⟩⟩ := hstep
    rw [hp] at hq
    obtain rfl := Option.some.inj hq
    exact ratio_trans (sq_nonneg _) (pow_pos hpos' 2) (sq_nonneg _)
      (hstep.keepsValue hs hp hr hpos hpos') (ih (hstep.sound hs) hr)

/-- In every state that is reached, the balances of a pool and the supply of its share asset are
zero together, the virtual value is the product of the balances, and no internal assertion fails;
and from there on, while the pool has share holders, its value per share does not fall. -/
theorem pool_keeps_value {s : PoolState} (h : Reachable s) : (∀ p ∈ s.pools.objects,
      (p.balanceA = 0 ↔ s.supply p.shareAsset = 0) ∧ (p.balanceB = 0 ↔ s.supply p.shareAsset = 0) ∧
        p.virtualValue = p.balanceA * p.balanceB) ∧
    (∀ op : PoolOperation, op.perform s ≠ .error .internalError) ∧
    ∀ id s' p p', Relation.ReflTransGen (HeldStep id) s s' → s.pools.find id = some p →
      s'.pools.find id = some p' → p.balanceA * p.balanceB * s'.supply p'.shareAsset ^ 2
        ≤ p'.balanceA * p'.balanceB * s.supply p.shareAsset ^ 2 := by
  have hs := h.sound
  refine ⟨fun p hp => ?_, PoolOperation.ne_internalError hs,
    fun id s' p p' hrun hp hp' => keepsValue_of_held hs hrun hp hp'⟩
  have hb := hs.balanced p hp
  refine ⟨?_, ?_, hb.value_eq⟩
  · rcases hb.together with ⟨ha, -, hs⟩ | ⟨ha, -, hs⟩
    · exact iff_of_true ha hs
    · exact iff_of_false ha.ne' hs.ne'
  · rcases hb.together with ⟨-, hb, hs⟩ | ⟨-, hb, hs⟩
    · exact iff_of_true hb hs
    · exact iff_of_false hb.ne' hs.ne'

/-! ## The pools within the market -/

section Market

open Market RunLogic

variable {env : Env} {m m' : MarketState} {fee x : Asset} {payer : AccountId}

/-- The rules of pools whose assets and market fees are those of the market. -/
def PoolRules.ofMarket (env : Env) (m : MarketState) : PoolRules where
  asset := fun a => (env.asset a).map fun o => ⟨o.issuer, (m.bitassets.find a).isSome,
    o.canCreateNewSupply, o.maxSupply, o.whitelistMarkets, o.blacklistMarkets⟩
  isAuthorizedAsset := env.isAuthorizedAsset
  calculateMarketFee := fun amount isMaker => (env.asset amount.assetId).bind fun o =>
    resultOf (o.calculateMarketFee amount.amount isMaker) m
  payMarketFees := fun account amount isMaker fee => (resultOf (do
    let seller ← env.getAccount account
    let asset ← env.getAsset amount.assetId
    env.distributeMarketFees (some seller) asset amount isMaker (some fee)) m).isSome

structure PoolState.Within (s : PoolState) (env : Env) (m : MarketState) : Prop where
  balances : ∀ account a, s.balances.get (account, a) = m.getBalance account a
  currentSupply : s.currentSupply = m.currentSupply
  forLiquidityPool : ∀ a o, env.asset a = some o →
    (s.forLiquidityPool a).isSome = o.isLiquidityPoolShareAsset

/-- `asset_reserve` of the market, apart from its fee, is the one of the pools. -/
lemma PoolState.Within.assetReserve (h : s.Within env m) (hrules : s.rules = .ofMarket env m)
    (hrun : (do env.checkReserve ⟨fee, payer, x⟩; applyReserve ⟨fee, payer, x⟩) m = .ok () m') :
    ∃ s', s.assetReserve ⟨payer, x⟩ = .ok s' ∧ s'.Within env m' := by
  simp only [Env.checkReserve, applyReserve, Env.getAsset, Market.adjustBalance, bind_ok_iff,
    require_ok_iff, observe_ok_iff, orThrow_ok_iff, decide_eq_true_eq] at hrun
  obtain ⟨_, _, ⟨_, _, ⟨⟨hpos, hmax⟩, rfl⟩, asset, _, ⟨hasset, rfl⟩, _, _, ⟨rfl, rfl⟩, _, _, ⟨hmia, rfl⟩,
    _, _, ⟨hauth, rfl⟩, _, _, ⟨rfl, rfl⟩, hsupply, rfl⟩, _, _, ⟨_, _, ⟨rfl, rfl⟩, _, _, ⟨hbalance, rfl⟩,
    hpaid⟩, hreserved⟩ := hrun
  cases hpaid
  cases hreserved
  have hpool := h.forLiquidityPool _ _ hasset
  refine ⟨{ s with
    balances := s.balances.add (payer, x.assetId) (-x.amount)
    currentSupply := s.currentSupply.add x.assetId (-x.amount) }, ?_, ?_, ?_, h.forLiquidityPool⟩
  · obtain ⟨o, hfound, hissued⟩ : ∃ o, s.asset x.assetId = .ok o ∧ (!o.isMarketIssued) = true := by
      simp only [PoolState.asset, hrules, PoolRules.ofMarket, hasset]
      exact ⟨_, rfl, hmia⟩
    simp only [PoolState.assetReserve, PoolState.adjust, bind_eq_ok, check_eq_ok, exists_const,
      decide_eq_true_eq, pure_eq_ok]
    refine ⟨hmax, hpos, o, hfound, hissued, by rw [hrules]; exact hauth, ?_, _,
      ⟨_, adjustBalance_eq_ok.2 ⟨by rwa [getBalance, h.balances], rfl⟩, rfl⟩, rfl⟩
    rw [PoolState.supply, h.currentSupply]
    cases hshare : s.forLiquidityPool x.assetId <;> simp_all
  · intro account a
    change (s.balances.add (payer, _) _).get _ = (Tally.add _ (Pocket.balance payer _) _).get _
    rw [Tally.get_add, Tally.get_add, Pi.add_apply, Pi.add_apply, h.balances, Pi.single_apply,
      Pi.single_apply]
    simp [Market.MarketState.getBalance, Asset.neg]
  · exact congrArg (Tally.add · x.assetId _) h.currentSupply

end Market

/-! ### A pool that is emptied and filled again -/

/-- A database without pools, in which account 10 has amounts of the assets 1 and 2 and has issued
the asset 3. -/
def beforePools : PoolState where
  rules :=
    { asset := fun _ => some ⟨10, false, true, 1000000, [], []⟩
      isAuthorizedAsset := fun _ _ => true
      calculateMarketFee := fun _ _ => some 0
      payMarketFees := fun _ _ _ _ => true }
  balances := Tally.add (Tally.add Keyed.empty (10, 1) 1000) (10, 2) 1000
  currentSupply := Keyed.empty
  forLiquidityPool := fun _ => none
  pools := Store.empty

def performAll (ops : List PoolOperation) (s : PoolState) : Except PoolError PoolState :=
  ops.foldlM (fun s op => op.perform s) s

lemma run_of_performAll {ops : List PoolOperation} (h : performAll ops s = .ok s') :
    Relation.ReflTransGen Step s s' := by
  induction ops generalizing s with
  | nil =>
    cases h
    exact .refl
  | cons op ops ih =>
    obtain ⟨s1, h1, h⟩ := bind_eq_ok.1 h
    exact .head (.operation op h1) (ih h)

def afterAll (ops : List PoolOperation) : PoolState :=
  match performAll ops beforePools with
  | .ok s => s
  | .error _ => beforePools

def filled : List PoolOperation :=
  [.create ⟨10, 1, 2, 3, 0, 0⟩, .deposit ⟨10, 0, ⟨100, 1⟩, ⟨100, 2⟩⟩]

/-- All shares are redeemed, and the pool is filled again with 1 and 100. -/
def refilled : List PoolOperation :=
  filled ++ [.withdraw ⟨10, 0, ⟨100, 3⟩⟩, .deposit ⟨10, 0, ⟨1, 1⟩, ⟨100, 2⟩⟩]

lemma filled_reachable : Reachable (afterAll filled) :=
  have hrun : performAll filled beforePools = .ok (afterAll filled) := rfl
  ⟨beforePools, rfl, run_of_performAll hrun⟩

theorem pool_keeps_value_filled : Reachable (afterAll filled) ∧
      ∀ op : PoolOperation, op.perform (afterAll filled) ≠ .error .internalError :=
  ⟨filled_reachable, (pool_keeps_value filled_reachable).2.1⟩

/-- Over a time without share holders the value per share may fall: the initial deposit sets it. -/
theorem refilled_pool_worth_less :
    Reachable (afterAll filled) ∧ Relation.ReflTransGen Step (afterAll filled) (afterAll refilled) ∧
    ∃ p p', (afterAll filled).pools.find 0 = some p ∧ (afterAll refilled).pools.find 0 = some p' ∧
      0 < (afterAll filled).supply p.shareAsset ∧ 0 < (afterAll refilled).supply p'.shareAsset ∧
      p'.balanceA * p'.balanceB * (afterAll filled).supply p.shareAsset ^ 2
        < p.balanceA * p.balanceB * (afterAll refilled).supply p'.shareAsset ^ 2 := by
  refine ⟨filled_reachable, ?_, _, _, rfl, rfl, ?_, ?_, ?_⟩
  · have hrun : performAll [.withdraw ⟨10, 0, ⟨100, 3⟩⟩, .deposit ⟨10, 0, ⟨1, 1⟩, ⟨100, 2⟩⟩]
        (afterAll filled) = .ok (afterAll refilled) := rfl
    exact run_of_performAll hrun
  · decide
  · decide
  · decide

end Graphene.Pools
