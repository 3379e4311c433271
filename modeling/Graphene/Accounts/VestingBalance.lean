import Graphene.Protocol.Asset

/-!
# Deposits into vesting balances

`vesting_balance_object` with its policies, as far as deposits go.  The coin seconds are counted in
128 bits without a sign.  A product of an amount and a number of seconds that is vested at once is
computed in 64 bits with a sign before.
-/

namespace Graphene.Accounts

open Lib Protocol

/-- An `int64_t` as a `uint128_t`. -/
def toUint128 (x : Int) : Nat :=
  (x % 2 ^ 128).toNat

/-- What an `int64_t` keeps of a number. -/
def toInt64 (x : Int) : Int :=
  x.bmod (2 ^ 64)

structure LinearVestingPolicy where
  beginTimestamp : Nat
  vestingCliffSeconds : Nat
  vestingDurationSeconds : Nat
  beginBalance : Int
deriving DecidableEq

structure CddVestingPolicy where
  vestingSeconds : Nat
  coinSecondsEarned : Nat
  startClaim : Nat := 0
  coinSecondsEarnedLastUpdate : Nat
deriving DecidableEq

inductive VestingPolicy where
  | linear (policy : LinearVestingPolicy)
  | cdd (policy : CddVestingPolicy)
  | instant
deriving DecidableEq

inductive VestingBalanceType where
  | unspecified
  | cashback
  | worker
  | witness
  | marketFeeSharing
deriving DecidableEq

structure VestingPolicyContext where
  balance : Asset
  now : Nat
  amount : Asset

inductive VestingError where
  /-- "May not deposit vested into a linear vesting balance." -/
  | linearDepositVested
  /-- amounts of different assets are added -/
  | assetMismatch
deriving DecidableEq

namespace CddVestingPolicy

variable (p : CddVestingPolicy)

variable (ctx : VestingPolicyContext)

def computeCoinSecondsEarned : Nat :=
  let deltaSeconds : Int := ctx.now - p.coinSecondsEarnedLastUpdate
  let deltaCoinSeconds := toUint128 ctx.balance.amount * toUint128 deltaSeconds % 2 ^ 128
  let coinSecondsEarnedCap := toUint128 ctx.balance.amount * max p.vestingSeconds 1 % 2 ^ 128
  min ((p.coinSecondsEarned + deltaCoinSeconds) % 2 ^ 128) coinSecondsEarnedCap

def updateCoinSecondsEarned :
    CddVestingPolicy :=
  { p with
    coinSecondsEarned := p.computeCoinSecondsEarned ctx
    coinSecondsEarnedLastUpdate := ctx.now }

def onDeposit : CddVestingPolicy :=
  p.updateCoinSecondsEarned ctx

def onDepositVested : CddVestingPolicy :=
  let p := p.onDeposit ctx
  { p with
    coinSecondsEarned := (p.coinSecondsEarned +
      toUint128 (toInt64 (ctx.amount.amount * max p.vestingSeconds 1))) % 2 ^ 128 }

end CddVestingPolicy

namespace VestingPolicy

def onDeposit (ctx : VestingPolicyContext) : VestingPolicy → VestingPolicy
  | linear p => linear p
  | cdd p => cdd (p.onDeposit ctx)
  | instant => instant

def onDepositVested (ctx : VestingPolicyContext) : VestingPolicy → Except VestingError VestingPolicy
  | linear _ => .error .linearDepositVested
  | cdd p => .ok (cdd (p.onDepositVested ctx))
  | instant => .ok instant

end VestingPolicy

structure VestingBalance where
  id : Nat
  owner : AccountId
  balance : Asset
  policy : VestingPolicy
  balanceType : VestingBalanceType

namespace VestingBalance

def add (vb : VestingBalance) (amount : Asset) : Except VestingError VestingBalance := do
  check (vb.balance.assetId = amount.assetId) .assetMismatch
  return { vb with balance := { vb.balance with amount := vb.balance.amount + amount.amount } }

def deposit (now : Nat) (amount : Asset) (vb : VestingBalance) :
    Except VestingError VestingBalance :=
  let ctx : VestingPolicyContext := ⟨vb.balance, now, amount⟩
  { vb with policy := vb.policy.onDeposit ctx }.add amount

def depositVested (now : Nat) (amount : Asset) (vb : VestingBalance) :
    Except VestingError VestingBalance := do
  let ctx : VestingPolicyContext := ⟨vb.balance, now, amount⟩
  let policy ← vb.policy.onDepositVested ctx
  { vb with policy := policy }.add amount

def cddPolicy? (vb : VestingBalance) : Option CddVestingPolicy :=
  match vb.policy with
  | .cdd p => some p
  | _ => none

variable {vb : VestingBalance}

lemma exists_add (vb : VestingBalance) {amount : Asset} (h : vb.balance.assetId = amount.assetId) :
    ∃ vb', vb.add amount = .ok vb' ∧ vb'.id = vb.id ∧ vb'.balance.assetId = vb.balance.assetId := by
  have hchk : check (ε := VestingError) (vb.balance.assetId = amount.assetId) .assetMismatch =
      .ok () := check_eq_ok.2 (decide_eq_true h)
  refine ⟨{ vb with balance := ⟨vb.balance.amount + amount.amount, vb.balance.assetId⟩ }, ?_, rfl, rfl⟩
  rw [add, hchk, ok_bind]
  rfl

lemma exists_deposit {p : CddVestingPolicy} (now : Nat) (amount : Asset) (hp : vb.cddPolicy? = some p)
    (h : vb.balance.assetId = amount.assetId) (requireVesting : Bool) :
    ∃ vb', (if requireVesting then vb.deposit now amount else vb.depositVested now amount) = .ok vb' ∧
      vb'.id = vb.id ∧ vb'.balance.assetId = vb.balance.assetId := by
  have hpol : vb.policy = .cdd p := by
    unfold cddPolicy? at hp
    split at hp
    next q hq =>
      cases hp
      exact hq
    next => cases hp
  cases requireVesting with
  | true => exact exists_add { vb with policy := _ } h
  | false =>
    simp only [depositVested, hpol, VestingPolicy.onDepositVested, ok_bind]
    exact exists_add { vb with policy := _ } h

end VestingBalance

end Graphene.Accounts
