import Graphene.Lib.Keyed
import Graphene.Protocol.Asset

/-!
# Account balances

`get_balance` and `adjust_balance` of the database, for the components that move amounts between
accounts and objects of their own.

An account without a balance object has balance zero.  Amounts are integers: what exists of an
asset is at most its maximum supply, so that the sums that are stored fit into 64 bits.
-/

namespace Graphene.Accounts

open Lib Protocol

/-- `account_balance_object`, by owner and asset. -/
abbrev Balances := Tally (AccountId × AssetId)

def getBalance (b : Balances) (owner : AccountId) (a : AssetId) : Int :=
  b.get (owner, a)

/-- `adjust_balance`; the error is "Insufficient Balance". -/
def adjustBalance {ε : Type} (insufficientBalance : ε) (b : Balances) (account : AccountId)
    (delta : Asset) : Except ε Balances := do
  check (0 ≤ delta.amount ∨ -delta.amount ≤ getBalance b account delta.assetId) insufficientBalance
  return b.add (account, delta.assetId) delta.amount

variable {ε : Type} {e : ε} {b b' : Balances} {account : AccountId} {delta : Asset}

lemma adjustBalance_eq_ok : adjustBalance e b account delta = .ok b' ↔
      (0 ≤ delta.amount ∨ -delta.amount ≤ getBalance b account delta.assetId) ∧
        b' = b.add (account, delta.assetId) delta.amount := by
  rw [adjustBalance, bind_eq_ok]
  simp only [check_eq_ok, decide_eq_true_eq, exists_const]
  constructor
  · rintro ⟨h, hb⟩
    cases hb
    exact ⟨h, rfl⟩
  · rintro ⟨h, rfl⟩
    exact ⟨h, rfl⟩

end Graphene.Accounts
