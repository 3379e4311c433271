import Graphene.Chain.ApplyBlock

/-!
# No transaction is applied twice

The deduplication index forgets a transaction once it has expired.  Every transaction of the chain so far
is still in the index, or its expiration lies before the head time, and a block can repeat neither
kind.
-/

namespace Graphene.Chain
namespace Rules

open Lib List

variable {H Tx TxId W R : Type} [DecidableEq H] [DecidableEq TxId] [DecidableEq W]

/-- The transactions `seen` so far have different ids, and each is remembered or has expired. -/
structure Remembers (rules : Rules H Tx TxId W R) (s : ChainState H Tx W R) (seen : List Tx) :
    Prop where
  nodup : (seen.map rules.txId).Nodup
  covered : ∀ t ∈ seen, rules.txId t ∈ s.transactionIndex.map rules.txId ∨
    (0 < s.headBlockNumber ∧ rules.expiration t < s.time)

section

variable {rules : Rules H Tx TxId W R}
  (hexp : ∀ t t', rules.txId t = rules.txId t' → rules.expiration t = rules.expiration t')
  {s s' : ChainState H Tx W R} {seen : List Tx}

include hexp

variable (h : rules.Remembers s seen)
include h

section

omit [DecidableEq H] [DecidableEq W]

lemma Remembers.applyTransaction {trx : Tx}
    (happly : rules.applyTransaction s trx = .ok s') : rules.Remembers s' (trx :: seen) := by
  obtain ⟨hknown, hnot, hfrm⟩ := applyTransaction_ok happly
  have hidx : s'.transactionIndex = trx :: s.transactionIndex := by rw [hfrm]
  have hnum : s'.headBlockNumber = s.headBlockNumber := by rw [hfrm]
  have htime : s'.time = s.time := by rw [hfrm]
  refine ⟨?_, ?_⟩
  · rw [map_cons, nodup_cons]
    refine ⟨?_, h.nodup⟩
    intro hmem
    obtain ⟨t, ht, hid⟩ := mem_map.1 hmem
    rcases h.covered t ht with hin | ⟨hpos, hlt⟩
    · exact hknown (hid ▸ hin)
    · -- the earlier transaction has expired, so this one has as well
      have hle := hnot hpos
      rw [hexp t trx hid] at hlt
      exact absurd hlt (not_lt.2 hle)
  · intro t ht
    rw [hidx, hnum, htime]
    rcases mem_cons.1 ht with rfl | ht
    · exact Or.inl (by simp)
    · rcases h.covered t ht with hin | hold
      · exact Or.inl (by simpa using Or.inr hin)
      · exact Or.inr hold

lemma Remembers.applyTransactions {trxs : List Tx}
    (happly : rules.applyTransactions s trxs = .ok s') :
    rules.Remembers s' (trxs.reverse ++ seen) := by
  induction trxs generalizing s seen with
  | nil =>
    cases happly
    exact h
  | cons trx trxs ih =>
    simp only [Rules.applyTransactions, bind_eq_ok] at happly
    obtain ⟨s1, h1, hrest⟩ := happly
    simpa using ih (h.applyTransaction hexp h1) hrest

end

lemma Remembers.applyBlock {b : SignedBlock H Tx} (happly : rules.applyBlock s b = .ok s') :
    rules.Remembers s' (b.transactions.reverse ++ seen) := by
  have hblock := applyBlock_ok happly
  obtain ⟨s1, h1, hidx⟩ := hblock.transactions
  have hmid := h.applyTransactions hexp h1
  have hfrm := applyTransactions_frame h1
  refine ⟨hmid.nodup, ?_⟩
  intro t ht
  rcases hmid.covered t ht with hin | ⟨-, hlt⟩
  · obtain ⟨t', ht', hid⟩ := mem_map.1 hin
    by_cases hgone : rules.expiration t' < rules.timestamp b.header
    · right
      rw [hblock.headBlockNumber, hblock.time, ← hexp t' t hid]
      exact ⟨Nat.succ_pos _, hgone⟩
    · left
      rw [hidx]
      exact mem_map.2 ⟨t', by simpa [ht'] using hgone, hid⟩
  · right
    rw [hfrm] at hlt
    rw [hblock.headBlockNumber, hblock.time]
    exact ⟨Nat.succ_pos _, lt_trans hlt hblock.time_lt⟩

lemma Remembers.applyBlocks {bs : List (SignedBlock H Tx)}
    (happly : rules.applyBlocks s bs = .ok s') :
    ∃ all : List Tx, all.Perm (bs.flatMap (·.transactions) ++ seen) ∧ rules.Remembers s' all := by
  induction bs generalizing s seen with
  | nil =>
    cases happly
    exact ⟨seen, by simp, h⟩
  | cons b bs ih =>
    simp only [Rules.applyBlocks, bind_eq_ok] at happly
    obtain ⟨s1, h1, hrest⟩ := happly
    obtain ⟨all, hperm, hall⟩ := ih (h.applyBlock hexp h1) hrest
    refine ⟨all, hperm.trans ?_, hall⟩
    calc bs.flatMap (·.transactions) ++ (b.transactions.reverse ++ seen)
        _ = bs.flatMap (·.transactions) ++ b.transactions.reverse ++ seen := by simp
        _ |>.Perm (b.transactions.reverse ++ bs.flatMap (·.transactions) ++ seen) :=
          List.Perm.append_right _ perm_append_comm
        _ |>.Perm (b.transactions ++ bs.flatMap (·.transactions) ++ seen) :=
          List.Perm.append_right _ (List.Perm.append_right _ (reverse_perm _))
        _ = (b :: bs).flatMap (·.transactions) ++ seen := by simp

end

/-- No transaction id occurs twice in the blocks of a chain, from genesis or any other state on. -/
theorem no_transaction_twice (rules : Rules H Tx TxId W R)
    (hexp : ∀ t t', rules.txId t = rules.txId t' → rules.expiration t = rules.expiration t')
    (s0 s : ChainState H Tx W R) (bs : List (SignedBlock H Tx))
    (h : rules.applyBlocks s0 bs = .ok s) :
    ((bs.flatMap (·.transactions)).map rules.txId).Nodup := by
  obtain ⟨all, hperm, hall⟩ :=
    (show rules.Remembers s0 [] from ⟨by simp, by simp⟩).applyBlocks hexp h
  rw [append_nil] at hperm
  exact (hperm.map rules.txId).nodup_iff.1 hall.nodup

/-- Two blocks; the second comes after the transaction of the first has expired. -/
def expiringChain : List (SignedBlock PlainHeader (Nat × Nat)) :=
  [{ header := ⟨10, 0, true⟩, previous := [], transactions := [(1, 5)] },
    { header := ⟨20, 0, true⟩, previous := [⟨10, 0, true⟩], transactions := [(2, 15), (3, 15)] }]

theorem no_transaction_twice_expiringChain :
    (∃ s, plainRules.applyBlocks (plainGenesis [0]) expiringChain = .ok s) ∧
      ((expiringChain.flatMap (·.transactions)).map plainRules.txId).Nodup :=
  ⟨⟨_, rfl⟩, no_transaction_twice plainRules (fun _ _ h => congrArg Prod.snd h)
    (plainGenesis [0]) _ expiringChain rfl⟩

end Rules
end Graphene.Chain
