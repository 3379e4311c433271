import Graphene.Accounts.WithdrawPermission

/-!
# What a withdraw permission lets through

The claims from one permission, from the operation that set its schedule on, and what they add up
to in each period of the schedule.  The periods are those of the schedule over the integers; the
evaluators find the period of a claim with 32-bit times.
-/

namespace Graphene.Accounts

open Lib Protocol List Keyed PermitState WithdrawPermission Nat Terms

/-! ## Histories -/

structure Withdrawal where
  time : Nat
  amount : Int

def PermitOperation.withdrawals (id : Nat) (now : TimePointSec) : PermitOperation → List Withdrawal
  | claim op => if op.withdrawPermission = id then [⟨now.toNat, op.amountToWithdraw.amount⟩] else []
  | _ => []

def PermitOperation.Reschedules (id : Nat) : PermitOperation → Prop
  | update op => op.permissionToUpdate = id
  | _ => False

/-- What may happen while the schedule of a permission stands, with the withdrawals from it, the
last one first: operations on permissions, and changes elsewhere in the database, where time
passes and permissions may expire. -/
inductive History (id : Nat) (s0 : PermitState) : List Withdrawal → PermitState → Prop where
  | start : History id s0 [] s0
  | operation {ws : List Withdrawal} {s s' : PermitState} (op : PermitOperation) :
      History id s0 ws s → op.perform s = .ok s' → ¬ op.Reschedules id →
      History id s0 (op.withdrawals id s.headBlockTime ++ ws) s'
  | elsewhere {ws : List Withdrawal} {s s' : PermitState} :
      History id s0 ws s → s.headBlockTime ≤ s'.headBlockTime →
      s.permissions.nextId ≤ s'.permissions.nextId →
      (∀ p, s'.permissions.find id = some p → s.permissions.find id = some p) →
      History id s0 ws s'

variable {p : WithdrawPermission}

namespace PermitOperation

variable {op : PermitOperation} {s s' : PermitState} {id : Nat}

lemma perform_advances (h : op.perform s = .ok s') : s'.headBlockTime = s.headBlockTime ∧
      s.permissions.nextId ≤ s'.permissions.nextId := by
  cases op with
  | create =>
    obtain ⟨⟨i, s''⟩, hc, he⟩ := bind_eq_ok.1 h
    cases he
    rw [(create_eq_ok hc).2.2.2.2]
    exact ⟨rfl, le_max_left _ _⟩
  | claim =>
    obtain ⟨-, -, p, p', b, b', -, -, -, -, -, rfl⟩ := claim_eq_ok.1 h
    exact ⟨rfl, le_max_left _ _⟩
  | update =>
    obtain ⟨-, -, p, -, -, rfl⟩ := update_eq_ok h
    exact ⟨rfl, le_max_left _ _⟩
  | delete =>
    rw [delete_eq_ok h]
    exact ⟨rfl, le_rfl⟩

lemma perform_other (h : op.perform s = .ok s') (hid : op.target ≠ some id)
    (hlt : id < s.permissions.nextId) (hp : s'.permissions.find id = some p) :
    s.permissions.find id = some p := by
  -- writing another permission does not change what is found
  have hwrite : ∀ q : WithdrawPermission, q.id ≠ id →
      (s.permissions.write q).find id = some p → s.permissions.find id = some p := by
    intro q hq hf
    rwa [Store.write, find_put, if_neg (Ne.symm hq)] at hf
  cases op with
  | create =>
    obtain ⟨⟨i, s''⟩, hc, he⟩ := bind_eq_ok.1 h
    cases he
    obtain ⟨-, -, -, rfl, rfl⟩ := create_eq_ok hc
    exact hwrite _ (ne_of_gt hlt) hp
  | claim op =>
    obtain ⟨-, -, q, q', b, b', hq, -, hq', -, -, rfl⟩ := claim_eq_ok.1 h
    have hqid : q'.id = op.withdrawPermission := by
      rw [id_of_claimed hq', key_of_find hq]
    exact hwrite q' (fun he => hid (congrArg some (hqid.symm.trans he))) hp
  | update op =>
    obtain ⟨-, -, q, hq, -, rfl⟩ := update_eq_ok h
    have hqid : q.id = op.permissionToUpdate := key_of_find hq
    exact hwrite (q.reschedule op.terms) (fun he => hid (congrArg some (hqid.symm.trans he))) hp
  | delete =>
    rw [delete_eq_ok h] at hp
    simp only [Store.remove, find_erase] at hp
    split at hp
    · cases hp
    · exact hp

end PermitOperation

/-! ## Periods -/

variable {k : Nat} {ws : List Withdrawal} {time : Nat}

namespace Terms

variable (t : Terms)

def InPeriod (k time : Nat) : Prop :=
  t.periodStartTime.toNat + k * t.withdrawalPeriodSec.toNat ≤ time ∧
    time < t.periodStartTime.toNat + (k + 1) * t.withdrawalPeriodSec.toNat

instance (k time : Nat) : Decidable (t.InPeriod k time) := inferInstanceAs (Decidable (_ ∧ _))

def withdrawnIn (k : Nat) (ws : List Withdrawal) : Int :=
  ((ws.filter fun w => t.InPeriod k w.time).map Withdrawal.amount).sum

/-- In every period at most the limit is withdrawn, and nothing after the last one. -/
def Respected (ws : List Withdrawal) : Prop :=
  (∀ k, t.withdrawnIn k ws ≤ t.withdrawalLimit.amount) ∧
    ∀ w ∈ ws, w.time < t.periodStartTime.toNat
      + t.periodsUntilExpiration.toNat * t.withdrawalPeriodSec.toNat

/-- The period of the last moment before the expiration time. -/
def lastPeriod : Nat :=
  (t.expiration.toNat - 1 - t.periodStartTime.toNat) / t.withdrawalPeriodSec.toNat

/-- Every period in which a claim is possible ends before the 32-bit clock wraps around. -/
def WithinClock : Prop :=
  t.expiration ≤ t.periodStartTime ∨
    t.periodStartTime.toNat + (t.lastPeriod + 1) * t.withdrawalPeriodSec.toNat < 2 ^ 32

/-- What is counted in a period besides the withdrawals in it: in the first one, what the
permission carries over from the time before the schedule was set. -/
def carried (claimed : Int) (k : Nat) : Int :=
  if k = 0 then claimed else 0

variable {t}

lemma withdrawnIn_cons (k : Nat) (w : Withdrawal) : t.withdrawnIn k (w :: ws)
      = (if t.InPeriod k w.time then w.amount else 0) + t.withdrawnIn k ws := by
  by_cases h : t.InPeriod k w.time
  · simp [withdrawnIn, h]
  · simp [withdrawnIn, h]

lemma withdrawnIn_eq_zero (h : ∀ w ∈ ws, ¬ t.InPeriod k w.time) : t.withdrawnIn k ws = 0 := by
  have hnil : (ws.filter fun w => t.InPeriod k w.time) = [] := by
    simpa using h
  rw [withdrawnIn, hnil]
  rfl

lemma withdrawnIn_nonneg (h : ∀ w ∈ ws, 0 < w.amount) (k : Nat) : 0 ≤ t.withdrawnIn k ws := by
  apply sum_nonneg
  intro x hx
  obtain ⟨w, hw, rfl⟩ := mem_map.1 hx
  exact (h w (mem_of_mem_filter hw)).le

lemma InPeriod.unique {j : Nat} (hj : t.InPeriod j time) (hk : t.InPeriod k time) : j = k := by
  -- otherwise the earlier period would reach past the start of the later one
  have hle : ∀ {a b : Nat}, t.InPeriod a time → t.InPeriod b time → a ≤ b := by
    intro a b ha hb
    by_contra hlt
    have hmul : (b + 1) * t.withdrawalPeriodSec.toNat ≤ a * t.withdrawalPeriodSec.toNat :=
      mul_le_mul_right _ (by omega)
    have h1 := ha.1
    have h2 := hb.2
    omega
  exact le_antisymm (hle hj hk) (hle hk hj)

lemma expiration_le : t.expiration.toNat ≤ t.periodStartTime.toNat
      + t.periodsUntilExpiration.toNat * t.withdrawalPeriodSec.toNat := by
  calc (t.periodStartTime.toNat
          + t.periodsUntilExpiration.toNat * t.withdrawalPeriodSec.toNat % 2 ^ 32) % 2 ^ 32
      ≤ t.periodStartTime.toNat
          + t.periodsUntilExpiration.toNat * t.withdrawalPeriodSec.toNat % 2 ^ 32 := mod_le _ _
    _ ≤ t.periodStartTime.toNat
          + t.periodsUntilExpiration.toNat * t.withdrawalPeriodSec.toNat :=
        Nat.add_le_add_left (Nat.mod_le _ _) _

lemma end_lt_of_lt_lastPeriod (h : k < t.lastPeriod) :
    t.periodStartTime.toNat + (k + 1) * t.withdrawalPeriodSec.toNat < 2 ^ 32 := by
  have hle : (k + 1) * t.withdrawalPeriodSec.toNat
      ≤ t.expiration.toNat - 1 - t.periodStartTime.toNat :=
    le_trans (mul_le_mul_right _ h) (div_mul_le_self _ _)
  have hpos : 0 < t.expiration.toNat - 1 - t.periodStartTime.toNat := by
    by_contra h0
    have hzero : t.lastPeriod = 0 := by
      rw [lastPeriod, Nat.eq_zero_of_not_pos h0, Nat.zero_div]
    omega
  have hlt := t.expiration.toNat_lt
  omega

lemma InPeriod.le_lastPeriod (h : t.InPeriod k time) (hlt : time < t.expiration.toNat)
    (hpos : 0 < t.withdrawalPeriodSec) : k ≤ t.lastPeriod := by
  have hpos : 0 < t.withdrawalPeriodSec.toNat := hpos
  have h1 := h.1
  rw [lastPeriod, le_div_iff_mul_le hpos]
  omega

end Terms

/-! ## What holds along a history -/

/-- What is known of the withdrawals under a schedule, when `c` was carried over. -/
structure Bounded (t : Terms) (c : Int) (ws : List Withdrawal) : Prop where
  positive : ∀ w ∈ ws, 0 < w.amount
  notExpired : ∀ w ∈ ws, w.time < t.expiration.toNat
  limited : ∀ k, t.periodStartTime.toNat + (k + 1) * t.withdrawalPeriodSec.toNat < 2 ^ 32 →
    t.withdrawnIn k ws ≤ t.withdrawalLimit.amount
  small : ∀ k, t.withdrawnIn k ws = 0 ∨ t.withdrawnIn k ws + Terms.carried c k < 2 ^ 63

/-- What a permission remembers of the withdrawals: those of the period `j`, the last one that was
claimed in. -/
structure Current (t : Terms) (c : Int) (ws : List Withdrawal) (p : WithdrawPermission) (j : Nat) :
    Prop where
  limit_eq : p.withdrawalLimit = t.withdrawalLimit
  period_eq : p.withdrawalPeriodSec = t.withdrawalPeriodSec
  expiration_eq : p.expiration = t.expiration
  start_eq : p.periodStartTime.toNat
    = t.periodStartTime.toNat + j * t.withdrawalPeriodSec.toNat
  past : ∀ w ∈ ws, w.time < t.periodStartTime.toNat + (j + 1) * t.withdrawalPeriodSec.toNat
  claimed_eq : p.claimedThisPeriod = t.withdrawnIn j ws + Terms.carried c j

namespace Current

variable {t : Terms} {c : Int} {p' : WithdrawPermission} {j : Nat} {now : TimePointSec}
  {amount : Int}

variable (h : Current t c ws p j)
include h

lemma inPeriod (hpos : 0 < t.withdrawalPeriodSec)
    (hsta : p.periodStartTime ≤ now) : t.InPeriod (j + p.periodsPassed now) now.toNat := by
  have hpos : 0 < t.withdrawalPeriodSec.toNat := hpos
  have hsta : p.periodStartTime.toNat ≤ now.toNat := hsta
  have hk : p.periodsPassed now
      = (now.toNat - p.periodStartTime.toNat) / t.withdrawalPeriodSec.toNat := by
    rw [← h.period_eq]
    rfl
  have hlow := div_mul_le_self (now.toNat - p.periodStartTime.toNat) t.withdrawalPeriodSec.toNat
  have hhigh := lt_div_mul_add (a := now.toNat - p.periodStartTime.toNat) hpos
  rw [← hk] at hlow hhigh
  have hs := h.start_eq
  constructor
  · rw [add_mul]
    omega
  · rw [add_assoc, add_mul, add_mul, one_mul]
    omega

lemma counted (now : TimePointSec) :
    (if p.periodsPassed now = 0 then p.claimedThisPeriod else 0)
      = t.withdrawnIn (j + p.periodsPassed now) ws + carried c (j + p.periodsPassed now) := by
  by_cases hk : p.periodsPassed now = 0
  · rw [if_pos hk, hk, add_zero, h.claimed_eq]
  · -- the claim is the first one in its period
    have hzero : t.withdrawnIn (j + p.periodsPassed now) ws = 0 := by
      apply withdrawnIn_eq_zero
      intro w hw hin
      have hmul : (j + 1) * t.withdrawalPeriodSec.toNat
          ≤ (j + p.periodsPassed now) * t.withdrawalPeriodSec.toNat :=
        mul_le_mul_right _ (by omega)
      have hpast := h.past w hw
      have hfrom := hin.1
      omega
    rw [if_neg hk, hzero, carried, if_neg (by omega), add_zero]

variable (hpos : 0 < t.withdrawalPeriodSec)
include hpos

variable (hsta : p.periodStartTime ≤ now)
include hsta

/-- While the period of a claim ends before the clock wraps around, the claim is for at most what
the limit leaves. -/
lemma amount_le (hamt : 0 < amount)
    (havl : amount ≤ (p.availableThisPeriod now).amount) (hclock : t.periodStartTime.toNat
      + (j + p.periodsPassed now + 1) * t.withdrawalPeriodSec.toNat < 2 ^ 32) :
    (if p.periodsPassed now = 0 then p.claimedThisPeriod else 0) + amount
      ≤ t.withdrawalLimit.amount := by
  have hin := h.inPeriod hpos hsta
  have hs := h.start_eq
  have hnow := now.toNat_lt
  -- the end of the recorded period, which is not wrapped
  have hend : (p.periodStartTime + p.withdrawalPeriodSec).toNat
      = t.periodStartTime.toNat + (j + 1) * t.withdrawalPeriodSec.toNat := by
    have hle : (j + 1) * t.withdrawalPeriodSec.toNat
        ≤ (j + p.periodsPassed now + 1) * t.withdrawalPeriodSec.toNat :=
      mul_le_mul_right _ (by omega)
    rw [UInt32.toNat_add, h.period_eq, hs, add_assoc, ← add_one_mul]
    exact mod_eq_of_lt (by omega)
  by_cases hk : p.periodsPassed now = 0
  · rw [hk, add_zero] at hin
    have hnot : ¬ p.periodStartTime + p.withdrawalPeriodSec ≤ now := by
      intro hle
      have hle : (p.periodStartTime + p.withdrawalPeriodSec).toNat ≤ now.toNat := hle
      have hlt := hin.2
      omega
    rw [availableThisPeriod, if_neg hnot] at havl
    rw [← h.limit_eq]
    simp only at havl
    split at havl
    · omega
    · omega
  · rw [if_neg hk, zero_add]
    have hover : p.periodStartTime + p.withdrawalPeriodSec ≤ now := by
      change (p.periodStartTime + p.withdrawalPeriodSec).toNat ≤ now.toNat
      have hle : (j + 1) * t.withdrawalPeriodSec.toNat
          ≤ (j + p.periodsPassed now) * t.withdrawalPeriodSec.toNat :=
        mul_le_mul_right _ (by omega)
      have hfrom := hin.1
      omega
    rwa [availableThisPeriod, if_pos hover, h.limit_eq] at havl

lemma claim (hcla : claimed p now amount = .ok p') :
    Current t c (⟨now.toNat, amount⟩ :: ws) p' (j + p.periodsPassed now) := by
  have hin := h.inPeriod hpos hsta
  obtain ⟨-, rfl⟩ := (claimed_eq_ok hsta).1 hcla
  refine ⟨h.limit_eq, h.period_eq, h.expiration_eq, ?_, ?_, ?_⟩
  · rw [start_after_claim hsta, h.start_eq, h.period_eq, add_mul, add_assoc]
  · intro w hw
    rcases mem_cons.1 hw with rfl | hw
    · exact hin.2
    · have hle : (j + 1) * t.withdrawalPeriodSec.toNat
          ≤ (j + p.periodsPassed now + 1) * t.withdrawalPeriodSec.toNat :=
        mul_le_mul_right _ (by omega)
      have hpast := h.past w hw
      omega
  · rw [withdrawnIn_cons, if_pos hin, add_assoc, ← h.counted now]
    split
    · exact add_comm _ _
    · exact (add_zero _).symm

end Current

namespace Bounded

variable {t : Terms} {c : Int} {p' : WithdrawPermission} {j : Nat} {now : TimePointSec}
  {amount : Int}

lemma nil (hlim : 0 < t.withdrawalLimit.amount) : Bounded t c [] :=
  ⟨nofun, nofun, fun _ _ => hlim.le, fun _ => .inl rfl⟩

lemma claim (hb : Bounded t c ws) (h : Current t c ws p j) (hc : 0 ≤ c)
    (hpos : 0 < t.withdrawalPeriodSec) (hsta : p.periodStartTime ≤ now) (hexp : now < p.expiration)
    (hamt : 0 < amount) (havl : amount ≤ (p.availableThisPeriod now).amount)
    (hcla : claimed p now amount = .ok p') : Bounded t c (⟨now.toNat, amount⟩ :: ws) := by
  have hin := h.inPeriod hpos hsta
  have hcou := h.counted now
  -- only the sum of the period of the claim changes
  have hoth : ∀ k, k ≠ j + p.periodsPassed now →
      t.withdrawnIn k (⟨now.toNat, amount⟩ :: ws) = t.withdrawnIn k ws := by
    intro k hk
    rw [withdrawnIn_cons, if_neg (fun hk' => hk (hk'.unique hin)), zero_add]
  have hthis : t.withdrawnIn (j + p.periodsPassed now) (⟨now.toNat, amount⟩ :: ws)
      = amount + t.withdrawnIn (j + p.periodsPassed now) ws := by
    rw [withdrawnIn_cons, if_pos hin]
  have hcar : 0 ≤ carried c (j + p.periodsPassed now) := by
    unfold carried
    split
    · exact hc
    · exact le_rfl
  refine ⟨?_, ?_, ?_, ?_⟩
  · intro w hw
    rcases mem_cons.1 hw with rfl | hw
    · exact hamt
    · exact hb.positive w hw
  · intro w hw
    rcases mem_cons.1 hw with rfl | hw
    · rwa [h.expiration_eq] at hexp
    · exact hb.notExpired w hw
  · intro k hk
    by_cases he : k = j + p.periodsPassed now
    · subst he
      have hle := h.amount_le hpos hsta hamt havl hk
      omega
    · rw [hoth k he]
      exact hb.limited k hk
  · intro k
    by_cases he : k = j + p.periodsPassed now
    · subst he
      right
      have hlt := ((claimed_eq_ok hsta).1 hcla).1
      split at hcou
      · omega
      · omega
    · rw [hoth k he]
      exact hb.small k

end Bounded

def UnderTerms (s : PermitState) (id : Nat) (t : Terms) (p : WithdrawPermission) : Prop :=
  s.permissions.find id = some p ∧ p.withdrawalLimit = t.withdrawalLimit ∧
    p.withdrawalPeriodSec = t.withdrawalPeriodSec ∧ p.expiration = t.expiration ∧
    p.periodStartTime = t.periodStartTime

variable {s : PermitState} {id : Nat} {s0 : PermitState} {t : Terms} {now : TimePointSec}

lemma UnderTerms.current (h : UnderTerms s id t p) : Current t p.claimedThisPeriod [] p 0 := by
  obtain ⟨-, h1, h2, h3, h4⟩ := h
  refine ⟨h1, h2, h3, ?_, nofun, ?_⟩
  · rw [h4, zero_mul, add_zero]
  · simp [withdrawnIn, carried]

/-- Along every history the withdrawals are bounded, and the permission knows those of the last
period. -/
lemma History.bounded {p0 : WithdrawPermission} (h : History id s0 ws s)
    (hp0 : UnderTerms s0 id t p0) (hc : 0 ≤ p0.claimedThisPeriod)
    (hlim : 0 < t.withdrawalLimit.amount) (hpos : 0 < t.withdrawalPeriodSec) :
    Bounded t p0.claimedThisPeriod ws ∧ id < s.permissions.nextId ∧
      ∀ p, s.permissions.find id = some p →
        ∃ j, Current t p0.claimedThisPeriod ws p j ∧ (j = 0 ∨ p.periodStartTime ≤ s.headBlockTime) := by
  induction h with
  | start =>
    refine ⟨Bounded.nil hlim, Store.lt_nextId hp0.1, ?_⟩
    intro p hp
    obtain rfl : p0 = p := Option.mem_unique hp0.1 hp
    exact ⟨0, hp0.current, .inl rfl⟩
  | @operation ws s s' op _ hop hre ih =>
    obtain ⟨hb, hlt, hcur⟩ := ih
    have hlt' := lt_of_lt_of_le hlt (op.perform_advances hop).2
    by_cases htar : op.target = some id
    · -- a claim from this permission: updates are excluded
      cases op with
      | create op | delete op => cases htar
      | update => exact absurd (Option.some.inj htar) hre
      | claim op =>
        obtain rfl : op.withdrawPermission = id := Option.some.inj htar
        obtain ⟨-, hamt, p, p', b, b', hp, hclaim, hp', -, -, rfl⟩ :=
          claim_eq_ok.1 hop
        obtain ⟨j, hj, -⟩ := hcur p hp
        rw [PermitOperation.withdrawals, if_pos rfl]
        refine ⟨hb.claim hj hc hpos hclaim.started hclaim.notExpired hamt hclaim.available hp',
          hlt', ?_⟩
        intro q hq
        have hid : op.withdrawPermission = p'.id := by
          rw [id_of_claimed hp', key_of_find hp]
        simp only [Store.write, find_put, if_pos hid] at hq
        obtain rfl := Option.some.inj hq
        have hj' := hj.claim hpos hclaim.started hp'
        refine ⟨_, hj', .inr ?_⟩
        change p'.periodStartTime.toNat ≤ s.headBlockTime.toNat
        rw [hj'.start_eq]
        exact (hj.inPeriod hpos hclaim.started).1
    · have hnone : op.withdrawals id s.headBlockTime = [] := by
        cases op with
        | claim => exact if_neg fun he => htar (congrArg some he)
        | create op | update op | delete op => rfl
      rw [hnone, (op.perform_advances hop).1]
      exact ⟨hb, hlt', fun p hp => hcur p (PermitOperation.perform_other hop htar hlt hp)⟩
  | elsewhere _ hhead hnext hfind ih =>
    obtain ⟨hb, hlt, hcur⟩ := ih
    refine ⟨hb, lt_of_lt_of_le hlt hnext, fun p hp => ?_⟩
    obtain ⟨j, hj, hsta⟩ := hcur p (hfind p hp)
    exact ⟨j, hj, hsta.imp_right fun h => UInt32.le_trans h hhead⟩

/-! ## What can be claimed -/

def PermitRules.permissive : PermitRules where
  accountExists := fun _ => true
  assetExists := fun _ => true
  blockInterval := 1
  isTransferRestricted := fun _ => false
  issuer := fun _ => grapheneNullAccount
  isAuthorizedAsset := fun _ _ => true

/-- The state at a later time, with an amount on the account that a permission withdraws from. -/
def PermitState.funded (s : PermitState) (now : TimePointSec) (p : WithdrawPermission)
    (amount : Int) : PermitState where
  headBlockTime := now
  rules := PermitRules.permissive
  balances := Tally.add Keyed.empty (p.withdrawFromAccount, p.withdrawalLimit.assetId) amount
  permissions := s.permissions

lemma History.later (h : History id s0 ws s) (hnow : s.headBlockTime ≤ now) (p : WithdrawPermission)
    (amount : Int) : History id s0 ws (s.funded now p amount) :=
  h.elsewhere hnow le_rfl fun _ hp => hp

/-- A claim of what `available_this_period` allows goes through, when the account has the amount
and nothing else forbids it. -/
lemma History.claim_next {p' : WithdrawPermission} {amount : Int} (h : History id s0 ws s)
    (hp : s.permissions.find id = some p) (hne : p.withdrawFromAccount ≠ p.authorizedAccount)
    (hnow : s.headBlockTime ≤ now) (hexp : now < p.expiration)
    (hsta : p.periodStartTime ≤ now) (hamt : 0 < amount)
    (havl : amount ≤ (p.availableThisPeriod now).amount)
    (hcla : claimed p now amount = .ok p') :
    ∃ s', History id s0 (⟨now.toNat, amount⟩ :: ws) s' ∧ s'.permissions.find id = some p' ∧
      s'.headBlockTime = now := by
  have hasset : (p.availableThisPeriod now).assetId = p.withdrawalLimit.assetId := by
    unfold availableThisPeriod
    split <;> rfl
  have hbal : getBalance (s.funded now p amount).balances p.withdrawFromAccount
      p.withdrawalLimit.assetId = amount := by
    simp [getBalance, funded, Tally.get_add]
  let op : WithdrawPermissionClaim :=
    ⟨id, p.withdrawFromAccount, p.authorizedAccount, ⟨amount, p.withdrawalLimit.assetId⟩⟩
  have hcl : (s.funded now p amount).Claimable op p :=
    ⟨hexp, rfl, rfl, hsta, hasset, havl, hbal.ge, .inl rfl, rfl, rfl⟩
  obtain ⟨b, hb⟩ : ∃ b, adjustBalance PermitError.insufficientBalance
      (s.funded now p amount).balances op.withdrawFromAccount op.amountToWithdraw.neg = .ok b := by
    refine ⟨_, adjustBalance_eq_ok.2 ⟨.inr ?_, rfl⟩⟩
    change -(-amount) ≤ getBalance _ p.withdrawFromAccount p.withdrawalLimit.assetId
    rw [hbal, neg_neg]
  have hb' : adjustBalance PermitError.insufficientBalance b op.withdrawToAccount
      op.amountToWithdraw = .ok _ := adjustBalance_eq_ok.2 ⟨.inl hamt.le, rfl⟩
  let s' : PermitState :=
    { s.funded now p amount with
      permissions := s.permissions.write p'
      balances := b.add (p.authorizedAccount, p.withdrawalLimit.assetId) amount }
  have hop : (PermitOperation.claim op).perform (s.funded now p amount) = .ok s' :=
    claim_eq_ok.2
      ⟨Ne.symm hne, hamt, p, p', b, _, hp, hcl, hcla, hb, hb', rfl⟩
  have hid : id = p'.id := by
    rw [id_of_claimed hcla, key_of_find hp]
  refine ⟨s', ?_, ?_, rfl⟩
  · have hhist := (h.later hnow p amount).operation _ hop (by rintro ⟨⟩)
    rwa [PermitOperation.withdrawals, if_pos rfl] at hhist
  · change ((s.permissions.write p').find id) = some p'
    rw [Store.write, find_put, if_pos hid]

end Graphene.Accounts
