import Graphene.Accounts.WithdrawLimit

/-!
# When the schedule of a withdraw permission is kept

Two questions about a permission whose schedule was just set: whether in each period at most the
limit can be withdrawn, and whether the first period starts with the whole limit.
-/

namespace Graphene.Accounts

open Lib Protocol Keyed PermitState WithdrawPermission Terms Nat History
open PermitOperation (claim create)
open WithdrawPermission (availableThisPeriod periodsPassed)

/-! ## Permissions that exist -/

inductive Reached : PermitState → Prop where
  | genesis {s : PermitState} : s.permissions.objects = [] → Reached s
  | operation {s s' : PermitState} (op : PermitOperation) :
      Reached s → op.perform s = .ok s' → Reached s'
  | elsewhere {s s' : PermitState} :
      Reached s → (∀ p ∈ s'.permissions.objects, p ∈ s.permissions.objects) → Reached s'

variable {s : PermitState}

lemma Reached.claimed_nonneg (h : Reached s) :
    ∀ p ∈ s.permissions.objects, 0 ≤ p.claimedThisPeriod := by
  induction h with
  | genesis h =>
    rw [h]
    nofun
  | @operation s s' op _ hop ih =>
    -- each operation writes at most one permission
    have hwrite : ∀ q : WithdrawPermission, 0 ≤ q.claimedThisPeriod →
        ∀ p ∈ (s.permissions.write q).objects, 0 ≤ p.claimedThisPeriod := by
      intro q hq p hp
      rcases mem_put hp with rfl | hp
      · exact hq
      · exact ih p hp
    cases op with
    | create =>
      obtain ⟨⟨i, s''⟩, hc, he⟩ := bind_eq_ok.1 hop
      cases he
      obtain ⟨-, -, -, -, rfl⟩ := create_eq_ok hc
      exact hwrite _ le_rfl
    | claim =>
      obtain ⟨-, hamt, p, p', b, b', hp, hclaim, hp', -, -, rfl⟩ := claim_eq_ok.1 hop
      refine hwrite p' ?_
      obtain ⟨-, rfl⟩ := (claimed_eq_ok hclaim.started).1 hp'
      have hold := ih p (mem_of_find hp)
      simp only
      split <;> omega
    | update =>
      obtain ⟨-, -, p, hp, -, rfl⟩ := update_eq_ok hop
      exact hwrite _ (ih p (mem_of_find hp))
    | delete =>
      rw [delete_eq_ok hop]
      exact fun p hp => ih p (mem_erase hp)
  | elsewhere _ hsub ih => exact fun p hp => ih p (hsub p hp)

/-- A create or update operation was accepted and has set the schedule of a permission. -/
def Grants (s s1 : PermitState) (id : Nat) (t : Terms) : Prop :=
  (∃ op : WithdrawPermissionCreate, op.terms = t ∧ s.withdrawPermissionCreate op = .ok (id, s1)) ∨
  ∃ op : WithdrawPermissionUpdate, op.permissionToUpdate = id ∧ op.terms = t ∧
    s.withdrawPermissionUpdate op = .ok s1

structure JustSet (s1 : PermitState) (id : Nat) (t : Terms) (p : WithdrawPermission) : Prop where
  acceptable : t.Acceptable s1
  underTerms : UnderTerms s1 id t p
  accounts : p.withdrawFromAccount ≠ p.authorizedAccount
  starts_later : s1.headBlockTime ≤ t.periodStartTime

lemma PermitState.justSet_of_update {s1 : PermitState} {op : WithdrawPermissionUpdate}
    (h : s.withdrawPermissionUpdate op = .ok s1) :
    ∃ p, s.permissions.find op.permissionToUpdate = some p ∧
      JustSet s1 op.permissionToUpdate op.terms (p.reschedule op.terms) := by
  obtain ⟨hacc, hsta, p, hp, hne, rfl⟩ := update_eq_ok h
  have hid : op.permissionToUpdate = (p.reschedule op.terms).id := (key_of_find hp).symm
  refine ⟨p, hp, ⟨hacc.1, hacc.2, hacc.3, hacc.4⟩, ⟨?_, rfl, rfl, rfl, rfl⟩, hne, hsta⟩
  simp only [Store.write, find_put, if_pos hid]

lemma Grants.justSet {s1 : PermitState} {id : Nat} {t : Terms} (hr : Reached s)
    (h : Grants s s1 id t) : ∃ p, JustSet s1 id t p ∧ 0 ≤ p.claimedThisPeriod := by
  rcases h with ⟨op, rfl, hop⟩ | ⟨op, rfl, rfl, hop⟩
  · obtain ⟨hne, hacc, hsta, rfl, rfl⟩ := create_eq_ok hop
    refine ⟨op.newPermission s.permissions.nextId,
      ⟨⟨hacc.1, hacc.2, hacc.3, hacc.4⟩, ⟨?_, rfl, rfl, rfl, rfl⟩, hne, hsta⟩, le_rfl⟩
    exact (find_put _ _ _).trans (if_pos rfl)
  · obtain ⟨p, hp, hset⟩ := justSet_of_update hop
    exact ⟨_, hset, hr.claimed_nonneg p (mem_of_find hp)⟩

/-! ## The limit of each period -/

variable {c : Int} {k : Nat}

section Limit

variable {s1 s2 : PermitState} {id : Nat} {t : Terms} {p : WithdrawPermission}
  {ws : List Withdrawal}

lemma Bounded.le_lastPeriod (hb : Bounded t c ws) (hpos : 0 < t.withdrawalPeriodSec)
    (hk : t.withdrawnIn k ws ≠ 0) : k ≤ t.lastPeriod := by
  by_contra hlt
  refine hk (withdrawnIn_eq_zero fun w hw hin => hlt ?_)
  exact hin.le_lastPeriod (hb.notExpired w hw) hpos

lemma Current.expiration_gt (hb : Bounded t c ws) (hk : t.withdrawnIn k ws ≠ 0) :
    ¬ t.expiration ≤ t.periodStartTime := by
  intro hle
  have hle : t.expiration.toNat ≤ t.periodStartTime.toNat := hle
  refine hk (withdrawnIn_eq_zero fun w hw hin => ?_)
  have hfrom := hin.1
  have hexp := hb.notExpired w hw
  omega

/-- Without a wrap of the clock, or with a limit at the top of the 64-bit range, the limit is kept
in each period. -/
lemma Bounded.respected (hb : Bounded t c ws) (hlimit : 0 < t.withdrawalLimit.amount)
    (hpos : 0 < t.withdrawalPeriodSec) (h : t.WithinClock ∨
      2 ^ 63 ≤ t.withdrawalLimit.amount + carried c t.lastPeriod + 1) : t.Respected ws := by
  refine ⟨fun k => ?_, fun w hw => (hb.notExpired w hw).trans_le expiration_le⟩
  by_cases hk : t.withdrawnIn k ws = 0
  · rw [hk]
    exact hlimit.le
  · have hle := hb.le_lastPeriod hpos hk
    rcases lt_or_eq_of_le hle with hlt | rfl
    · exact hb.limited k (end_lt_of_lt_lastPeriod hlt)
    · rcases h with (hexp | hclock) | hlarge
      · exact absurd hexp (Current.expiration_gt hb hk)
      · exact hb.limited _ hclock
      · rcases hb.small t.lastPeriod with hzero | hsmall
        · exact absurd hzero hk
        · omega

/-- The whole limit is available once the end of the recorded period has passed, and also when
the end is wrapped to a time before the start. -/
lemma WithdrawPermission.available_eq_limit {now : TimePointSec} (hsta : p.periodStartTime ≤ now)
    (h : 2 ^ 32 ≤ p.periodStartTime.toNat + p.withdrawalPeriodSec.toNat ∨
      p.periodStartTime.toNat + p.withdrawalPeriodSec.toNat ≤ now.toNat) :
    p.availableThisPeriod now = p.withdrawalLimit := by
  have hsta : p.periodStartTime.toNat ≤ now.toNat := hsta
  have hnow := now.toNat_lt
  have hper := p.withdrawalPeriodSec.toNat_lt
  have hend : p.periodStartTime + p.withdrawalPeriodSec ≤ now := by
    change (p.periodStartTime + p.withdrawalPeriodSec).toNat ≤ now.toNat
    rw [UInt32.toNat_add]
    rcases h with hwrap | hpast
    · omega
    · rwa [mod_eq_of_lt (by omega)]
  rw [availableThisPeriod, if_pos hend]

lemma Terms.exists_last (h : ¬ t.expiration ≤ t.periodStartTime) :
    ∃ now : TimePointSec, now.toNat + 1 = t.expiration.toNat ∧
      t.periodStartTime.toNat ≤ now.toNat ∧ now < t.expiration := by
  have h : ¬ t.expiration.toNat ≤ t.periodStartTime.toNat := h
  have hone : (1 : UInt32) ≤ t.expiration := by
    change 1 ≤ t.expiration.toNat
    omega
  have hsub : (t.expiration - 1).toNat = t.expiration.toNat - 1 := UInt32.toNat_sub_of_le _ _ hone
  refine ⟨t.expiration - 1, by omega, by omega, ?_⟩
  change (t.expiration - 1).toNat < t.expiration.toNat
  omega

/-- With a wrap of the clock, the whole limit and one unit more can be claimed at the last moment
before the expiration time. -/
lemma JustSet.overdrawn (h : JustSet s1 id t p) (hwrap : ¬ t.WithinClock)
    (hroom : t.withdrawalLimit.amount + carried p.claimedThisPeriod t.lastPeriod + 1 < 2 ^ 63) :
    ∃ ws s2, History id s1 ws s2 ∧ t.withdrawalLimit.amount < t.withdrawnIn t.lastPeriod ws := by
  obtain ⟨hexp, hend⟩ := not_or.1 hwrap
  obtain ⟨now, hnow, hsta, hbef⟩ := exists_last hexp
  obtain ⟨hfind, hlimit, hper, hex, hfrom⟩ := h.underTerms
  have hpos := h.acceptable.period_pos
  have hlim := h.acceptable.limit_pos
  have hcur := h.underTerms.current
  have hle : p.periodStartTime ≤ now := by rwa [hfrom]
  have hK : p.periodsPassed now = t.lastPeriod := by
    rw [periodsPassed, Terms.lastPeriod, hfrom, hper, ← hnow, Nat.add_sub_cancel]
  have hin := hcur.inPeriod hpos hle
  have hcou := hcur.counted now
  rw [zero_add, hK] at hin hcou
  have hnone : t.withdrawnIn t.lastPeriod [] = 0 := rfl
  -- the first claim takes the limit
  have havl : t.withdrawalLimit.amount ≤ (p.availableThisPeriod now).amount := by
    have hpsd : 2 ^ 32 ≤ p.periodStartTime.toNat + p.withdrawalPeriodSec.toNat ∨
        p.periodStartTime.toNat + p.withdrawalPeriodSec.toNat ≤ now.toNat := by
      rw [hfrom, hper]
      by_cases hzero : t.lastPeriod = 0
      · left
        rw [hzero, zero_add, one_mul] at hend
        omega
      · right
        have hmul : 1 * t.withdrawalPeriodSec.toNat ≤ t.lastPeriod * t.withdrawalPeriodSec.toNat :=
          mul_le_mul_right _ (one_le_iff_ne_zero.2 hzero)
        have hsince := hin.1
        omega
    rw [available_eq_limit hle hpsd, hlimit]
  have hfst : (if p.periodsPassed now = 0 then p.claimedThisPeriod + t.withdrawalLimit.amount
      else t.withdrawalLimit.amount) < 2 ^ 63 := by
    split
    · omega
    · omega
  obtain ⟨p', hp'⟩ : ∃ p', claimed p now t.withdrawalLimit.amount = .ok p' :=
    ⟨_, (claimed_eq_ok hle).2 ⟨hfst, rfl⟩⟩
  obtain ⟨s', hhist, hfind', hhead⟩ := start.claim_next hfind h.accounts
    (UInt32.le_trans h.starts_later hsta) (hex ▸ hbef) hle hlim havl hp'
  -- the second one, in the same period, takes one unit more
  have hcur' := hcur.claim hpos hle hp'
  rw [zero_add, hK] at hcur'
  have hle' : p'.periodStartTime ≤ now := by
    change p'.periodStartTime.toNat ≤ now.toNat
    rw [hcur'.start_eq]
    exact hin.1
  have hsame : p'.periodsPassed now = 0 := by
    have hin' := hcur'.inPeriod hpos hle'
    have := hin'.unique hin
    omega
  have havl' : 1 ≤ (p'.availableThisPeriod now).amount := by
    have hpsd : 2 ^ 32 ≤ p'.periodStartTime.toNat + p'.withdrawalPeriodSec.toNat := by
      rw [hcur'.start_eq, hcur'.period_eq, Nat.add_assoc, ← Nat.add_one_mul]
      omega
    rw [available_eq_limit hle' (.inl hpsd), hcur'.limit_eq]
    omega
  have hsec : (if p'.periodsPassed now = 0 then p'.claimedThisPeriod + 1 else 1) < 2 ^ 63 := by
    rwa [if_pos hsame, hcur'.claimed_eq, withdrawnIn_cons, if_pos hin, hnone, add_zero]
  obtain ⟨s'', hhist', -, -⟩ := hhist.claim_next hfind' (by
    obtain ⟨-, rfl⟩ := (claimed_eq_ok hle).1 hp'
    exact h.accounts) (hhead ▸ UInt32.le_refl _) (hcur'.expiration_eq ▸ hbef) hle' one_pos havl'
    ((claimed_eq_ok hle').2 ⟨hsec, rfl⟩)
  refine ⟨_, s'', hhist', ?_⟩
  rw [withdrawnIn_cons, if_pos hin, withdrawnIn_cons, if_pos hin, hnone, add_zero]
  exact lt_one_add _

/-- A schedule that was just set is kept by every history exactly when no period in which a claim is
possible reaches past the end of the 32-bit clock, or the limit leaves no room in 64 bits to
exceed it. -/
theorem schedule_kept_iff {s : PermitState} (hr : Reached s) (hg : Grants s s1 id t)
    (hp : s1.permissions.find id = some p) : (∀ ws s2, History id s1 ws s2 → t.Respected ws) ↔
      t.WithinClock ∨
        2 ^ 63 ≤ t.withdrawalLimit.amount + Terms.carried p.claimedThisPeriod t.lastPeriod + 1 := by
  obtain ⟨q, hset, hc⟩ := hg.justSet hr
  obtain rfl : q = p := Option.mem_unique hset.underTerms.1 hp
  constructor
  · intro hall
    by_contra hnot
    obtain ⟨hwrap, hroom⟩ := not_or.1 hnot
    obtain ⟨ws, s2, hhist, hover⟩ := hset.overdrawn hwrap (not_le.1 hroom)
    exact absurd ((hall ws s2 hhist).1 t.lastPeriod) (not_le.2 hover)
  · intro h ws s2 hhist
    have hb := (hhist.bounded hset.underTerms hc hset.acceptable.limit_pos
      hset.acceptable.period_pos).1
    exact hb.respected hset.acceptable.limit_pos hset.acceptable.period_pos h

def beforeGrants : PermitState where
  headBlockTime := 1699999990
  rules := PermitRules.permissive
  balances := Tally.add Keyed.empty (20, 1) 1000
  permissions := Store.empty

def dailyGrant : WithdrawPermissionCreate where
  withdrawFromAccount := 20
  authorizedAccount := 21
  terms := ⟨⟨100, 1⟩, 86400, 30, 1700000000⟩

/-- Account 21 may withdraw 100 in each of two periods of about 84 years. -/
def wrappedGrant : WithdrawPermissionCreate where
  withdrawFromAccount := 20
  authorizedAccount := 21
  terms := ⟨⟨100, 1⟩, 2647483648, 2, 1700000000⟩

def granted (op : WithdrawPermissionCreate) : PermitState :=
  { beforeGrants with permissions := beforeGrants.permissions.write (op.newPermission 0) }

def atStart (op : WithdrawPermissionCreate) : PermitState :=
  { granted op with headBlockTime := 1700000000 }

def claimOf (amount : Int) : WithdrawPermissionClaim :=
  ⟨0, 20, 21, ⟨amount, 1⟩⟩

def afterClaims (op : WithdrawPermissionCreate) : List Int → PermitState
  | [] => atStart op
  | x :: xs =>
    { afterClaims op xs with
      permissions := (afterClaims op xs).permissions.write
        { op.newPermission 0 with claimedThisPeriod := xs.sum + x }
      balances := ((afterClaims op xs).balances.add (20, 1) (-x)).add (21, 1) x }

lemma History.atStart (op : WithdrawPermissionCreate) : History 0 (granted op) [] (atStart op) :=
  start.elsewhere (by decide : (1699999990 : UInt32) ≤ 1700000000) le_rfl fun _ hp => hp

lemma dailyGrant_grants : Grants beforeGrants (granted dailyGrant) 0 dailyGrant.terms :=
  .inl ⟨dailyGrant, rfl, rfl⟩

theorem schedule_kept_daily : Grants beforeGrants (granted dailyGrant) 0 dailyGrant.terms ∧
      ∀ ws s2, History 0 (granted dailyGrant) ws s2 → dailyGrant.terms.Respected ws :=
  ⟨dailyGrant_grants, (schedule_kept_iff (Reached.genesis rfl) dailyGrant_grants rfl).2
    (.inl (.inr (by decide)))⟩

/-- The end of the first period, `1700000000 + 2647483648`, is wrapped to 52516352, which has passed
long ago: each claim gets the whole limit. -/
theorem limit_withdrawn_twice :
    Reached beforeGrants ∧ Grants beforeGrants (granted wrappedGrant) 0 wrappedGrant.terms ∧
      History 0 (granted wrappedGrant) [⟨1700000000, 100⟩, ⟨1700000000, 100⟩]
        (afterClaims wrappedGrant [100, 100]) ∧
      ¬ wrappedGrant.terms.Respected [⟨1700000000, 100⟩, ⟨1700000000, 100⟩] := by
  refine ⟨Reached.genesis rfl, .inl ⟨wrappedGrant, rfl, rfl⟩, ?_, ?_⟩
  · have honce : (claim (claimOf 100)).perform (atStart wrappedGrant)
        = .ok (afterClaims wrappedGrant [100]) := rfl
    have htwice : (claim (claimOf 100)).perform (afterClaims wrappedGrant [100])
        = .ok (afterClaims wrappedGrant [100, 100]) := rfl
    exact ((History.atStart wrappedGrant).operation _ honce nofun).operation _ htwice nofun
  · intro h
    exact absurd (h.1 0) (by decide)

end Limit

/-! ## The first period after an update -/

section FirstPeriod

variable {s1 s2 : PermitState} {t : Terms} {id : Nat} {p q : WithdrawPermission}
  {ws : List Withdrawal}

/-- What is available throughout the first period is the limit less what is withdrawn in it. -/
def StartsClean (s1 : PermitState) (id : Nat) (t : Terms) : Prop :=
  ∀ ws s2 p, History id s1 ws s2 → s2.permissions.find id = some p →
    t.InPeriod 0 s2.headBlockTime.toNat →
    (p.availableThisPeriod s2.headBlockTime).amount
      = t.withdrawalLimit.amount - t.withdrawnIn 0 ws

lemma History.first_period (h : History id s1 ws s2) (hset : JustSet s1 id t p)
    (hc : 0 ≤ p.claimedThisPeriod) (hq : s2.permissions.find id = some q)
    (hin : t.InPeriod 0 s2.headBlockTime.toNat) : Current t p.claimedThisPeriod ws q 0 := by
  obtain ⟨-, -, hcur⟩ := h.bounded hset.underTerms hc hset.acceptable.limit_pos
    hset.acceptable.period_pos
  obtain ⟨j, hj, hzero | hsta⟩ := hcur q hq
  · rwa [hzero] at hj
  · have hsta : q.periodStartTime.toNat ≤ s2.headBlockTime.toNat := hsta
    have hpos : 0 < t.withdrawalPeriodSec.toNat := hset.acceptable.period_pos
    -- the recorded period has begun, so it is not after the first one
    have hzero : j = 0 := by
      by_contra hne
      have hmul : 1 * t.withdrawalPeriodSec.toNat ≤ j * t.withdrawalPeriodSec.toNat :=
        mul_le_mul_right _ (one_le_iff_ne_zero.2 hne)
      have hs := hj.start_eq
      have hlt := hin.2
      omega
    rwa [hzero] at hj

lemma JustSet.startsClean_of_zero (hset : JustSet s1 id t p)
    (hend : t.periodStartTime.toNat + t.withdrawalPeriodSec.toNat < 2 ^ 32)
    (hzero : p.claimedThisPeriod = 0) : StartsClean s1 id t := by
  intro ws s2 q hhist hq hin
  have hcur := hhist.first_period hset hzero.ge hq hin
  have hb := (hhist.bounded hset.underTerms hzero.ge hset.acceptable.limit_pos
    hset.acceptable.period_pos).1
  have hle := hb.limited 0 (by simpa using hend)
  have hcla : q.claimedThisPeriod = t.withdrawnIn 0 ws := by
    rw [hcur.claimed_eq, carried, if_pos rfl, hzero, add_zero]
  have hnot : ¬ q.periodStartTime + q.withdrawalPeriodSec ≤ s2.headBlockTime := by
    intro hpast
    have hpast : (q.periodStartTime + q.withdrawalPeriodSec).toNat ≤ s2.headBlockTime.toNat := hpast
    rw [UInt32.toNat_add, hcur.start_eq, hcur.period_eq, zero_mul, add_zero,
      mod_eq_of_lt hend] at hpast
    have hlt := hin.2
    omega
  rw [availableThisPeriod, if_neg hnot, hcur.limit_eq, hcla]
  simp only
  split
  · rfl
  · omega

lemma JustSet.startsClean_of_wrap (hset : JustSet s1 id t p) (hc : 0 ≤ p.claimedThisPeriod)
    (hend : 2 ^ 32 ≤ t.periodStartTime.toNat + t.withdrawalPeriodSec.toNat)
    (h : t.expiration ≤ t.periodStartTime ∨ 2 ^ 63 ≤ p.claimedThisPeriod + 1) :
    StartsClean s1 id t := by
  intro ws s2 q hhist hq hin
  have hcur := hhist.first_period hset hc hq hin
  have hb := (hhist.bounded hset.underTerms hc hset.acceptable.limit_pos
    hset.acceptable.period_pos).1
  have hsta := hcur.start_eq
  rw [zero_mul, add_zero] at hsta
  have hnone : t.withdrawnIn 0 ws = 0 := by
    by_contra hne
    rcases h with hexp | hfull
    · exact Current.expiration_gt hb hne hexp
    · have hnon := withdrawnIn_nonneg (t := t) hb.positive 0
      rcases hb.small 0 with hzero | hsmall
      · exact hne hzero
      · rw [carried, if_pos rfl] at hsmall
        omega
  have hle : q.periodStartTime ≤ s2.headBlockTime := by
    change q.periodStartTime.toNat ≤ s2.headBlockTime.toNat
    have hfrom := hin.1
    omega
  rw [available_eq_limit hle (.inl ?_), hcur.limit_eq, hnone, sub_zero]
  rwa [hsta, hcur.period_eq]

lemma Terms.Acceptable.start_inPeriod (h : t.Acceptable s) :
    t.InPeriod 0 t.periodStartTime.toNat := by
  have hpos : 0 < t.withdrawalPeriodSec.toNat := h.period_pos
  constructor
  · omega
  · omega

lemma JustSet.carried_eq_zero (hset : JustSet s1 id t p)
    (hend : t.periodStartTime.toNat + t.withdrawalPeriodSec.toNat < 2 ^ 32)
    (h : StartsClean s1 id t) : p.claimedThisPeriod = 0 := by
  obtain ⟨hfind, hlimit, hper, -, hsta⟩ := hset.underTerms
  have hlim := hset.acceptable.limit_pos
  have havl := h [] _ p (start.later hset.starts_later p 0) hfind
    hset.acceptable.start_inPeriod
  have hnot : ¬ p.periodStartTime + p.withdrawalPeriodSec ≤ t.periodStartTime := by
    intro hpast
    have hpast : (p.periodStartTime + p.withdrawalPeriodSec).toNat ≤ t.periodStartTime.toNat := hpast
    have hpos : 0 < t.withdrawalPeriodSec.toNat := hset.acceptable.period_pos
    rw [UInt32.toNat_add, hsta, hper, mod_eq_of_lt hend] at hpast
    omega
  change (p.availableThisPeriod t.periodStartTime).amount = t.withdrawalLimit.amount - 0 at havl
  rw [availableThisPeriod, if_neg hnot, hlimit] at havl
  simp only at havl
  split at havl
  · omega
  · omega

lemma JustSet.not_startsClean (hset : JustSet s1 id t p)
    (hend : 2 ^ 32 ≤ t.periodStartTime.toNat + t.withdrawalPeriodSec.toNat)
    (hexp : ¬ t.expiration ≤ t.periodStartTime) (hroom : p.claimedThisPeriod + 1 < 2 ^ 63) :
    ¬ StartsClean s1 id t := by
  intro h
  obtain ⟨hfind, hlimit, hper, hex, hsta⟩ := hset.underTerms
  have hlim := hset.acceptable.limit_pos
  have hpos := hset.acceptable.period_pos
  have hin := hset.acceptable.start_inPeriod
  have hcur := hset.underTerms.current
  have hle : p.periodStartTime ≤ t.periodStartTime := hsta ▸ UInt32.le_refl _
  have hwrap : 2 ^ 32 ≤ p.periodStartTime.toNat + p.withdrawalPeriodSec.toNat := by
    rwa [hsta, hper]
  have hnone : p.periodsPassed t.periodStartTime = 0 := by
    rw [periodsPassed, hsta, Nat.sub_self, Nat.zero_div]
  have havl : 1 ≤ (p.availableThisPeriod t.periodStartTime).amount := by
    rwa [available_eq_limit hle (.inl hwrap), hlimit]
  obtain ⟨p', hp'⟩ : ∃ p', claimed p t.periodStartTime 1 = .ok p' :=
    ⟨_, (claimed_eq_ok hle).2 ⟨by rwa [if_pos hnone], rfl⟩⟩
  obtain ⟨s', hhist, hfind', hhead⟩ := start.claim_next hfind hset.accounts
    hset.starts_later (hex ▸ UInt32.not_le.1 hexp) hle one_pos havl hp'
  have hcur' := hcur.claim hpos hle hp'
  rw [hnone] at hcur'
  have havl' := h _ s' p' hhist hfind' (hhead ▸ hin)
  have hsta' := hcur'.start_eq
  rw [zero_add, zero_mul, add_zero] at hsta'
  have hle' : p'.periodStartTime ≤ s'.headBlockTime := by
    rw [hhead]
    exact hsta'.le
  rw [available_eq_limit hle' (.inl ?_), hcur'.limit_eq, withdrawnIn_cons, if_pos hin] at havl'
  · have hemp : t.withdrawnIn 0 [] = 0 := rfl
    simp only [hemp] at havl'
    omega
  · rwa [hsta', hcur'.period_eq]

/-- The first period after an accepted update starts clean exactly when nothing is carried over;
or, if its end is past the end of the 32-bit clock, when nothing can be claimed in it. -/
theorem update_starts_clean_iff {op : WithdrawPermissionUpdate} (hr : Reached s)
    (hop : s.withdrawPermissionUpdate op = .ok s1)
    (hq : s.permissions.find op.permissionToUpdate = some q) :
    StartsClean s1 op.permissionToUpdate op.terms ↔
      if op.terms.periodStartTime.toNat + op.terms.withdrawalPeriodSec.toNat < 2 ^ 32 then
        q.claimedThisPeriod = 0
      else op.terms.expiration ≤ op.terms.periodStartTime ∨ 2 ^ 63 ≤ q.claimedThisPeriod + 1 := by
  obtain ⟨q', hq', hset⟩ := justSet_of_update hop
  obtain rfl : q' = q := Option.mem_unique hq' hq
  have hc : 0 ≤ q'.claimedThisPeriod := hr.claimed_nonneg q' (mem_of_find hq)
  split
  next hend => exact ⟨hset.carried_eq_zero hend, hset.startsClean_of_zero hend⟩
  next hend =>
    have hend := not_lt.1 hend
    refine ⟨fun h => ?_, hset.startsClean_of_wrap hc hend⟩
    by_contra hnot
    obtain ⟨hexp, hroom⟩ := not_or.1 hnot
    exact hset.not_startsClean hend hexp (not_le.1 hroom) h

def newDay : WithdrawPermissionUpdate where
  withdrawFromAccount := 20
  authorizedAccount := 21
  permissionToUpdate := 0
  terms := ⟨⟨100, 1⟩, 86400, 30, 1700000010⟩

def rescheduled (xs : List Int) : PermitState :=
  { afterClaims dailyGrant xs with
    permissions := (afterClaims dailyGrant xs).permissions.write
      ({ dailyGrant.newPermission 0 with claimedThisPeriod := xs.sum }.reschedule newDay.terms) }

lemma atStart_reached : Reached (atStart dailyGrant) := by
  have hcre : (create dailyGrant).perform beforeGrants
      = .ok (granted dailyGrant) := rfl
  exact ((Reached.genesis rfl).operation _ hcre).elsewhere fun _ hp => hp

lemma rescheduled_of_update (xs : List Int) (h : xs = [] ∨ xs = [60]) :
    (afterClaims dailyGrant xs).withdrawPermissionUpdate newDay = .ok (rescheduled xs) := by
  rcases h with rfl | rfl <;> rfl

theorem update_starts_clean_unclaimed : StartsClean (rescheduled []) 0 newDay.terms :=
  (update_starts_clean_iff atStart_reached (rescheduled_of_update [] (.inl rfl)) rfl).2 (by decide)

/-- After a claim of 60 the first period of the new schedule starts with 40. -/
theorem update_carries_claims_over : Reached (afterClaims dailyGrant [60]) ∧
      (afterClaims dailyGrant [60]).withdrawPermissionUpdate newDay = .ok (rescheduled [60]) ∧
      ¬ StartsClean (rescheduled [60]) 0 newDay.terms := by
  have hclaim : (claim (claimOf 60)).perform (atStart dailyGrant)
      = .ok (afterClaims dailyGrant [60]) := rfl
  refine ⟨atStart_reached.operation _ hclaim, rescheduled_of_update [60] (.inr rfl), ?_⟩
  intro h
  have hhist : History 0 (rescheduled [60]) []
      { rescheduled [60] with headBlockTime := 1700000010 } :=
    start.elsewhere (by decide) le_rfl fun _ hp => hp
  exact absurd (h [] _ _ hhist rfl (by decide)) (by decide)

end FirstPeriod

end Graphene.Accounts
