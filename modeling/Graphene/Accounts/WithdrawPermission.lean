import Graphene.Accounts.Balance

/-!
# Withdraw permissions

`withdraw_permission_object` and the evaluators that create, claim from, update and delete a
permission.

Times are `time_point_sec`, 32 bits without overflow check: both the expiration time and the end
of a period that `available_this_period` computes may wrap around.  The amount claimed in the
current period is a `share_type`, 64 bits with overflow check.
-/

namespace Graphene.Accounts

open Lib Protocol

abbrev TimePointSec := UInt32

inductive PermitError where
  | invalidOperation
  | unknownObject
  | startsInThePast
  | expired
  | periodTooShort
  | accountMismatch
  | notStarted
  | limitExceeded
  | asset (e : AssetError)
  | insufficientBalance
  /-- "Asset has transfer_restricted flag enabled" -/
  | transferRestricted
  | unauthorizedAsset
  | overflow
deriving DecidableEq

structure WithdrawPermission where
  id : Nat
  withdrawFromAccount : AccountId
  authorizedAccount : AccountId
  withdrawalLimit : Asset
  withdrawalPeriodSec : UInt32
  /-- the start of the period of the last claim, before that of the first period -/
  periodStartTime : TimePointSec
  expiration : TimePointSec
  claimedThisPeriod : Int

def WithdrawPermission.availableThisPeriod (p : WithdrawPermission) (currentTime : TimePointSec) :
    Asset :=
  if p.periodStartTime + p.withdrawalPeriodSec ≤ currentTime then p.withdrawalLimit
  else ⟨if p.claimedThisPeriod < p.withdrawalLimit.amount then
      p.withdrawalLimit.amount - p.claimedThisPeriod else 0, p.withdrawalLimit.assetId⟩

structure Terms where
  withdrawalLimit : Asset
  withdrawalPeriodSec : UInt32
  periodsUntilExpiration : UInt32
  periodStartTime : TimePointSec
deriving DecidableEq

def Terms.expiration (t : Terms) : TimePointSec :=
  t.periodStartTime + t.periodsUntilExpiration * t.withdrawalPeriodSec

def WithdrawPermission.reschedule (p : WithdrawPermission) (t : Terms) : WithdrawPermission :=
  { p with
    periodStartTime := t.periodStartTime
    expiration := t.expiration
    withdrawalLimit := t.withdrawalLimit
    withdrawalPeriodSec := t.withdrawalPeriodSec }

structure PermitRules where
  accountExists : AccountId → Bool
  assetExists : AssetId → Bool
  blockInterval : UInt8
  isTransferRestricted : AssetId → Bool
  issuer : AssetId → AccountId
  isAuthorizedAsset : AccountId → AssetId → Bool

structure PermitState where
  headBlockTime : TimePointSec
  rules : PermitRules
  balances : Balances
  permissions : Store WithdrawPermission.id

/-! ## Operations -/

structure WithdrawPermissionCreate where
  withdrawFromAccount : AccountId
  authorizedAccount : AccountId
  terms : Terms

def WithdrawPermissionCreate.newPermission (op : WithdrawPermissionCreate) (id : Nat) :
    WithdrawPermission where
  id := id
  withdrawFromAccount := op.withdrawFromAccount
  authorizedAccount := op.authorizedAccount
  withdrawalLimit := op.terms.withdrawalLimit
  withdrawalPeriodSec := op.terms.withdrawalPeriodSec
  expiration := op.terms.expiration
  periodStartTime := op.terms.periodStartTime
  claimedThisPeriod := 0

structure WithdrawPermissionClaim where
  withdrawPermission : Nat
  withdrawFromAccount : AccountId
  withdrawToAccount : AccountId
  amountToWithdraw : Asset

structure WithdrawPermissionUpdate where
  withdrawFromAccount : AccountId
  authorizedAccount : AccountId
  permissionToUpdate : Nat
  terms : Terms

structure WithdrawPermissionDelete where
  withdrawFromAccount : AccountId
  authorizedAccount : AccountId
  withdrawalPermission : Nat

namespace PermitState

variable (s : PermitState)

def permission (id : Nat) : Except PermitError WithdrawPermission :=
  match s.permissions.find id with
  | some p => .ok p
  | none => .error .unknownObject

def validateTerms (t : Terms) : Except PermitError Unit := do
  check (0 < t.withdrawalLimit.amount) .invalidOperation
  check (0 < t.withdrawalPeriodSec) .invalidOperation
  check (0 < t.periodsUntilExpiration) .invalidOperation

def checkTerms (t : Terms) : Except PermitError Unit := do
  check (s.headBlockTime < t.expiration) .expired
  check (s.rules.blockInterval.toUInt32 ≤ t.withdrawalPeriodSec) .periodTooShort

/-- `withdraw_permission_create_evaluator`; the result includes the new id. -/
def withdrawPermissionCreate (op : WithdrawPermissionCreate) :
    Except PermitError (Nat × PermitState) := do
  check (op.withdrawFromAccount ≠ op.authorizedAccount) .invalidOperation
  validateTerms op.terms
  check (s.rules.accountExists op.withdrawFromAccount) .unknownObject
  check (s.rules.accountExists op.authorizedAccount) .unknownObject
  check (s.rules.assetExists op.terms.withdrawalLimit.assetId) .unknownObject
  check (s.headBlockTime < op.terms.periodStartTime) .startsInThePast
  s.checkTerms op.terms
  let id := s.permissions.nextId
  return (id, { s with permissions := s.permissions.write (op.newPermission id) })

def evaluateClaim (op : WithdrawPermissionClaim) (permit : WithdrawPermission) :
    Except PermitError Unit := do
  check (s.headBlockTime < permit.expiration) .expired
  check (permit.authorizedAccount = op.withdrawToAccount) .accountMismatch
  check (permit.withdrawFromAccount = op.withdrawFromAccount) .accountMismatch
  check (permit.periodStartTime ≤ s.headBlockTime) .notStarted
  let available := permit.availableThisPeriod s.headBlockTime
  check (available.assetId = op.amountToWithdraw.assetId) (.asset .assetMismatch)
  check (op.amountToWithdraw.amount ≤ available.amount) .limitExceeded
  let a := op.amountToWithdraw.assetId
  check (op.amountToWithdraw.amount ≤ getBalance s.balances op.withdrawFromAccount a)
    .insufficientBalance
  check (!s.rules.isTransferRestricted a || s.rules.issuer a = permit.authorizedAccount
    || s.rules.issuer a = permit.withdrawFromAccount) .transferRestricted
  check (s.rules.isAuthorizedAsset permit.authorizedAccount a) .unauthorizedAsset
  check (s.rules.isAuthorizedAsset op.withdrawFromAccount a) .unauthorizedAsset

def claimed (permit : WithdrawPermission) (now : TimePointSec) (amount : Int) :
    Except PermitError WithdrawPermission := do
  -- the difference of two times and the number of periods are 64-bit numbers
  let periods := ((now.toNat : Int) - permit.periodStartTime.toNat).tdiv
    permit.withdrawalPeriodSec.toNat
  let start := permit.periodStartTime + UInt32.ofInt (periods * permit.withdrawalPeriodSec.toNat)
  let total := if periods = 0 then permit.claimedThisPeriod + amount else amount
  check (total < 2 ^ 63) .overflow
  return { permit with periodStartTime := start, claimedThisPeriod := total }

def withdrawPermissionClaim (op : WithdrawPermissionClaim) : Except PermitError PermitState := do
  check (op.withdrawToAccount ≠ op.withdrawFromAccount) .invalidOperation
  check (0 < op.amountToWithdraw.amount) .invalidOperation
  let permit ← s.permission op.withdrawPermission
  s.evaluateClaim op permit
  let permit ← claimed permit s.headBlockTime op.amountToWithdraw.amount
  let balances ← adjustBalance .insufficientBalance s.balances op.withdrawFromAccount
    op.amountToWithdraw.neg
  let balances ← adjustBalance .insufficientBalance balances op.withdrawToAccount
    op.amountToWithdraw
  return { s with permissions := s.permissions.write permit, balances := balances }

def withdrawPermissionUpdate (op : WithdrawPermissionUpdate) : Except PermitError PermitState := do
  check (op.withdrawFromAccount ≠ op.authorizedAccount) .invalidOperation
  validateTerms op.terms
  let permit ← s.permission op.permissionToUpdate
  check (permit.authorizedAccount = op.authorizedAccount) .accountMismatch
  check (permit.withdrawFromAccount = op.withdrawFromAccount) .accountMismatch
  check (s.rules.assetExists op.terms.withdrawalLimit.assetId) .unknownObject
  check (s.headBlockTime ≤ op.terms.periodStartTime) .startsInThePast
  s.checkTerms op.terms
  return { s with permissions := s.permissions.write (permit.reschedule op.terms) }

def withdrawPermissionDelete (op : WithdrawPermissionDelete) : Except PermitError PermitState := do
  check (op.withdrawFromAccount ≠ op.authorizedAccount) .invalidOperation
  let permit ← s.permission op.withdrawalPermission
  check (permit.authorizedAccount = op.authorizedAccount) .accountMismatch
  check (permit.withdrawFromAccount = op.withdrawFromAccount) .accountMismatch
  return { s with permissions := s.permissions.remove op.withdrawalPermission }

end PermitState

/-! ## What the operations do -/

/-- What `validate` and both evaluators make sure of for a schedule. -/
structure Terms.Acceptable (t : Terms) (s : PermitState) : Prop where
  limit_pos : 0 < t.withdrawalLimit.amount
  period_pos : 0 < t.withdrawalPeriodSec
  periods_pos : 0 < t.periodsUntilExpiration
  expires_later : s.headBlockTime < t.expiration

variable {id : Nat} {p : WithdrawPermission} {t : Terms} {u : Unit} {op : WithdrawPermissionClaim}

namespace PermitState

variable {s s' : PermitState}

lemma permission_eq_ok : s.permission id = .ok p ↔ s.permissions.find id = some p := by
  unfold permission
  cases s.permissions.find id <;> simp

lemma validateTerms_eq_ok : validateTerms t = .ok u ↔
      0 < t.withdrawalLimit.amount ∧ 0 < t.withdrawalPeriodSec ∧ 0 < t.periodsUntilExpiration := by
  simp [validateTerms, bind_eq_ok, check_eq_ok]

lemma checkTerms_eq_ok : s.checkTerms t = .ok u ↔
      s.headBlockTime < t.expiration ∧ s.rules.blockInterval.toUInt32 ≤ t.withdrawalPeriodSec := by
  simp [checkTerms, bind_eq_ok, check_eq_ok]

structure Claimable (s : PermitState) (op : WithdrawPermissionClaim) (p : WithdrawPermission) :
    Prop where
  notExpired : s.headBlockTime < p.expiration
  toAccount : p.authorizedAccount = op.withdrawToAccount
  fromAccount : p.withdrawFromAccount = op.withdrawFromAccount
  started : p.periodStartTime ≤ s.headBlockTime
  sameAsset : (p.availableThisPeriod s.headBlockTime).assetId = op.amountToWithdraw.assetId
  available : op.amountToWithdraw.amount ≤ (p.availableThisPeriod s.headBlockTime).amount
  funded : op.amountToWithdraw.amount ≤
    getBalance s.balances op.withdrawFromAccount op.amountToWithdraw.assetId
  unrestricted : s.rules.isTransferRestricted op.amountToWithdraw.assetId = false ∨
    s.rules.issuer op.amountToWithdraw.assetId = p.authorizedAccount ∨
    s.rules.issuer op.amountToWithdraw.assetId = p.withdrawFromAccount
  toAuthorized : s.rules.isAuthorizedAsset p.authorizedAccount op.amountToWithdraw.assetId
  fromAuthorized : s.rules.isAuthorizedAsset op.withdrawFromAccount op.amountToWithdraw.assetId

lemma id_of_claimed {p' : WithdrawPermission} {now : TimePointSec} {amount : Int}
    (h : claimed p now amount = .ok p') : p'.id = p.id := by
  simp only [claimed, bind_eq_ok, check_eq_ok, exists_const, pure_eq_ok] at h
  rw [← h.2]

lemma evaluateClaim_eq_ok : s.evaluateClaim op p = .ok u ↔ s.Claimable op p := by
  simp only [evaluateClaim, bind_eq_ok, check_eq_ok, exists_const, decide_eq_true_eq,
    Bool.or_eq_true, Bool.not_eq_true', or_assoc]
  constructor
  · rintro ⟨h1, h2, h3, h4, h5, h6, h7, h8, h9, h10⟩
    exact ⟨h1, h2, h3, h4, h5, h6, h7, h8, h9, h10⟩
  · rintro ⟨h1, h2, h3, h4, h5, h6, h7, h8, h9, h10⟩
    exact ⟨h1, h2, h3, h4, h5, h6, h7, h8, h9, h10⟩

end PermitState

def WithdrawPermission.periodsPassed (p : WithdrawPermission) (now : TimePointSec) : Nat :=
  (now.toNat - p.periodStartTime.toNat) / p.withdrawalPeriodSec.toNat

namespace WithdrawPermission

variable {p' : WithdrawPermission} {now : TimePointSec} {amount : Int}

variable (h : p.periodStartTime ≤ now)
include h

lemma tdiv_eq_periodsPassed :
    ((now.toNat : Int) - p.periodStartTime.toNat).tdiv p.withdrawalPeriodSec.toNat
      = p.periodsPassed now := by
  have h : p.periodStartTime.toNat ≤ now.toNat := h
  rw [← Nat.cast_sub h]
  rfl

lemma start_after_claim : (p.periodStartTime
        + UInt32.ofInt ((p.periodsPassed now : Int) * p.withdrawalPeriodSec.toNat)).toNat
      = p.periodStartTime.toNat + p.periodsPassed now * p.withdrawalPeriodSec.toNat := by
  have h : p.periodStartTime.toNat ≤ now.toNat := h
  have hle : p.periodsPassed now * p.withdrawalPeriodSec.toNat
      ≤ now.toNat - p.periodStartTime.toNat := Nat.div_mul_le_self _ _
  have hnow := now.toNat_lt
  have hint : (((p.periodsPassed now * p.withdrawalPeriodSec.toNat : Nat) : Int) % 2 ^ 32).toNat
      = p.periodsPassed now * p.withdrawalPeriodSec.toNat := by omega
  rw [← Nat.cast_mul, UInt32.ofInt, hint, UInt32.toNat_add, UInt32.toNat_ofNat']
  rw [Nat.mod_eq_of_lt (by omega), Nat.mod_eq_of_lt (by omega)]

lemma claimed_eq_ok : PermitState.claimed p now amount = .ok p' ↔
      (if p.periodsPassed now = 0 then p.claimedThisPeriod + amount else amount) < 2 ^ 63 ∧
      p' = { p with
        periodStartTime := p.periodStartTime
          + UInt32.ofInt ((p.periodsPassed now : Int) * p.withdrawalPeriodSec.toNat)
        claimedThisPeriod :=
          if p.periodsPassed now = 0 then p.claimedThisPeriod + amount else amount } := by
  simp only [PermitState.claimed, tdiv_eq_periodsPassed h, Nat.cast_eq_zero, bind_eq_ok,
    check_eq_ok, decide_eq_true_eq, exists_const]
  constructor
  · rintro ⟨hlt, he⟩
    cases he
    exact ⟨hlt, rfl⟩
  · rintro ⟨hlt, rfl⟩
    exact ⟨hlt, rfl⟩

end WithdrawPermission

inductive PermitOperation where
  | create (op : WithdrawPermissionCreate)
  | claim (op : WithdrawPermissionClaim)
  | update (op : WithdrawPermissionUpdate)
  | delete (op : WithdrawPermissionDelete)

namespace PermitOperation

def perform : PermitOperation → PermitState → Except PermitError PermitState
  | create op, s => do
    let (_, s') ← s.withdrawPermissionCreate op
    return s'
  | claim op, s => s.withdrawPermissionClaim op
  | update op, s => s.withdrawPermissionUpdate op
  | delete op, s => s.withdrawPermissionDelete op

def target : PermitOperation → Option Nat
  | create _ => none
  | claim op => some op.withdrawPermission
  | update op => some op.permissionToUpdate
  | delete _ => none

end PermitOperation

namespace PermitState

variable {s s' : PermitState}

lemma create_eq_ok {op : WithdrawPermissionCreate}
    (h : s.withdrawPermissionCreate op = .ok (id, s')) :
    op.withdrawFromAccount ≠ op.authorizedAccount ∧ op.terms.Acceptable s ∧
      s.headBlockTime ≤ op.terms.periodStartTime ∧ id = s.permissions.nextId ∧
      s' = { s with permissions := s.permissions.write (op.newPermission id) } := by
  simp only [withdrawPermissionCreate, bind_eq_ok, check_eq_ok, exists_const, decide_eq_true_eq,
    validateTerms_eq_ok, checkTerms_eq_ok, pure_eq_ok,
    Prod.mk.injEq] at h
  obtain ⟨hne, ⟨h1, h2, h3⟩, -, -, -, hsta, ⟨h4, -⟩, rfl, rfl⟩ := h
  exact ⟨hne, ⟨h1, h2, h3, h4⟩, UInt32.le_of_lt hsta, rfl, rfl⟩

lemma claim_eq_ok : s.withdrawPermissionClaim op = .ok s' ↔
      op.withdrawToAccount ≠ op.withdrawFromAccount ∧ 0 < op.amountToWithdraw.amount ∧
      ∃ p p' b b', s.permissions.find op.withdrawPermission = some p ∧ s.Claimable op p ∧
        claimed p s.headBlockTime op.amountToWithdraw.amount = .ok p' ∧
        adjustBalance PermitError.insufficientBalance s.balances op.withdrawFromAccount
          op.amountToWithdraw.neg = .ok b ∧
        adjustBalance PermitError.insufficientBalance b op.withdrawToAccount op.amountToWithdraw = .ok b' ∧
        s' = { s with permissions := s.permissions.write p', balances := b' } := by
  simp only [withdrawPermissionClaim, bind_eq_ok, check_eq_ok, exists_const, decide_eq_true_eq,
    permission_eq_ok, evaluateClaim_eq_ok, pure_eq_ok]
  constructor
  · rintro ⟨h1, h2, p, hp, hc, p', hp', b, hb, b', hb', rfl⟩
    exact ⟨h1, h2, p, p', b, b', hp, hc, hp', hb, hb', rfl⟩
  · rintro ⟨h1, h2, p, p', b, b', hp, hc, hp', hb, hb', rfl⟩
    exact ⟨h1, h2, p, hp, hc, p', hp', b, hb, b', hb', rfl⟩

lemma update_eq_ok {op : WithdrawPermissionUpdate} (h : s.withdrawPermissionUpdate op = .ok s') :
    op.terms.Acceptable s ∧ s.headBlockTime ≤ op.terms.periodStartTime ∧
      ∃ p, s.permissions.find op.permissionToUpdate = some p ∧
        p.withdrawFromAccount ≠ p.authorizedAccount ∧
        s' = { s with permissions := s.permissions.write (p.reschedule op.terms) } := by
  simp only [withdrawPermissionUpdate, bind_eq_ok, check_eq_ok, exists_const, decide_eq_true_eq,
    permission_eq_ok, validateTerms_eq_ok, checkTerms_eq_ok, pure_eq_ok] at h
  obtain ⟨hne, ⟨h1, h2, h3⟩, p, hp, hto, hfrom, -, hsta, ⟨h4, -⟩, rfl⟩ := h
  rw [← hto, ← hfrom] at hne
  exact ⟨⟨h1, h2, h3, h4⟩, hsta, p, hp, hne, rfl⟩

lemma delete_eq_ok {op : WithdrawPermissionDelete} (h : s.withdrawPermissionDelete op = .ok s') :
    s' = { s with permissions := s.permissions.remove op.withdrawalPermission } := by
  simp only [withdrawPermissionDelete, bind_eq_ok, check_eq_ok, exists_const, decide_eq_true_eq,
    permission_eq_ok, pure_eq_ok] at h
  obtain ⟨-, p, -, -, -, rfl⟩ := h
  rfl

end PermitState

end Graphene.Accounts
