import Graphene.Maintenance.VoteTally

/-!
# Fees of accounts

`process_fees` pays out the fees that an account has paid since the last maintenance: a cut for the
network, and cashback for the lifetime referrer, the referrer and the registrar of the account.  Cashback
goes to a vesting balance, which is created when there is none that fits.
-/

namespace Graphene.Maintenance

open Accounts AccountsState Lib Protocol Keyed Evolves Account

/-- `cut_fee` of a fee that is not negative; for a negative one the last conversion throws. -/
def cutFee (a : Int) (p : Nat) : Int :=
  if a = 0 ∨ p = 0 then 0
  else if p = graphene100Percent then a
  else toInt64 ((toUint128 a * p % 2 ^ 128 / graphene100Percent % 2 ^ 64 : Nat) : Int)

structure FeeCuts where
  network : Int
  lifetime : Int
  referrer : Int
  registrar : Int

def feeCuts (account : Account) (coreFeeTotal : Int) : FeeCuts :=
  let networkCut := cutFee coreFeeTotal account.networkFeePercentage
  let lifetimeCut := cutFee coreFeeTotal account.lifetimeReferrerFeePercentage
  let referral := coreFeeTotal - networkCut - lifetimeCut
  let referrerCut := cutFee referral account.referrerRewardsPercentage
  ⟨networkCut, lifetimeCut, referrerCut, referral - referrerCut⟩

def isReservedAccount (a : AccountId) : Bool :=
  a = grapheneCommitteeAccount || a = 1 || a = 2 || a = grapheneNullAccount ||
    a = grapheneTempAccount

def AccountsState.collect (s : AccountsState) (networkCut : Int) : AccountsState :=
  { s with accumulatedFees := s.accumulatedFees + networkCut }

def AccountStats.clearFees (st : AccountStats) : AccountStats :=
  { st with
    lifetimeFeesPaid := st.lifetimeFeesPaid + (st.pendingFees + st.pendingVestedFees)
    pendingFees := 0
    pendingVestedFees := 0 }

namespace MaintenanceProps

variable (p : MaintenanceProps)

def fits (vb : VestingBalance) (owner : AccountId) (vestingSeconds : Nat) : Bool :=
  match vb.cddPolicy? with
  | some policy => vb.owner = owner && policy.vestingSeconds = vestingSeconds
  | none => false

section

variable (s : AccountsState)

def createVesting (amount : Int) (vestingSeconds : Nat)
    (balanceType : VestingBalanceType) (owner : AccountId) (requireVesting : Bool) :
    AccountsState × Option Nat :=
  let policy : CddVestingPolicy := {
    vestingSeconds := vestingSeconds
    coinSecondsEarned := if requireVesting then 0
      else toUint128 (toInt64 (amount * vestingSeconds))
    coinSecondsEarnedLastUpdate := p.headBlockTime }
  let id := s.vestingBalances.nextId
  (s.putVestingBalance ⟨id, owner, ⟨amount, 0⟩, .cdd policy, balanceType⟩, some id)

def depositInto (vb : VestingBalance) (amount : Int) (requireVesting : Bool) :
    Except AccountError (AccountsState × Option Nat) := do
  let deposited := if requireVesting then vb.deposit p.headBlockTime ⟨amount, 0⟩
    else vb.depositVested p.headBlockTime ⟨amount, 0⟩
  match deposited with
  | .ok vb => .ok (s.putVestingBalance vb, none)
  | .error e => .error (.vesting e)

def depositLazyVesting (ovbid : Option Nat) (amount : Int) (vestingSeconds : Nat)
    (balanceType : VestingBalanceType) (owner : AccountId) (requireVesting : Bool) :
    Except AccountError (AccountsState × Option Nat) :=
  if amount = 0 then .ok (s, none)
  else
    match ovbid with
    | none => .ok (p.createVesting s amount vestingSeconds balanceType owner requireVesting)
    | some v => do
      let vb ← s.getVestingBalance v
      if fits vb owner vestingSeconds then p.depositInto s vb amount requireVesting
      else .ok (p.createVesting s amount vestingSeconds balanceType owner requireVesting)

def noteCashback (acct : Account) (v : Nat) :
    Except AccountError AccountsState := do
  let s := s.putAccount { acct with cashbackVb := some v }
  let st ← s.getAccountStatsByOwner acct.id
  return s.putStats { st with hasCashbackVb := true }

def depositCashback (acct : Account) (amount : Int) (requireVesting : Bool) :
    Except AccountError AccountsState :=
  if amount = 0 then .ok s
  else if isReservedAccount acct.id then .ok { s with currentSupply := s.currentSupply - amount }
  else do
    let (s, newVbid) ← p.depositLazyVesting s acct.cashbackVb amount p.cashbackVestingPeriodSeconds
      .cashback acct.id requireVesting
    match newVbid with
    | none => .ok s
    | some v => noteCashback s acct v

def payCashback (a : AccountId) (amount : Int) (requireVesting : Bool) :
    Except AccountError AccountsState := do
  let acct ← s.getAccount a
  p.depositCashback s acct amount requireVesting

/-- A referrer that is no longer a member is replaced by the lifetime referrer. -/
def updateReferrer (account : Account) :
    Except AccountError (AccountsState × Account) := do
  let referrer ← s.getAccount account.referrer
  if referrer.isBasicAccount p.headBlockTime then
    let account := { account with referrer := account.lifetimeReferrer }
    return (s.putAccount account, account)
  else return (s, account)

def payOutFees (a : AccountId) (coreFeeTotal : Int) (requireVesting : Bool) :
    Except AccountError AccountsState := do
  let account ← s.getAccount a
  let (s, account) ← p.updateReferrer s account
  let cuts := feeCuts account coreFeeTotal
  let s := s.collect cuts.network
  let s ← p.payCashback s account.lifetimeReferrer cuts.lifetime requireVesting
  let s ← p.payCashback s account.referrer cuts.referrer requireVesting
  p.payCashback s account.registrar cuts.registrar requireVesting

def processFees (st : AccountStats) : Except AccountError AccountsState :=
  if 0 < st.pendingFees ∨ 0 < st.pendingVestedFees then do
    let s ← p.payOutFees s st.owner st.pendingFees true
    let s ← p.payOutFees s st.owner st.pendingVestedFees false
    let st ← s.getAccountStatsByOwner st.owner
    return s.putStats st.clearFees
  else .ok s

end

/-! ## What a payment changes -/

variable {p} {s s' : AccountsState} {a : AccountId} {acc : Account} {st : AccountStats}
  (h : WellFormed s)
include h

lemma exists_account (h' : WellFormed s') (hev : Evolves s s')
    (hacc : ∃ acc, s.accounts.find a = some acc) : ∃ acc', s'.accounts.find a = some acc' := by
  obtain ⟨acc, hacc⟩ := hacc
  obtain ⟨st, hst⟩ := h.statistics hacc
  obtain ⟨st', hst', -⟩ := hev.find hst
  exact h'.account hst'

/-- The deposit succeeds and changes nothing but vesting balances. -/
def Deposited (s : AccountsState) (r : Except AccountError (AccountsState × Option Nat)) : Prop :=
  ∃ s' new, r = .ok (s', new) ∧ WellFormed s' ∧ s'.accounts = s.accounts ∧ s'.stats = s.stats ∧
    s'.balances = s.balances ∧
    ∀ v, new = some v → ∃ vb, s'.vestingBalances.find v = some vb ∧ vb.balance.assetId = 0

lemma exists_depositLazyVesting {ovbid : Option Nat} (amount : Int)
    (vestingSeconds : Nat) (balanceType : VestingBalanceType) (owner : AccountId)
    (requireVesting : Bool)
    (hvb : ∀ v, ovbid = some v → ∃ vb, s.vestingBalances.find v = some vb ∧ vb.balance.assetId = 0) :
    Deposited s
      (p.depositLazyVesting s ovbid amount vestingSeconds balanceType owner requireVesting) := by
  have hcreate : Deposited s
      (.ok (p.createVesting s amount vestingSeconds balanceType owner requireVesting)) := by
    refine ⟨_, _, rfl, h.putVestingBalance rfl, rfl, rfl, rfl, ?_⟩
    intro v hv
    cases hv
    exact ⟨_, Store.find_write_self _ _, rfl⟩
  unfold depositLazyVesting
  split
  · exact ⟨s, none, rfl, h, rfl, rfl, rfl, by rintro _ ⟨⟩⟩
  cases ovbid with
  | none => exact hcreate
  | some v =>
    obtain ⟨vb, hfind, hcore⟩ := hvb v rfl
    simp only
    rw [getVestingBalance_of_find hfind, ok_bind]
    split
    next hfits =>
      obtain ⟨policy, hpol⟩ : ∃ policy, vb.cddPolicy? = some policy := by
        unfold fits at hfits
        split at hfits
        next policy hpol => exact ⟨policy, hpol⟩
        next => cases hfits
      obtain ⟨vb', hdep, -, hasset⟩ :=
        VestingBalance.exists_deposit p.headBlockTime ⟨amount, 0⟩ hpol hcore requireVesting
      refine ⟨s.putVestingBalance vb', none, ?_, h.putVestingBalance (hasset.trans hcore), rfl, rfl,
        rfl, by rintro _ ⟨⟩⟩
      simp only [depositInto, hdep]
    next => exact hcreate

lemma exists_depositCashback (hacc : s.accounts.find a = some acc) (amount : Int)
    (requireVesting : Bool) :
    ∃ s', p.depositCashback s acc amount requireVesting = .ok s' ∧ Evolves s s' ∧ WellFormed s' := by
  unfold depositCashback
  split
  · exact ⟨s, rfl, refl s, h⟩
  split
  · exact ⟨_, rfl, of_eq rfl rfl, h.congr rfl rfl rfl rfl⟩
  obtain ⟨s1, new, hdep, h1, haccs, hsts, hbals, hnew⟩ :=
    p.exists_depositLazyVesting h amount p.cashbackVestingPeriodSeconds .cashback acc.id
      requireVesting fun v hv => h.vested hacc hv
  have hev : Evolves s s1 := of_eq hbals hsts
  rw [hdep, ok_bind]
  cases new with
  | none => exact ⟨s1, rfl, hev, h1⟩
  | some v =>
    have hacc1 : s1.accounts.find a = some acc := haccs ▸ hacc
    have hid : acc.id = a := key_of_find hacc
    have h2 : WellFormed (s1.putAccount { acc with cashbackVb := some v }) :=
      h1.putAccount hacc1 rfl (fun b hb => h1.linked hacc1 b hb) fun v' hv' => by
        cases hv'
        exact hnew v rfl
    obtain ⟨st, hst⟩ := h1.statistics hacc1
    -- the statistics of the account are those before it was noted
    have hst2 : (s1.putAccount { acc with cashbackVb := some v }).stats.find acc.id = some st :=
      hid ▸ hst
    refine ⟨(s1.putAccount { acc with cashbackVb := some v }).putStats
      { st with hasCashbackVb := true }, ?_, ?_, h2.putStats hst2 rfl rfl⟩
    · simp only [noteCashback]
      rw [getStats_of_find hst2, ok_bind]
      rfl
    · have hcas : st.Evolves { st with hasCashbackVb := true } := ⟨rfl, fun _ => rfl⟩
      have hnoted : Evolves s1 (s1.putAccount { acc with cashbackVb := some v }) :=
        of_eq rfl rfl
      exact hev.trans (hnoted.trans (putStats hst2 hcas))

lemma exists_payCashback (ha : ∃ acc, s.accounts.find a = some acc) (amount : Int)
    (requireVesting : Bool) :
    ∃ s', p.payCashback s a amount requireVesting = .ok s' ∧ Evolves s s' ∧ WellFormed s' := by
  obtain ⟨acc, hacc⟩ := ha
  rw [payCashback, getAccount_of_find hacc, ok_bind]
  exact exists_depositCashback h hacc amount requireVesting

lemma exists_updateReferrer (hacc : s.accounts.find a = some acc) :
    ∃ s' acc', p.updateReferrer s acc = .ok (s', acc') ∧ Evolves s s' ∧ WellFormed s' ∧
      s'.accounts.find a = some acc' := by
  obtain ⟨referrer, -, href⟩ := h.link hacc (by simp [links] : acc.referrer ∈ acc.links)
  rw [updateReferrer, href, ok_bind]
  split
  · have hid : acc.id = a := key_of_find hacc
    refine ⟨_, _, rfl, of_eq rfl rfl, h.putAccount hacc rfl ?_ ?_, ?_⟩
    · intro b hb
      refine h.linked hacc b ?_
      simp only [links, List.mem_cons] at hb ⊢
      tauto
    · intro v hv
      exact h.vested hacc hv
    · rw [find_putAccount, if_pos hid.symm]
  · exact ⟨s, acc, rfl, refl s, h, hacc⟩

lemma exists_payOutFees (ha : ∃ acc, s.accounts.find a = some acc)
    (coreFeeTotal : Int) (requireVesting : Bool) :
    ∃ s', p.payOutFees s a coreFeeTotal requireVesting = .ok s' ∧ Evolves s s' ∧ WellFormed s' := by
  obtain ⟨acc, hacc⟩ := ha
  obtain ⟨s1, acc1, href, hev1, h1, hacc1⟩ := p.exists_updateReferrer h hacc
  have hlin : ∀ b ∈ acc1.links, ∃ x, s1.accounts.find b = some x := h1.linked hacc1
  simp only [payOutFees]
  rw [getAccount_of_find hacc, ok_bind, href, ok_bind]
  -- the three payments, each to an account that is still there
  have hev : Evolves s1 (s1.collect (feeCuts acc1 coreFeeTotal).network) := of_eq rfl rfl
  have hcol : WellFormed (s1.collect (feeCuts acc1 coreFeeTotal).network) :=
    h1.congr rfl rfl rfl rfl
  obtain ⟨s2, hlif, hev2, h2⟩ := exists_payCashback (p := p) hcol
    (hlin acc1.lifetimeReferrer (by simp [links])) (feeCuts acc1 coreFeeTotal).lifetime
    requireVesting
  obtain ⟨s3, hpaid, hev3, h3⟩ := exists_payCashback (p := p) h2
    (exists_account h1 h2 (hev.trans hev2) (hlin acc1.referrer (by simp [links])))
    (feeCuts acc1 coreFeeTotal).referrer requireVesting
  obtain ⟨s4, hreg, hev4, h4⟩ := exists_payCashback (p := p) h3
    (exists_account h1 h3 (hev.trans (hev2.trans hev3))
      (hlin acc1.registrar (by simp [links])))
    (feeCuts acc1 coreFeeTotal).registrar requireVesting
  refine ⟨s4, ?_, hev1.trans (hev.trans (hev2.trans (hev3.trans hev4))), h4⟩
  rw [hlif, ok_bind, hpaid, ok_bind, hreg]

lemma exists_processFees (hst : s.stats.find a = some st) (hfees : st.hasPendingFees = true) :
    ∃ s' st', p.processFees s st = .ok (s'.putStats st'.clearFees) ∧ Evolves s s' ∧ WellFormed s' ∧
      s'.stats.find a = some st' := by
  have hown : st.owner = a := key_of_find hst
  obtain ⟨s1, hfst, hev1, h1⟩ := exists_payOutFees (p := p) h (h.account hst) st.pendingFees true
  obtain ⟨st1, hst1, -⟩ := hev1.find hst
  obtain ⟨s2, hsec, hev2, h2⟩ :=
    exists_payOutFees (p := p) h1 (h1.account hst1) st.pendingVestedFees false
  obtain ⟨st2, hst2, -⟩ := hev2.find hst1
  refine ⟨s2, st2, ?_, hev1.trans hev2, h2, hst2⟩
  have hpending : 0 < st.pendingFees ∨ 0 < st.pendingVestedFees := by
    simpa [AccountStats.hasPendingFees] using hfees
  rw [processFees, if_pos hpending, hown, hfst, ok_bind, hsec, ok_bind, getStats_of_find hst2,
    ok_bind]
  rfl

end MaintenanceProps

end Graphene.Maintenance
