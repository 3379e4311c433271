import Graphene.Accounts.VestingBalance
import Graphene.Lib.Keyed

/-!
# The accounts of the chain

What the maintenance of the accounts reads and writes.  Amounts are integers, without the bound of 64
bits.

`AccountsDb` is a state with what holds between the objects: names are unique, every account has its
statistics, the accounts it refers to exist, an account has one balance in an asset, and only balances in
the core asset are flagged.
-/

namespace Graphene.Maintenance

open Accounts Lib Protocol List Keyed

structure VoteId where
  type : Nat
  offset : Nat
deriving DecidableEq

structure Account where
  id : AccountId
  membershipExpirationDate : Nat
  registrar : AccountId
  referrer : AccountId
  lifetimeReferrer : AccountId
  networkFeePercentage : Nat
  lifetimeReferrerFeePercentage : Nat
  referrerRewardsPercentage : Nat
  cashbackVb : Option Nat := none
  votingAccount : AccountId
  numWitness : Nat := 0
  numCommittee : Nat := 0
  votes : List VoteId := []
  numCommitteeVoted : Nat := 0

namespace Account

def isBasicAccount (acc : Account) (now : Nat) : Bool :=
  acc.membershipExpirationDate < now

def isMember (acc : Account) (now : Nat) : Bool :=
  !acc.isBasicAccount now

def links (acc : Account) : List AccountId :=
  [acc.registrar, acc.referrer, acc.lifetimeReferrer, acc.votingAccount]

end Account

structure VotingPower where
  vpAll : Nat := 0
  vpActive : Nat := 0
  vpCommittee : Nat := 0
  vpWitness : Nat := 0
  vpWorker : Nat := 0
  voteTallyTime : Nat := 0
deriving DecidableEq

/-- `account_statistics_object`; its number is that of the account. -/
structure AccountStats where
  owner : AccountId
  name : String
  totalCoreInOrders : Int := 0
  totalCoreInactive : Int := 0
  totalCorePob : Int := 0
  totalCorePol : Int := 0
  totalPobValue : Int := 0
  totalPolValue : Int := 0
  coreInBalance : Int := 0
  hasCashbackVb : Bool := false
  isVoting : Bool := false
  lastVoteTime : Nat := 0
  power : VotingPower := {}
  lifetimeFeesPaid : Int := 0
  pendingFees : Int := 0
  pendingVestedFees : Int := 0

namespace AccountStats

def hasSomeCoreVoting (st : AccountStats) : Bool :=
  st.isVoting && (0 < st.totalCoreInOrders || 0 < st.coreInBalance || st.hasCashbackVb ||
    0 < st.totalCorePol)

def hasPendingFees (st : AccountStats) : Bool :=
  0 < st.pendingFees || 0 < st.pendingVestedFees

def needMaintenance (st : AccountStats) : Bool :=
  st.hasSomeCoreVoting || st.hasPendingFees

end AccountStats

structure AccountBalance where
  owner : AccountId
  assetType : AssetId
  balance : Int
  maintenanceFlag : Bool := false

def AccountBalance.key (b : AccountBalance) : AccountId × AssetId :=
  (b.owner, b.assetType)

structure AccountsState where
  accounts : Store Account.id
  stats : Keyed AccountStats.owner
  /-- in the order of `by_maintenance_flag` -/
  balances : List AccountBalance
  vestingBalances : Store VestingBalance.id
  accumulatedFees : Int := 0
  currentSupply : Int := 0
  voteTallyBuffer : List Nat := []
  witnessCountHistogramBuffer : List Nat := []
  committeeCountHistogramBuffer : List Nat := []
  totalCommitteeVotingStake : Nat := 0
  totalWitnessVotingStake : Nat := 0

inductive AccountError where
  | noAccount (a : AccountId)
  | noStatistics (a : AccountId)
  | noVestingBalance (v : Nat)
  | vesting (e : VestingError)
  | insufficientBalance
  | outOfFuel
deriving DecidableEq

variable {a : AccountId} {acc : Account} {st : AccountStats} {vb : VestingBalance}

namespace AccountsState

variable (s : AccountsState)

def getAccount (a : AccountId) : Except AccountError Account :=
  match s.accounts.find a with
  | some acc => .ok acc
  | none => .error (.noAccount a)

def getAccountStatsByOwner (a : AccountId) : Except AccountError AccountStats :=
  match s.stats.find a with
  | some st => .ok st
  | none => .error (.noStatistics a)

def getVestingBalance (v : Nat) : Except AccountError VestingBalance :=
  match s.vestingBalances.find v with
  | some vb => .ok vb
  | none => .error (.noVestingBalance v)

def putAccount (acc : Account) : AccountsState :=
  { s with accounts := s.accounts.write acc }

def putStats (st : AccountStats) : AccountsState :=
  { s with stats := s.stats.put st }

def putVestingBalance (vb : VestingBalance) : AccountsState :=
  { s with vestingBalances := s.vestingBalances.write vb }

variable {s}

lemma getAccount_of_find (h : s.accounts.find a = some acc) : s.getAccount a = .ok acc := by
  rw [getAccount, h]

lemma getStats_of_find (h : s.stats.find a = some st) : s.getAccountStatsByOwner a = .ok st := by
  rw [getAccountStatsByOwner, h]

lemma getVestingBalance_of_find {v : Nat} (h : s.vestingBalances.find v = some vb) :
    s.getVestingBalance v = .ok vb := by
  rw [getVestingBalance, h]

/-- Insert a balance into the index by flag, behind those with the same flag. -/
def place (b : AccountBalance) (l : List AccountBalance) : List AccountBalance :=
  l.orderedInsert (fun x y => x.maintenanceFlag < y.maintenanceFlag) b

/-- A modified balance takes the place of the old one, or moves if its flag has changed. -/
def replaceBalance (b b' : AccountBalance) (l : List AccountBalance) : List AccountBalance :=
  if b'.maintenanceFlag = b.maintenanceFlag then l.map fun c => if c.key = b.key then b' else c
  else place b' (l.filter fun c => c.key ≠ b.key)

def findBalance (s : AccountsState) (owner : AccountId) (a : AssetId) : Option AccountBalance :=
  s.balances.find? fun b => b.key = (owner, a)

def getBalance (s : AccountsState) (owner : AccountId) (a : AssetId) : Int :=
  match s.findBalance owner a with
  | some b => b.balance
  | none => 0

end AccountsState

/-! ## What holds between the objects -/

open AccountsState

structure WellFormed (s : AccountsState) : Prop where
  names : ∀ x ∈ s.stats.objects, ∀ y ∈ s.stats.objects, x.name = y.name → x.owner = y.owner
  account : ∀ {a st}, s.stats.find a = some st → ∃ acc, s.accounts.find a = some acc
  statistics : ∀ {a acc}, s.accounts.find a = some acc → ∃ st, s.stats.find a = some st
  linked : ∀ {a acc}, s.accounts.find a = some acc → ∀ b ∈ acc.links,
    ∃ acc', s.accounts.find b = some acc'
  vested : ∀ {a acc v}, s.accounts.find a = some acc → acc.cashbackVb = some v →
    ∃ vb, s.vestingBalances.find v = some vb ∧ vb.balance.assetId = 0
  owners : ∀ b ∈ s.balances, ∃ st, s.stats.find b.owner = some st
  core : ∀ b ∈ s.balances, b.maintenanceFlag = true → b.assetType = 0
  single : s.balances.Pairwise fun b c => b.key ≠ c.key
  ordered : s.balances.Pairwise fun b c => b.maintenanceFlag ≤ c.maintenanceFlag

structure AccountsDb extends AccountsState where
  wellFormed : WellFormed toAccountsState

variable {s : AccountsState} {st' : AccountStats}

lemma WellFormed.link (h : WellFormed s) {b : AccountId} (hacc : s.accounts.find a = some acc)
    (hb : b ∈ acc.links) : ∃ acc', s.accounts.find b = some acc' ∧ s.getAccount b = .ok acc' := by
  obtain ⟨acc', hacc'⟩ := h.linked hacc b hb
  exact ⟨acc', hacc', getAccount_of_find hacc'⟩

lemma WellFormed.congr {s' : AccountsState} (h : WellFormed s) (haccs : s'.accounts = s.accounts)
    (hsts : s'.stats = s.stats) (hbals : s'.balances = s.balances)
    (hves : s'.vestingBalances = s.vestingBalances) : WellFormed s' := by
  obtain ⟨h1, h2, h3, h4, h5, h6, h7, h8, h9⟩ := h
  constructor
  · rw [hsts]; exact h1
  · rw [hsts, haccs]; exact h2
  · rw [hsts, haccs]; exact h3
  · rw [haccs]; exact h4
  · rw [haccs, hves]; exact h5
  · rw [hsts, hbals]; exact h6
  · rw [hbals]; exact h7
  · rw [hbals]; exact h8
  · rw [hbals]; exact h9

section

lemma find_putStats :
    (s.putStats st).stats.find a = if a = st.owner then some st else s.stats.find a :=
  find_put _ _ _

lemma find_putAccount :
    (s.putAccount acc).accounts.find a = if a = acc.id then some acc else s.accounts.find a :=
  find_put _ _ _

lemma find_putVestingBalance {v : Nat} : (s.putVestingBalance vb).vestingBalances.find v =
      if v = vb.id then some vb else s.vestingBalances.find v :=
  find_put _ _ _

variable (h : WellFormed s)
include h

lemma WellFormed.putStats (hst : s.stats.find a = some st)
    (hown : st'.owner = st.owner) (hname : st'.name = st.name) : WellFormed (s.putStats st') := by
  have hkey : st.owner = a := key_of_find hst
  have hsts : ∀ b, (∃ x, (s.putStats st').stats.find b = some x) ↔ ∃ x, s.stats.find b = some x := by
    intro b
    rw [find_putStats]
    split
    next hb =>
      rw [hb, hown, hkey, hst]
      simp
    next => rfl
  -- the name of the new statistics is that of the old ones
  have hold : ∀ x ∈ (s.putStats st').stats.objects,
      ∃ y ∈ s.stats.objects, y.name = x.name ∧ y.owner = x.owner := by
    intro x hx
    rcases mem_put hx with rfl | hx
    · exact ⟨st, mem_of_find hst, hname.symm, hown.symm⟩
    · exact ⟨x, hx, rfl, rfl⟩
  constructor
  · intro x hx y hy hxy
    obtain ⟨x', hx', hxname, hxow⟩ := hold x hx
    obtain ⟨y', hy', hyname, hyow⟩ := hold y hy
    rw [← hxow, ← hyow]
    exact h.names x' hx' y' hy' (hxname.trans (hxy.trans hyname.symm))
  · intro b x hx
    obtain ⟨x', hx'⟩ := (hsts b).1 ⟨x, hx⟩
    exact h.account hx'
  · intro b acc hacc
    exact (hsts b).2 (h.statistics hacc)
  · exact h.linked
  · exact h.vested
  · intro b hb
    exact (hsts b.owner).2 (h.owners b hb)
  · exact h.core
  · exact h.single
  · exact h.ordered

lemma WellFormed.putAccount {acc' : Account}
    (hacc : s.accounts.find a = some acc) (hid : acc'.id = acc.id)
    (hlnk : ∀ b ∈ acc'.links, ∃ x, s.accounts.find b = some x)
    (hve : ∀ v, acc'.cashbackVb = some v →
      ∃ vb, s.vestingBalances.find v = some vb ∧ vb.balance.assetId = 0) :
    WellFormed (s.putAccount acc') := by
  have hkey : acc.id = a := key_of_find hacc
  have haccs : ∀ b, (∃ x, (s.putAccount acc').accounts.find b = some x) ↔
      ∃ x, s.accounts.find b = some x := by
    intro b
    rw [find_putAccount]
    split
    next hb =>
      rw [hb, hid, hkey, hacc]
      simp
    next => rfl
  have hcases : ∀ {b x}, (s.putAccount acc').accounts.find b = some x →
      x = acc' ∨ s.accounts.find b = some x := by
    intro b x hx
    rw [find_putAccount] at hx
    split at hx
    · cases hx
      exact Or.inl rfl
    · exact Or.inr hx
  constructor
  · exact h.names
  · intro b st hst
    exact (haccs b).2 (h.account hst)
  · intro b x hx
    obtain ⟨x', hx'⟩ := (haccs b).1 ⟨x, hx⟩
    exact h.statistics hx'
  · intro b x hx c hc
    refine (haccs c).2 ?_
    rcases hcases hx with rfl | hx
    · exact hlnk c hc
    · exact h.linked hx c hc
  · intro b x v hx hv
    rcases hcases hx with rfl | hx
    · exact hve v hv
    · exact h.vested hx hv
  · exact h.owners
  · exact h.core
  · exact h.single
  · exact h.ordered

lemma WellFormed.putVestingBalance (hcore : vb.balance.assetId = 0) :
    WellFormed (s.putVestingBalance vb) := by
  refine ⟨h.names, h.account, h.statistics, h.linked, ?_, h.owners, h.core, h.single, h.ordered⟩
  intro b acc v hacc hv
  rw [find_putVestingBalance]
  split
  next => exact ⟨vb, rfl, hcore⟩
  next => exact h.vested hacc hv

end

/-! ## The index of balances -/

section

variable {b b' : AccountBalance} {l : List AccountBalance}

lemma perm_place : (place b l).Perm (b :: l) := perm_orderedInsert _ b l

lemma ordered_place (h : l.Pairwise fun x y => x.maintenanceFlag ≤ y.maintenanceFlag) :
    (place b l).Pairwise fun x y => x.maintenanceFlag ≤ y.maintenanceFlag := by
  induction l with
  | nil => exact pairwise_singleton _ b
  | cons c l ih =>
    obtain ⟨hc, hl⟩ := pairwise_cons.1 h
    by_cases hlt : b.maintenanceFlag < c.maintenanceFlag
    · -- the new balance comes first
      have heq : place b (c :: l) = b :: c :: l := by
        simp [AccountsState.place, List.orderedInsert, hlt]
      rw [heq, pairwise_cons]
      refine ⟨fun x hx => ?_, h⟩
      rcases mem_cons.1 hx with rfl | hx
      · exact hlt.le
      · exact hlt.le.trans (hc x hx)
    · have heq : place b (c :: l) = c :: place b l := by
        simp [AccountsState.place, List.orderedInsert, hlt]
      rw [heq, pairwise_cons]
      refine ⟨fun x hx => ?_, ih hl⟩
      rcases mem_cons.1 (perm_place.subset hx) with rfl | hx
      · exact not_lt.1 hlt
      · exact hc x hx

lemma eq_of_key (hsin : l.Pairwise fun x y => x.key ≠ y.key) (hb : b ∈ l) (hb' : b' ∈ l)
    (hkey : b.key = b'.key) : b = b' :=
  inj_on_of_nodup_map (pairwise_map.2 hsin) hb hb' hkey

lemma mem_replaceBalance {x : AccountBalance} (h : x ∈ replaceBalance b b' l) :
    x = b' ∨ x ∈ l ∧ x.key ≠ b.key := by
  unfold replaceBalance at h
  split at h
  · obtain ⟨c, hc, hx⟩ := mem_map.1 h
    split at hx
    · exact Or.inl hx.symm
    · subst hx
      exact Or.inr ⟨hc, by assumption⟩
  · rcases mem_cons.1 (perm_place.subset h) with rfl | hx
    · exact Or.inl rfl
    · obtain ⟨hx, hkey⟩ := mem_filter.1 hx
      exact Or.inr ⟨hx, by simpa using hkey⟩

lemma single_replaceBalance (hkey : b'.key = b.key) (h : l.Pairwise fun x y => x.key ≠ y.key) :
    (replaceBalance b b' l).Pairwise fun x y => x.key ≠ y.key := by
  unfold replaceBalance
  split
  · -- in place the keys do not change
    have hsame : ∀ c : AccountBalance, (if c.key = b.key then b' else c).key = c.key := by
      intro c
      split
      next hc => rw [hkey, hc]
      next => rfl
    refine pairwise_map.2 (h.imp fun {x y} hxy => ?_)
    rwa [hsame, hsame]
  · refine (perm_place.pairwise_iff fun {x y} hxy => hxy.symm).2 (pairwise_cons.2 ⟨?_, h.filter _⟩)
    intro c hc
    have := (mem_filter.1 hc).2
    rw [hkey]
    exact fun heq => (by simpa using this : c.key ≠ b.key) heq.symm

lemma ordered_replaceBalance (hb : b ∈ l) (hsin : l.Pairwise fun x y => x.key ≠ y.key)
    (h : l.Pairwise fun x y => x.maintenanceFlag ≤ y.maintenanceFlag) :
    (replaceBalance b b' l).Pairwise fun x y => x.maintenanceFlag ≤ y.maintenanceFlag := by
  unfold replaceBalance
  split
  next hflag =>
    have hsame : ∀ c ∈ l, (if c.key = b.key then b' else c).maintenanceFlag = c.maintenanceFlag := by
      intro c hc
      split
      next hkey => rw [eq_of_key hsin hc hb hkey, hflag]
      next => rfl
    refine pairwise_map.2 (h.imp_of_mem fun {x y} hx hy hxy => ?_)
    rwa [hsame x hx, hsame y hy]
  next => exact ordered_place (h.filter _)

end

lemma WellFormed.replaceBalance {b b' : AccountBalance} (h : WellFormed s) (hb : b ∈ s.balances)
    (hkey : b'.key = b.key) (hcore : b'.maintenanceFlag = true → b'.assetType = 0) :
    WellFormed { s with balances := AccountsState.replaceBalance b b' s.balances } := by
  refine ⟨h.names, h.account, h.statistics, h.linked, h.vested, ?_, ?_,
    single_replaceBalance hkey h.single, ordered_replaceBalance hb h.single h.ordered⟩
  · intro c hc
    rcases mem_replaceBalance hc with rfl | ⟨hc, -⟩
    · rw [show c.owner = b.owner from congrArg Prod.fst hkey]
      exact h.owners b hb
    · exact h.owners c hc
  · intro c hc hflag
    rcases mem_replaceBalance hc with rfl | ⟨hc, -⟩
    · exact hcore hflag
    · exact h.core c hc hflag

/-! ## What other accounts see -/

/-- The voting power changes, and a cashback balance may appear; the rest stays. -/
def AccountStats.Evolves (st st' : AccountStats) : Prop :=
  st' = { st with power := st'.power, hasCashbackVb := st'.hasCashbackVb } ∧
    (st.hasCashbackVb = true → st'.hasCashbackVb = true)

namespace AccountStats.Evolves

variable {st'' : AccountStats}

lemma refl (st : AccountStats) : st.Evolves st := ⟨rfl, id⟩

variable (h : st.Evolves st')
include h

lemma trans (h' : st'.Evolves st'') : st.Evolves st'' := by
  refine ⟨?_, h'.2 ∘ h.2⟩
  rw [h'.1, h.1]

lemma owner_eq : st'.owner = st.owner := by
  rw [h.1]

lemma name_eq : st'.name = st.name := by
  rw [h.1]

lemma coreInBalance_eq : st'.coreInBalance = st.coreInBalance := by
  rw [h.1]

lemma hasPendingFees_eq : st'.hasPendingFees = st.hasPendingFees := by
  rw [h.1]
  rfl

lemma hasSomeCoreVoting (hst : st.hasSomeCoreVoting = true) : st'.hasSomeCoreVoting = true := by
  rw [h.1]
  simp only [AccountStats.hasSomeCoreVoting, Bool.and_eq_true, Bool.or_eq_true] at hst ⊢
  obtain ⟨hvot, ((hord | hbal) | hcas) | hpol⟩ := hst
  · exact ⟨hvot, .inl (.inl (.inl hord))⟩
  · exact ⟨hvot, .inl (.inl (.inr hbal))⟩
  · exact ⟨hvot, .inl (.inr (h.2 hcas))⟩
  · exact ⟨hvot, .inr hpol⟩

end AccountStats.Evolves

lemma AccountStats.Evolves.needMaintenance (h : st.Evolves st') (hst : st.needMaintenance = true) :
    st'.needMaintenance = true := by
  rcases Bool.or_eq_true_iff.1 hst with hvot | hfees
  · exact Bool.or_eq_true_iff.2 (.inl (h.hasSomeCoreVoting hvot))
  · exact Bool.or_eq_true_iff.2 (.inr (h.hasPendingFees_eq.trans hfees))

lemma exists_of_rel {o o' : Option AccountStats} (h : Option.Rel AccountStats.Evolves o o')
    (ho : o = some st) : ∃ st', o' = some st' ∧ st.Evolves st' := by
  cases h with
  | none => cases ho
  | some hev =>
    cases ho
    exact ⟨_, rfl, hev⟩

structure Evolves (s s' : AccountsState) : Prop where
  balances : s'.balances = s.balances
  stats : ∀ a, Option.Rel AccountStats.Evolves (s.stats.find a) (s'.stats.find a)

namespace Evolves

variable {s' s'' : AccountsState}

lemma of_eq (hbals : s'.balances = s.balances) (hsts : s'.stats = s.stats) : Evolves s s' := by
  refine ⟨hbals, fun a => ?_⟩
  rw [hsts]
  cases s.stats.find a with
  | none => exact .none
  | some st => exact .some (.refl st)

lemma refl (s : AccountsState) : Evolves s s := of_eq rfl rfl

lemma find (h : Evolves s s') (hst : s.stats.find a = some st) :
    ∃ st', s'.stats.find a = some st' ∧ st.Evolves st' :=
  exists_of_rel (h.stats a) hst

lemma find_none (h : Evolves s s') (hst : s.stats.find a = none) : s'.stats.find a = none := by
  have hrel := h.stats a
  rw [hst] at hrel
  generalize s'.stats.find a = o at hrel
  cases hrel
  rfl

lemma trans (h : Evolves s s') (h' : Evolves s' s'') : Evolves s s'' := by
  refine ⟨h'.balances.trans h.balances, fun a => ?_⟩
  cases hst : s.stats.find a with
  | none =>
    rw [h'.find_none (h.find_none hst)]
    exact .none
  | some st =>
    obtain ⟨st', hst', hev⟩ := h.find hst
    obtain ⟨st'', hst'', hev'⟩ := h'.find hst'
    rw [hst'']
    exact .some (hev.trans hev')

lemma putStats (hst : s.stats.find a = some st) (h : st.Evolves st') :
    Evolves s (s.putStats st') := by
  have hown : st'.owner = a := h.owner_eq.trans (key_of_find hst)
  refine ⟨rfl, fun b => ?_⟩
  rw [find_putStats, hown]
  split
  next hb =>
    rw [hb, hst]
    exact .some h
  next => exact (of_eq rfl rfl : Evolves s s).stats b

end Evolves

end Graphene.Maintenance
