import Graphene.Maintenance.AccountState

/-!
# The vote tally

`vote_tally_helper` of the chain maintenance: the voting stake of an account from its balances and
tickets, its decay since the last vote, and the votes that it adds to the buffers.  Stakes are counted in
64 bits without a sign, products in 128.
-/

namespace Graphene.Maintenance

open Accounts AccountsState Lib Protocol Keyed Evolves

/-- An `int64_t` as a `uint64_t`. -/
def toUint64 (x : Int) : Nat :=
  (x % 2 ^ 64).toNat

def subUint64 (x y : Nat) : Nat :=
  (x + 2 ^ 64 - y) % 2 ^ 64

def subUint128 (x y : Nat) : Nat :=
  (x + 2 ^ 128 - y) % 2 ^ 128

structure VoteRecalcTimes where
  fullPowerTime : Nat
  zeroPowerTime : Nat

structure VoteRecalcOptions where
  fullPowerSeconds : Nat
  recalcSteps : Nat
  secondsPerStep : Nat

namespace VoteRecalcOptions

variable (o : VoteRecalcOptions)

def totalRecalcSeconds : Nat :=
  (o.recalcSteps - 1) * o.secondsPerStep % 2 ^ 32

def powerPercentsToSubtract : List Nat :=
  (List.range' 1 (o.recalcSteps - 1)).map fun i =>
    graphene100Percent * i % 2 ^ 32 / o.recalcSteps % 2 ^ 16

/-- `get_vote_recalc_times`; the times are computed in 32 bits. -/
def getVoteRecalcTimes (now : Nat) : VoteRecalcTimes :=
  let fullPowerTime := (now + 2 ^ 32 - o.fullPowerSeconds) % 2 ^ 32
  ⟨fullPowerTime, (fullPowerTime + 2 ^ 32 - o.totalRecalcSeconds) % 2 ^ 32⟩

def getRecalcedVotingStake (stake lastVoteTime : Nat) (times : VoteRecalcTimes) : Nat :=
  if times.fullPowerTime < lastVoteTime then stake
  else if lastVoteTime ≤ times.zeroPowerTime then 0
  else
    let diff := times.fullPowerTime - lastVoteTime
    let stepsToSubtractMinus1 := diff / o.secondsPerStep
    let percent := o.powerPercentsToSubtract.getD stepsToSubtractMinus1 0
    let stakeToSubtract := stake * percent % 2 ^ 128 / graphene100Percent
    subUint64 stake (stakeToSubtract % 2 ^ 64)

def witness : VoteRecalcOptions := ⟨360 * 86400, 8, 45 * 86400⟩

def committee : VoteRecalcOptions := ⟨360 * 86400, 8, 45 * 86400⟩

def worker : VoteRecalcOptions := ⟨360 * 86400, 8, 45 * 86400⟩

def delegator : VoteRecalcOptions := ⟨360 * 86400, 8, 45 * 86400⟩

def recalced (now stake lastVoteTime : Nat) : Nat :=
  o.getRecalcedVotingStake stake lastVoteTime (o.getVoteRecalcTimes now)

/-- Options for which neither the table nor the total overflows. -/
structure Sensible : Prop where
  steps : 2 ≤ o.recalcSteps
  step : 1 ≤ o.secondsPerStep
  percents : graphene100Percent * (o.recalcSteps - 1) < 2 ^ 32
  total : (o.recalcSteps - 1) * o.secondsPerStep < 2 ^ 32

/-- The percentage that is subtracted when the full power ended `diff` seconds after the vote. -/
def lostPercent (diff : Nat) : Nat :=
  graphene100Percent * (diff / o.secondsPerStep + 1) / o.recalcSteps

variable {o}

lemma lostPercent_mono {d d' : Nat} (h : d ≤ d') : o.lostPercent d ≤ o.lostPercent d' :=
  Nat.div_le_div_right (Nat.mul_le_mul_left _ (Nat.succ_le_succ (Nat.div_le_div_right h)))

lemma percentage_le {p : Nat} (hp : p ≤ graphene100Percent) (x : Nat) : x * p / graphene100Percent ≤ x := by
  rw [Nat.mul_comm]
  exact Nat.div_le_of_le_mul (Nat.mul_le_mul_right x hp)

lemma sub_percentage_mono {x y p : Nat} (hp : p ≤ graphene100Percent) (hxy : x ≤ y) :
    x - x * p / graphene100Percent ≤ y - y * p / graphene100Percent := by
  have hx := percentage_le hp x
  have hle : y * p / graphene100Percent ≤ x * p / graphene100Percent + (y - x) := by
    rw [← Nat.add_mul_div_right _ _ (by decide)]
    refine Nat.div_le_div_right ?_
    calc y * p = x * p + (y - x) * p := by rw [← Nat.add_mul, Nat.add_sub_cancel' hxy]
      _ ≤ x * p + (y - x) * graphene100Percent := Nat.add_le_add_left (Nat.mul_le_mul_left _ hp) _
  omega

namespace Sensible

variable (h : o.Sensible) {now stake diff last : Nat}

include h

section

variable (hdiff : diff < o.totalRecalcSeconds)
include hdiff

lemma index_lt : diff / o.secondsPerStep < o.recalcSteps - 1 := by
  rw [totalRecalcSeconds, Nat.mod_eq_of_lt h.total, Nat.mul_comm] at hdiff
  exact Nat.div_lt_of_lt_mul hdiff

lemma lostPercent_le : o.lostPercent diff ≤ graphene100Percent := by
  have hi := h.index_lt hdiff
  unfold lostPercent
  rw [Nat.mul_comm]
  exact Nat.div_le_of_le_mul (Nat.mul_le_mul_right _ (by omega))

lemma getD_powerPercents :
    o.powerPercentsToSubtract.getD (diff / o.secondsPerStep) 0 = o.lostPercent diff := by
  have hi := h.index_lt hdiff
  have hmul : graphene100Percent * (diff / o.secondsPerStep + 1) < 2 ^ 32 :=
    (Nat.mul_le_mul_left _ hi).trans_lt h.percents
  simp only [powerPercentsToSubtract, List.getD, List.getElem?_map, List.getElem?_range' hi,
    Option.map_some, Option.getD_some, Nat.add_comm 1, Nat.one_mul]
  rw [Nat.mod_eq_of_lt hmul]
  exact Nat.mod_eq_of_lt ((h.lostPercent_le hdiff).trans_lt (by decide))

end

lemma recalced_eq (hnow : o.fullPowerSeconds + o.totalRecalcSeconds ≤ now) (hclock : now < 2 ^ 32)
    (hstake : stake < 2 ^ 64) : o.recalced now stake last =
      if now - o.fullPowerSeconds < last then stake
      else if last + o.totalRecalcSeconds ≤ now - o.fullPowerSeconds then 0
      else stake - stake * o.lostPercent (now - o.fullPowerSeconds - last) / graphene100Percent := by
  have hfull : (now + 2 ^ 32 - o.fullPowerSeconds) % 2 ^ 32 = now - o.fullPowerSeconds := by omega
  have hzero : (now - o.fullPowerSeconds + 2 ^ 32 - o.totalRecalcSeconds) % 2 ^ 32
      = now - o.fullPowerSeconds - o.totalRecalcSeconds := by omega
  simp only [recalced, getRecalcedVotingStake, getVoteRecalcTimes, hfull, hzero]
  refine if_ctx_congr .rfl (fun _ => rfl) fun hpast => if_ctx_congr (by omega) (fun _ => rfl) fun hlast => ?_
  have hdiff : now - o.fullPowerSeconds - last < o.totalRecalcSeconds := by omega
  have hlost := percentage_le (h.lostPercent_le hdiff) stake
  have hmul := Nat.mul_le_mul hstake.le (h.lostPercent_le hdiff)
  rw [h.getD_powerPercents hdiff, Nat.mod_eq_of_lt (hmul.trans_lt (by decide)), subUint64,
    Nat.mod_eq_of_lt (hlost.trans_lt hstake)]
  generalize stake * _ / graphene100Percent = lost at hlost ⊢
  omega

end Sensible

/-- The table is read within its bounds, and the recalculated stake is at most the stake.  It does not
decrease with a later vote or a greater stake. -/
theorem recalced_stake_monotone (h : o.Sensible) {now : Nat}
    (hnow : o.fullPowerSeconds + o.totalRecalcSeconds ≤ now) (hclock : now < 2 ^ 32)
    {stake stake' last last' : Nat} (hstake : stake ≤ stake') (hfits : stake' < 2 ^ 64)
    (hlast : last ≤ last') :
    let times := o.getVoteRecalcTimes now
    (times.zeroPowerTime < last → last ≤ times.fullPowerTime →
      (times.fullPowerTime - last) / o.secondsPerStep < o.powerPercentsToSubtract.length) ∧
    o.recalced now stake last ≤ stake ∧ o.recalced now stake last ≤ o.recalced now stake last' ∧
      o.recalced now stake last ≤ o.recalced now stake' last := by
  have hfull : (now + 2 ^ 32 - o.fullPowerSeconds) % 2 ^ 32 = now - o.fullPowerSeconds := by omega
  refine ⟨fun hzero hle => ?_, ?_⟩
  · simp only [getVoteRecalcTimes, powerPercentsToSubtract, List.length_map, List.length_range']
      at hzero hle ⊢
    exact h.index_lt (by omega)
  simp only [h.recalced_eq hnow hclock (hstake.trans_lt hfits), h.recalced_eq hnow hclock hfits]
  refine ⟨?_, ?_, ?_⟩
  · split_ifs
    exacts [le_rfl, Nat.zero_le _, Nat.sub_le _ _]
  · -- a later vote is nearer to the full power, or has it
    split_ifs
    any_goals omega
    · exact Nat.sub_le _ _
    · refine Nat.sub_le_sub_left (Nat.div_le_div_right (Nat.mul_le_mul_left _ ?_)) _
      exact lostPercent_mono (Nat.sub_le_sub_left hlast _)
  · split_ifs
    · exact hstake
    · exact le_rfl
    · exact sub_percentage_mono (h.lostPercent_le (by omega)) hstake

/-- Half of the power is left of a vote that was given 140 days before the full power ended. -/
theorem recalced_stake_monotone_half :
    witness.recalced (800 * 86400) 1000 (300 * 86400) = 500 ∧
      witness.recalced (800 * 86400) 1000 (300 * 86400) ≤ 1000 :=
  ⟨by decide, (recalced_stake_monotone ⟨by decide, by decide, by decide, by decide⟩ (by decide)
    (by decide) (le_refl 1000) (by decide) (le_refl _)).2.1⟩

end VoteRecalcOptions

/-! ## Stake -/

def addTicketStake (stake polAmount polValue pobAmount pobValue : Nat) : Nat :=
  if pobAmount = 0 then (stake + polValue) % 2 ^ 64
  else if polAmount = 0 then
    if pobAmount ≤ stake then (stake + subUint64 pobValue pobAmount) % 2 ^ 64
    else stake * pobValue % 2 ^ 128 / pobAmount % 2 ^ 64
  else if pobAmount ≤ polAmount then
    let baseValue := pobValue * polValue % 2 ^ 128 / polAmount
    let diffValue := pobAmount * polValue % 2 ^ 128 / polAmount
    let baseValue := (baseValue + subUint128 polValue diffValue) % 2 ^ 128
    (stake + baseValue % 2 ^ 64) % 2 ^ 64
  else
    let baseValue := polValue * pobValue % 2 ^ 128 / pobAmount
    let diffAmount := subUint64 pobAmount polAmount
    if diffAmount ≤ stake then
      let diffValue := polAmount * pobValue % 2 ^ 128 / pobAmount
      let baseValue := (baseValue + subUint128 pobValue diffValue) % 2 ^ 128
      (stake + subUint128 baseValue diffAmount % 2 ^ 64) % 2 ^ 64
    else (baseValue + stake * pobValue % 2 ^ 128 / pobAmount) % 2 ^ 128 % 2 ^ 64

structure MaintenanceProps where
  headBlockTime : Nat
  hf2103Passed : Bool
  hf2262Passed : Bool
  totalPob : Int
  totalInactive : Int
  countNonMemberVotes : Bool
  maximumWitnessCount : Nat
  maximumCommitteeCount : Nat
  cashbackVestingPeriodSeconds : Nat

def grapheneProxyToSelfAccount : AccountId := 5

/-- The stakes of a tally, as they are added to the buffers, and the voting power. -/
structure TalliedStake where
  committee : Nat
  witness : Nat
  worker : Nat
  numCommittee : Nat
  power : VotingPower

namespace TalliedStake

/-- The stake for a type of vote; types above the last one count as the last. -/
def ofType (t : TalliedStake) (type : Nat) : Nat :=
  match type with
  | 0 => t.committee
  | 1 => t.witness
  | _ => t.worker

def updatePower (t : TalliedStake) (now : Nat) (power : VotingPower) : VotingPower :=
  if power.voteTallyTime ≠ now then { t.power with voteTallyTime := now }
  else
    { vpAll := (power.vpAll + t.power.vpAll) % 2 ^ 64
      vpActive := (power.vpActive + t.power.vpActive) % 2 ^ 64
      vpCommittee := (power.vpCommittee + t.power.vpCommittee) % 2 ^ 64
      vpWitness := (power.vpWitness + t.power.vpWitness) % 2 ^ 64
      vpWorker := (power.vpWorker + t.power.vpWorker) % 2 ^ 64
      voteTallyTime := power.voteTallyTime }

def addVotes (t : TalliedStake) (votes : List VoteId) (buffer : List Nat) : List Nat :=
  votes.foldl (fun buffer id =>
    if id.offset < buffer.length
    then buffer.modify id.offset fun x => (x + t.ofType id.type) % 2 ^ 64
    else buffer) buffer

/-- Add an opinion about a number to a histogram, unless it is greater than the maximum. -/
def addOpinion (stake number maximum : Nat) (histogram : List Nat) : List Nat :=
  if 0 < stake ∧ number ≤ maximum
  then histogram.modify (number / 2) fun x => (x + stake) % 2 ^ 64
  else histogram

end TalliedStake

variable {t : TalliedStake} {opinion : Account} {opinionStats : AccountStats}

namespace MaintenanceProps

variable (p : MaintenanceProps) (s : AccountsState)

def pobActivated : Bool :=
  0 < p.totalPob || 0 < p.totalInactive

def cashbackStake (acc : Account) : Except AccountError Nat :=
  match p.hf2262Passed, acc.cashbackVb with
  | false, some v => do
    let vb ← s.getVestingBalance v
    return toUint64 vb.balance.amount
  | _, _ => .ok 0

def votingStake (acc : Account) (st : AccountStats) : Except AccountError Nat := do
  let inOrders := if p.pobActivated then 0 else toUint64 st.totalCoreInOrders
  let cashback ← p.cashbackStake s acc
  let inBalance := if p.hf2262Passed then 0 else toUint64 st.coreInBalance
  return addTicketStake ((inOrders + cashback + inBalance) % 2 ^ 64) (toUint64 st.totalCorePol)
    (toUint64 st.totalPolValue) (toUint64 st.totalCorePob) (toUint64 st.totalPobValue)

/-- Recalculate the stake; `st` belongs to the account with the stake, `opinionStats` to the one that
states the opinion. -/
def recalculate (directlyVoting : Bool) (stake : Nat) (st opinionStats : AccountStats)
    (opinion : Account) : TalliedStake :=
  if !p.hf2103Passed then
    { committee := stake, witness := stake, worker := stake, numCommittee := stake
      power := { vpAll := stake, vpActive := stake, vpCommittee := stake, vpWitness := stake,
                 vpWorker := stake } }
  else
    let now := p.headBlockTime
    let active := if directlyVoting then stake
      else VoteRecalcOptions.delegator.recalced now stake st.lastVoteTime
    let witness := VoteRecalcOptions.witness.recalced now active opinionStats.lastVoteTime
    let committee := VoteRecalcOptions.committee.recalced now active opinionStats.lastVoteTime
    let worker := VoteRecalcOptions.worker.recalced now active opinionStats.lastVoteTime
    { committee := if 1 < opinion.numCommitteeVoted then committee / opinion.numCommitteeVoted
        else committee
      witness := witness
      worker := worker
      numCommittee := committee
      power := { vpAll := stake, vpActive := active, vpCommittee := committee, vpWitness := witness,
                 vpWorker := worker } }

def castVotes (t : TalliedStake) (opinion : Account) (opinionStats : AccountStats) :
    AccountsState :=
  let s := s.putStats
    { opinionStats with power := t.updatePower p.headBlockTime opinionStats.power }
  { s with
    voteTallyBuffer := t.addVotes opinion.votes s.voteTallyBuffer
    witnessCountHistogramBuffer := TalliedStake.addOpinion t.witness opinion.numWitness
      p.maximumWitnessCount s.witnessCountHistogramBuffer
    committeeCountHistogramBuffer := TalliedStake.addOpinion t.numCommittee opinion.numCommittee
      p.maximumCommitteeCount s.committeeCountHistogramBuffer
    totalCommitteeVotingStake := (s.totalCommitteeVotingStake + t.numCommittee) % 2 ^ 64
    totalWitnessVotingStake := (s.totalWitnessVotingStake + t.witness) % 2 ^ 64 }

def opinionAccount (acc : Account) : Except AccountError Account :=
  if acc.votingAccount = grapheneProxyToSelfAccount then .ok acc
  else s.getAccount acc.votingAccount

def opinionStatistics (acc : Account) (st : AccountStats) (opinion : Account) : Except AccountError
    AccountStats :=
  if acc.votingAccount = grapheneProxyToSelfAccount then .ok st
  else s.getAccountStatsByOwner opinion.id

/-- `vote_tally_helper`, for an account with its statistics. -/
def tally (acc : Account) (st : AccountStats) : Except AccountError AccountsState :=
  if p.pobActivated && st.totalCorePob = 0 && st.totalCoreInactive = 0 then .ok s
  else if p.countNonMemberVotes || acc.isMember p.headBlockTime then do
    let opinion ← opinionAccount s acc
    let stake ← p.votingStake s acc st
    -- the shortcut
    if stake = 0 then .ok s
    else do
      let opinionStats ← opinionStatistics s acc st opinion
      let directlyVoting := decide (acc.votingAccount = grapheneProxyToSelfAccount)
      let t := p.recalculate directlyVoting stake st opinionStats opinion
      .ok (p.castVotes s t opinion opinionStats)
  else .ok s

variable {p s} {a : AccountId} {acc : Account} {st : AccountStats}

lemma exists_votingStake (st : AccountStats) (h : WellFormed s) (hacc : s.accounts.find a = some acc) :
    ∃ stake, p.votingStake s acc st = .ok stake := by
  obtain ⟨cashback, hcas⟩ : ∃ x, p.cashbackStake s acc = .ok x := by
    unfold cashbackStake
    split
    next v hv =>
      obtain ⟨vb, hvb, -⟩ := h.vested hacc hv
      exact ⟨_, by rw [getVestingBalance_of_find hvb, ok_bind]; rfl⟩
    next => exact ⟨0, rfl⟩
  exact ⟨_, by rw [votingStake, hcas, ok_bind]; rfl⟩

lemma exists_opinion (h : WellFormed s) (hacc : s.accounts.find a = some acc)
    (hst : s.stats.find a = some st) : ∃ opinion opinionStats, opinionAccount s acc = .ok opinion ∧
      opinionStatistics s acc st opinion = .ok opinionStats ∧
      s.stats.find opinionStats.owner = some opinionStats := by
  unfold opinionAccount opinionStatistics
  split
  · exact ⟨acc, st, rfl, rfl, (key_of_find hst).symm ▸ hst⟩
  · obtain ⟨opinion, hopi, hget⟩ := h.link hacc (by simp [Account.links] :
      acc.votingAccount ∈ acc.links)
    obtain ⟨opinionStats, hsts⟩ := h.statistics hopi
    have hid : opinion.id = acc.votingAccount := key_of_find hopi
    refine ⟨opinion, opinionStats, hget, ?_, (key_of_find hsts).symm ▸ hsts⟩
    rw [hid, getStats_of_find hsts]

lemma castVotes_evolves (hsts : s.stats.find opinionStats.owner = some opinionStats) :
    Evolves s (p.castVotes s t opinion opinionStats) := by
  have hpower : opinionStats.Evolves
      { opinionStats with power := t.updatePower p.headBlockTime opinionStats.power } := ⟨rfl, id⟩
  exact (putStats hsts hpower).trans (of_eq rfl rfl)

lemma castVotes_wellFormed (h : WellFormed s)
    (hsts : s.stats.find opinionStats.owner = some opinionStats) :
    WellFormed (p.castVotes s t opinion opinionStats) := by
  have hput : WellFormed (s.putStats
      { opinionStats with power := t.updatePower p.headBlockTime opinionStats.power }) :=
    h.putStats hsts rfl rfl
  exact hput.congr rfl rfl rfl rfl

lemma exists_tally (h : WellFormed s) (hacc : s.accounts.find a = some acc)
    (hst : s.stats.find a = some st) :
    ∃ s', p.tally s acc st = .ok s' ∧ Evolves s s' ∧ WellFormed s' := by
  unfold tally
  split
  · exact ⟨s, rfl, refl s, h⟩
  split
  · obtain ⟨opinion, opinionStats, hopi, hget, hsts⟩ := exists_opinion h hacc hst
    obtain ⟨stake, hstake⟩ := exists_votingStake st h hacc
    rw [hopi, ok_bind, hstake, ok_bind]
    split
    · exact ⟨s, rfl, refl s, h⟩
    · rw [hget, ok_bind]
      exact ⟨_, rfl, castVotes_evolves hsts, castVotes_wellFormed h hsts⟩
  · exact ⟨s, rfl, refl s, h⟩

end MaintenanceProps

end Graphene.Maintenance
