import Graphene.Protocol.Types

/-!
# Tickets

A ticket locks an amount of the core asset for a time and has a value for voting.  It is
charged step by step up to its target type, and withdrawn step by step; a ticket that
reaches the last type is locked forever and loses its value in four steps.  The version
of the tickets is v2.
-/

namespace Graphene.Tickets

open Protocol

inductive TicketType where
  | liquid
  | lock180Days
  | lock360Days
  | lock720Days
  | lockForever
deriving DecidableEq

variable {a : TicketType}

namespace TicketType

def rank : TicketType → Nat
  | liquid => 0
  | lock180Days => 1
  | lock360Days => 2
  | lock720Days => 3
  | lockForever => 4

/-- The next type; no ticket is charged beyond the last one. -/
def up : TicketType → TicketType
  | liquid => lock180Days
  | lock180Days => lock360Days
  | lock360Days => lock720Days
  | lock720Days => lockForever
  | lockForever => lockForever

/-- The type before; no ticket is downgraded below the first one. -/
def down : TicketType → TicketType
  | liquid => liquid
  | lock180Days => liquid
  | lock360Days => lock180Days
  | lock720Days => lock360Days
  | lockForever => lock720Days

def ofNat? : Nat → Option TicketType
  | 0 => some liquid
  | 1 => some lock180Days
  | 2 => some lock360Days
  | 3 => some lock720Days
  | 4 => some lockForever
  | _ => none

/-- `value_multiplier` of version 2. -/
def valueMultiplier : TicketType → Int
  | liquid => 0
  | lock180Days => 2
  | lock360Days => 4
  | lock720Days => 8
  | lockForever => 8

/-- `seconds_to_downgrade`, a table of three entries. -/
def secondsToDowngrade : TicketType → Nat
  | liquid => 180 * 86400
  | lock180Days => 180 * 86400
  | lock360Days => 360 * 86400
  | lock720Days => 0
  | lockForever => 0

lemma rank_injective {b : TicketType} (h : a.rank = b.rank) : a = b := by
  cases a <;> cases b <;> first | rfl | cases h

lemma rank_le_four (a : TicketType) : a.rank ≤ 4 := by
  cases a <;> decide

lemma rank_up (h : a.rank < 4) : a.up.rank = a.rank + 1 := by
  cases a <;> first | rfl | exact absurd h (by decide)

lemma rank_down (a : TicketType) : a.down.rank = a.rank - 1 := by
  cases a <;> rfl

lemma eq_liquid_of_rank (h : a.rank = 0) : a = liquid := rank_injective h

lemma down_ne_lockForever (a : TicketType) : a.down ≠ lockForever := by
  cases a <;> nofun

end TicketType

open TicketType (down_ne_lockForever eq_liquid_of_rank rank_down rank_injective rank_up)

/-! ## Tickets -/

inductive TicketStatus where
  | charging
  | stable
  | withdrawing
deriving DecidableEq

/-- `ticket_object`; the amount is of the core asset, which `validate` checks. -/
structure Ticket where
  id : Nat
  account : AccountId
  targetType : TicketType
  amount : Int
  currentType : TicketType
  status : TicketStatus
  value : Int
  nextAutoUpdateTime : Nat
  nextTypeDowngradeTime : Nat
deriving DecidableEq

def secondsPerLockForeverUpdateStep : Nat := 180 * 86400

def secondsPerChargingStep : Nat := 15 * 86400

def secondsToCancelCharging : Nat := 7 * 86400

def addSeconds (t d : Nat) : Nat :=
  (t + d) % 2 ^ 32

variable {τ : Ticket} {now : Nat} {ty : TicketType} {id : Nat} {amount : Int}

namespace Ticket

def updateValue (τ : Ticket) : Ticket :=
  if τ.currentType ≠ .lockForever
    then { τ with value := τ.amount * τ.currentType.valueMultiplier }
    else τ

def initNew (id now : Nat) (newAccount : AccountId) (newTargetType : TicketType)
    (newAmount : Int) : Ticket :=
  updateValue
    { id := id
      account := newAccount
      targetType := newTargetType
      amount := newAmount
      currentType := .liquid
      status := .charging
      value := 0
      nextAutoUpdateTime := addSeconds now secondsPerChargingStep
      nextTypeDowngradeTime := timePointSecMaximum }

/-- The branch of `update_target_type` for a higher target. -/
def chargeTo (now : Nat) (τ : Ticket) : Ticket :=
  if τ.status ≠ .charging
    then { τ with
      status := .charging
      nextAutoUpdateTime := addSeconds now secondsPerChargingStep }
    else τ

/-- The downgrade that `update_target_type` starts, unless one was started before. -/
def startDowngrade (now : Nat) (τ : Ticket) (newTargetType : TicketType) : Ticket :=
  if τ.nextTypeDowngradeTime = timePointSecMaximum then
    if τ.currentType = newTargetType
      then { τ with nextTypeDowngradeTime := addSeconds now secondsToCancelCharging }
      else { τ with
        currentType := τ.currentType.down
        nextTypeDowngradeTime := addSeconds now τ.currentType.down.secondsToDowngrade }
  else τ

/-- The branch of `update_target_type` for a target that is not higher. -/
def withdrawTo (now : Nat) (τ : Ticket) (newTargetType : TicketType) : Ticket :=
  let started := τ.startDowngrade now newTargetType
  { started with
    status := .withdrawing
    nextAutoUpdateTime := started.nextTypeDowngradeTime }

def updateTargetType (now : Nat) (τ : Ticket) (newTargetType : TicketType) : Ticket :=
  updateValue
    { (if τ.currentType.rank < newTargetType.rank
        then τ.chargeTo now else τ.withdrawTo now newTargetType) with
      targetType := newTargetType }

def initSplit (id now : Nat) (old : Ticket) (newTargetType : TicketType) (newAmount : Int) :
    Ticket :=
  updateTargetType now { old with id := id, amount := newAmount, value := 0 } newTargetType

def adjustAmount (τ : Ticket) (delta : Int) : Ticket :=
  updateValue { τ with amount := τ.amount + delta }

/-- One charging step of `auto_update`. -/
def charge (τ : Ticket) : Ticket :=
  let raised := { τ with
    currentType := τ.currentType.up
    nextTypeDowngradeTime := timePointSecMaximum }
  if τ.currentType.up.rank < τ.targetType.rank then
    { raised with nextAutoUpdateTime := addSeconds τ.nextAutoUpdateTime secondsPerChargingStep }
  else if τ.currentType.up ≠ .lockForever then
    { raised with status := .stable, nextAutoUpdateTime := timePointSecMaximum }
  else
    { raised with
      status := .withdrawing
      nextAutoUpdateTime := addSeconds τ.nextAutoUpdateTime secondsPerLockForeverUpdateStep
      value := τ.amount * τ.currentType.up.valueMultiplier }

def foreverDelta (τ : Ticket) : Int :=
  let delta := (τ.amount * τ.currentType.valueMultiplier).tdiv 4
  if delta ≤ 0 then 1 else delta

def loseValue (τ : Ticket) : Ticket :=
  if τ.value ≤ τ.foreverDelta then
    { τ with value := 0, status := .stable, nextAutoUpdateTime := timePointSecMaximum }
  else
    { τ with
      value := τ.value - τ.foreverDelta
      nextAutoUpdateTime := addSeconds τ.nextAutoUpdateTime secondsPerLockForeverUpdateStep }

/-- One withdrawing step of `auto_update`; it is taken for every status but `charging`. -/
def withdraw (τ : Ticket) : Ticket :=
  if τ.currentType = .lockForever then τ.loseValue
  else if τ.currentType = τ.targetType then
    { τ with
      status := .stable
      nextTypeDowngradeTime := timePointSecMaximum
      nextAutoUpdateTime := timePointSecMaximum }
  else
    { τ with
      currentType := τ.currentType.down
      nextTypeDowngradeTime :=
        addSeconds τ.nextTypeDowngradeTime τ.currentType.down.secondsToDowngrade
      nextAutoUpdateTime :=
        addSeconds τ.nextTypeDowngradeTime τ.currentType.down.secondsToDowngrade }

def autoUpdate (τ : Ticket) : Ticket :=
  updateValue (if τ.status = .charging then τ.charge else τ.withdraw)

def isReturned (τ : Ticket) : Bool :=
  τ.status = .withdrawing && τ.currentType = .liquid

section Fields

variable (τ : Ticket) (now : Nat) (ty : TicketType)

@[simp] lemma updateValue_id : τ.updateValue.id = τ.id := by
  unfold updateValue; split <;> rfl
@[simp] lemma updateValue_account : τ.updateValue.account = τ.account := by
  unfold updateValue; split <;> rfl
@[simp] lemma updateValue_targetType : τ.updateValue.targetType = τ.targetType := by
  unfold updateValue; split <;> rfl
@[simp] lemma updateValue_amount : τ.updateValue.amount = τ.amount := by
  unfold updateValue; split <;> rfl
@[simp] lemma updateValue_currentType : τ.updateValue.currentType = τ.currentType := by
  unfold updateValue; split <;> rfl
@[simp] lemma updateValue_status : τ.updateValue.status = τ.status := by
  unfold updateValue; split <;> rfl
@[simp] lemma updateValue_nextAutoUpdateTime :
    τ.updateValue.nextAutoUpdateTime = τ.nextAutoUpdateTime := by
  unfold updateValue; split <;> rfl
@[simp] lemma updateValue_nextTypeDowngradeTime :
    τ.updateValue.nextTypeDowngradeTime = τ.nextTypeDowngradeTime := by
  unfold updateValue; split <;> rfl

lemma updateValue_value_lockForever (h : τ.currentType = .lockForever) :
    τ.updateValue.value = τ.value := by
  rw [updateValue, if_neg (not_not_intro h)]

end Fields

def holding (τ : Ticket) : Nat × AccountId × Int :=
  (τ.id, τ.account, τ.amount)

@[simp] lemma holding_updateValue : τ.updateValue.holding = τ.holding := by
  simp [holding]

lemma holding_updateTargetType (now : Nat) : (τ.updateTargetType now ty).holding = τ.holding := by
  simp only [updateTargetType, holding_updateValue]
  split
  · unfold chargeTo
    split <;> rfl
  · unfold withdrawTo startDowngrade
    split
    · split <;> rfl
    · rfl

/-! ## What an update can do -/

inductive Retargeted (now : Nat) (τ : Ticket) (ty : TicketType) (τ' : Ticket) : Prop where
  | charging (higher : τ.currentType.rank < ty.rank) (status : τ'.status = .charging)
      (type : τ'.currentType = τ.currentType)
      (downgrade : τ'.nextTypeDowngradeTime = τ.nextTypeDowngradeTime)
  | continued (lower : ty.rank ≤ τ.currentType.rank) (status : τ'.status = .withdrawing)
      (type : τ'.currentType = τ.currentType)
      (pending : τ.nextTypeDowngradeTime ≠ timePointSecMaximum)
      (downgrade : τ'.nextTypeDowngradeTime = τ.nextTypeDowngradeTime)
      (next : τ'.nextAutoUpdateTime = τ'.nextTypeDowngradeTime)
  | cancelled (same : τ.currentType = ty) (status : τ'.status = .withdrawing)
      (type : τ'.currentType = τ.currentType)
      (free : τ.nextTypeDowngradeTime = timePointSecMaximum)
      (downgrade : τ'.nextTypeDowngradeTime = addSeconds now secondsToCancelCharging)
      (next : τ'.nextAutoUpdateTime = τ'.nextTypeDowngradeTime)
  | downgraded (lower : ty.rank < τ.currentType.rank) (status : τ'.status = .withdrawing)
      (type : τ'.currentType = τ.currentType.down)
      (free : τ.nextTypeDowngradeTime = timePointSecMaximum)
      (downgrade : τ'.nextTypeDowngradeTime = addSeconds now τ.currentType.down.secondsToDowngrade)
      (next : τ'.nextAutoUpdateTime = τ'.nextTypeDowngradeTime)

@[simp] lemma updateTargetType_targetType (now : Nat) :
    (τ.updateTargetType now ty).targetType = ty := by
  simp [updateTargetType]

lemma retargeted_updateTargetType (now : Nat) (τ : Ticket) (ty : TicketType) :
    Retargeted now τ ty (τ.updateTargetType now ty) := by
  unfold updateTargetType
  by_cases hrank : τ.currentType.rank < ty.rank
  · rw [if_pos hrank]
    refine .charging hrank ?_ ?_ ?_ <;> simp only [updateValue_status, updateValue_currentType,
      updateValue_nextTypeDowngradeTime] <;> unfold chargeTo <;> split <;> simp_all
  · rw [if_neg hrank]
    by_cases hfree : τ.nextTypeDowngradeTime = timePointSecMaximum
    · by_cases hsame : τ.currentType = ty
      · refine .cancelled hsame ?_ ?_ hfree ?_ ?_ <;> simp [withdrawTo, startDowngrade, hfree, hsame]
      · have hlower : ty.rank < τ.currentType.rank :=
          Nat.lt_of_le_of_ne (Nat.le_of_not_lt hrank) fun h => hsame (rank_injective h.symm)
        refine .downgraded hlower ?_ ?_ hfree ?_ ?_ <;>
          simp [withdrawTo, startDowngrade, hfree, hsame]
    · refine .continued (Nat.le_of_not_lt hrank) ?_ ?_ hfree ?_ ?_ <;>
        simp [withdrawTo, startDowngrade, hfree]

inductive AutoUpdated (τ τ' : Ticket) : Prop where
  | raised (was : τ.status = .charging) (below : τ.currentType.up.rank < τ.targetType.rank)
      (status : τ'.status = .charging) (type : τ'.currentType = τ.currentType.up)
      (downgrade : τ'.nextTypeDowngradeTime = timePointSecMaximum)
  | reached (was : τ.status = .charging) (target : ¬ τ.currentType.up.rank < τ.targetType.rank)
      (notForever : τ.currentType.up ≠ .lockForever)
      (status : τ'.status = .stable) (type : τ'.currentType = τ.currentType.up)
      (downgrade : τ'.nextTypeDowngradeTime = timePointSecMaximum)
      (next : τ'.nextAutoUpdateTime = timePointSecMaximum)
  | locked (was : τ.status = .charging) (target : ¬ τ.currentType.up.rank < τ.targetType.rank)
      (forever : τ.currentType.up = .lockForever)
      (status : τ'.status = .withdrawing) (type : τ'.currentType = .lockForever)
      (value : τ'.value = τ.amount * 8)
  | lost (was : τ.status ≠ .charging) (forever : τ.currentType = .lockForever)
      (status : τ'.status = .stable) (type : τ'.currentType = .lockForever)
      (value : τ'.value = 0) (next : τ'.nextAutoUpdateTime = timePointSecMaximum)
  | losing (was : τ.status ≠ .charging) (forever : τ.currentType = .lockForever)
      (more : τ.foreverDelta < τ.value)
      (status : τ'.status = τ.status) (type : τ'.currentType = .lockForever)
      (value : τ'.value = τ.value - τ.foreverDelta)
  | finished (was : τ.status ≠ .charging) (notForever : τ.currentType ≠ .lockForever)
      (target : τ.currentType = τ.targetType)
      (status : τ'.status = .stable) (type : τ'.currentType = τ.currentType)
      (downgrade : τ'.nextTypeDowngradeTime = timePointSecMaximum)
      (next : τ'.nextAutoUpdateTime = timePointSecMaximum)
  | lowered (was : τ.status ≠ .charging) (notForever : τ.currentType ≠ .lockForever)
      (target : τ.currentType ≠ τ.targetType)
      (status : τ'.status = τ.status) (type : τ'.currentType = τ.currentType.down)
      (downgrade : τ'.nextTypeDowngradeTime =
        addSeconds τ.nextTypeDowngradeTime τ.currentType.down.secondsToDowngrade)
      (next : τ'.nextAutoUpdateTime = τ'.nextTypeDowngradeTime)

lemma autoUpdate_keeps (τ : Ticket) :
    τ.autoUpdate.holding = τ.holding ∧ τ.autoUpdate.targetType = τ.targetType := by
  simp only [autoUpdate, holding_updateValue, updateValue_targetType]
  split
  · unfold charge
    split
    · exact ⟨rfl, rfl⟩
    · split <;> exact ⟨rfl, rfl⟩
  · unfold withdraw loseValue
    split
    · split <;> exact ⟨rfl, rfl⟩
    · split <;> exact ⟨rfl, rfl⟩

@[simp] lemma autoUpdate_targetType (τ : Ticket) : τ.autoUpdate.targetType = τ.targetType :=
  τ.autoUpdate_keeps.2

lemma autoUpdated_autoUpdate (τ : Ticket) : AutoUpdated τ τ.autoUpdate := by
  unfold autoUpdate
  by_cases hcha : τ.status = .charging
  · rw [if_pos hcha]
    by_cases hbel : τ.currentType.up.rank < τ.targetType.rank
    · refine .raised hcha hbel ?_ ?_ ?_ <;> simp [charge, hbel, hcha]
    · by_cases hfor : τ.currentType.up = .lockForever
      · rw [charge, if_neg hbel, if_neg (not_not_intro hfor)]
        refine .locked hcha hbel hfor ?_ ?_ ?_
        · simp
        · simpa using hfor
        · rw [updateValue_value_lockForever _ hfor, hfor]
          rfl
      · refine .reached hcha hbel hfor ?_ ?_ ?_ ?_ <;> simp [charge, hbel, hfor]
  · rw [if_neg hcha]
    by_cases hfor : τ.currentType = .lockForever
    · have hkeep : τ.loseValue.currentType = .lockForever := by
        unfold loseValue
        split <;> exact hfor
      rw [withdraw, if_pos hfor]
      by_cases hlast : τ.value ≤ τ.foreverDelta
      · refine .lost hcha hfor ?_ ?_ ?_ ?_
        · simp [loseValue, hlast]
        · simpa using hkeep
        · rw [updateValue_value_lockForever _ hkeep]
          simp [loseValue, hlast]
        · simp [loseValue, hlast]
      · refine .losing hcha hfor (not_le.1 hlast) ?_ ?_ ?_
        · simp [loseValue, hlast]
        · simpa using hkeep
        · rw [updateValue_value_lockForever _ hkeep]
          simp [loseValue, hlast]
    · rw [withdraw, if_neg hfor]
      by_cases htar : τ.currentType = τ.targetType
      · rw [if_pos htar]
        refine .finished hcha hfor htar ?_ ?_ ?_ ?_ <;> simp
      · rw [if_neg htar]
        refine .lowered hcha hfor htar ?_ ?_ ?_ ?_ <;> simp

/-! ## Sound tickets -/

structure Sound (τ : Ticket) : Prop where
  amount_pos : 0 < τ.amount
  charging : τ.status = .charging → τ.currentType.rank < τ.targetType.rank
  withdrawing : τ.status = .withdrawing → τ.targetType.rank ≤ τ.currentType.rank
  stable : τ.status = .stable → τ.currentType = τ.targetType ∧ τ.currentType ≠ .liquid ∧
    τ.nextAutoUpdateTime = timePointSecMaximum
  forever : τ.currentType = .lockForever → τ.targetType = .lockForever ∧
    (τ.status = .stable ∧ τ.value = 0 ∨ τ.status = .withdrawing ∧ 0 < τ.value)
  pending : τ.status = .withdrawing → τ.currentType ≠ .lockForever →
    τ.nextAutoUpdateTime = τ.nextTypeDowngradeTime

lemma sound_of_charging (hamt : 0 < τ.amount) (hsta : τ.status = .charging)
    (hrank : τ.currentType.rank < τ.targetType.rank) : τ.Sound where
  amount_pos := hamt
  charging := fun _ => hrank
  withdrawing := fun h => by cases h.symm.trans hsta
  stable := fun h => by cases h.symm.trans hsta
  forever := fun h => by
    rw [h] at hrank
    exact absurd hrank (Nat.not_lt.2 τ.targetType.rank_le_four)
  pending := fun h => by cases h.symm.trans hsta

lemma sound_of_withdrawing (hamt : 0 < τ.amount) (hsta : τ.status = .withdrawing)
    (hrank : τ.targetType.rank ≤ τ.currentType.rank)
    (hfor : τ.currentType = .lockForever → τ.targetType = .lockForever ∧ 0 < τ.value)
    (hpending : τ.currentType ≠ .lockForever → τ.nextAutoUpdateTime = τ.nextTypeDowngradeTime) :
    τ.Sound where
  amount_pos := hamt
  charging := fun h => by cases h.symm.trans hsta
  withdrawing := fun _ => hrank
  stable := fun h => by cases h.symm.trans hsta
  forever := fun h => ⟨(hfor h).1, Or.inr ⟨hsta, (hfor h).2⟩⟩
  pending := fun _ => hpending

lemma sound_of_stable (hamt : 0 < τ.amount) (hsta : τ.status = .stable)
    (htar : τ.currentType = τ.targetType) (hliq : τ.currentType ≠ .liquid)
    (hnext : τ.nextAutoUpdateTime = timePointSecMaximum)
    (hfor : τ.currentType = .lockForever → τ.value = 0) : τ.Sound where
  amount_pos := hamt
  charging := fun h => by cases h.symm.trans hsta
  withdrawing := fun h => by cases h.symm.trans hsta
  stable := fun _ => ⟨htar, hliq, hnext⟩
  forever := fun h => ⟨htar ▸ h, Or.inl ⟨hsta, hfor h⟩⟩
  pending := fun h => by cases h.symm.trans hsta

lemma sound_initNew {account : AccountId} (hty : ty ≠ .liquid) (hamt : 0 < amount) :
    (initNew id now account ty amount).Sound := by
  apply sound_of_charging
  · simpa [initNew] using hamt
  · simp [initNew]
  · exact Nat.pos_of_ne_zero fun h => hty (eq_liquid_of_rank h)

section

variable (now : Nat) (τ : Ticket) (ty : TicketType)

lemma amount_updateTargetType : (τ.updateTargetType now ty).amount = τ.amount :=
  congrArg (fun h => h.2.2) (holding_updateTargetType now)

lemma id_updateTargetType : (τ.updateTargetType now ty).id = τ.id :=
  congrArg Prod.fst (holding_updateTargetType now)

lemma account_updateTargetType : (τ.updateTargetType now ty).account = τ.account :=
  congrArg (fun h => h.2.1) (holding_updateTargetType now)

end

section

variable (id now : Nat) (old : Ticket) (ty : TicketType) (amount : Int)

lemma holding_initSplit : (initSplit id now old ty amount).holding = (id, old.account, amount) :=
  holding_updateTargetType now

lemma retargeted_initSplit :
    Retargeted now { old with id := id, amount := amount, value := 0 } ty
      (initSplit id now old ty amount) :=
  retargeted_updateTargetType now _ ty

end

section

variable (τ : Ticket) (delta : Int)

@[simp] lemma adjustAmount_id : (τ.adjustAmount delta).id = τ.id := by
  simp [adjustAmount]
@[simp] lemma adjustAmount_account : (τ.adjustAmount delta).account = τ.account := by
  simp [adjustAmount]
@[simp] lemma adjustAmount_amount : (τ.adjustAmount delta).amount = τ.amount + delta := by
  simp [adjustAmount]
@[simp] lemma adjustAmount_currentType : (τ.adjustAmount delta).currentType = τ.currentType := by
  simp [adjustAmount]

end

lemma amount_autoUpdate (τ : Ticket) : τ.autoUpdate.amount = τ.amount :=
  congrArg (fun h => h.2.2) τ.autoUpdate_keeps.1

lemma id_autoUpdate (τ : Ticket) : τ.autoUpdate.id = τ.id := congrArg Prod.fst τ.autoUpdate_keeps.1

lemma account_autoUpdate (τ : Ticket) : τ.autoUpdate.account = τ.account :=
  congrArg (fun h => h.2.1) τ.autoUpdate_keeps.1

lemma Retargeted.type_ne {τ' : Ticket} (h : Retargeted now τ ty τ')
    (hτ : τ.currentType ≠ .lockForever) : τ'.currentType ≠ .lockForever := by
  cases h with
  | charging _ _ type | continued _ _ type | cancelled _ _ type => rwa [type]
  | downgraded _ _ type => rw [type]; exact down_ne_lockForever _

lemma sound_updateTargetType (hamt : 0 < τ.amount) (hτ : τ.currentType ≠ .lockForever)
    (now : Nat) (ty : TicketType) : (τ.updateTargetType now ty).Sound := by
  have hret := retargeted_updateTargetType now τ ty
  have hne := hret.type_ne hτ
  have hamt' : 0 < (τ.updateTargetType now ty).amount := by
    rwa [amount_updateTargetType]
  cases hret with
  | charging higher status type =>
    apply sound_of_charging hamt' status
    rwa [type, updateTargetType_targetType]
  | continued lower status type _ _ next =>
    apply sound_of_withdrawing hamt' status _ (fun h => (hne h).elim) fun _ => next
    rwa [type, updateTargetType_targetType]
  | cancelled same status type _ _ next =>
    apply sound_of_withdrawing hamt' status _ (fun h => (hne h).elim) fun _ => next
    rw [type, updateTargetType_targetType, same]
  | downgraded lower status type _ _ next =>
    apply sound_of_withdrawing hamt' status _ (fun h => (hne h).elim) fun _ => next
    rw [type, updateTargetType_targetType, rank_down]
    exact Nat.le_sub_one_of_lt lower

lemma sound_initSplit {old : Ticket} (hamt : 0 < amount) (hold : old.currentType ≠ .lockForever) :
    (initSplit id now old ty amount).Sound := by
  apply sound_updateTargetType
  · exact hamt
  · exact hold

lemma Sound.adjustAmount (h : τ.Sound) (hτ : τ.currentType ≠ .lockForever) {delta : Int}
    (hamt : 0 < τ.amount + delta) : (τ.adjustAmount delta).Sound := by
  constructor <;> simp only [Ticket.adjustAmount, updateValue_amount, updateValue_status,
    updateValue_currentType, updateValue_targetType, updateValue_nextAutoUpdateTime,
    updateValue_nextTypeDowngradeTime]
  · exact hamt
  · exact h.charging
  · exact h.withdrawing
  · exact h.stable
  · exact fun hfor => (hτ hfor).elim
  · exact h.pending

lemma foreverDelta_pos (τ : Ticket) : 0 < τ.foreverDelta := by
  simp only [foreverDelta]
  split
  · exact Int.one_pos
  · exact not_le.1 ‹_›

lemma Sound.autoUpdate (h : τ.Sound) (hre : τ.isReturned = false) : τ.autoUpdate.Sound := by
  have hnot : τ.status = .withdrawing → τ.currentType ≠ .liquid := by
    intro hsta hliq
    simp [isReturned, hsta, hliq] at hre
  have hup : τ.status = .charging → τ.currentType.up.rank = τ.currentType.rank + 1 := fun hs =>
    rank_up (Nat.lt_of_lt_of_le (h.charging hs) τ.targetType.rank_le_four)
  have hamt : 0 < τ.autoUpdate.amount := by
    rw [amount_autoUpdate]
    exact h.amount_pos
  -- charging does not go beyond the target
  have htop : τ.status = .charging → ¬ τ.currentType.up.rank < τ.targetType.rank →
      τ.currentType.up = τ.targetType := by
    intro hs htar
    apply rank_injective
    have := h.charging hs
    have := hup hs
    omega
  cases autoUpdated_autoUpdate τ with
  | raised was below status type =>
    apply sound_of_charging hamt status
    rwa [type, autoUpdate_targetType]
  | reached was target notForever status type downgrade next =>
    apply sound_of_stable hamt status _ _ next
    · exact fun hfor => absurd (type.symm.trans hfor) notForever
    · rw [type, autoUpdate_targetType]
      exact htop was target
    · intro hliq
      have hzero := hup was
      rw [← type, hliq] at hzero
      cases hzero
  | locked was target forever status type value =>
    have htar : τ.targetType = .lockForever := (htop was target).symm.trans forever
    apply sound_of_withdrawing hamt status
    · rw [type, autoUpdate_targetType, htar]
    · intro _
      rw [autoUpdate_targetType, value]
      exact ⟨htar, Int.mul_pos h.amount_pos (by decide)⟩
    · exact fun hne => absurd type hne
  | lost was forever status type value next =>
    have htar := (h.forever forever).1
    apply sound_of_stable hamt status _ _ next fun _ => value
    · rw [type, autoUpdate_targetType, htar]
    · rw [type]
      nofun
  | losing was forever more status type value =>
    obtain ⟨htar, hcase⟩ := h.forever forever
    -- a ticket without value has nothing to lose
    have hwit : τ.status = .withdrawing := by
      rcases hcase with ⟨-, hzero⟩ | ⟨hsta, -⟩
      · have := τ.foreverDelta_pos
        omega
      · exact hsta
    apply sound_of_withdrawing hamt (status.trans hwit)
    · rw [type, autoUpdate_targetType, htar]
    · intro _
      rw [autoUpdate_targetType, value]
      exact ⟨htar, Int.sub_pos_of_lt more⟩
    · exact fun hne => absurd type hne
  | finished was notForever target status type downgrade next =>
    apply sound_of_stable hamt status _ _ next
    · exact fun hfor => absurd (type.symm.trans hfor) notForever
    · rw [type, autoUpdate_targetType, target]
    · rw [type]
      cases hsta : τ.status with
      | charging => exact absurd hsta was
      | stable => exact (h.stable hsta).2.1
      | withdrawing => exact hnot hsta
  | lowered was notForever target status type downgrade next =>
    -- a stable ticket is at its target
    have hwit : τ.status = .withdrawing := by
      cases hsta : τ.status with
      | charging => exact absurd hsta was
      | stable => exact absurd (h.stable hsta).1 target
      | withdrawing => rfl
    apply sound_of_withdrawing hamt (status.trans hwit)
    · have hle := h.withdrawing hwit
      have hne : τ.targetType.rank ≠ τ.currentType.rank := fun he => target (rank_injective he.symm)
      rw [type, autoUpdate_targetType, rank_down]
      omega
    · exact fun hfor => absurd (type.symm.trans hfor) (down_ne_lockForever _)
    · exact fun _ => next

lemma Sound.lockForever_autoUpdate (h : τ.Sound) (hfor : τ.currentType = .lockForever) :
    τ.autoUpdate.currentType = .lockForever := by
  have hnot : τ.status ≠ .charging := by
    rcases (h.forever hfor).2 with ⟨hs, -⟩ | ⟨hs, -⟩ <;> rw [hs] <;> nofun
  cases autoUpdated_autoUpdate τ with
  | raised was | reached was | locked was => exact absurd was hnot
  | lost _ _ _ type | losing _ _ _ _ type => exact type
  | finished _ notForever | lowered _ notForever => exact absurd hfor notForever

lemma value_of_lockForever_autoUpdate (hbef : τ.currentType ≠ .lockForever)
    (haft : τ.autoUpdate.currentType = .lockForever) : τ.autoUpdate.value = τ.amount * 8 := by
  cases autoUpdated_autoUpdate τ with
  | raised _ below _ type =>
    rw [← type, haft] at below
    exact absurd below (Nat.not_lt.2 τ.targetType.rank_le_four)
  | reached _ _ notForever _ type => exact absurd (type.symm.trans haft) notForever
  | locked _ _ _ _ _ value => exact value
  | lost _ forever | losing _ forever => exact absurd forever hbef
  | finished _ _ _ _ type => exact absurd (type.symm.trans haft) hbef
  | lowered _ _ _ _ type => exact absurd (type.symm.trans haft) (down_ne_lockForever _)

lemma stable_autoUpdate (hst : τ.status = .stable) : τ.autoUpdate.status = .stable := by
  cases autoUpdated_autoUpdate τ with
  | raised was | reached was | locked was => cases was.symm.trans hst
  | lost _ _ status => exact status
  | losing _ _ _ status => rw [status, hst]
  | finished _ _ _ status => exact status
  | lowered _ _ _ status => rw [status, hst]

/-- A bound on the automatic updates of a ticket that nobody updates. -/
def steps (τ : Ticket) : Nat :=
  match τ.status with
  | .stable => 0
  | .charging => (τ.amount * 8).toNat + (5 - τ.currentType.rank)
  | .withdrawing => if τ.currentType = .lockForever then τ.value.toNat else τ.currentType.rank + 1

lemma Sound.steps_autoUpdate (h : τ.Sound) (hst : τ.status ≠ .stable)
    (hre : τ.isReturned = false) : τ.autoUpdate.steps < τ.steps := by
  have hrank : τ.status = .charging → τ.currentType.rank < 4 := fun hs =>
    Nat.lt_of_lt_of_le (h.charging hs) τ.targetType.rank_le_four
  have hwit : τ.status ≠ .charging → τ.status = .withdrawing := by
    intro hcha
    cases hs : τ.status with
    | charging => exact absurd hs hcha
    | stable => exact absurd hs hst
    | withdrawing => rfl
  cases autoUpdated_autoUpdate τ with
  | raised was below status type =>
    have hup := rank_up (hrank was)
    have hlt := hrank was
    simp only [steps, was, status, type, amount_autoUpdate, hup]
    omega
  | reached was target notForever status =>
    have hlt := hrank was
    simp only [steps, was, status]
    omega
  | locked was target forever status type value =>
    have hlt := hrank was
    simp only [steps, was, status, type, value, if_true]
    omega
  | lost was forever status type value =>
    have hs := hwit was
    have hpos : 0 < τ.value := by
      rcases (h.forever forever).2 with ⟨hsta', -⟩ | ⟨-, hpos⟩
      · exact absurd hsta' hst
      · exact hpos
    simp only [steps, hs, status, forever, if_true]
    omega
  | losing was forever more status type value =>
    have hs := hwit was
    have hpos := τ.foreverDelta_pos
    simp only [steps, hs, status, forever, type, value, if_true]
    omega
  | finished was notForever target status =>
    have hs := hwit was
    simp only [steps, hs, status, notForever, if_false]
    omega
  | lowered was notForever target status type =>
    have hs := hwit was
    have hpos : 0 < τ.currentType.rank := by
      apply Nat.pos_of_ne_zero
      intro hzero
      have hliq := eq_liquid_of_rank hzero
      simp [isReturned, hs, hliq] at hre
    simp only [steps, hs, status, notForever, type, down_ne_lockForever, if_false, rank_down]
    omega

lemma steps_pos_of_isReturned (h : τ.isReturned = true) : 0 < τ.steps := by
  obtain ⟨hsta, htype⟩ : τ.status = .withdrawing ∧ τ.currentType = .liquid := by
    simpa [isReturned] using h
  simp [steps, hsta, htype]

end Ticket

end Graphene.Tickets
