import Graphene.Lib.Keyed
import Graphene.Protocol.Asset
import Graphene.Tickets.Ticket

/-!
# Operations on tickets

Tickets are created and updated by operations and by `process_tickets`, which takes the
tickets in the order of their next automatic update until none is due.  The loop need not
end, so it has fuel; it ends at every block time below the maximum.
-/

namespace Graphene.Tickets

open Protocol Lib Option

/-- The statistics of an account about its tickets, a part of `account_statistics_object`. -/
structure TicketStats where
  owner : AccountId
  totalCorePol : Int := 0
  totalPolValue : Int := 0
  totalCorePob : Int := 0
  totalPobValue : Int := 0
  totalCoreInactive : Int := 0

structure TicketState where
  tickets : Store Ticket.id
  stats : Keyed TicketStats.owner
  balances : Tally AccountId
  totalPob : Int := 0
  totalInactive : Int := 0

inductive TicketError where
  | invalidTargetType
  | amountNotPositive
  | amountNotCore
  | insufficientBalance
  | statsNotFound
  | ticketNotFound
  | notOwner
  | lockedForever
  | targetNotChanged
  | insufficientAmount
  | loopNotEnded
deriving DecidableEq

/-- `generic_operation_result`. -/
structure TicketResult where
  newObjects : List Nat := []
  updatedObjects : List Nat := []
  removedObjects : List Nat := []

variable {s : TicketState} {τ : Ticket} {a : AccountId} {σ : Ticket}

namespace TicketState

/-- `get_account_stats_by_owner`. -/
def getStats (s : TicketState) (a : AccountId) : Except TicketError TicketStats :=
  match s.stats.find a with
  | none => .error .statsNotFound
  | some st => .ok st

def adjustBalance (s : TicketState) (a : AccountId) (delta : Int) :
    Except TicketError TicketState := do
  check (0 ≤ delta || 0 ≤ s.balances.get a + delta) .insufficientBalance
  pure { s with balances := s.balances.add a delta }

/-- The first ticket in the order of the index `by_next_update`. -/
def nextTicket (s : TicketState) : Option Ticket :=
  s.tickets.objects.argmin fun τ => toLex (τ.nextAutoUpdateTime, τ.id)

lemma getStats_eq_ok {st : TicketStats} : s.getStats a = .ok st ↔ s.stats.find a = some st := by
  unfold getStats
  cases s.stats.find a with
  | none => exact iff_of_false nofun nofun
  | some st' => simp

lemma find_of_nextTicket (h : s.nextTicket = some τ) : s.tickets.find τ.id = some τ :=
  Keyed.find_of_mem (List.argmin_mem (mem_def.2 h))

lemma nextTicket_le (h : s.nextTicket = some τ) (hσ : σ ∈ s.tickets.objects) :
    τ.nextAutoUpdateTime ≤ σ.nextAutoUpdateTime := by
  have hle := List.le_of_mem_argmin hσ (mem_def.2 h)
  rcases Prod.Lex.le_iff.1 hle with hlt | ⟨heq, -⟩
  · exact hlt.le
  · exact heq.le

lemma exists_nextTicket (hσ : σ ∈ s.tickets.objects) : ∃ τ, s.nextTicket = some τ := by
  cases h : s.nextTicket with
  | some τ => exact ⟨τ, rfl⟩
  | none =>
    rw [nextTicket, List.argmin_eq_none] at h
    rw [h] at hσ
    cases hσ

end TicketState

/-! ## The loop -/

/-- The changes that the automatic update of a ticket makes to the statistics of its owner and to
the global data. -/
structure TicketDeltas where
  totalPob : Int := 0
  totalInactive : Int := 0
  inactiveAmount : Int := 0
  foreverAmount : Int := 0
  foreverValue : Int := 0
  otherAmount : Int := 0
  otherValue : Int := 0

/-- The case distinction of `process_tickets`. -/
def ticketDeltas (old new : Ticket) : TicketDeltas :=
  if old.currentType = .lockForever then
    if new.value = 0 then
      { totalPob := -new.amount
        totalInactive := new.amount
        inactiveAmount := new.amount
        foreverAmount := -new.amount
        foreverValue := new.value - old.value }
    else { foreverValue := new.value - old.value }
  else if new.currentType = .lockForever then
    { totalPob := new.amount
      foreverAmount := new.amount
      foreverValue := new.value
      otherAmount := -new.amount
      otherValue := -old.value }
  else { otherValue := new.value - old.value }

def TicketStats.addDeltas (st : TicketStats) (d : TicketDeltas) : TicketStats :=
  { st with
    totalCoreInactive := st.totalCoreInactive + d.inactiveAmount
    totalCorePob := st.totalCorePob + d.foreverAmount
    totalCorePol := st.totalCorePol + d.otherAmount
    totalPobValue := st.totalPobValue + d.foreverValue
    totalPolValue := st.totalPolValue + d.otherValue }

structure Progress where
  state : TicketState
  totalDeltaPob : Int := 0
  totalDeltaInactive : Int := 0
  removed : List Nat := []
  updated : List Nat := []

namespace Progress

def returnTicket (p : Progress) (τ : Ticket) (st : TicketStats) : Progress :=
  { p with
    state :=
      { p.state with
        balances := p.state.balances.add τ.account τ.amount
        stats := p.state.stats.put
          { st with
            totalCorePol := st.totalCorePol - τ.amount
            totalPolValue := st.totalPolValue - τ.value }
        tickets := p.state.tickets.remove τ.id }
    removed := p.removed ++ [τ.id] }

def updateTicket (p : Progress) (τ : Ticket) (st : TicketStats) : Progress :=
  { p with
    state :=
      { p.state with
        stats := p.state.stats.put (st.addDeltas (ticketDeltas τ τ.autoUpdate))
        tickets := p.state.tickets.write τ.autoUpdate }
    totalDeltaPob := p.totalDeltaPob + (ticketDeltas τ τ.autoUpdate).totalPob
    totalDeltaInactive := p.totalDeltaInactive + (ticketDeltas τ τ.autoUpdate).totalInactive
    updated := p.updated ++ [τ.id] }

def processTicket (p : Progress) (τ : Ticket) : Except TicketError Progress := do
  let st ← p.state.getStats τ.account
  pure (if τ.isReturned then p.returnTicket τ st else p.updateTicket τ st)

def processLoop (now : Nat) : Nat → Progress → Except TicketError Progress
  | 0, _ => .error .loopNotEnded
  | fuel + 1, p =>
    match p.state.nextTicket with
    | none => .ok p
    | some τ =>
      if τ.nextAutoUpdateTime ≤ now
        then p.processTicket τ >>= processLoop now fuel
        else .ok p

lemma processTicket_eq_ok {p p' : Progress} :
    p.processTicket τ = .ok p' ↔ ∃ st, p.state.stats.find τ.account = some st ∧
      p' = if τ.isReturned then p.returnTicket τ st else p.updateTicket τ st := by
  unfold processTicket
  rw [bind_eq_ok]
  simp only [TicketState.getStats_eq_ok]
  refine exists_congr fun st => and_congr_right fun _ => ?_
  exact ⟨fun h => (Except.ok.inj h).symm, fun h => congrArg Except.ok h.symm⟩

lemma find_processed (p : Progress) (st : TicketStats) {i : Nat} (hi : i ≠ τ.id) :
    (if τ.isReturned then p.returnTicket τ st else p.updateTicket τ st).state.tickets.find i =
      p.state.tickets.find i := by
  split
  · exact (Keyed.find_erase _ _ _).trans (if_neg hi)
  · exact Store.find_write_of_ne _ _ (τ.id_autoUpdate.symm ▸ hi)

/-- What every processed ticket keeps holds when the loop ends, and then no ticket is due. -/
lemma processLoop_keeps {R : Progress → Prop} {p p' : Progress} {now fuel : Nat}
    (hstep : ∀ {p p1 τ n}, R p → p.processLoop now n = .ok p' → p.state.nextTicket = some τ →
      τ.nextAutoUpdateTime ≤ now → p.processTicket τ = .ok p1 → R p1)
    (h : R p) (hok : p.processLoop now fuel = .ok p') :
    R p' ∧ ∀ σ ∈ p'.state.tickets.objects, now < σ.nextAutoUpdateTime := by
  induction fuel generalizing p with
  | zero => cases hok
  | succ fuel ih =>
    have hwhole := hok
    rw [processLoop] at hok
    cases hnext : p.state.nextTicket with
    | none =>
      rw [hnext] at hok
      cases hok
      refine ⟨h, fun σ hσ => ?_⟩
      obtain ⟨τ, hτ⟩ := TicketState.exists_nextTicket hσ
      cases hnext.symm.trans hτ
    | some τ =>
      simp only [hnext] at hok
      split at hok
      next hdue =>
        obtain ⟨p1, hp1, hok⟩ := bind_eq_ok.1 hok
        exact ih (hstep h hwhole hnext hdue hp1) hok
      next hlater =>
        cases hok
        exact ⟨h, fun σ hσ => (not_le.1 hlater).trans_le (TicketState.nextTicket_le hnext hσ)⟩

end Progress

def processTickets (fuel now : Nat) (s : TicketState) :
    Except TicketError (TicketState × TicketResult) := do
  let p ← Progress.processLoop now fuel { state := s }
  pure ({ p.state with
      totalPob := p.state.totalPob + p.totalDeltaPob
      totalInactive := p.state.totalInactive + p.totalDeltaInactive },
    { updatedObjects := p.updated, removedObjects := p.removed })

/-! ## Operations -/

structure TicketCreate where
  account : AccountId
  targetType : Nat
  amount : Asset

structure TicketUpdate where
  account : AccountId
  ticket : Nat
  targetType : Nat
  amountForNewTarget : Option Asset := none

def checkAmount (a : Asset) : Except TicketError Unit := do
  check (0 < a.amount) .amountNotPositive
  check (a.assetId = 0) .amountNotCore

def checkTargetType (n : Nat) : Except TicketError TicketType :=
  match TicketType.ofNat? n with
  | none => .error .invalidTargetType
  | some ty => .ok ty

def TicketCreate.validate (op : TicketCreate) : Except TicketError TicketType := do
  check (op.targetType ≠ 0) .invalidTargetType
  let ty ← checkTargetType op.targetType
  checkAmount op.amount
  pure ty

def TicketCreate.apply (now : Nat) (op : TicketCreate) (s : TicketState) :
    Except TicketError (TicketState × TicketResult) := do
  let ty ← op.validate
  let s1 ← s.adjustBalance op.account (-op.amount.amount)
  let new := Ticket.initNew s.tickets.nextId now op.account ty op.amount.amount
  let st ← s.getStats op.account
  pure ({ s1 with
      tickets := s.tickets.write new
      stats := s.stats.put
        { st with
          totalCorePol := st.totalCorePol + op.amount.amount
          totalPolValue := st.totalPolValue + new.value } },
    { newObjects := [new.id] })

def TicketUpdate.validate (op : TicketUpdate) : Except TicketError TicketType := do
  let ty ← checkTargetType op.targetType
  op.amountForNewTarget.forM checkAmount
  pure ty

def TicketUpdate.doEvaluate (op : TicketUpdate) (ty : TicketType) (s : TicketState) :
    Except TicketError Ticket :=
  match s.tickets.find op.ticket with
  | none => .error .ticketNotFound
  | some τ => do
    check (τ.account = op.account) .notOwner
    check (τ.currentType ≠ .lockForever) .lockedForever
    check (τ.targetType ≠ ty) .targetNotChanged
    check (op.amountForNewTarget.all fun a => a.amount ≤ τ.amount) .insufficientAmount
    pure τ

/-- The new target of a ticket or of a part of it, which becomes a ticket of its own.  The result
is the new state, the change of the value and the new ticket. -/
def retarget (now : Nat) (s : TicketState) (τ : Ticket) (ty : TicketType) :
    Option Int → TicketState × Int × List Nat
  | none =>
    let whole := τ.updateTargetType now ty
    ({ s with tickets := s.tickets.write whole }, whole.value - τ.value, [])
  | some amount =>
    let part := Ticket.initSplit s.tickets.nextId now τ ty amount
    let rest := τ.adjustAmount (-amount)
    ({ s with tickets := (s.tickets.write part).write rest },
      part.value + rest.value - τ.value, [part.id])

def TicketUpdate.splitAmount (op : TicketUpdate) (τ : Ticket) : Option Int :=
  op.amountForNewTarget.bind fun a => if a.amount < τ.amount then some a.amount else none

def TicketState.addPolValue (s : TicketState) (a : AccountId) (delta : Int) :
    Except TicketError TicketState :=
  if delta = 0 then .ok s
  else do
    let st ← s.getStats a
    pure { s with stats := s.stats.put { st with totalPolValue := st.totalPolValue + delta } }

def TicketUpdate.apply (fuel now : Nat) (op : TicketUpdate) (s : TicketState) :
    Except TicketError (TicketState × TicketResult) := do
  let ty ← op.validate
  let τ ← op.doEvaluate ty s
  let changed := retarget now s τ ty (op.splitAmount τ)
  let s1 ← changed.1.addPolValue op.account changed.2.1
  let processed ← processTickets fuel now s1
  let removed := processed.2.removedObjects
  pure (processed.1,
    { newObjects := changed.2.2
      updatedObjects := (τ.id :: processed.2.updatedObjects).filter fun i =>
        i ∉ changed.2.2 ∧ i ∉ removed
      removedObjects := removed })

/-! ## What the operations do -/

lemma checkTargetType_liquid {n : Nat} (h : checkTargetType n = .ok .liquid) : n = 0 := by
  unfold checkTargetType TicketType.ofNat? at h
  split at h
  next hnone => cases h
  next ty hty =>
    cases h
    split at hty <;> first | rfl | cases hty

variable {now : Nat} {r : TicketState × TicketResult}

lemma TicketCreate.apply_inv {op : TicketCreate} (h : op.apply now s = .ok r) :
    ∃ ty st, ty ≠ .liquid ∧ 0 < op.amount.amount ∧ s.stats.find op.account = some st ∧
      r.1.tickets = s.tickets.write
        (Ticket.initNew s.tickets.nextId now op.account ty op.amount.amount) ∧
      r.1.stats = s.stats.put { st with
        totalCorePol := st.totalCorePol + op.amount.amount
        totalPolValue := st.totalPolValue +
          (Ticket.initNew s.tickets.nextId now op.account ty op.amount.amount).value } ∧
      r.1.totalPob = s.totalPob ∧ r.1.totalInactive = s.totalInactive ∧ r.2.removedObjects = [] := by
  obtain ⟨ty, hvalid, h⟩ := bind_eq_ok.1 h
  obtain ⟨s1, hbal, h⟩ := bind_eq_ok.1 h
  obtain ⟨st, hst, h⟩ := bind_eq_ok.1 h
  obtain ⟨-, -, hpure⟩ := bind_eq_ok.1 hbal
  cases hpure
  cases h
  obtain ⟨_, hzero, hvalid⟩ := bind_eq_ok.1 hvalid
  obtain ⟨ty', htype, hvalid⟩ := bind_eq_ok.1 hvalid
  obtain ⟨_, hamt, hvalid⟩ := bind_eq_ok.1 hvalid
  cases hvalid
  obtain ⟨_, hpos, -⟩ := bind_eq_ok.1 hamt
  refine ⟨ty, st, ?_, of_decide_eq_true (check_eq_ok.1 hpos), TicketState.getStats_eq_ok.1 hst,
    rfl, rfl, rfl, rfl, rfl⟩
  rintro rfl
  exact absurd (checkTargetType_liquid htype) (of_decide_eq_true (check_eq_ok.1 hzero))

lemma TicketState.tickets_addPolValue {s' : TicketState} {delta : Int}
    (h : s.addPolValue a delta = .ok s') : s'.tickets = s.tickets := by
  unfold TicketState.addPolValue at h
  split at h
  · cases h
    rfl
  · obtain ⟨st, -, h⟩ := bind_eq_ok.1 h
    cases h
    rfl

variable {op : TicketUpdate}

lemma TicketUpdate.evaluated {ty : TicketType} (hvalid : op.validate = .ok ty)
    (heval : op.doEvaluate ty s = .ok τ) : s.tickets.find op.ticket = some τ ∧ τ.id = op.ticket ∧
      τ.account = op.account ∧ τ.currentType ≠ .lockForever ∧
      ∀ x, op.splitAmount τ = some x → 0 < x ∧ x < τ.amount := by
  unfold TicketUpdate.doEvaluate at heval
  cases hfind : s.tickets.find op.ticket with
  | none =>
    rw [hfind] at heval
    cases heval
  | some σ =>
    rw [hfind] at heval
    obtain ⟨_, hown, heval⟩ := bind_eq_ok.1 heval
    obtain ⟨_, hne, heval⟩ := bind_eq_ok.1 heval
    have heval := then_ok (then_ok heval)
    cases heval
    refine ⟨rfl, Keyed.key_of_find hfind, of_decide_eq_true (check_eq_ok.1 hown),
      of_decide_eq_true (check_eq_ok.1 hne), fun x hx => ?_⟩
    obtain ⟨a, ha, hx⟩ := bind_eq_some_iff.1 hx
    obtain ⟨hlt, rfl⟩ := ite_some_none_eq_some.1 hx
    obtain ⟨_, -, hvalid⟩ := bind_eq_ok.1 hvalid
    obtain ⟨_, hamt, -⟩ := bind_eq_ok.1 hvalid
    rw [ha] at hamt
    obtain ⟨_, hpos, -⟩ := bind_eq_ok.1 hamt
    exact ⟨of_decide_eq_true (check_eq_ok.1 hpos), hlt⟩

lemma TicketUpdate.apply_inv {fuel : Nat} (h : op.apply fuel now s = .ok r) :
    ∃ ty τ s1 processed, s.tickets.find op.ticket = some τ ∧ τ.id = op.ticket ∧
      τ.account = op.account ∧ τ.currentType ≠ .lockForever ∧
      (∀ x, op.splitAmount τ = some x → 0 < x ∧ x < τ.amount) ∧
      (retarget now s τ ty (op.splitAmount τ)).1.addPolValue op.account
        (retarget now s τ ty (op.splitAmount τ)).2.1 = .ok s1 ∧
      processTickets fuel now s1 = .ok processed ∧ r.1 = processed.1 ∧
      r.2.newObjects = (retarget now s τ ty (op.splitAmount τ)).2.2 ∧
      r.2.removedObjects = processed.2.removedObjects := by
  obtain ⟨ty, hvalid, h⟩ := bind_eq_ok.1 h
  obtain ⟨τ, heval, h⟩ := bind_eq_ok.1 h
  obtain ⟨s1, hval, h⟩ := bind_eq_ok.1 h
  obtain ⟨processed, hpro, h⟩ := bind_eq_ok.1 h
  cases h
  obtain ⟨hτ, hid, hown, hne, hsplit⟩ := evaluated hvalid heval
  exact ⟨ty, τ, s1, processed, hτ, hid, hown, hne, hsplit, hval, hpro, rfl, rfl, rfl⟩

/-- The operations on tickets, the processing of tickets in a block, a new account and a change of
a balance by another operation. -/
inductive TicketCall where
  | create (op : TicketCreate)
  | update (op : TicketUpdate)
  | process
  | account (a : AccountId)
  | balance (a : AccountId) (delta : Int)

structure TimedCall where
  now : Nat
  fuel : Nat
  call : TicketCall

def TimedCall.apply (c : TimedCall) (s : TicketState) :
    Except TicketError (TicketState × TicketResult) :=
  match c.call with
  | .create op => op.apply c.now s
  | .update op => op.apply c.fuel c.now s
  | .process => processTickets c.fuel c.now s
  | .account a =>
    match s.stats.find a with
    | none => .ok ({ s with stats := s.stats.put { owner := a } }, {})
    | some _ => .ok (s, {})
  | .balance a delta => .ok ({ s with balances := s.balances.add a delta }, {})

def TimedCall.next (c : TimedCall) (s : TicketState) : TicketState :=
  match c.apply s with
  | .ok r => r.1
  | .error _ => s

def ticketsAfter (s : TicketState) (calls : List TimedCall) : TicketState :=
  calls.foldl (fun s c => c.next s) s

def TicketState.initial : TicketState where
  tickets := Store.empty
  stats := Keyed.empty
  balances := Keyed.empty

end Graphene.Tickets
