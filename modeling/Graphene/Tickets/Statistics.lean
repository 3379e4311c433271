import Graphene.Tickets.Processing

/-!
# Ticket statistics

The statistics of an account are the sums over its tickets: of those that can be
withdrawn, of those locked forever that have a value, and of those locked forever that
have lost it.  Every operation changes them by differences.  The differences of an
automatic update are right for every ticket but a stable one.  A stable ticket is due at
the maximum of time only, where the loop does not end.
-/

namespace Graphene.Tickets

open Protocol Lib Keyed Option Ticket TicketState Store Progress
open Ticket (initNew initSplit isReturned)

/-! ## Figures -/

inductive Figure where
  | corePol
  | polValue
  | corePob
  | pobValue
  | coreInactive

def Ticket.figure (τ : Ticket) : Figure → Int
  | .corePol => if τ.currentType ≠ .lockForever then τ.amount else 0
  | .polValue => if τ.currentType ≠ .lockForever then τ.value else 0
  | .corePob => if τ.currentType = .lockForever ∧ τ.value ≠ 0 then τ.amount else 0
  | .pobValue => if τ.currentType = .lockForever ∧ τ.value ≠ 0 then τ.value else 0
  | .coreInactive => if τ.currentType = .lockForever ∧ τ.value = 0 then τ.amount else 0

def TicketStats.figure (st : TicketStats) : Figure → Int
  | .corePol => st.totalCorePol
  | .polValue => st.totalPolValue
  | .corePob => st.totalCorePob
  | .pobValue => st.totalPobValue
  | .coreInactive => st.totalCoreInactive

def TicketDeltas.figure (d : TicketDeltas) : Figure → Int
  | .corePol => d.otherAmount
  | .polValue => d.otherValue
  | .corePob => d.foreverAmount
  | .pobValue => d.foreverValue
  | .coreInactive => d.inactiveAmount

def Ticket.share (φ : Figure) (a : AccountId) (τ : Ticket) : Int :=
  if τ.account = a then τ.figure φ else 0

open Ticket (figure share)

/-- The figures of every account are the sums over its tickets, and the global figures are the
sums over the accounts. -/
structure TicketState.Exact (s : TicketState) : Prop where
  figures : ∀ a st, s.stats.find a = some st → ∀ φ, st.figure φ = s.tickets.total (Ticket.share φ a)
  totalPob : s.totalPob = s.stats.total TicketStats.totalCorePob
  totalInactive : s.totalInactive = s.stats.total TicketStats.totalCoreInactive

variable {τ : Ticket}

lemma figure_ticketDeltas (h : τ.Sound) (hsta : τ.status ≠ .stable) (φ : Figure) :
    (ticketDeltas τ τ.autoUpdate).figure φ = τ.autoUpdate.figure φ - τ.figure φ := by
  have hamt := τ.amount_autoUpdate
  by_cases hfor : τ.currentType = .lockForever
  · -- the ticket has a value to lose
    have hval : τ.value ≠ 0 := by
      rcases (h.forever hfor).2 with ⟨hs, -⟩ | ⟨-, hpos⟩
      · exact absurd hs hsta
      · exact ne_of_gt hpos
    have htype := h.lockForever_autoUpdate hfor
    by_cases hzero : τ.autoUpdate.value = 0 <;> cases φ <;> simp [figure,
      TicketDeltas.figure, ticketDeltas, hfor, htype, hval, hzero, hamt]
  · by_cases hnew : τ.autoUpdate.currentType = .lockForever
    · have hval : τ.autoUpdate.value ≠ 0 := by
        rw [value_of_lockForever_autoUpdate hfor hnew]
        have := h.amount_pos
        omega
      cases φ <;> simp [figure, TicketDeltas.figure, ticketDeltas, hfor, hnew, hval, hamt]
    · cases φ <;> simp [figure, TicketDeltas.figure, ticketDeltas, hfor, hnew, hamt]

lemma global_ticketDeltas (old new : Ticket) :
    (ticketDeltas old new).totalPob = (ticketDeltas old new).foreverAmount ∧
      (ticketDeltas old new).totalInactive = (ticketDeltas old new).inactiveAmount := by
  unfold ticketDeltas
  split
  · split <;> exact ⟨rfl, rfl⟩
  · split <;> exact ⟨rfl, rfl⟩

lemma TicketStats.figure_addDeltas (st : TicketStats) (d : TicketDeltas) (φ : Figure) :
    (st.addDeltas d).figure φ = st.figure φ + d.figure φ := by
  cases φ <;> rfl

/-! ## The invariant of the loop -/

/-- What holds of a state in the loop; `pob` and `inactive` are still to be added to the global
figures. -/
structure Accounted (s : TicketState) (pob inactive : Int) : Prop where
  sound : ∀ τ ∈ s.tickets.objects, τ.Sound
  owners : ∀ τ ∈ s.tickets.objects, ∃ st, s.stats.find τ.account = some st
  figures : ∀ a st, s.stats.find a = some st → ∀ φ, st.figure φ = s.tickets.total (Ticket.share φ a)
  totalPob : s.totalPob + pob = s.stats.total TicketStats.totalCorePob
  totalInactive : s.totalInactive + inactive = s.stats.total TicketStats.totalCoreInactive

/-- The statistics of one account change from `st` to `st'`, its figures by `δ`. -/
structure StatsChange (t t' : Keyed TicketStats.owner) (a : AccountId) (δ : Figure → Int)
    (st st' : TicketStats) : Prop where
  before : t.find a = some st
  find : ∀ b, t'.find b = if b = a then some st' else t.find b
  figure : ∀ φ, st'.figure φ = st.figure φ + δ φ
  total : ∀ φ, t'.total (fun x => x.figure φ) = t.total (fun x => x.figure φ) + δ φ

variable {a : AccountId} {st : TicketStats} {s : TicketState} {p : Progress} {now fuel : Nat}
  {r : TicketState × TicketResult} {t : Keyed TicketStats.owner} {δ : Figure → Int} {p' : Progress}
  {ty : TicketType} {split : Option Int} {s' : TicketState}

lemma statsChange_put (st' : TicketStats) (hst : t.find a = some st) (hown : st'.owner = st.owner)
    (hδ : ∀ φ, st'.figure φ = st.figure φ + δ φ) : StatsChange t (t.put st') a δ st st' := by
  have hkey : st'.owner = a := hown.trans (key_of_find hst)
  refine ⟨hst, fun b => ?_, hδ, fun φ => ?_⟩
  · rw [find_put, hkey]
  · rw [total_put, hkey, hst, elim_some, hδ]
    omega

lemma statsChange_refl (hst : t.find a = some st) : StatsChange t t a 0 st st := by
  refine ⟨hst, fun b => ?_, fun φ => (add_zero _).symm, fun φ => (add_zero _).symm⟩
  split
  next hb => rw [hb, hst]
  next => rfl

/-- A change of tickets of one account together with its statistics: the figures of the account
change by `δ`, as the sums over its tickets do. -/
lemma Accounted.change {pob inactive : Int} (h : Accounted s pob inactive)
    (s' : TicketState) {st' : TicketStats} (hsts : StatsChange s.stats s'.stats a δ st st')
    (htic : ∀ φ b, s'.tickets.total (share φ b) =
      s.tickets.total (share φ b) + if b = a then δ φ else 0)
    (hnew : ∀ τ ∈ s'.tickets.objects, τ ∈ s.tickets.objects ∨ τ.Sound ∧ τ.account = a)
    (hpob : s'.totalPob = s.totalPob) (hina : s'.totalInactive = s.totalInactive) :
    Accounted s' (pob + δ .corePob) (inactive + δ .coreInactive) := by
  refine ⟨?_, ?_, ?_, ?_, ?_⟩
  · intro τ hτ
    rcases hnew τ hτ with hold | ⟨hsound, -⟩
    · exact h.sound τ hold
    · exact hsound
  · intro τ hτ
    rw [hsts.find]
    split
    · exact ⟨st', rfl⟩
    · rcases hnew τ hτ with hold | ⟨-, ha⟩
      · exact h.owners τ hold
      · contradiction
  · intro b stb hb φ
    rw [hsts.find] at hb
    rw [htic]
    split at hb
    next hba =>
      cases hb
      rw [hsts.figure, h.figures a st hsts.before φ, hba, if_pos rfl]
    next hba => rw [h.figures b stb hb φ, if_neg hba, add_zero]
  · rw [hpob, ← add_assoc, h.totalPob]
    exact (hsts.total .corePob).symm
  · rw [hina, ← add_assoc, h.totalInactive]
    exact (hsts.total .coreInactive).symm

variable {t : Store Ticket.id}

lemma total_share_write (τ' : Ticket) (hτ : t.find τ.id = some τ) (hid : τ'.id = τ.id)
    (hacc : τ'.account = τ.account) (φ : Figure) (b : AccountId) :
    (t.write τ').total (share φ b) = t.total (share φ b) +
      if b = τ.account then τ'.figure φ - τ.figure φ else 0 := by
  have hput := total_put t.toKeyed τ' (share φ b)
  rw [hid, hτ, elim_some] at hput
  refine hput.trans ?_
  unfold share
  rw [hacc]
  split
  next hb =>
    rw [if_pos hb.symm]
    omega
  next hb =>
    rw [if_neg fun he => hb he.symm]
    omega

section

variable (h : Accounted p.state p.totalDeltaPob p.totalDeltaInactive)
include h

variable (hτ : p.state.tickets.find τ.id = some τ)
include hτ

variable (hst : p.state.stats.find τ.account = some st)
include hst

lemma Accounted.updateTicket
    (hsta : τ.status ≠ .stable) (hre : τ.isReturned = false) :
    Accounted (p.updateTicket τ st).state (p.updateTicket τ st).totalDeltaPob
      (p.updateTicket τ st).totalDeltaInactive := by
  have hsound := h.sound τ (mem_of_find hτ)
  obtain ⟨hpob, hina⟩ := global_ticketDeltas τ τ.autoUpdate
  have hsts := statsChange_put (st.addDeltas (ticketDeltas τ τ.autoUpdate)) hst rfl
    (st.figure_addDeltas _)
  have hcha := h.change (p.updateTicket τ st).state hsts ?_ ?_ rfl rfl
  · rw [show (p.updateTicket τ st).totalDeltaPob = p.totalDeltaPob + _ from rfl,
      show (p.updateTicket τ st).totalDeltaInactive = p.totalDeltaInactive + _ from rfl, hpob,
      hina]
    exact hcha
  · intro φ b
    rw [figure_ticketDeltas hsound hsta]
    exact total_share_write τ.autoUpdate hτ τ.id_autoUpdate τ.account_autoUpdate φ b
  · intro σ hσ
    rcases mem_put hσ with rfl | hσ
    · exact .inr ⟨hsound.autoUpdate hre, τ.account_autoUpdate⟩
    · exact .inl hσ

lemma Accounted.returnTicket
    (hre : τ.isReturned = true) :
    Accounted (p.returnTicket τ st).state (p.returnTicket τ st).totalDeltaPob
      (p.returnTicket τ st).totalDeltaInactive := by
  have hliq : τ.currentType ≠ .lockForever := by
    intro hfor
    simp [isReturned, hfor] at hre
  have hsts : StatsChange p.state.stats (p.returnTicket τ st).state.stats τ.account
      (fun φ => -τ.figure φ) st { st with
        totalCorePol := st.totalCorePol - τ.amount
        totalPolValue := st.totalPolValue - τ.value } := by
    refine statsChange_put _ hst rfl fun φ => ?_
    cases φ <;> simp [TicketStats.figure, figure, hliq, sub_eq_add_neg]
  have hcha := h.change (p.returnTicket τ st).state hsts ?_ ?_ rfl rfl
  · have hpob : τ.figure .corePob = 0 := if_neg fun hf => hliq hf.1
    have hina : τ.figure .coreInactive = 0 := if_neg fun hf => hliq hf.1
    simp only [hpob, hina, neg_zero, add_zero] at hcha
    exact hcha
  · intro φ b
    have herase := total_erase p.state.tickets.toKeyed τ.id (share φ b)
    rw [hτ, elim_some] at herase
    refine herase.trans ?_
    unfold share
    split
    next hb => rw [if_pos hb.symm, sub_eq_add_neg]
    next hb => rw [if_neg fun he => hb he.symm, sub_zero, add_zero]
  · exact fun σ hσ => .inl (mem_erase hσ)

end

lemma processLoop_stable (hnow : timePointSecMaximum ≤ now) {σ : Ticket} (hsound : σ.Sound)
    (hsta : σ.status = .stable) (hσ : p.state.tickets.find σ.id = some σ) :
    p.processLoop now fuel ≠ .ok p' := by
  refine fun hok => absurd (processLoop_keeps
    (R := fun p => ∃ σ : Ticket, σ.Sound ∧ σ.status = .stable ∧ p.state.tickets.find σ.id = some σ)
    ?_ ⟨σ, hsound, hsta, hσ⟩ hok) ?_
  · rintro p p1 τ - ⟨σ, hsound, hsta, hσ⟩ - hτ - hp1
    obtain ⟨st, -, rfl⟩ := processTicket_eq_ok.1 hp1
    by_cases hsame : τ.id = σ.id
    · -- the stable ticket itself is processed and stays stable
      obtain rfl : τ = σ := mem_unique (find_of_nextTicket hτ) (hsame ▸ hσ)
      have hre : τ.isReturned = false := by
        simp [isReturned, hsta]
      rw [hre]
      exact ⟨_, hsound.autoUpdate hre, stable_autoUpdate hsta, find_write_self _ τ.autoUpdate⟩
    · exact ⟨σ, hsound, hsta, (p.find_processed st (Ne.symm hsame)).trans hσ⟩
  · rintro ⟨⟨σ, hsound, hsta, hσ⟩, hnone⟩
    have hlate := hnone σ (mem_of_find hσ)
    rw [(hsound.stable hsta).2.2] at hlate
    exact absurd hnow (not_le.2 hlate)

lemma Accounted.processLoop (h : Accounted p.state p.totalDeltaPob p.totalDeltaInactive)
    (hok : p.processLoop now fuel = .ok p') :
    Accounted p'.state p'.totalDeltaPob p'.totalDeltaInactive := by
  refine (processLoop_keeps
    (R := fun p => Accounted p.state p.totalDeltaPob p.totalDeltaInactive) ?_ h hok).1
  intro p p1 τ n h hrun hnext hdue hp1
  obtain ⟨st, hst, rfl⟩ := processTicket_eq_ok.1 hp1
  have hfind := find_of_nextTicket hnext
  have hsound := h.sound τ (mem_of_find hfind)
  cases hre : τ.isReturned with
  | true => exact h.returnTicket hfind hst hre
  | false =>
    refine h.updateTicket hfind hst ?_ hre
    -- a stable ticket would be due at the maximum of time only
    intro hsta
    have hmax := (hsound.stable hsta).2.2
    exact processLoop_stable (hmax ▸ hdue) hsound hsta hfind hrun

lemma Accounted.processTickets (h : Accounted s 0 0)
    (hok : Tickets.processTickets fuel now s = .ok r) : Accounted r.1 0 0 := by
  obtain ⟨p, hp, hr⟩ := bind_eq_ok.1 hok
  cases hr
  have hp' := Accounted.processLoop h hp
  exact ⟨hp'.sound, hp'.owners, hp'.figures, (add_zero _).trans hp'.totalPob,
    (add_zero _).trans hp'.totalInactive⟩

/-! ## Operations -/

lemma total_share_add (hτ : t.find τ.id = none) (φ : Figure) (b : AccountId) :
    (t.write τ).total (share φ b) = t.total (share φ b) +
      if b = τ.account then τ.figure φ else 0 := by
  have hput := total_put t.toKeyed τ (share φ b)
  rw [hτ, elim_none, sub_zero] at hput
  refine hput.trans (congrArg _ ?_)
  unfold share
  simp only [eq_comm]

lemma Accounted.create {op : TicketCreate} (h : Accounted s 0 0) (hok : op.apply now s = .ok r) :
    Accounted r.1 0 0 := by
  obtain ⟨ty, st, hty, hamt, hst, htic, hsts, hpob, hina, -⟩ :=
    TicketCreate.apply_inv hok
  generalize hnew : initNew s.tickets.nextId now op.account ty op.amount.amount = new
    at htic hsts
  have hsound : new.Sound := hnew ▸ sound_initNew hty hamt
  have hid : new.id = s.tickets.nextId := by simp [← hnew, initNew]
  have hacc : new.account = op.account := by simp [← hnew, initNew]
  have hliq : new.currentType = .liquid := by simp [← hnew, initNew]
  have hin : new.amount = op.amount.amount := by simp [← hnew, initNew]
  have hcha : StatsChange s.stats r.1.stats op.account new.figure st { st with
      totalCorePol := st.totalCorePol + op.amount.amount
      totalPolValue := st.totalPolValue + new.value } := by
    rw [hsts]
    refine statsChange_put _ hst rfl fun φ => ?_
    cases φ <;> simp [TicketStats.figure, figure, hliq, hin]
  have hdone := h.change r.1 hcha ?_ ?_ hpob hina
  · have hzero : new.figure .corePob = 0 ∧ new.figure .coreInactive = 0 := by
      simp [figure, hliq]
    simpa only [hzero.1, hzero.2, add_zero] using hdone
  · intro φ b
    rw [htic, ← hacc]
    apply total_share_add
    rw [hid]
    exact find_nextId _
  · intro τ hτ
    rw [htic] at hτ
    rcases mem_put hτ with rfl | hτ
    · exact .inr ⟨hsound, hacc⟩
    · exact .inl hτ

def valueOnly (delta : Int) : Figure → Int
  | .polValue => delta
  | _ => 0

lemma Ticket.figure_of_ne (h : τ.currentType ≠ .lockForever) (φ : Figure) : τ.figure φ = match φ with
      | .corePol => τ.amount
      | .polValue => τ.value
      | _ => 0 := by
  cases φ <;> simp [figure, h]

lemma total_share_retarget (hτ : s.tickets.find τ.id = some τ) (hne : τ.currentType ≠ .lockForever)
    (φ : Figure) (b : AccountId) : (retarget now s τ ty split).1.tickets.total (share φ b) =
      s.tickets.total (share φ b) +
        if b = τ.account then valueOnly (retarget now s τ ty split).2.1 φ else 0 := by
  cases split with
  | none =>
    have hwhole := total_share_write (τ.updateTargetType now ty) hτ (τ.id_updateTargetType now ty)
      (τ.account_updateTargetType now ty) φ b
    refine hwhole.trans ?_
    rw [figure_of_ne hne, figure_of_ne
      ((retargeted_updateTargetType now τ ty).type_ne hne), τ.amount_updateTargetType]
    cases φ <;> simp [valueOnly, retarget]
  | some amount =>
    have hoth : τ.id ≠ s.tickets.nextId := Nat.ne_of_lt (lt_nextId hτ)
    have hhol := holding_initSplit s.tickets.nextId now τ ty amount
    have hret := retargeted_initSplit s.tickets.nextId now τ ty amount
    have hshape : retarget now s τ ty (some amount) =
        ({ s with
            tickets := (s.tickets.write (.initSplit s.tickets.nextId now τ ty amount)).write
              (τ.adjustAmount (-amount)) },
          (initSplit s.tickets.nextId now τ ty amount).value
            + (τ.adjustAmount (-amount)).value - τ.value,
          [(initSplit s.tickets.nextId now τ ty amount).id]) := rfl
    rw [hshape]
    generalize initSplit s.tickets.nextId now τ ty amount = part at hhol hret
    obtain ⟨hid, hacc, hamt⟩ : part.id = s.tickets.nextId ∧ part.account = τ.account ∧
        part.amount = amount := by
      simpa [holding] using hhol
    have hfree : s.tickets.find part.id = none := by
      rw [hid]
      exact find_nextId _
    have hstill : (s.tickets.write part).find τ.id = some τ :=
      (find_write_of_ne _ part (hid ▸ hoth)).trans hτ
    -- first the new ticket is added, then the old one is replaced
    have hadd := total_share_add hfree φ b
    have hrest := total_share_write (τ.adjustAmount (-amount)) hstill (τ.adjustAmount_id _)
      (τ.adjustAmount_account _) φ b
    refine hrest.trans ?_
    rw [hadd, hacc, add_assoc]
    refine congrArg _ ?_
    rw [figure_of_ne hne, figure_of_ne (hret.type_ne hne), figure_of_ne
      (τ.adjustAmount_currentType _ ▸ hne), hamt, τ.adjustAmount_amount]
    split
    · cases φ with
      | polValue =>
        simp only [valueOnly]
        omega
      | _ => simp [valueOnly]
    · rfl

lemma TicketState.addPolValue_inv {delta : Int} (hst : s.stats.find a = some st)
    (h : s.addPolValue a delta = .ok s') :
    s'.tickets = s.tickets ∧ s'.totalPob = s.totalPob ∧ s'.totalInactive = s.totalInactive ∧
      ∃ st', StatsChange s.stats s'.stats a (valueOnly delta) st st' := by
  unfold addPolValue at h
  split at h
  next hzero =>
    cases h
    have hnone : valueOnly delta = 0 := by
      funext φ
      cases φ <;> simp [valueOnly, hzero]
    exact ⟨rfl, rfl, rfl, st, hnone ▸ statsChange_refl hst⟩
  next =>
    rw [getStats_eq_ok.2 hst] at h
    cases h
    refine ⟨rfl, rfl, rfl, _, statsChange_put _ hst rfl fun φ => ?_⟩
    cases φ <;> simp [TicketStats.figure, valueOnly]

section

variable (h : Accounted s 0 0)
include h

lemma Accounted.retarget (hτ : s.tickets.find τ.id = some τ)
    (hne : τ.currentType ≠ .lockForever) (hsplit : ∀ x, split = some x → 0 < x ∧ x < τ.amount)
    (hok : (Tickets.retarget now s τ ty split).1.addPolValue τ.account
      (Tickets.retarget now s τ ty split).2.1 = .ok s') : Accounted s' 0 0 := by
  have hsound := h.sound τ (mem_of_find hτ)
  obtain ⟨st, hst⟩ := h.owners τ (mem_of_find hτ)
  have hsts : (Tickets.retarget now s τ ty split).1.stats = s.stats := by
    cases split <;> rfl
  have hpob : (Tickets.retarget now s τ ty split).1.totalPob = s.totalPob := by
    cases split <;> rfl
  have hina : (Tickets.retarget now s τ ty split).1.totalInactive = s.totalInactive := by
    cases split <;> rfl
  obtain ⟨htic, hpob', hina', st', hcha⟩ :=
    addPolValue_inv (hsts ▸ hst) hok
  rw [hsts] at hcha
  refine h.change s' hcha ?_ ?_ (hpob'.trans hpob) (hina'.trans hina)
  · intro φ b
    rw [htic]
    exact total_share_retarget hτ hne φ b
  · intro σ hσ
    rw [htic] at hσ
    cases split with
    | none =>
      rcases mem_put hσ with rfl | hσ
      · exact .inr ⟨sound_updateTargetType hsound.amount_pos hne now ty,
          τ.account_updateTargetType now ty⟩
      · exact .inl hσ
    | some amount =>
      obtain ⟨hpos, hlt⟩ := hsplit amount rfl
      rcases mem_put hσ with rfl | hσ
      · exact .inr ⟨hsound.adjustAmount hne (by omega), τ.adjustAmount_account _⟩
      · rcases mem_put hσ with rfl | hσ
        · exact .inr ⟨sound_initSplit hpos hne,
            congrArg (fun h => h.2.1) (holding_initSplit _ now τ ty amount)⟩
        · exact .inl hσ

lemma Accounted.update {op : TicketUpdate} (hok : op.apply fuel now s = .ok r) :
    Accounted r.1 0 0 := by
  obtain ⟨ty, τ, s1, processed, hτ, hid, hacc, hne, hsplit, hval, hpro, hr, -⟩ :=
    TicketUpdate.apply_inv hok
  rw [← hacc] at hval
  rw [hr]
  exact (h.retarget (hid.symm ▸ hτ) hne hsplit hval).processTickets hpro

lemma Accounted.addAccount (ha : s.stats.find a = none) :
    Accounted { s with stats := s.stats.put { owner := a } } 0 0 := by
  have hfind : ∀ b, (s.stats.put { owner := a }).find b =
      if b = a then some { owner := a } else s.stats.find b := fun b => find_put _ _ b
  have htot : ∀ f : TicketStats → Int, f { owner := a } = 0 →
      (s.stats.put { owner := a }).total f = s.stats.total f := by
    intro f hf
    rw [total_put, ha, elim_none, hf, sub_zero, add_zero]
  refine ⟨h.sound, ?_, ?_, ?_, ?_⟩
  · intro τ hτ
    rw [hfind]
    split
    · exact ⟨_, rfl⟩
    · exact h.owners τ hτ
  · intro b st hb φ
    rw [hfind] at hb
    split at hb
    next hba =>
      cases hb
      subst hba
      -- the owners of tickets had statistics before
      have hnone : s.tickets.objects.map (share φ b) =
          s.tickets.objects.map fun _ => 0 := by
        refine List.map_congr_left fun τ hτ => if_neg ?_
        rintro rfl
        obtain ⟨st, hst⟩ := h.owners τ hτ
        rw [ha] at hst
        cases hst
      change TicketStats.figure { owner := b } φ = (s.tickets.objects.map (share φ b)).sum
      rw [hnone]
      cases φ <;> simp [TicketStats.figure]
    next hba => exact h.figures b st hb φ
  · rw [htot _ rfl]
    exact h.totalPob
  · rw [htot _ rfl]
    exact h.totalInactive

lemma Accounted.apply {c : TimedCall} (hok : c.apply s = .ok r) : Accounted r.1 0 0 := by
  unfold TimedCall.apply at hok
  cases hcall : c.call with
  | create =>
    rw [hcall] at hok
    exact h.create hok
  | update =>
    rw [hcall] at hok
    exact h.update hok
  | process =>
    rw [hcall] at hok
    exact h.processTickets hok
  | account a =>
    rw [hcall] at hok
    cases hfind : s.stats.find a with
    | some =>
      simp only [hfind] at hok
      cases hok
      exact h
    | none =>
      simp only [hfind] at hok
      cases hok
      exact h.addAccount hfind
  | balance =>
    rw [hcall] at hok
    cases hok
    exact ⟨h.sound, h.owners, h.figures, h.totalPob, h.totalInactive⟩

end

/-! ## The end of the loop -/

def TicketState.work (s : TicketState) : Int :=
  s.tickets.total fun τ => (τ.steps : Int)

lemma TicketState.work_nonneg (s : TicketState) : 0 ≤ s.work := by
  refine List.sum_nonneg fun x hx => ?_
  obtain ⟨τ, -, rfl⟩ := List.mem_map.1 hx
  exact Int.natCast_nonneg _

lemma Accounted.exists_processLoop (hnow : now < timePointSecMaximum)
    (h : Accounted p.state p.totalDeltaPob p.totalDeltaInactive) (hfuel : p.state.work < fuel) :
    ∃ p', p.processLoop now fuel = .ok p' := by
  induction fuel generalizing p with
  | zero => exact absurd hfuel (not_lt.2 p.state.work_nonneg)
  | succ fuel ih =>
    rw [Progress.processLoop]
    cases hnext : p.state.nextTicket with
    | none => exact ⟨p, rfl⟩
    | some τ =>
      by_cases hdue : τ.nextAutoUpdateTime ≤ now
      · have hfind := find_of_nextTicket hnext
        have hsound := h.sound τ (mem_of_find hfind)
        have hsta : τ.status ≠ .stable := by
          intro hs
          rw [(hsound.stable hs).2.2] at hdue
          exact absurd hdue (not_le.2 hnow)
        obtain ⟨st, hst⟩ := h.owners τ (mem_of_find hfind)
        simp only [if_pos hdue]
        rw [processTicket_eq_ok.2 ⟨st, hst, rfl⟩, ok_bind]
        cases hre : τ.isReturned with
        | true =>
          refine ih (h.returnTicket hfind hst hre) ?_
          have herase := total_erase p.state.tickets.toKeyed τ.id fun τ => (τ.steps : Int)
          rw [hfind, elim_some] at herase
          have hwork : (p.returnTicket τ st).state.work = p.state.work - τ.steps := herase
          have hpos := steps_pos_of_isReturned hre
          change (p.returnTicket τ st).state.work < _
          omega
        | false =>
          refine ih (h.updateTicket hfind hst hsta hre) ?_
          have hput := total_put p.state.tickets.toKeyed τ.autoUpdate fun τ => (τ.steps : Int)
          rw [τ.id_autoUpdate, hfind, elim_some] at hput
          have hwork : (p.updateTicket τ st).state.work =
              p.state.work - τ.steps + τ.autoUpdate.steps := hput
          have hless := hsound.steps_autoUpdate hsta hre
          change (p.updateTicket τ st).state.work < _
          omega
      · exact ⟨p, by simp only [if_neg hdue]⟩

lemma Accounted.exists_processTickets (hnow : now < timePointSecMaximum) (h : Accounted s 0 0) :
    ∃ fuel r, Tickets.processTickets fuel now s = .ok r := by
  have hfuel : s.work < ((s.work.toNat + 1 : Nat) : Int) := by
    omega
  obtain ⟨p, hp⟩ := Accounted.exists_processLoop hnow (p := { state := s }) h hfuel
  exact ⟨s.work.toNat + 1, _, by rw [Tickets.processTickets, hp, ok_bind]; rfl⟩

lemma accounted_initial : Accounted initial 0 0 where
  sound := by
    intro τ hτ
    cases hτ
  owners := by
    intro τ hτ
    cases hτ
  figures := by
    intro a st hst
    cases hst
  totalPob := rfl
  totalInactive := rfl

lemma Accounted.next (h : Accounted s 0 0) (c : TimedCall) : Accounted (c.next s) 0 0 := by
  unfold TimedCall.next
  split
  next r hr => exact h.apply hr
  next => exact h

lemma accounted_ticketsAfter (calls : List TimedCall) (h : Accounted s 0 0) :
    Accounted (ticketsAfter s calls) 0 0 := by
  induction calls generalizing s with
  | nil => exact h
  | cons c calls ih => exact ih (h.next c)

/-- After every sequence of operations on tickets and of automatic updates the statistics are
exact, and the processing of tickets ends at every block time below the maximum. -/
theorem ticket_statistics_exact (calls : List TimedCall) :
    (ticketsAfter .initial calls).Exact ∧ ∀ now < timePointSecMaximum,
      ∃ fuel r, processTickets fuel now (ticketsAfter .initial calls) = .ok r := by
  have h := accounted_ticketsAfter calls accounted_initial
  refine ⟨⟨h.figures, ?_, ?_⟩, fun now hnow => h.exists_processTickets hnow⟩
  · rw [← h.totalPob, add_zero]
  · rw [← h.totalInactive, add_zero]

end Graphene.Tickets
