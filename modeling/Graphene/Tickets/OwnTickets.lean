import Graphene.Tickets.Statistics

/-!
# Tickets within a block

Tickets are processed in each block, as soon as its time is the head block time, and in each
`ticket_update`.  So an update finds no ticket due but those that it has changed itself.
-/

namespace Graphene.Tickets

open Lib Keyed TicketState

variable {s : TicketState} {now fuel i : Nat} {r : TicketState × TicketResult}

def NoneDue (now : Nat) (s : TicketState) : Prop :=
  ∀ τ ∈ s.tickets.objects, now < τ.nextAutoUpdateTime

/-- The states before and after the operations of a block, also of those in proposals, with the head
block time. -/
inductive Between : Nat → TicketState → Prop
  | genesis {now : Nat} (hfits : now + secondsPerChargingStep < 2 ^ 32) : Between now .initial
  | block {t now fuel : Nat} {s : TicketState} {r : TicketState × TicketResult} (h : Between t s)
      (hfits : now + secondsPerChargingStep < 2 ^ 32) (hok : processTickets fuel now s = .ok r) :
      Between now r.1
  | operation {c : TimedCall} {s : TicketState} {r : TicketState × TicketResult}
      (h : Between c.now s) (hok : c.apply s = .ok r) : Between c.now r.1

/-- The processing ends when no ticket is due, and leaves a ticket alone that was not due. -/
lemma processTickets_due (h : processTickets fuel now s = .ok r) : NoneDue now r.1 ∧
    ∀ i, (∀ τ, s.tickets.find i = some τ → now < τ.nextAutoUpdateTime) →
      r.1.tickets.find i = s.tickets.find i := by
  obtain ⟨p, hp, hr⟩ := bind_eq_ok.1 h
  cases hr
  refine ⟨(Progress.processLoop_keeps (R := fun _ => True) (fun _ _ _ _ _ => trivial) trivial hp).2,
    fun i hi => (Progress.processLoop_keeps
      (R := fun p => p.state.tickets.find i = s.tickets.find i) ?_ rfl hp).1⟩
  intro p p1 τ n h _ hnext hdue hp1
  obtain ⟨st, -, rfl⟩ := Progress.processTicket_eq_ok.1 hp1
  refine (p.find_processed st ?_).trans h
  rintro rfl
  exact absurd (hi τ (h ▸ find_of_nextTicket hnext)) (not_lt.2 hdue)

lemma retarget_find {τ : Ticket} {ty : TicketType} {split : Option Int} (hi : i ≠ τ.id)
    (hnew : i ≠ s.tickets.nextId) :
    (retarget now s τ ty split).1.tickets.find i = s.tickets.find i := by
  cases split with
  | none => exact Store.find_write_of_ne _ _ (τ.id_updateTargetType now ty ▸ hi)
  | some amount =>
    refine (Store.find_write_of_ne _ _ ?_).trans (Store.find_write_of_ne _ _ ?_)
    · exact (τ.adjustAmount_id _).symm ▸ hi
    · have hid := congrArg Prod.fst (Ticket.holding_initSplit s.tickets.nextId now τ ty amount)
      exact fun heq => hnew (heq.trans hid)

lemma NoneDue.apply {c : TimedCall} (h : NoneDue c.now s)
    (hfits : c.now + secondsPerChargingStep < 2 ^ 32) (hok : c.apply s = .ok r) :
    NoneDue c.now r.1 := by
  unfold TimedCall.apply at hok
  split at hok
  next op =>
    obtain ⟨ty, st, -, -, -, htic, -⟩ := TicketCreate.apply_inv hok
    intro τ hτ
    rw [htic] at hτ
    rcases mem_put hτ with rfl | hτ
    · rw [Ticket.initNew, Ticket.updateValue_nextAutoUpdateTime, addSeconds, Nat.mod_eq_of_lt hfits]
      exact Nat.lt_add_of_pos_right (by decide)
    · exact h τ hτ
  next =>
    obtain ⟨ty, τ, s1, processed, -, -, -, -, -, -, hpro, hr, -⟩ := TicketUpdate.apply_inv hok
    exact hr ▸ (processTickets_due hpro).1
  next => exact (processTickets_due hok).1
  next => split at hok <;> cases hok <;> exact h
  next =>
    cases hok
    exact h

lemma Between.facts (h : Between now s) :
    NoneDue now s ∧ Accounted s 0 0 ∧ now + secondsPerChargingStep < 2 ^ 32 := by
  induction h with
  | genesis hfits => exact ⟨nofun, accounted_initial, hfits⟩
  | block _ hfits hok ih => exact ⟨(processTickets_due hok).1, ih.2.1.processTickets hok, hfits⟩
  | operation _ hok ih => exact ⟨ih.1.apply ih.2.2 hok, ih.2.1.apply hok, ih.2.2⟩

/-- Between the operations of a block no ticket is due; the processing of tickets in an update ends, and
no ticket changes but the updated one and the one split from it. -/
theorem update_processes_own_tickets (h : Between now s) (op : TicketUpdate) : NoneDue now s ∧
    (∀ ty τ s1, op.validate = .ok ty → op.doEvaluate ty s = .ok τ →
      (retarget now s τ ty (op.splitAmount τ)).1.addPolValue op.account
        (retarget now s τ ty (op.splitAmount τ)).2.1 = .ok s1 →
      ∃ fuel r, processTickets fuel now s1 = .ok r) ∧
    ∀ fuel r, op.apply fuel now s = .ok r → ∀ i, i ≠ op.ticket → i ≠ s.tickets.nextId →
      r.1.tickets.find i = s.tickets.find i := by
  obtain ⟨hnone, hacc, hfits⟩ := h.facts
  refine ⟨hnone, fun ty τ s1 hvalid heval hvalue => ?_, fun fuel r hok i hi hnew => ?_⟩
  · obtain ⟨hτ, hid, howner, hne, hsplit⟩ := TicketUpdate.evaluated hvalid heval
    rw [← howner] at hvalue
    refine (hacc.retarget (hid.symm ▸ hτ) hne hsplit hvalue).exists_processTickets ?_
    unfold secondsPerChargingStep at hfits
    change now < 2 ^ 32 - 1
    omega
  · obtain ⟨ty, τ, s1, processed, -, hid, -, -, -, hvalue, hpro, hr, -⟩ :=
      TicketUpdate.apply_inv hok
    have hfind : s1.tickets.find i = s.tickets.find i := by
      rw [tickets_addPolValue hvalue]
      exact retarget_find (hid ▸ hi) hnew
    rw [hr, (processTickets_due hpro).2 i, hfind]
    rw [hfind]
    exact fun σ hσ => hnone σ (mem_of_find hσ)

/-- Two tickets, the next block, and an update that splits the first ticket. -/
theorem update_processes_own_tickets_created :
    ∃ s r, Between 3 s ∧ (⟨5, 0, 2, some ⟨40, 0⟩⟩ : TicketUpdate).apply 9 3 s = .ok r ∧
      (r.1.tickets.find 2).isSome ∧ (s.tickets.find 1).isSome ∧
      r.1.tickets.find 1 = s.tickets.find 1 := by
  have h1 : Between 0 _ := .operation (c := ⟨0, 0, .account 5⟩) (.genesis (by decide)) rfl
  have h2 : Between 0 _ := .operation (c := ⟨0, 0, .balance 5 1000⟩) h1 rfl
  have h3 : Between 0 _ := .operation (c := ⟨0, 0, .create ⟨5, 1, ⟨100, 0⟩⟩⟩) h2 rfl
  have h4 : Between 0 _ := .operation (c := ⟨0, 0, .create ⟨5, 2, ⟨70, 0⟩⟩⟩) h3 rfl
  have h5 : Between 3 _ := .block h4 (by decide) (rfl : processTickets 9 3 _ = .ok _)
  exact ⟨_, _, h5, rfl, rfl, rfl,
    (update_processes_own_tickets h5 ⟨5, 0, 2, some ⟨40, 0⟩⟩).2.2 9 _ rfl 1 (by decide) (by decide)⟩

end Graphene.Tickets
