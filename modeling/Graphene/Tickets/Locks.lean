import Graphene.Tickets.Statistics

/-!
# Locks of tickets

The amount of a ticket of type `k` without a pending downgrade stays locked for the sum
of the periods of the types below `k`, whatever targets it gets.  A pending downgrade is
told from none by its time, which is the maximum where there is none.  So the statement
needs that no scheduled time is the maximum: block times are 360 days before it.

The argument is a potential: the time at which the amount can be returned at the
earliest.  No update lowers it.
-/

namespace Graphene.Tickets

open Protocol Lib List Keyed TicketType Ticket

def TicketType.below (k : TicketType) : List TicketType :=
  [liquid, lock180Days, lock360Days, lock720Days, lockForever].take k.rank

def TicketType.lockSeconds (k : TicketType) : Nat :=
  (k.below.map secondsToDowngrade).sum

def longestPeriod : Nat := 360 * 86400

/-- A block time so long before the maximum that no time scheduled then is the maximum. -/
def FitsClock (now : Nat) : Prop :=
  now + longestPeriod < timePointSecMaximum
deriving Decidable

variable {k : TicketType} {now : Nat}

namespace TicketType

lemma secondsToDowngrade_le : k.secondsToDowngrade ≤ longestPeriod := by
  cases k <;> decide

lemma lockSeconds_down (hliq : k ≠ liquid) (hforever : k ≠ lockForever) :
    k.down.secondsToDowngrade + k.down.lockSeconds = k.lockSeconds := by
  cases k with
  | liquid => exact absurd rfl hliq
  | lockForever => exact absurd rfl hforever
  | lock180Days | lock360Days | lock720Days => decide

lemma up_down (hliq : k ≠ liquid) : k.down.up = k := by
  cases k with
  | liquid => exact absurd rfl hliq
  | _ => rfl

lemma lockSeconds_le_up (hup : k.up ≠ lockForever) : k.lockSeconds ≤ k.up.lockSeconds := by
  cases k with
  | liquid | lock180Days | lock360Days => decide
  | lock720Days | lockForever => exact absurd rfl hup

end TicketType

lemma addSeconds_eq {t d : Nat} (ht : t ≤ now) (hd : d ≤ longestPeriod) (hnow : FitsClock now) :
    addSeconds t d = t + d ∧ t + d ≠ timePointSecMaximum := by
  have hmax : timePointSecMaximum = 2 ^ 32 - 1 := rfl
  unfold FitsClock at hnow
  refine ⟨Nat.mod_eq_of_lt ?_, ?_⟩ <;> omega

/-! ## The potential -/

/-- At time `now` the amount of the ticket cannot be returned before `L`: not from its type, nor
from the pending downgrade, nor after charging that clears the downgrade. -/
structure Ticket.Held (L now : Nat) (τ : Ticket) : Prop where
  free : τ.nextTypeDowngradeTime = timePointSecMaximum → L ≤ now + τ.currentType.lockSeconds
  pending : τ.nextTypeDowngradeTime ≠ timePointSecMaximum →
    L ≤ τ.nextTypeDowngradeTime + τ.currentType.lockSeconds
  charged : τ.currentType.up ≠ .lockForever → L ≤ now + τ.currentType.up.lockSeconds

/-- The ticket is locked forever, or held until `L`. -/
def Ticket.Locked (L now : Nat) (τ : Ticket) : Prop :=
  τ.currentType ≠ .lockForever → τ.Held L now

variable {L : Nat} {τ : Ticket} {now' : Nat} {τ' : Ticket}

lemma Ticket.Locked.mono (h : τ.Locked L now) (hle : now ≤ now') : τ.Locked L now' := by
  intro hne
  obtain ⟨hfree, hpending, hcha⟩ := h hne
  refine ⟨fun hmax => ?_, hpending, fun hup => ?_⟩
  · have := hfree hmax
    omega
  · have := hcha hup
    omega

lemma Ticket.Locked.congr (h : τ.Locked L now) (htype : τ'.currentType = τ.currentType)
    (hdow : τ'.nextTypeDowngradeTime = τ.nextTypeDowngradeTime) : τ'.Locked L now := by
  intro hne
  rw [htype] at hne
  obtain ⟨hfree, hpending, hcha⟩ := h hne
  constructor
  · rw [htype, hdow]; exact hfree
  · rw [htype, hdow]; exact hpending
  · rw [htype]; exact hcha

lemma Ticket.held_of_free (hfree : τ.nextTypeDowngradeTime = timePointSecMaximum)
    (hL : L ≤ now + τ.currentType.lockSeconds) : τ.Held L now := by
  refine ⟨fun _ => hL, fun hne => absurd hfree hne, fun hup => ?_⟩
  have := lockSeconds_le_up hup
  omega

lemma Ticket.Locked.retargeted {ty : TicketType} (h : τ.Locked L now)
    (hτ : τ.currentType ≠ .lockForever) (hnow : FitsClock now)
    (hret : Ticket.Retargeted now τ ty τ') : τ'.Locked L now := by
  intro _
  obtain ⟨hfree, hpending, hcha⟩ := h hτ
  cases hret with
  | charging higher status type downgrade => exact h.congr type downgrade (type ▸ hτ)
  | continued lower status type pending downgrade => exact h.congr type downgrade (type ▸ hτ)
  | cancelled same status type free downgrade =>
    -- the period for cancelling comes on top
    have hL := hfree free
    obtain ⟨hsum, hne⟩ := addSeconds_eq (le_refl now) (by decide : secondsToCancelCharging ≤ _) hnow
    rw [hsum] at downgrade
    constructor
    · intro hmax
      exact absurd (downgrade.symm.trans hmax) hne
    · intro _
      rw [downgrade, type]
      omega
    · rw [type]; exact hcha
  | downgraded lower status type free downgrade =>
    -- one period is scheduled, those below it are left
    have hL := hfree free
    have hliq : τ.currentType ≠ .liquid := by
      intro hliq
      rw [hliq] at lower
      exact absurd lower (Nat.not_lt_zero _)
    obtain ⟨hsum, hne⟩ := addSeconds_eq (le_refl now)
      (secondsToDowngrade_le) hnow
    have hper := lockSeconds_down hliq hτ
    rw [hsum] at downgrade
    constructor
    · intro hmax
      exact absurd (downgrade.symm.trans hmax) hne
    · intro _
      rw [downgrade, type]
      omega
    · intro _
      rwa [type, up_down hliq]

section

variable (h : τ.Locked L now) (hsound : τ.Sound) (hnow : FitsClock now)
  (hdue : τ.nextAutoUpdateTime ≤ now)
include h hsound hnow hdue

lemma Ticket.Locked.autoUpdate (hre : τ.isReturned = false) : τ.autoUpdate.Locked L now := by
  have hmax : now < timePointSecMaximum := by
    unfold FitsClock at hnow
    omega
  intro haft
  -- what is due and not charging is being withdrawn, at the time of the downgrade
  have hwit : τ.status ≠ .charging → τ.currentType ≠ .lockForever →
      τ.status = .withdrawing ∧ τ.nextTypeDowngradeTime ≤ now ∧
        τ.nextTypeDowngradeTime ≠ timePointSecMaximum := by
    intro hch hne
    cases hs : τ.status with
    | charging => exact absurd hs hch
    | stable =>
      have hnext := (hsound.stable hs).2.2
      omega
    | withdrawing =>
      have hnext := hsound.pending hs hne
      exact ⟨rfl, by omega, by omega⟩
  cases autoUpdated_autoUpdate τ with
  | raised was below status type downgrade =>
    have hne : τ.currentType ≠ .lockForever := by
      intro hforever
      have hrank := hsound.charging was
      rw [hforever] at hrank
      exact absurd hrank (Nat.not_lt.2 τ.targetType.rank_le_four)
    apply held_of_free downgrade
    rw [type] at haft ⊢
    exact (h hne).charged haft
  | reached was target notForever status type downgrade =>
    have hne : τ.currentType ≠ .lockForever := by
      intro hforever
      rw [hforever] at notForever
      exact notForever rfl
    apply held_of_free downgrade
    rw [type]
    exact (h hne).charged notForever
  | locked was target forever status type => exact absurd type haft
  | lost was forever status type => exact absurd type haft
  | losing was forever more status type => exact absurd type haft
  | finished was notForever target status type downgrade =>
    obtain ⟨-, hle, hpending⟩ := hwit was notForever
    apply held_of_free downgrade
    rw [type]
    have := (h notForever).pending hpending
    omega
  | lowered was notForever target status type downgrade =>
    obtain ⟨hsta, hle, hpending⟩ := hwit was notForever
    have hliq : τ.currentType ≠ .liquid := by
      intro hliq
      simp [isReturned, hsta, hliq] at hre
    obtain ⟨hsum, hne⟩ := addSeconds_eq hle (secondsToDowngrade_le) hnow
    have hper := lockSeconds_down hliq notForever
    have hL := (h notForever).pending hpending
    rw [hsum] at downgrade
    constructor
    · intro hma
      exact absurd (downgrade.symm.trans hma) hne
    · intro _
      rw [downgrade, type]
      omega
    · intro _
      rw [type, up_down hliq]
      omega

lemma Ticket.Locked.le_of_isReturned (hre : τ.isReturned = true) : L ≤ now := by
  obtain ⟨hsta, htype⟩ : τ.status = .withdrawing ∧ τ.currentType = .liquid := by
    simpa [isReturned] using hre
  have hne : τ.currentType ≠ .lockForever := by
    rw [htype]
    rintro ⟨⟩
  have hnext := hsound.pending hsta hne
  have hpending : τ.nextTypeDowngradeTime ≠ timePointSecMaximum := by
    unfold FitsClock at hnow
    omega
  have hL := (h hne).pending hpending
  rw [htype] at hL
  have hzero : liquid.lockSeconds = 0 := rfl
  omega

end

/-! ## Families of tickets -/

/-- The calls of a sequence that succeed, with their results. -/
def ticketTrace (s : TicketState) : List TimedCall → List (TimedCall × TicketResult)
  | [] => []
  | c :: calls =>
    match c.apply s with
    | .ok r => (c, r.2) :: ticketTrace r.1 calls
    | .error _ => ticketTrace s calls

/-- A family with the tickets that a call splits from one of its tickets. -/
def familyAfter (family : List Nat) (c : TimedCall) (r : TicketResult) : List Nat :=
  match c.call with
  | .update op => if op.ticket ∈ family then family ++ r.newObjects else family
  | _ => family

/-- No ticket of the family is removed, and its amount returned, before `L`. -/
def NotReturnedBefore (L : Nat) : List Nat → List (TimedCall × TicketResult) → Prop
  | _, [] => True
  | family, (c, r) :: trace =>
    (∀ i ∈ familyAfter family c r, i ∈ r.removedObjects → L ≤ c.now) ∧
      NotReturnedBefore L (familyAfter family c r) trace

instance decidableNotReturnedBefore (L : Nat) :
    (family : List Nat) → (trace : List (TimedCall × TicketResult)) →
      Decidable (NotReturnedBefore L family trace)
  | _, [] => inferInstanceAs (Decidable True)
  | family, (c, r) :: trace =>
    have := decidableNotReturnedBefore L (familyAfter family c r) trace
    inferInstanceAs (Decidable (_ ∧ _))

structure FamilyLocked (L now : Nat) (family : List Nat) (s : TicketState) : Prop where
  sound : ∀ τ ∈ s.tickets.objects, τ.Sound
  known : ∀ i ∈ family, i < s.tickets.nextId
  locked : ∀ i ∈ family, ∀ τ, s.tickets.find i = some τ → τ.Locked L now

variable {family : List Nat} {s s' : TicketState} {fuel : Nat}
  {r : TicketState × TicketResult}

namespace FamilyLocked

section

variable (h : FamilyLocked L now family s)
include h

lemma congr (htic : s'.tickets = s.tickets) : FamilyLocked L now family s' :=
  ⟨htic ▸ h.sound, htic ▸ h.known, htic ▸ h.locked⟩

lemma mono (hle : now ≤ now') : FamilyLocked L now' family s :=
  ⟨h.sound, h.known, fun i hi τ hτ => (h.locked i hi τ hτ).mono hle⟩

lemma write (htic : s'.tickets = s.tickets.write τ) (hsound : τ.Sound)
    (hlocked : τ.id ∈ family → τ.Locked L now) : FamilyLocked L now family s' := by
  refine ⟨fun σ hσ => ?_, fun i hi => ?_, fun i hi σ hσ => ?_⟩
  · rw [htic] at hσ
    rcases mem_put hσ with rfl | hσ
    · exact hsound
    · exact h.sound σ hσ
  · rw [htic]
    exact lt_of_lt_of_le (h.known i hi) (le_max_left _ _)
  · rw [htic] at hσ
    by_cases hid : i = τ.id
    · subst hid
      rw [Store.find_write_self] at hσ
      cases hσ
      exact hlocked hi
    · rw [Store.find_write_of_ne _ τ hid] at hσ
      exact h.locked i hi σ hσ

lemma extend (hτ : s.tickets.find τ.id = some τ)
    (hlocked : τ.Locked L now) : FamilyLocked L now (family ++ [τ.id]) s := by
  refine ⟨h.sound, fun i hi => ?_, fun i hi σ hσ => ?_⟩
  · rcases mem_append.1 hi with hi | hi
    · exact h.known i hi
    · obtain rfl := mem_singleton.1 hi
      exact Store.lt_nextId hτ
  · rcases mem_append.1 hi with hi | hi
    · exact h.locked i hi σ hσ
    · obtain rfl := mem_singleton.1 hi
      obtain rfl := Option.mem_unique hτ hσ
      exact hlocked

end

section

variable {p p' : Progress} (h : FamilyLocked L now family p.state) (hnow : FitsClock now)
include h hnow

lemma processTicket (hτ : p.state.tickets.find τ.id = some τ)
    (hdue : τ.nextAutoUpdateTime ≤ now) (hok : p.processTicket τ = .ok p') :
    FamilyLocked L now family p'.state ∧
      ∀ i ∈ family, i ∈ p'.removed → i ∈ p.removed ∨ L ≤ now := by
  have hsound := h.sound τ (mem_of_find hτ)
  obtain ⟨st, -, rfl⟩ := Progress.processTicket_eq_ok.1 hok
  cases hre : τ.isReturned with
  | true =>
    constructor
    · refine ⟨fun σ hσ => h.sound σ (mem_erase hσ), h.known, fun i hi σ hσ => ?_⟩
      have hfind := (find_erase p.state.tickets.toKeyed τ.id i).symm.trans hσ
      split at hfind
      · cases hfind
      · exact h.locked i hi σ hfind
    · intro i hi hrem
      rcases mem_append.1 hrem with hbefore | hlast
      · exact .inl hbefore
      · -- the returned ticket was locked until now at most
        obtain rfl := mem_singleton.1 hlast
        exact .inr ((h.locked _ hi τ hτ).le_of_isReturned hsound hnow hdue hre)
  | false =>
    refine ⟨h.write rfl (hsound.autoUpdate hre) fun hmem => ?_, fun i _ hr => .inl hr⟩
    rw [τ.id_autoUpdate] at hmem
    exact (h.locked _ hmem τ hτ).autoUpdate hsound hnow hdue hre

lemma processLoop (hok : p.processLoop now fuel = .ok p') :
    FamilyLocked L now family p'.state ∧
      ∀ i ∈ family, i ∈ p'.removed → i ∈ p.removed ∨ L ≤ now := by
  refine (Progress.processLoop_keeps (R := fun q => FamilyLocked L now family q.state ∧
    ∀ i ∈ family, i ∈ q.removed → i ∈ p.removed ∨ L ≤ now) ?_ ⟨h, fun i _ hr => .inl hr⟩ hok).1
  rintro q q1 τ - ⟨h, hrem⟩ - hnext hdue hq1
  obtain ⟨h1, hremo⟩ := h.processTicket hnow (TicketState.find_of_nextTicket hnext) hdue hq1
  refine ⟨h1, fun i hi hr => ?_⟩
  rcases hremo i hi hr with hr | hL
  · exact hrem i hi hr
  · exact .inr hL

end

variable (h : FamilyLocked L now family s)
include h

lemma processTickets (hnow : FitsClock now) (hok : Tickets.processTickets fuel now s = .ok r) :
    FamilyLocked L now family r.1 ∧ ∀ i ∈ family, i ∈ r.2.removedObjects → L ≤ now := by
  obtain ⟨p, hp, hr⟩ := bind_eq_ok.1 hok
  cases hr
  obtain ⟨h', hrem⟩ := processLoop (p := { state := s }) h hnow hp
  refine ⟨h'.congr rfl, fun i hi hr => ?_⟩
  rcases hrem i hi hr with hnone | hL
  · cases hnone
  · exact hL

lemma retarget {split : Option Int} (ty : TicketType)
    (hnow : FitsClock now) (hτ : s.tickets.find τ.id = some τ) (hne : τ.currentType ≠ .lockForever)
    (hsplit : ∀ x, split = some x → 0 < x ∧ x < τ.amount) : FamilyLocked L now
      (if τ.id ∈ family then family ++ (Tickets.retarget now s τ ty split).2.2 else family)
      (Tickets.retarget now s τ ty split).1 := by
  have hsound := h.sound τ (mem_of_find hτ)
  cases split with
  | none =>
    have hwhole : FamilyLocked L now family (Tickets.retarget now s τ ty none).1 := by
      refine h.write rfl (sound_updateTargetType hsound.amount_pos hne now ty) fun hmem => ?_
      rw [τ.id_updateTargetType] at hmem
      exact (h.locked _ hmem τ hτ).retargeted hne hnow (retargeted_updateTargetType now τ ty)
    have hsame : family ++ (Tickets.retarget now s τ ty none).2.2 = family := append_nil _
    rwa [hsame, ite_self]
  | some amount =>
    obtain ⟨hpos, hlt⟩ := hsplit amount rfl
    have hid : (initSplit s.tickets.nextId now τ ty amount).id = s.tickets.nextId :=
      congrArg Prod.fst (holding_initSplit s.tickets.nextId now τ ty amount)
    have hrest : (τ.adjustAmount (-amount)).Sound := hsound.adjustAmount hne (by omega)
    -- first the part is written, under an identifier that is new
    have hpart : FamilyLocked L now family { s with
        tickets := s.tickets.write (.initSplit s.tickets.nextId now τ ty amount) } := by
      refine h.write rfl (sound_initSplit hpos hne) fun hmem => ?_
      rw [hid] at hmem
      exact absurd (h.known _ hmem) (lt_irrefl _)
    split
    next hmem =>
      have hlocked := h.locked _ hmem τ hτ
      have hpartLocked : (initSplit s.tickets.nextId now τ ty amount).Locked L now := by
        refine Ticket.Locked.retargeted ?_ ?_ hnow
          (retargeted_initSplit s.tickets.nextId now τ ty amount)
        · exact hlocked.congr rfl rfl
        · exact hne
      have hext := hpart.extend (Store.find_write_self _ _) hpartLocked
      exact hext.write rfl hrest fun _ => hlocked.congr (τ.adjustAmount_currentType _)
        (updateValue_nextTypeDowngradeTime _)
    next hmem =>
      refine hpart.write rfl hrest fun hin => ?_
      rw [τ.adjustAmount_id] at hin
      exact absurd hin hmem

lemma apply {c : TimedCall} (hle : now ≤ c.now)
    (hnow : FitsClock c.now) (hok : c.apply s = .ok r) :
    FamilyLocked L c.now (familyAfter family c r.2) r.1 ∧
      ∀ i ∈ familyAfter family c r.2, i ∈ r.2.removedObjects → L ≤ c.now := by
  have hlater := h.mono hle
  unfold TimedCall.apply at hok
  unfold familyAfter
  cases hcall : c.call with
  | create op =>
    rw [hcall] at hok
    obtain ⟨ty, st, hty, hamt, -, htic, -, -, -, hrem⟩ := TicketCreate.apply_inv hok
    simp only
    refine ⟨hlater.write htic (sound_initNew hty hamt) fun hmem => ?_, ?_⟩
    · -- the new ticket does not belong to the family
      have hid : (initNew s.tickets.nextId c.now op.account ty op.amount.amount).id =
          s.tickets.nextId := by
        simp [initNew]
      exact absurd (h.known _ hmem) (lt_irrefl _)
    · intro i _ hi
      rw [hrem] at hi
      cases hi
  | update =>
    rw [hcall] at hok
    obtain ⟨ty, τ, s1, processed, hτ, hid, -, hne, hsplit, hval, hpro, hr, hnew, hrem⟩ :=
      TicketUpdate.apply_inv hok
    have hreta := hlater.retarget ty hnow (hid.symm ▸ hτ) hne hsplit
    have hsame := TicketState.tickets_addPolValue hval
    obtain ⟨hdone, hre⟩ := (hreta.congr hsame).processTickets hnow hpro
    rw [← hnew, hid] at hdone hre
    rw [hr, hrem]
    exact ⟨hdone, hre⟩
  | process =>
    rw [hcall] at hok
    exact hlater.processTickets hnow hok
  | account =>
    rw [hcall] at hok
    simp only at hok ⊢
    split at hok
    · cases hok
      exact ⟨hlater.congr rfl, by rintro _ _ ⟨⟩⟩
    · cases hok
      exact ⟨hlater, by rintro _ _ ⟨⟩⟩
  | balance =>
    rw [hcall] at hok
    cases hok
    exact ⟨hlater.congr rfl, by rintro _ _ ⟨⟩⟩

lemma notReturnedBefore {calls : List TimedCall} (hnow : ∀ c ∈ calls, now ≤ c.now ∧ FitsClock c.now)
    (hsorted : calls.Pairwise fun c d => c.now ≤ d.now) :
    NotReturnedBefore L family (ticketTrace s calls) := by
  induction calls generalizing s family now with
  | nil => trivial
  | cons c calls ih =>
    obtain ⟨hfst, hsorted⟩ := pairwise_cons.1 hsorted
    obtain ⟨hle, hfits⟩ := hnow c mem_cons_self
    have hrest : ∀ d ∈ calls, now ≤ d.now ∧ FitsClock d.now := fun d hd =>
      hnow d (mem_cons_of_mem _ hd)
    rw [ticketTrace]
    cases hok : c.apply s with
    | error => exact ih h hrest hsorted
    | ok =>
      obtain ⟨hlocked, hre⟩ := h.apply hle hfits hok
      exact ⟨hre, ih hlocked (fun d hd => ⟨hfst d hd, (hrest d hd).2⟩) hsorted⟩

end FamilyLocked

/-- After any history, a ticket of a type below the last one without a pending downgrade at time
`t`, and every ticket split from it, is not returned before `t` and the periods of the types below,
whatever calls follow at non-decreasing block times that fit the clock.  A ticket locked forever is
never returned. -/
theorem locks_honoured (earlier later : List TimedCall) (t : Nat)
    (hlater : ∀ c ∈ later, t ≤ c.now ∧ FitsClock c.now)
    (hsorted : later.Pairwise fun c d => c.now ≤ d.now) {i : Nat} {τ : Ticket}
    (hτ : (ticketsAfter .initial earlier).tickets.find i = some τ) :
    (τ.currentType ≠ .lockForever → τ.nextTypeDowngradeTime = timePointSecMaximum →
      NotReturnedBefore (t + τ.currentType.lockSeconds) [i]
        (ticketTrace (ticketsAfter .initial earlier) later)) ∧ (τ.currentType = .lockForever →
      ∀ L, NotReturnedBefore L [i] (ticketTrace (ticketsAfter .initial earlier) later)) := by
  have hsound := (accounted_ticketsAfter earlier accounted_initial).sound
  have hfamily : ∀ L, τ.Locked L t → FamilyLocked L t [i] (ticketsAfter .initial earlier) := by
    intro L hlocked
    refine ⟨hsound, fun j hj => ?_, fun j hj σ hσ => ?_⟩
    · obtain rfl := mem_singleton.1 hj
      exact Store.lt_nextId hτ
    · obtain rfl := mem_singleton.1 hj
      obtain rfl := Option.mem_unique hτ hσ
      exact hlocked
  constructor
  · intro _ hfree
    refine (hfamily _ fun _ => ?_).notReturnedBefore hlater hsorted
    exact held_of_free hfree (le_refl _)
  · intro hforever L
    exact (hfamily L fun hne => absurd hforever hne).notReturnedBefore hlater hsorted

/-- An account locks 100 for 180 days, and the ticket has charged. -/
def lockedRun (t : Nat) : List TimedCall :=
  [⟨t, 0, .account 20⟩, ⟨t, 0, .balance 20 100⟩, ⟨t, 0, .create ⟨20, 1, ⟨100, 0⟩⟩⟩,
    ⟨t + secondsPerChargingStep, 5, .process⟩]

def lockedTicket : Ticket where
  id := 0
  account := 20
  targetType := .lock180Days
  amount := 100
  currentType := .lock180Days
  status := .stable
  value := 200
  nextAutoUpdateTime := timePointSecMaximum
  nextTypeDowngradeTime := timePointSecMaximum

lemma find_lockedRun : (ticketsAfter .initial (lockedRun 0)).tickets.find 0 = some lockedTicket := by
  decide

/-- The ticket of the run is withdrawn at once, split on the way, and processed when the lock
ends. -/
theorem lockedRun_honoured : NotReturnedBefore (2000000 + TicketType.lock180Days.lockSeconds) [0]
      (ticketTrace (ticketsAfter .initial (lockedRun 0))
        [⟨2000000, 5, .update ⟨20, 0, 0, none⟩⟩, ⟨2000001, 5, .update ⟨20, 0, 1, some ⟨40, 0⟩⟩⟩,
          ⟨2000000 + 180 * 86400, 5, .process⟩]) := by
  have h := locks_honoured (lockedRun 0)
    [⟨2000000, 5, .update ⟨20, 0, 0, none⟩⟩, ⟨2000001, 5, .update ⟨20, 0, 1, some ⟨40, 0⟩⟩⟩,
      ⟨2000000 + 180 * 86400, 5, .process⟩] 2000000 (by decide) (by decide) find_lockedRun
  exact h.1 (by decide) rfl

def collidingTime : Nat := timePointSecMaximum - 180 * 86400

/-- The downgrade that is pending from `collidingTime` on is taken for none when the target changes
back and forth. -/
def collidingUpdates : List TimedCall :=
  [⟨collidingTime, 5, .update ⟨20, 0, 0, none⟩⟩, ⟨collidingTime + 1, 5, .update ⟨20, 0, 1, none⟩⟩,
    ⟨collidingTime + 2, 5, .update ⟨20, 0, 0, none⟩⟩,
    ⟨collidingTime + 2 + secondsToCancelCharging, 5, .process⟩]

/-- No sum of a block time and a period exceeds 32 bits, and yet the amount is returned long before
the lock ends, because one of the sums is the maximum itself. -/
theorem lock_lost_at_maximum : collidingTime + TicketType.lock180Days.lockSeconds < 2 ^ 32 ∧
    (∀ c ∈ collidingUpdates, collidingTime ≤ c.now ∧ c.now + secondsPerChargingStep < 2 ^ 32) ∧
    collidingUpdates.Pairwise (fun c d => c.now ≤ d.now) ∧
    (ticketsAfter .initial (lockedRun 0)).tickets.find 0 = some lockedTicket ∧
    ¬ NotReturnedBefore (collidingTime + TicketType.lock180Days.lockSeconds) [0]
      (ticketTrace (ticketsAfter .initial (lockedRun 0)) collidingUpdates) := by
  exact ⟨by decide, by decide, by decide, find_lockedRun, by decide +kernel⟩

end Graphene.Tickets
