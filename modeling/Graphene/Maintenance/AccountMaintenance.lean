import Graphene.Lib.IndexWalk
import Graphene.Lib.SortedIndex
import Graphene.Maintenance.AccountFees

/-!
# Maintenance of the accounts

`perform_account_maintenance` has two loops.  The first takes flagged balances from the end of the index
by flag and notes them in the statistics.  The second walks over the index of the statistics by
`(need_maintenance, name)` from the first account that needs maintenance, tallies votes and processes
fees.  Both change the index that they walk over.
-/

namespace Graphene.Maintenance

open Accounts AccountsState Lib Protocol List Keyed MaintenanceProps
open AccountStats (name owner)

/-! ## The balances -/

def AccountBalance.unflag (b : AccountBalance) : AccountBalance :=
  { b with maintenanceFlag := false }

open AccountBalance (unflag)

namespace AccountsState

def noteBalance (s : AccountsState) (b : AccountBalance) (st : AccountStats) : AccountsState :=
  let s := s.putStats { st with coreInBalance := b.balance }
  { s with balances := replaceBalance b b.unflag s.balances }

def balancePass : Nat → AccountsState → Except AccountError AccountsState
  | 0, _ => .error .outOfFuel
  | fuel + 1, s =>
    match s.balances.getLast? with
    | none => .ok s
    | some b =>
      if b.maintenanceFlag then do
        let st ← s.getAccountStatsByOwner b.owner
        balancePass fuel (s.noteBalance b st)
      else .ok s

end AccountsState

structure BalancesNoted (s s' : AccountsState) : Prop where
  wellFormed : WellFormed s'
  balances : s'.balances.Perm (s.balances.map AccountBalance.unflag)
  flagged : ∀ b ∈ s.balances, b.maintenanceFlag = true → ∀ st, s.stats.find b.owner = some st →
    s'.stats.find b.owner = some { st with coreInBalance := b.balance }
  others : ∀ a, (∀ b ∈ s.balances, b.maintenanceFlag = true → b.owner ≠ a) →
    s'.stats.find a = s.stats.find a

section

variable {b c : AccountBalance} {l : List AccountBalance}

lemma perm_filter_key (hsin : l.Pairwise fun x y => x.key ≠ y.key) (hb : b ∈ l) :
    (b :: l.filter fun c => c.key ≠ b.key).Perm l := by
  induction l with
  | nil => cases hb
  | cons d l ih =>
    obtain ⟨hd, hl⟩ := pairwise_cons.1 hsin
    rcases mem_cons.1 hb with rfl | hb
    · have hall : ∀ c ∈ l, decide (c.key ≠ b.key) = true := fun c hc =>
        decide_eq_true (hd c hc).symm
      rw [filter_cons_of_neg (by simp), filter_eq_self.2 hall]
    · rw [filter_cons_of_pos (by simpa using hd b hb)]
      exact (List.Perm.swap d b _).trans ((ih hl hb).cons d)

section

variable (hsin : l.Pairwise fun x y => x.key ≠ y.key) (hb : b ∈ l) (hflag : b.maintenanceFlag = true)
include hflag

lemma perm_replaceBalance_unflag :
    (replaceBalance b b.unflag l).Perm (b.unflag :: l.filter fun c => c.key ≠ b.key) := by
  have hne : b.unflag.maintenanceFlag ≠ b.maintenanceFlag := by
    rw [hflag]
    nofun
  rw [replaceBalance, if_neg hne]
  exact perm_place

include hsin hb

lemma countP_replaceBalance_unflag :
    (replaceBalance b b.unflag l).countP (·.maintenanceFlag) + 1 = l.countP (·.maintenanceFlag) := by
  rw [(perm_replaceBalance_unflag hflag).countP_eq, ← (perm_filter_key hsin hb).countP_eq,
    countP_cons_of_pos hflag, countP_cons_of_neg (by simp [unflag])]

lemma perm_map_unflag : ((replaceBalance b b.unflag l).map unflag).Perm (l.map unflag) := by
  have hall := (perm_filter_key hsin hb).map unflag
  exact ((perm_replaceBalance_unflag hflag).map unflag).trans hall

end

lemma unflagged_of_getLast? (hl : l.Pairwise fun x y => x.maintenanceFlag ≤ y.maintenanceFlag)
    (hlast : l.getLast? = some b) (hflag : b.maintenanceFlag = false) (hc : c ∈ l) :
    c.maintenanceFlag = false := by
  obtain ⟨l', rfl⟩ := getLast?_eq_some_iff.1 hlast
  rcases mem_append.1 hc with hc | hc
  · have hle := (pairwise_append.1 hl).2.2 c hc b (mem_singleton_self b)
    rw [hflag] at hle
    exact le_antisymm hle (Bool.false_le _)
  · rw [mem_singleton.1 hc, hflag]

end

variable {fuel : Nat}

namespace BalancesNoted

variable {s s' : AccountsState} {b : AccountBalance} {st : AccountStats}

variable (h : WellFormed s)
include h

lemma refl (hflags : ∀ b ∈ s.balances, b.maintenanceFlag = false) : BalancesNoted s s where
  wellFormed := h
  balances := by
    have hmap : s.balances.map unflag = s.balances := by
      refine (map_congr_left fun b hb => ?_).trans (map_id _)
      have hb := hflags b hb
      cases b
      cases hb
      rfl
    rw [hmap]
  flagged := by
    intro b hb hflag
    rw [hflags b hb] at hflag
    cases hflag
  others := fun _ _ => rfl

lemma wellFormed_noteBalance (hb : b ∈ s.balances)
    (hst : s.stats.find b.owner = some st) : WellFormed (s.noteBalance b st) := by
  have hput : WellFormed (s.putStats { st with coreInBalance := b.balance }) :=
    h.putStats hst rfl rfl
  exact hput.replaceBalance hb rfl nofun

lemma step (hb : b ∈ s.balances) (hflag : b.maintenanceFlag = true)
    (hst : s.stats.find b.owner = some st) (hrest : BalancesNoted (s.noteBalance b st) s') :
    BalancesNoted s s' := by
  have howner : st.owner = b.owner := key_of_find hst
  have hfind : ∀ a, (s.noteBalance b st).stats.find a =
      if a = b.owner then some { st with coreInBalance := b.balance } else s.stats.find a := by
    intro a
    rw [← howner]
    exact find_putStats
  -- an account has one flagged balance
  have hown : ∀ c ∈ (s.noteBalance b st).balances, c.maintenanceFlag = true →
      c ∈ s.balances ∧ c.owner ≠ b.owner := by
    intro c hc hcflag
    rcases mem_replaceBalance hc with rfl | ⟨hc, hkey⟩
    · cases hcflag
    · refine ⟨hc, fun heq => hkey (Prod.ext heq ?_)⟩
      exact (h.core c hc hcflag).trans (h.core b hb hflag).symm
  have hkept : ∀ c ∈ s.balances, c.maintenanceFlag = true → c.owner ≠ b.owner →
      c ∈ (s.noteBalance b st).balances := by
    intro c hc _ hne
    refine (perm_replaceBalance_unflag hflag).symm.subset (mem_cons_of_mem _ ?_)
    exact mem_filter.2 ⟨hc, decide_eq_true fun hkey => hne (congrArg Prod.fst hkey)⟩
  refine ⟨hrest.wellFormed, hrest.balances.trans (perm_map_unflag h.single hb hflag), ?_, ?_⟩
  · intro c hc hcflag stc hstc
    by_cases heq : c.owner = b.owner
    · have hcb : c = b := eq_of_key h.single hc hb
        (Prod.ext heq ((h.core c hc hcflag).trans (h.core b hb hflag).symm))
      subst hcb
      obtain rfl := Option.mem_unique hst hstc
      rw [hrest.others c.owner fun d hd hdflag => (hown d hd hdflag).2, hfind, if_pos rfl]
    · refine hrest.flagged c (hkept c hc hcflag heq) hcflag stc ?_
      rw [hfind, if_neg heq, hstc]
  · intro a ha
    rw [hrest.others a fun c hc hcflag => ha c (hown c hc hcflag).1 hcflag, hfind,
      if_neg fun heq => ha b hb hflag heq.symm]

/-- The first loop ends, and notes all flagged balances. -/
lemma exists_balancePass (hfuel : s.balances.countP (·.maintenanceFlag) < fuel) :
    ∃ s', balancePass fuel s = .ok s' ∧ BalancesNoted s s' := by
  induction fuel generalizing s with
  | zero => exact absurd hfuel (Nat.not_lt_zero _)
  | succ fuel ih =>
    rw [balancePass]
    cases hlast : s.balances.getLast? with
    | none =>
      refine ⟨s, rfl, refl h fun b hb => ?_⟩
      rw [getLast?_eq_none_iff.1 hlast] at hb
      cases hb
    | some b =>
      have hb : b ∈ s.balances := mem_of_getLast? hlast
      simp only
      split
      next hflag =>
        obtain ⟨st, hst⟩ := h.owners b hb
        have hless := countP_replaceBalance_unflag h.single hb hflag
        have hcount : (s.noteBalance b st).balances.countP (·.maintenanceFlag) < fuel := by
          change (replaceBalance b b.unflag s.balances).countP (·.maintenanceFlag) < fuel
          omega
        obtain ⟨s', hpass, hrest⟩ := ih (wellFormed_noteBalance h hb hst) hcount
        exact ⟨s', by rw [getStats_of_find hst, ok_bind, hpass], step h hb hflag hst hrest⟩
      next hflag =>
        refine ⟨s, rfl, refl h fun c hc => ?_⟩
        exact unflagged_of_getLast? h.ordered hlast (Bool.eq_false_of_not_eq_true hflag) hc

end BalancesNoted

def AccountStats.maintenanceSeq (st : AccountStats) : Bool ×ₗ String :=
  toLex (st.needMaintenance, st.name)

namespace AccountsState

variable (s : AccountsState)

def byMaintenanceSeq : List AccountStats :=
  s.stats.objects.insertionSort fun x y => x.maintenanceSeq ≤ y.maintenanceSeq

/-- `lower_bound( true )`: the first account that needs maintenance. -/
def lowerBound : Option AccountId :=
  (s.byMaintenanceSeq.find? fun y => y.needMaintenance).map AccountStats.owner

def nextStats (a : AccountId) : Option AccountId :=
  match s.stats.find a with
  | none => none
  | some x =>
    (s.byMaintenanceSeq.find? fun y => x.maintenanceSeq < y.maintenanceSeq).map AccountStats.owner

def nameOf (a : AccountId) : String :=
  ((s.stats.find a).map AccountStats.name).getD ""

def inNeed : Set AccountId :=
  {a | ∃ st, s.stats.find a = some st ∧ st.needMaintenance = true}

end AccountsState

/-- The state in the second loop, with the accounts that the tally and `process_fees` have been
called for. -/
structure MaintenanceRun where
  state : AccountsState
  tallied : List AccountId := []
  processed : List AccountId := []

namespace MaintenanceProps

variable (p : MaintenanceProps)

def tallyVisit (r : MaintenanceRun) (a : AccountId) : Except AccountError MaintenanceRun := do
  let st ← r.state.getAccountStatsByOwner a
  let acc ← r.state.getAccount st.owner
  if st.hasSomeCoreVoting then do
    let s ← p.tally r.state acc st
    return { r with state := s, tallied := r.tallied ++ [a] }
  else return r

def feesVisit (r : MaintenanceRun) (a : AccountId) : Except AccountError MaintenanceRun := do
  let st ← r.state.getAccountStatsByOwner a
  if st.hasPendingFees then do
    let s ← p.processFees r.state st
    return { r with state := s, processed := r.processed ++ [a] }
  else return r

def visit (r : MaintenanceRun) (a : AccountId) : Except AccountError MaintenanceRun := do
  let r ← p.tallyVisit r a
  p.feesVisit r a

def accountPass (fuel : Nat) (s : AccountsState) : Except AccountError MaintenanceRun :=
  walkIndex .outOfFuel (fun r a => r.state.nextStats a) p.visit fuel { state := s } s.lowerBound

def performAccountMaintenance (fuel : Nat) (s : AccountsState) :
    Except AccountError MaintenanceRun := do
  let s ← balancePass fuel s
  p.accountPass fuel s

end MaintenanceProps

/-! ## One visit -/

def logged (l : List AccountId) (a : AccountId) (reason : Bool) : List AccountId :=
  if reason then l ++ [a] else l

lemma count_logged_self (l : List AccountId) (a : AccountId) (reason : Bool) :
    (logged l a reason).count a = l.count a + reason.toNat := by
  cases reason <;> simp [logged]

variable {a : AccountId}

/-- What the visit of an account with statistics `st` does. -/
structure Visited (r r' : MaintenanceRun) (a : AccountId) (st : AccountStats) : Prop where
  wellFormed : WellFormed r'.state
  balances : r'.state.balances = r.state.balances
  others : ∀ b, b ≠ a →
    Option.Rel AccountStats.Evolves (r.state.stats.find b) (r'.state.stats.find b)
  self : ∃ st', r'.state.stats.find a = some st' ∧ st'.name = st.name ∧
    st'.coreInBalance = st.coreInBalance
  tallied : r'.tallied = logged r.tallied a st.hasSomeCoreVoting
  processed : r'.processed = logged r.processed a st.hasPendingFees

section

variable {p : MaintenanceProps} {r r' : MaintenanceRun} {st : AccountStats}

lemma exists_tallyVisit (h : WellFormed r.state) (hst : r.state.stats.find a = some st) :
    ∃ r', p.tallyVisit r a = .ok r' ∧ Evolves r.state r'.state ∧ WellFormed r'.state ∧
      r'.tallied = logged r.tallied a st.hasSomeCoreVoting ∧ r'.processed = r.processed := by
  obtain ⟨acc, hacc⟩ := h.account hst
  have howner : st.owner = a := key_of_find hst
  rw [tallyVisit, getStats_of_find hst, ok_bind, howner, getAccount_of_find hacc,
    ok_bind]
  cases hvoting : st.hasSomeCoreVoting with
  | true =>
    obtain ⟨s', htally, hev, h'⟩ := exists_tally (p := p) h hacc hst
    refine ⟨{ r with state := s', tallied := r.tallied ++ [a] }, ?_, hev, h', rfl, rfl⟩
    rw [if_pos rfl, htally, ok_bind]
    rfl
  | false => exact ⟨r, rfl, Evolves.refl _, h, rfl, rfl⟩

lemma exists_visit (h : WellFormed r.state) (hst : r.state.stats.find a = some st) :
    ∃ r', p.visit r a = .ok r' ∧ Visited r r' a st := by
  obtain ⟨r1, htally, hev, h1, htal, hpro⟩ := exists_tallyVisit (p := p) h hst
  obtain ⟨st1, hst1, hstev⟩ := hev.find hst
  rw [visit, htally, ok_bind, feesVisit, getStats_of_find hst1,
    ok_bind]
  have hpending := hstev.hasPendingFees_eq
  cases hfees : st1.hasPendingFees with
  | false =>
    refine ⟨r1, rfl, h1, hev.balances, fun b _ => hev.stats b,
      ⟨st1, hst1, hstev.name_eq, hstev.coreInBalance_eq⟩, htal, ?_⟩
    rw [hpro, ← hpending, hfees]
    rfl
  | true =>
    obtain ⟨s2, st2, hpr, hev2, h2, hst2⟩ :=
      exists_processFees (p := p) h1 hst1 hfees
    obtain ⟨st2', hst2', hstev2⟩ := hev2.find hst1
    obtain rfl := Option.mem_unique hst2 hst2'
    have hev' := hev.trans hev2
    have hstev' := hstev.trans hstev2
    have howner : st2.owner = a := key_of_find hst2
    have hfind : ∀ b, (s2.putStats st2.clearFees).stats.find b =
        if b = a then some st2.clearFees else s2.stats.find b := by
      intro b
      rw [← howner]
      exact find_putStats
    rw [if_pos rfl, hpr, ok_bind]
    refine ⟨_, rfl, h2.putStats hst2 rfl rfl, hev'.balances, fun b hb => ?_, ?_, htal, ?_⟩
    · simp only [hfind, if_neg hb]
      exact hev'.stats b
    · refine ⟨st2.clearFees, ?_, hstev'.name_eq, hstev'.coreInBalance_eq⟩
      exact (hfind a).trans (if_pos rfl)
    · simp only [hpro, ← hpending, hfees]
      rfl

end

/-! ## The index -/

section

variable {s : AccountsState} {x y : AccountStats}

lemma mem_byMaintenanceSeq : x ∈ s.byMaintenanceSeq ↔ s.stats.find x.owner = some x := by
  rw [byMaintenanceSeq, mem_insertionSort]
  exact mem_iff_find

lemma pairwise_byMaintenanceSeq :
    s.byMaintenanceSeq.Pairwise fun x y => x.maintenanceSeq ≤ y.maintenanceSeq :=
  have : Std.Total fun x y : AccountStats => x.maintenanceSeq ≤ y.maintenanceSeq :=
    ⟨fun _ _ => le_total _ _⟩
  have : IsTrans AccountStats fun x y => x.maintenanceSeq ≤ y.maintenanceSeq :=
    ⟨fun _ _ _ => le_trans⟩
  pairwise_insertionSort _ _

lemma nameOf_of_find (h : s.stats.find a = some x) : s.nameOf a = x.name := by
  rw [nameOf, h]
  rfl

lemma name_le_of_maintenanceSeq_le (hx : x.needMaintenance = true)
    (hle : x.maintenanceSeq ≤ y.maintenanceSeq) : x.name ≤ y.name := by
  rcases Prod.Lex.le_iff.1 hle with hlt | ⟨-, hname⟩
  · change x.needMaintenance < y.needMaintenance at hlt
    rw [hx] at hlt
    exact absurd hlt (not_lt_of_ge (Bool.le_true _))
  · exact hname

lemma maintenanceSeq_lt_iff (hx : x.needMaintenance = true) :
    x.maintenanceSeq < y.maintenanceSeq ↔ y.needMaintenance = true ∧ x.name < y.name := by
  rw [Prod.Lex.lt_iff]
  change x.needMaintenance < y.needMaintenance ∨
    x.needMaintenance = y.needMaintenance ∧ x.name < y.name ↔ _
  rw [hx]
  constructor
  · rintro (hlt | ⟨hy, hname⟩)
    · exact absurd hlt (not_lt_of_ge (Bool.le_true _))
    · exact ⟨hy.symm, hname⟩
  · rintro ⟨hy, hname⟩
    exact Or.inr ⟨hy.symm, hname⟩

lemma firstOf_lowerBound : FirstOf s.nameOf s.inNeed s.lowerBound := by
  refine FirstOf.map (firstOf_find? pairwise_byMaintenanceSeq) ?_ ?_ ?_
  · rintro x ⟨hx, hneed⟩
    exact ⟨x, mem_byMaintenanceSeq.1 hx, hneed⟩
  · rintro a ⟨x, hx, hneed⟩
    obtain rfl := key_of_find hx
    exact ⟨x, ⟨mem_byMaintenanceSeq.2 hx, hneed⟩, rfl⟩
  · rintro x ⟨hx, hneed⟩ y ⟨hy, -⟩ hle
    rw [nameOf_of_find (mem_byMaintenanceSeq.1 hx), nameOf_of_find (mem_byMaintenanceSeq.1 hy)]
    exact name_le_of_maintenanceSeq_le hneed hle

lemma firstOf_nextStats (ha : a ∈ s.inNeed) :
    FirstOf s.nameOf {b | b ∈ s.inNeed ∧ s.nameOf a < s.nameOf b} (s.nextStats a) := by
  obtain ⟨x, hx, hneed⟩ := ha
  rw [nextStats, hx]
  refine FirstOf.map (firstOf_find? pairwise_byMaintenanceSeq) ?_ ?_ ?_
  · rintro y ⟨hy, hlt⟩
    have hfind := mem_byMaintenanceSeq.1 hy
    obtain ⟨hyneed, hname⟩ := (maintenanceSeq_lt_iff hneed).1 (of_decide_eq_true hlt)
    refine ⟨⟨y, hfind, hyneed⟩, ?_⟩
    rwa [nameOf_of_find hx, nameOf_of_find hfind]
  · rintro b ⟨⟨y, hy, hyneed⟩, hname⟩
    rw [nameOf_of_find hx, nameOf_of_find hy] at hname
    obtain rfl := key_of_find hy
    exact ⟨y, ⟨mem_byMaintenanceSeq.2 hy,
      decide_eq_true ((maintenanceSeq_lt_iff hneed).2 ⟨hyneed, hname⟩)⟩, rfl⟩
  · rintro y ⟨hy, hlt⟩ z ⟨hz, -⟩ hle
    rw [nameOf_of_find (mem_byMaintenanceSeq.1 hy), nameOf_of_find (mem_byMaintenanceSeq.1 hz)]
    have hyneed := ((maintenanceSeq_lt_iff hneed).1 (of_decide_eq_true hlt)).1
    exact name_le_of_maintenanceSeq_le hyneed hle

end

/-! ## The walk -/

variable {r r' : MaintenanceRun} {st : AccountStats}

section

variable {p : MaintenanceProps} {s : AccountsState}

/-- What the second loop keeps: the state is well-formed, the accounts have their names, and the
balances are as they were when the loop started. -/
structure Maintained (s : AccountsState) (r : MaintenanceRun) : Prop where
  wellFormed : WellFormed r.state
  names : ∀ a, (r.state.stats.find a).map AccountStats.name = (s.stats.find a).map AccountStats.name
  balances : r.state.balances = s.balances
  core : ∀ a, (r.state.stats.find a).map AccountStats.coreInBalance =
    (s.stats.find a).map AccountStats.coreInBalance

lemma Maintained.start (hs : WellFormed s) : Maintained s { state := s } :=
  ⟨hs, fun _ => rfl, rfl, fun _ => rfl⟩

lemma Maintained.nameOf (h : Maintained s r) : r.state.nameOf = s.nameOf := by
  funext a
  rw [AccountsState.nameOf, h.names a]
  rfl

lemma Maintained.visited (h : Maintained s r) (hst : r.state.stats.find a = some st)
    (hv : Visited r r' a st) : Maintained s r' := by
  -- a field that neither the visit nor the others change
  have hfield : ∀ {β : Type} (f : AccountStats → β), (∀ {x y}, x.Evolves y → f y = f x) →
      (∀ st', r'.state.stats.find a = some st' → f st' = f st) →
      ∀ b, (r'.state.stats.find b).map f = (r.state.stats.find b).map f := by
    intro β f hev hself b
    by_cases hb : b = a
    · subst hb
      obtain ⟨st', hst', -⟩ := hv.self
      rw [hst, hst', Option.map_some, Option.map_some, hself st' hst']
    · have hrel := hv.others b hb
      generalize r.state.stats.find b = o at hrel
      generalize r'.state.stats.find b = o' at hrel
      cases hrel with
      | none => rfl
      | some h => rw [Option.map_some, Option.map_some, hev h]
  obtain ⟨st', hst', hname, hcore⟩ := hv.self
  refine ⟨hv.wellFormed, fun b => ?_, hv.balances.trans h.balances, fun b => ?_⟩
  · rw [← h.names b]
    refine hfield name (fun h => h.name_eq) (fun x hx => ?_) b
    rwa [← Option.mem_unique hst' hx]
  · rw [← h.core b]
    refine hfield AccountStats.coreInBalance (fun h => h.coreInBalance_eq) (fun x hx => ?_) b
    rwa [← Option.mem_unique hst' hx]

lemma maintenance_walk (hs : WellFormed s) :
    Walk (fun r a => r.state.nextStats a) p.visit (Maintained s) (fun r => r.state.inNeed) s.nameOf
      (s.stats.objects.map owner).toFinset where
  bounded := by
    rintro r a h ⟨st, hst, -⟩
    have hname := h.names a
    rw [hst] at hname
    obtain ⟨x, hx, -⟩ := Option.map_eq_some_iff.1 hname.symm
    rw [mem_toFinset, ← key_of_find hx]
    exact mem_map_of_mem (mem_of_find hx)
  distinct := by
    intro a b ha hb hname
    obtain ⟨x, hx, rfl⟩ := mem_map.1 (mem_toFinset.1 ha)
    obtain ⟨y, hy, rfl⟩ := mem_map.1 (mem_toFinset.1 hb)
    rw [nameOf_of_find (find_of_mem hx), nameOf_of_find (find_of_mem hy)] at hname
    exact hs.names x hx y hy hname
  next_first := by
    intro r a h ha
    have hfst := firstOf_nextStats ha
    rwa [h.nameOf] at hfst
  body_ok := by
    rintro r a h ⟨st, hst, -⟩
    obtain ⟨r', hvisit, hv⟩ := exists_visit (p := p) h.wellFormed hst
    refine ⟨r', hvisit, h.visited hst hv, ?_⟩
    rintro b hb ⟨x, hx, hneed⟩
    obtain ⟨x', hx', hev⟩ := exists_of_rel (hv.others b hb) hx
    exact ⟨x', hx', hev.needMaintenance hneed⟩

lemma visited_of_visit (h : Maintained s r) (ha : a ∈ r.state.inNeed) (hok : p.visit r a = .ok r') :
    ∃ st, r.state.stats.find a = some st ∧ Visited r r' a st := by
  obtain ⟨st, hst, -⟩ := ha
  obtain ⟨r1, hvisit, hv⟩ := exists_visit (p := p) h.wellFormed hst
  obtain rfl := Except.ok.inj (hvisit.symm.trans hok)
  exact ⟨st, hst, hv⟩

end

/-! ## Calls in the second loop -/

/-- A call that is made on a visit if the statistics say so: what others do to the statistics does
not take the reason away. -/
structure LoggedCall (need : AccountStats → Bool) (log : MaintenanceRun → List AccountId) : Prop where
  in_need : ∀ {st}, need st = true → st.needMaintenance = true
  evolves : ∀ {st st'}, st.Evolves st' → need st = true → need st' = true
  visited : ∀ {r r' a st}, Visited r r' a st → log r' = logged (log r) a (need st)

lemma tally_logged : LoggedCall AccountStats.hasSomeCoreVoting MaintenanceRun.tallied where
  in_need := fun h => Bool.or_eq_true_iff.2 (.inl h)
  evolves := fun h => h.hasSomeCoreVoting
  visited := fun h => h.tallied

lemma processFees_logged : LoggedCall AccountStats.hasPendingFees MaintenanceRun.processed where
  in_need := fun h => Bool.or_eq_true_iff.2 (.inr h)
  evolves := fun h hst => h.hasPendingFees_eq.trans hst
  visited := fun h => h.processed

variable {z : AccountId}

namespace LoggedCall

variable {need : AccountStats → Bool} {log : MaintenanceRun → List AccountId} {p : MaintenanceProps}
  {s : AccountsState}

variable (c : LoggedCall need log)
include c

lemma count_other (h : Maintained s r) (ha : a ∈ r.state.inNeed)
    (hne : a ≠ z) (hok : p.visit r a = .ok r') : (log r').count z = (log r).count z := by
  obtain ⟨st, -, hv⟩ := visited_of_visit h ha hok
  rw [c.visited hv]
  cases need st <;> simp [logged, hne]

lemma served (z : AccountId) :
    Walk.Served p.visit (Maintained s) (fun r => r.state.inNeed) z
      (fun r => (∃ st, r.state.stats.find z = some st ∧ need st = true) ∧ (log r).count z = 0)
      (fun r => (log r).count z = 1) where
  marked_before := by
    rintro r ⟨⟨st, hst, hneed⟩, -⟩
    exact ⟨st, hst, c.in_need hneed⟩
  before := by
    rintro r r' a h ha hne ⟨⟨st, hst, hneed⟩, hcount⟩ hok
    obtain ⟨_, -, hv⟩ := visited_of_visit h ha hok
    obtain ⟨st', hst', hev⟩ := exists_of_rel (hv.others z (Ne.symm hne)) hst
    exact ⟨⟨st', hst', c.evolves hev hneed⟩, (c.count_other h ha hne hok).trans hcount⟩
  work := by
    rintro r r' h ⟨⟨st, hst, hneed⟩, hcount⟩ hok
    obtain ⟨st', hst', hv⟩ := visited_of_visit h ⟨st, hst, c.in_need hneed⟩ hok
    obtain rfl := Option.mem_unique hst hst'
    rw [c.visited hv, count_logged_self, hcount, hneed]
    rfl
  after := by
    intro r r' a h ha hne hcount hok
    exact (c.count_other h ha hne hok).trans hcount

/-- The call is made once for an account that has a reason when the loop starts. -/
lemma count_eq_one (hs : WellFormed s)
    (hemp : log { state := s } = []) (hrun : p.accountPass fuel s = .ok r)
    (hst : s.stats.find z = some st) (hneed : need st = true) : (log r).count z = 1 := by
  refine (c.served z).after_walk (maintenance_walk hs) (.start hs) firstOf_lowerBound ⟨?_, ?_⟩ hrun
  · exact ⟨st, hst, hneed⟩
  · rw [hemp]
    rfl

/-- For no account is it made twice. -/
lemma count_le_one (hs : WellFormed s) (hemp : log { state := s } = [])
    (hrun : p.accountPass fuel s = .ok r) (z : AccountId) : (log r).count z ≤ 1 := by
  have hcount : (log r).count z = 0 ∨ (log r).count z = 1 := by
    refine (maintenance_walk hs).fresh_or_done z (fun r => (log r).count z = 0)
      (fun r => (log r).count z = 1) ?_ ?_ ?_ (.start hs) (fun a ha => firstOf_lowerBound.mem ha)
      (Or.inl ?_) hrun
    · intro r r' a h ha hne hfresh hok
      exact (c.count_other h ha hne hok).trans hfresh
    · intro r r' h hz hfresh hok
      obtain ⟨st, -, hv⟩ := visited_of_visit h hz hok
      rw [c.visited hv, count_logged_self, hfresh]
      cases need st with
      | false => exact Or.inl rfl
      | true => exact Or.inr rfl
    · intro r r' a h ha hne hdone hok
      exact (c.count_other h ha hne hok).trans hdone
    · rw [hemp]
      rfl
  omega

end LoggedCall

variable {s : AccountsState}

lemma exists_accountPass {p : MaintenanceProps} (hs : WellFormed s)
    (hfuel : s.stats.objects.length < fuel) :
    ∃ r, p.accountPass fuel s = .ok r ∧ Maintained s r := by
  refine (maintenance_walk hs).exists_walk (.start hs) (fun a ha => firstOf_lowerBound.mem ha) ?_
  calc (Walk.ahead s.nameOf _ s.lowerBound).card
      ≤ (s.stats.objects.map owner).toFinset.card := Walk.card_ahead_le
    _ ≤ (s.stats.objects.map owner).length := toFinset_card_le _
    _ = s.stats.objects.length := length_map _
    _ < fuel := hfuel

/-! ## Both loops -/

lemma getBalance_of_mem (h : WellFormed s) {b : AccountBalance} (hb : b ∈ s.balances) :
    s.getBalance b.owner b.assetType = b.balance := by
  unfold AccountsState.getBalance findBalance
  cases hfind : s.balances.find? fun c => c.key = (b.owner, b.assetType) with
  | none =>
    have := find?_eq_none.1 hfind b hb
    exact absurd (decide_eq_true rfl) this
  | some c =>
    have hfound := find?_some hfind
    have hkey : c.key = b.key := of_decide_eq_true hfound
    rw [eq_of_key h.single (mem_of_find?_eq_some hfind) hb hkey]

variable {s' : AccountsState}

lemma BalancesNoted.hasPendingFees (h : BalancesNoted s s') (hst : s.stats.find a = some st) :
    ∃ st', s'.stats.find a = some st' ∧ st'.hasPendingFees = st.hasPendingFees := by
  by_cases hfla : ∃ b ∈ s.balances, b.maintenanceFlag = true ∧ b.owner = a
  · obtain ⟨b, hb, hflag, rfl⟩ := hfla
    exact ⟨_, h.flagged b hb hflag st hst, rfl⟩
  · push Not at hfla
    exact ⟨st, (h.others a hfla).trans hst, rfl⟩

lemma BalancesNoted.length_le (hs : WellFormed s) (h : BalancesNoted s s') :
    s'.stats.objects.length ≤ s.stats.objects.length := by
  refine length_le_of_keys fun x hx => ?_
  cases hst : s.stats.find x.owner with
  | none =>
    -- an account without statistics has no balance
    have hnone : s'.stats.find x.owner = none := by
      refine (h.others x.owner fun b hb _ heq => ?_).trans hst
      obtain ⟨st, hfind⟩ := hs.owners b hb
      rw [heq, hst] at hfind
      cases hfind
    rw [find_of_mem hx] at hnone
    cases hnone
  | some st => exact mem_map.2 ⟨st, mem_of_find hst, key_of_find hst⟩

/-- For every state: with enough fuel the maintenance of the accounts ends.  It calls the tally once
for every account that has stake after the first loop, and `process_fees` once for every account with
pending fees; for no account twice.  The accounts with a flagged balance have it in their statistics,
and the balances are left without flags. -/
theorem account_maintenance_exactly_once (p : MaintenanceProps) (db : AccountsDb) :
    ∃ n, ∀ fuel, n < fuel → ∃ s r, balancePass fuel db.toAccountsState = .ok s ∧
      p.performAccountMaintenance fuel db.toAccountsState = .ok r ∧
      (∀ a st, s.stats.find a = some st → st.hasSomeCoreVoting = true → r.tallied.count a = 1) ∧
      (∀ a st, db.stats.find a = some st → st.hasPendingFees = true → r.processed.count a = 1) ∧
      (∀ a, r.tallied.count a ≤ 1 ∧ r.processed.count a ≤ 1) ∧
      (∀ b ∈ db.balances, b.maintenanceFlag = true → ∃ st, r.state.stats.find b.owner = some st ∧
        st.coreInBalance = db.getBalance b.owner 0) ∧
      r.state.balances.Perm (db.balances.map AccountBalance.unflag) ∧ WellFormed r.state := by
  refine ⟨db.balances.length + db.stats.objects.length, fun fuel hfuel => ?_⟩
  have hflags : db.balances.countP (·.maintenanceFlag) < fuel :=
    lt_of_le_of_lt (countP_le_length.trans (Nat.le_add_right _ _)) hfuel
  obtain ⟨s, hpass, hnoted⟩ := BalancesNoted.exists_balancePass db.wellFormed hflags
  have hs := hnoted.wellFormed
  have hlength := hnoted.length_le db.wellFormed
  obtain ⟨r, hrun, hkept⟩ := exists_accountPass (p := p) hs (by omega : _ < fuel)
  refine ⟨s, r, hpass, ?_, ?_, ?_, ?_, ?_, ?_, hkept.wellFormed⟩
  · rw [MaintenanceProps.performAccountMaintenance, hpass, ok_bind, hrun]
  · intro a st hst hvoting
    exact tally_logged.count_eq_one hs rfl hrun hst hvoting
  · intro a st hst hfees
    obtain ⟨st', hst', hsame⟩ := hnoted.hasPendingFees hst
    exact processFees_logged.count_eq_one hs rfl hrun hst' (hsame.trans hfees)
  · intro a
    exact ⟨tally_logged.count_le_one hs rfl hrun a, processFees_logged.count_le_one hs rfl hrun a⟩
  · intro b hb hflag
    obtain ⟨st, hst⟩ := db.wellFormed.owners b hb
    -- the second loop does not touch what the first has noted
    have hcore := hkept.core b.owner
    rw [hnoted.flagged b hb hflag st hst] at hcore
    obtain ⟨st', hst', hbalance⟩ := Option.map_eq_some_iff.1 hcore
    refine ⟨st', hst', hbalance.trans ?_⟩
    rw [← db.wellFormed.core b hb hflag]
    exact (getBalance_of_mem db.wellFormed hb).symm
  · rw [hkept.balances]
    exact hnoted.balances

/-! ## A referrer that is paid in the loop -/

def member (id referrer : AccountId) : Account where
  id := id
  membershipExpirationDate := 1000
  registrar := referrer
  referrer := referrer
  lifetimeReferrer := referrer
  networkFeePercentage := 2000
  lifetimeReferrerFeePercentage := 3000
  referrerRewardsPercentage := 5000
  votingAccount := id

/-- Two accounts have pending fees and flagged balances.  The referrer of the first votes, but has
no stake before it is paid. -/
def pendingState : AccountsState where
  accounts := {
    objects := [member 20 21, member 21 21, member 22 20]
    nodup := by decide
    nextId := 23
    bounded := by decide }
  stats := {
    objects := [{ owner := 20, name := "alice", isVoting := true, pendingFees := 1000 },
      { owner := 21, name := "bob", isVoting := true },
      { owner := 22, name := "carol", pendingVestedFees := 500 }]
    nodup := by decide }
  balances := [⟨21, 1, 7, false⟩, ⟨22, 0, 40, true⟩, ⟨20, 0, 300, true⟩]
  vestingBalances := .empty

lemma pendingState_stats : (∃ st, pendingState.stats.find a = some st) ↔ a ∈ [20, 21, 22] := by
  rw [← Option.isSome_iff_exists, Keyed.find, find?_isSome]
  simp [pendingState, eq_comm]

lemma pendingState_accounts :
    (∃ acc, pendingState.accounts.find a = some acc) ↔ a ∈ [20, 21, 22] := by
  rw [← Option.isSome_iff_exists, Keyed.find, find?_isSome]
  simp [pendingState, member, eq_comm]

def pendingDb : AccountsDb where
  toAccountsState := pendingState
  wellFormed := by
    constructor
    case names => decide
    case account => exact fun h => pendingState_accounts.2 (pendingState_stats.1 ⟨_, h⟩)
    case statistics => exact fun h => pendingState_stats.2 (pendingState_accounts.1 ⟨_, h⟩)
    case linked =>
      have hlinks : ∀ acc ∈ pendingState.accounts.objects, ∀ b ∈ acc.links, b ∈ [20, 21, 22] := by
        decide
      intro a acc h b hb
      exact pendingState_accounts.2 (hlinks acc (mem_of_find h) b hb)
    case vested =>
      have hnone : ∀ acc ∈ pendingState.accounts.objects, acc.cashbackVb = none := by decide
      intro a acc v h hv
      rw [hnone acc (mem_of_find h)] at hv
      cases hv
    case owners =>
      have howners : ∀ b ∈ pendingState.balances, b.owner ∈ [20, 21, 22] := by decide
      exact fun b hb => pendingState_stats.2 (howners b hb)
    case core => decide
    case single => decide
    case ordered => decide

def pendingProps : MaintenanceProps := ⟨10, true, true, 0, 0, true, 1000, 1000, 100⟩

/-- Both accounts with pending fees are processed once.  The referrer is paid by the first and has its
first stake then, behind the place of the loop, which goes on to the second. -/
theorem account_maintenance_pendingDb :
    (∃ n, ∀ fuel, n < fuel → ∃ r, pendingProps.performAccountMaintenance fuel pendingState = .ok r ∧
      r.processed.count 20 = 1 ∧ r.processed.count 22 = 1 ∧ r.tallied.count 21 ≤ 1 ∧
      ∃ st, r.state.stats.find 20 = some st ∧ st.coreInBalance = 300) ∧
    (pendingProps.performAccountMaintenance 9 pendingState).toOption.map (fun r =>
      (r.tallied, r.processed, r.state.vestingBalances.objects.map fun vb =>
        (vb.owner, vb.balance.amount))) = some ([20], [20, 22], [(20, 400), (21, 800)]) := by
  refine ⟨?_, by decide +kernel⟩
  obtain ⟨n, hall⟩ := account_maintenance_exactly_once pendingProps pendingDb
  refine ⟨n, fun fuel hfuel => ?_⟩
  obtain ⟨s, r, -, hrun, -, hfees, honce, hcore, -⟩ := hall fuel hfuel
  exact ⟨r, hrun, hfees 20 _ rfl rfl, hfees 22 _ rfl rfl, (honce 21).1,
    hcore ⟨20, 0, 300, true⟩ (by simp [pendingDb, pendingState]) rfl⟩

end Graphene.Maintenance
