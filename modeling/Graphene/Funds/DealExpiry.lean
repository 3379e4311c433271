import Graphene.Funds.CreditBooks

/-!
# The end of a block for credit deals

`update_credit_offers_and_deals` closes every deal that is due, one in each round of its loop, and
keeps the books.  The one way in which it can fail is a division by zero: the divisor of a partial
repayment is a sum of 32-bit numbers, which is zero for one fee rate.
-/

namespace Graphene.Funds

open Lib Protocol Accounts List Keyed Option

namespace CreditState

variable {s s' s1 : CreditState} {d : CreditDeal}

def Crashing (s : CreditState) (d : CreditDeal) : Prop :=
  d.autoRepay = .allowPartialRepayment ∧
    getBalance s.balances d.borrower d.debtAsset < totalRequired d ∧ d.feeRate = 4293967296

/-! ## One round -/

variable {feeRate : UInt32} (account : AccountId) (delta : Asset)

lemma feeDivisor_eq_zero : (feeDivisor feeRate).toNat = 0 ↔ feeRate = 4293967296 := by
  have hlt := feeRate.toNat_lt
  rw [feeDivisor, UInt32.toNat_add, ← UInt32.toNat_inj]
  change (1000000 + feeRate.toNat) % 2 ^ 32 = 0 ↔ feeRate.toNat = 4293967296
  omega

lemma divide_eq {a b : Int} (h : b ≠ 0) : divide a b = .ok (a / b) := by
  simp [divide, check, h, pure, Except.pure]

lemma partialRepayment_eq {balance : Int} (hdebt : 0 < d.debtAmount)
    (hcol : 0 < d.collateralAmount) :
    (d.feeRate = 4293967296 → partialRepayment d balance = .error .divisionByZero) ∧
      (d.feeRate ≠ 4293967296 → ∃ r, partialRepayment d balance = .ok r) := by
  constructor
  · intro hrate
    have hzero : ((feeDivisor d.feeRate).toNat : Int) = 0 := by
      rw [feeDivisor_eq_zero.2 hrate]
      rfl
    unfold partialRepayment
    rw [hzero]
    rfl
  · intro hrate
    have hne : ((feeDivisor d.feeRate).toNat : Int) ≠ 0 := by
      intro hzero
      exact hrate (feeDivisor_eq_zero.1 (Int.ofNat_eq_zero.1 hzero))
    unfold partialRepayment
    simp only [divide_eq hne, divide_eq hdebt.ne', divide_eq hcol.ne', ok_bind]
    exact ⟨_, rfl⟩

lemma repaymentAmounts_eq (hauto : d.autoRepay ≠ .noAutoRepayment) (hdebt : 0 < d.debtAmount)
    (hcol : 0 < d.collateralAmount) :
    (Crashing s d → s.repaymentAmounts d = .error .divisionByZero) ∧
      (¬ Crashing s d → ∃ r, s.repaymentAmounts d = .ok r) := by
  have hpar := @partialRepayment_eq d (getBalance s.balances d.borrower d.debtAsset)
    hdebt hcol
  unfold repaymentAmounts
  constructor
  · rintro ⟨hallow, hless, hrate⟩
    have hno : ¬ (d.autoRepay = .onlyFullRepayment ∨
        totalRequired d ≤ getBalance s.balances d.borrower d.debtAsset) := by
      rw [hallow, not_or]
      exact ⟨nofun, not_le.2 hless⟩
    rw [if_neg hno]
    exact hpar.1 hrate
  · intro hsafe
    by_cases hfull : d.autoRepay = .onlyFullRepayment ∨
        totalRequired d ≤ getBalance s.balances d.borrower d.debtAsset
    · rw [if_pos hfull]
      exact ⟨_, rfl⟩
    · rw [if_neg hfull]
      rw [not_or, not_le] at hfull
      have hallow : d.autoRepay = .allowPartialRepayment := by
        cases h : d.autoRepay with
        | noAutoRepayment => exact absurd h hauto
        | onlyFullRepayment => exact absurd h hfull.1
        | allowPartialRepayment => rfl
      exact hpar.2 fun hrate => hsafe ⟨hallow, hfull.2, hrate⟩

lemma checkAuthorized_ne_divisionByZero (a : AssetId) :
    s.checkAuthorized account a ≠ .error .divisionByZero :=
  check_bind_ne nofun fun _ _ => check_ne_error nofun

lemma adjust_ne_divisionByZero : s.adjust account delta ≠ .error .divisionByZero := by
  exact bind_ne_error (check_bind_ne nofun nofun) nofun

lemma checkRepay_ne_divisionByZero (op : CreditDealRepay) :
    s.checkRepay d op ≠ .error .divisionByZero := by
  repeat refine check_bind_ne nofun fun _ _ => ?_
  exact bind_ne_error (checkAuthorized_ne_divisionByZero _ _) fun _ _ =>
    checkAuthorized_ne_divisionByZero _ _

lemma repayDeal_ne_divisionByZero {amount : Int} (hdebt : 0 < d.debtAmount) :
    s.repayDeal d amount ≠ .error .divisionByZero := by
  unfold repayDeal
  split
  · nofun
  · rw [divide_eq hdebt.ne', ok_bind]
    exact check_bind_ne nofun nofun

lemma repay_ne_divisionByZero (hb : Books s) (op : CreditDealRepay) :
    s.creditDealRepay op ≠ .error .divisionByZero := by
  refine bind_ne_error ?_ fun d hd => bind_ne_error (checkRepay_ne_divisionByZero op) fun _ _ => ?_
  · unfold deal
    split <;> nofun
  have hdebt := (hb.deals d (mem_of_find (deal_eq_ok.1 hd))).1
  refine bind_ne_error (adjust_ne_divisionByZero _ _) fun s1 _ => bind_ne_error ?_ fun o _ =>
    check_bind_ne nofun fun _ _ => ?_
  · unfold offer
    split <;> nofun
  · split
    · nofun
    · exact bind_ne_error (repayDeal_ne_divisionByZero hdebt) fun r _ =>
        adjust_ne_divisionByZero _ _

/-- A repayment that fails changes nothing, and none divides by zero. -/
lemma tryRepay_eq (hb : Books s) (op : CreditDealRepay) : ∃ s1, s.tryRepay op = .ok s1 ∧
      (s1 = s ∨ ∃ d, s.deals.find op.dealId = some d ∧ Repaid s s1 d op.repayAmount.amount) := by
  have hne : (s.checkAuthorized op.account 0 >>= fun _ => s.creditDealRepay op)
      ≠ .error .divisionByZero :=
    bind_ne_error (checkAuthorized_ne_divisionByZero _ _) fun _ _ => repay_ne_divisionByZero hb op
  unfold tryRepay
  split
  next s1 h =>
    obtain ⟨-, -, h⟩ := bind_eq_ok.1 h
    exact ⟨s1, rfl, .inr (repay_eq_ok hb h)⟩
  next h => exact absurd h hne
  next => exact ⟨s, rfl, .inl rfl⟩

/-- The books after some rounds, for which there was time within a number of deals. -/
structure Closed (s s' : CreditState) : Prop where
  books : Books s'
  headTime : s'.headTime = s.headTime
  fewer : s'.deals.objects.length < s.deals.objects.length

lemma adjust_of_nonneg (h : 0 ≤ delta.amount) : s.adjust account delta
      = .ok { s with balances := s.balances.add (account, delta.assetId) delta.amount } := by
  unfold adjust
  rw [adjustBalance_eq_ok.2 ⟨.inl h, rfl⟩]
  rfl

section

variable (hb : Books s) (hd : s.deals.find d.id = some d)
include hb hd

lemma expireDeal_eq : ∃ s', s.expireDeal d = .ok s' ∧ Closed s s' := by
  have hmem : d ∈ s.deals.objects := mem_of_find hd
  obtain ⟨hdebt, hcol, hsome⟩ := hb.deals d hmem
  obtain ⟨o, ho⟩ := isSome_iff_exists.1 hsome
  obtain ⟨x, hx⟩ := hb.summary_of_deal hmem
  have hoid : o.id = d.offerId := key_of_find ho
  have hadj := fun t : CreditState => adjust_of_nonneg (s := t) d.offerOwner
    ⟨d.collateralAmount, d.collateralAsset⟩ hcol.le
  have hsummaries : s.expireSummary d = s.reduceSummary x d.debtAmount := by
    unfold expireSummary
    rw [show s.summaries.find (d.offerId, d.borrower) = some x from hx]
  unfold expireDeal
  simp only [offer_eq_ok.2 ho, ok_bind, hsummaries, hadj]
  refine ⟨_, rfl, hb.of_changes (k := d.pair) (δ := -d.debtAmount)
    ⟨offer_write hb rfl (o := o) (hoid ▸ ho) hoid.symm ?_ ?_, offer_kept rfl, owed_remove rfl hd,
      fun e he => .inl (mem_erase he), summed_reduce rfl hx,
      positive_reduce hb (hb.debt_le_summary hmem hx)⟩, rfl, ?_⟩
  · ring
  · exact (hb.offers _ o ho).2
  · have hlen := length_erase hd
    exact Nat.lt_of_succ_le hlen.le

lemma expireRest_eq
    (h : s1 = s ∨ ∃ amount, Repaid s s1 d amount) : ∃ s', s1.expireRest d.id = .ok s' ∧ Closed s s' := by
  have hlen := length_erase hd
  unfold expireRest
  rcases h with rfl | ⟨amount, hrep⟩
  · rw [hd]
    exact expireDeal_eq hb hd
  · have hb1 : Books s1 := hb.of_changes hrep.changes
    rcases hrep.deals with hremoved | ⟨e, heid, hwri⟩
    · have hnone : s1.deals.find d.id = none := by
        rw [hremoved]
        exact (find_erase _ _ _).trans (if_pos rfl)
      rw [hnone]
      refine ⟨s1, rfl, hb1, hrep.headTime, ?_⟩
      rw [hremoved]
      exact Nat.lt_of_succ_le hlen.le
    · have hfind : s1.deals.find d.id = some e := by
        rw [hwri]
        exact (find_put _ _ _).trans (if_pos heid.symm)
      have hsame : s1.deals.objects.length = s.deals.objects.length := by
        rw [hwri]
        exact length_put (heid ▸ hd)
      obtain ⟨s', hs', hclo⟩ := expireDeal_eq hb1 (heid ▸ hfind)
      rw [hfind]
      exact ⟨s', hs', hclo.books, hclo.headTime.trans hrep.headTime, hsame ▸ hclo.fewer⟩

lemma processDeal_eq :
    (Crashing s d → s.processDeal d = .error .divisionByZero) ∧
      (¬ Crashing s d → ∃ s', s.processDeal d = .ok s' ∧ Closed s s') := by
  obtain ⟨hdebt, hcol, -⟩ := hb.deals d (mem_of_find hd)
  unfold processDeal
  by_cases hauto : d.autoRepay = .noAutoRepayment
  · rw [if_pos hauto]
    refine ⟨fun hcrash => ?_, fun _ => expireDeal_eq hb hd⟩
    have := hcrash.1
    rw [hauto] at this
    cases this
  · rw [if_neg hauto]
    have hamo := @repaymentAmounts_eq s d hauto hdebt hcol
    refine ⟨fun hcrash => ?_, fun hsafe => ?_⟩
    · rw [hamo.1 hcrash]
      rfl
    · obtain ⟨⟨amount, fee⟩, hr⟩ := hamo.2 hsafe
      rw [hr, ok_bind]
      obtain ⟨s1, h1, hcas⟩ := tryRepay_eq hb
        ⟨d.borrower, d.id, ⟨amount, d.debtAsset⟩, ⟨fee, d.debtAsset⟩⟩
      simp only [h1, ok_bind]
      rcases hcas with hsame | ⟨d', hd', hrep⟩
      · exact expireRest_eq hb hd (.inl hsame)
      · obtain rfl : d = d' := mem_unique hd hd'
        exact expireRest_eq hb hd (.inr ⟨amount, hrep⟩)

lemma Closed.of_processDeal (h : s.processDeal d = .ok s') : Closed s s' := by
  by_cases hcrash : Crashing s d
  · rw [(processDeal_eq hb hd).1 hcrash] at h
    cases h
  · obtain ⟨s1, h1, hclo⟩ := (processDeal_eq hb hd).2 hcrash
    obtain rfl := Except.ok.inj (h.symm.trans h1)
    exact hclo

end

/-! ## The loop -/

instance : Std.Total RepaidBefore where
  total d e := by
    unfold RepaidBefore
    omega

instance : IsTrans CreditDeal RepaidBefore where
  trans d e f := by
    unfold RepaidBefore
    omega

lemma find_of_firstDue (h : s.firstDue = some d) : s.deals.find d.id = some d := by
  obtain ⟨hhead, -⟩ := filter_eq_some_iff.1 h
  have hmem : d ∈ s.byLatestRepayTime := mem_of_head? hhead
  exact find_of_mem ((mem_insertionSort _).1 hmem)

lemma later_of_firstDue (h : s.firstDue = none) (hd : d ∈ s.deals.objects) :
    s.headTime < d.latestRepayTime := by
  have hsor : s.byLatestRepayTime.Pairwise RepaidBefore :=
    pairwise_insertionSort RepaidBefore _
  have hmem : d ∈ s.byLatestRepayTime := (mem_insertionSort _).2 hd
  unfold firstDue at h
  cases hl : s.byLatestRepayTime with
  | nil =>
    rw [hl] at hmem
    cases hmem
  | cons e l =>
    rw [hl] at h hmem hsor
    have hlate : s.headTime.toNat < e.latestRepayTime.toNat := by
      rw [head?_cons, filter_eq_none_iff] at h
      have := h e rfl
      rw [decide_eq_true_eq, UInt32.not_le] at this
      exact this
    change s.headTime.toNat < d.latestRepayTime.toNat
    rcases mem_cons.1 hmem with rfl | hmem
    · exact hlate
    · have := rel_of_pairwise_cons hsor hmem
      unfold RepaidBefore at this
      omega

def Round (s s' : CreditState) : Prop :=
  ∃ d, s.firstDue = some d ∧ s.processDeal d = .ok s'

def Safe (s : CreditState) : Prop :=
  ∀ s1 d, Relation.ReflTransGen Round s s1 → s1.firstDue = some d → ¬ Crashing s1 d

variable {rounds : Nat}

lemma processDeals_succ (hdue : s.firstDue = some d) (h : s.processDeal d = .ok s') :
    processDeals (rounds + 1) s = processDeals rounds s' := by
  rw [processDeals.eq_def]
  simp only [hdue, h]
  rfl

/-- One round for each deal is enough to close every deal that is due. -/
lemma processDeals_eq_ok (hb : Books s) (hrounds : s.deals.objects.length ≤ rounds) (hsafe : Safe s) :
    ∃ s', processDeals rounds s = .ok s' ∧ Books s' ∧ s'.headTime = s.headTime ∧
      s'.firstDue = none := by
  induction rounds generalizing s with
  | zero =>
    have hnone : s.firstDue = none := by
      cases hdue : s.firstDue with
      | none => rfl
      | some d =>
        have hmem := mem_of_find (find_of_firstDue hdue)
        exact absurd (length_pos_of_mem hmem) (by omega)
    refine ⟨s, ?_, hb, rfl, hnone⟩
    rw [processDeals.eq_def]
    simp only [hnone]
  | succ rounds ih =>
    cases hdue : s.firstDue with
    | none =>
      refine ⟨s, ?_, hb, rfl, hdue⟩
      rw [processDeals.eq_def]
      simp only [hdue]
    | some d =>
      have hround := (processDeal_eq hb (find_of_firstDue hdue)).2 (hsafe s d .refl hdue)
      obtain ⟨s1, h1, hclo⟩ := hround
      have hfewer := hclo.fewer
      have hsafe1 : Safe s1 := fun s2 e hrun => hsafe s2 e (.head ⟨d, hdue, h1⟩ hrun)
      obtain ⟨s', hs', hb', htime, hnone⟩ := ih hclo.books (by omega) hsafe1
      rw [processDeals_succ hdue h1]
      exact ⟨s', hs', hb', htime.trans hclo.headTime, hnone⟩

lemma processDeals_eq_error (hb : Books s) (hrounds : s.deals.objects.length ≤ rounds)
    (hrun : Relation.ReflTransGen Round s s1) (hdue : s1.firstDue = some d)
    (hcrash : Crashing s1 d) : processDeals rounds s = .error .divisionByZero := by
  induction hrun using Relation.ReflTransGen.head_induction_on generalizing rounds with
  | refl =>
    have hd := find_of_firstDue hdue
    have hpos := length_pos_of_mem (mem_of_find hd)
    obtain ⟨rounds, rfl⟩ : ∃ n, rounds = n + 1 := ⟨rounds - 1, by omega⟩
    rw [processDeals.eq_def]
    simp only [hdue, (processDeal_eq hb hd).1 hcrash]
    rfl
  | head hround _ ih =>
    obtain ⟨e, hdue', hs2⟩ := hround
    have he := find_of_firstDue hdue'
    have hpos := length_pos_of_mem (mem_of_find he)
    obtain ⟨rounds, rfl⟩ : ∃ n, rounds = n + 1 := ⟨rounds - 1, by omega⟩
    have hclo := Closed.of_processDeal hb he hs2
    have hfewer := hclo.fewer
    rw [processDeals_succ hdue' hs2]
    exact ih hclo.books (by omega)

structure SameBooks (s t : CreditState) : Prop where
  balances : ∀ id, (t.offers.find id).map (fun o => (o.totalBalance, o.currentBalance))
    = (s.offers.find id).map fun o => (o.totalBalance, o.currentBalance)
  deals : t.deals = s.deals
  summaries : t.summaries = s.summaries
  headTime : t.headTime = s.headTime

lemma SameBooks.books {t : CreditState} (h : SameBooks s t) (hb : Books s) : Books t := by
  have howed : t.owed = s.owed := by
    unfold owed
    rw [h.deals]
  refine ⟨fun id o ho => ?_, fun d hd => ?_, fun k => ?_, h.summaries ▸ hb.positive⟩
  · have hbals := h.balances id
    rw [ho, map_some, eq_comm, map_eq_some_iff] at hbals
    obtain ⟨o', ho', heq⟩ := hbals
    obtain ⟨htot, hcur⟩ := Prod.mk.inj heq
    rw [howed, ← htot, ← hcur]
    exact hb.offers id o' ho'
  · rw [h.deals] at hd
    obtain ⟨hdebt, hcol, hsome⟩ := hb.deals d hd
    refine ⟨hdebt, hcol, ?_⟩
    have hbals := congrArg isSome (h.balances d.offerId)
    rw [isSome_map, isSome_map] at hbals
    exact hbals.trans hsome
  · rw [howed, ← hb.summaries, summed, summed, h.summaries]

lemma disableOffers_same (s : CreditState) : SameBooks s s.disableOffers := by
  have hfold : ∀ (l : List CreditOffer), (∀ o ∈ l, o ∈ s.offers.objects) → ∀ t, SameBooks s t →
      SameBooks s (l.foldl
        (fun s o => { s with offers := s.offers.write { o with enabled := false } }) t) := by
    intro l
    induction l with
    | nil => exact fun _ t ht => ht
    | cons o l ih =>
      intro hmem t ht
      refine ih (forall_mem_cons.1 hmem).2 _ ⟨fun id => ?_, ht.deals, ht.summaries, ht.headTime⟩
      have ho := find_of_mem (hmem o mem_cons_self)
      have hput := find_put t.offers.toKeyed { o with enabled := false } id
      refine (congrArg (Option.map _) hput).trans ?_
      split
      next hid =>
        subst hid
        rw [ho]
        rfl
      next => exact ht.balances id
  exact hfold _ (fun o ho => (mem_filter.1 ho).1) s ⟨fun _ => rfl, rfl, rfl, rfl⟩

lemma update_eq (hb : Books s) :
    (s.disableOffers.Safe → ∃ s', s.updateCreditOffersAndDeals = .ok s' ∧ Books s' ∧
      ∀ d ∈ s'.deals.objects, s.headTime < d.latestRepayTime) ∧
    (¬ s.disableOffers.Safe → s.updateCreditOffersAndDeals = .error .divisionByZero) := by
  have hsame := disableOffers_same s
  have hbooks := hsame.books hb
  have hrounds : s.disableOffers.deals.objects.length ≤ s.deals.objects.length := by
    rw [hsame.deals]
  constructor
  · intro hsafe
    obtain ⟨s', hs', hb', htime, hnone⟩ := processDeals_eq_ok hbooks hrounds hsafe
    refine ⟨s', hs', hb', fun d hd => ?_⟩
    rw [← hsame.headTime, ← htime]
    exact later_of_firstDue hnone hd
  · intro hunsafe
    simp only [Safe, not_forall, not_not] at hunsafe
    obtain ⟨s1, d, hrun, hdue, hcrash⟩ := hunsafe
    exact processDeals_eq_error hbooks hrounds hrun hdue hcrash

/-! ## Runs -/

/-- The database goes from one state to the next: an operation on credit offers and deals, the end
of a block, or anything that does not touch them. -/
inductive Step : CreditState → CreditState → Prop
  | operation {s s' : CreditState} (op : CreditOperation) (h : s.perform op = .ok s') : Step s s'
  | block {s s' : CreditState} (h : s.updateCreditOffersAndDeals = .ok s') : Step s s'
  | elsewhere {s s' : CreditState} (hoffers : s'.offers = s.offers) (hdeals : s'.deals = s.deals)
      (hsummaries : s'.summaries = s.summaries) : Step s s'

lemma Step.books (hb : Books s) (h : Step s s') : Books s' := by
  cases h with
  | operation op h => exact perform_books hb h
  | block h =>
    by_cases hsafe : s.disableOffers.Safe
    · obtain ⟨s1, h1, hb1, -⟩ := (update_eq hb).1 hsafe
      obtain rfl := Except.ok.inj (h.symm.trans h1)
      exact hb1
    · rw [(update_eq hb).2 hsafe] at h
      cases h
  | elsewhere hoffers hdeals hsummaries => exact hb.of_eq hoffers hdeals hsummaries

def IsBlank (s : CreditState) : Prop :=
  s.offers.objects = [] ∧ s.deals.objects = [] ∧ s.summaries.objects = []

lemma IsBlank.books (h : IsBlank s) : Books s := by
  obtain ⟨hoffers, hdeals, hsummaries⟩ := h
  have howed : ∀ w, s.owed w = 0 := by
    intro w
    rw [owed, total, hdeals]
    rfl
  refine ⟨fun id o ho => ?_, fun d hd => ?_, fun k => ?_, fun x hx => ?_⟩
  · have hmem := mem_of_find ho
    rw [hoffers] at hmem
    cases hmem
  · rw [hdeals] at hd
    cases hd
  · rw [howed, summed, find, hsummaries]
    rfl
  · rw [hsummaries] at hx
    cases hx

def debtOf (s : CreditState) (p : CreditDeal → Bool) : Int :=
  ((s.deals.objects.filter p).map CreditDeal.debtAmount).sum

lemma owed_eq_debtOf {w : Nat × AccountId → Int} {p : CreditDeal → Bool}
    (h : ∀ d : CreditDeal, w d.pair = if p d then 1 else 0) : s.owed w = s.debtOf p := by
  unfold owed debtOf total
  induction s.deals.objects with
  | nil => rfl
  | cons d l ih =>
    rw [map_cons, sum_cons, ih, h, filter_cons]
    split
    · rw [one_mul, map_cons, sum_cons]
    · rw [zero_mul, zero_add]

/-- The books as they are read: what is lent is owed, and summaries sum it up. -/
structure Bookkeeping (s : CreditState) : Prop where
  offer : ∀ o ∈ s.offers.objects,
    o.totalBalance - o.currentBalance = s.debtOf (fun d => d.offerId = o.id) ∧
      0 ≤ o.currentBalance ∧ o.currentBalance ≤ o.totalBalance
  deal : ∀ d ∈ s.deals.objects, 0 < d.debtAmount ∧ 0 < d.collateralAmount
  summary_iff : ∀ offerId borrower, (s.summaries.find (offerId, borrower)).isSome ↔
    ∃ d ∈ s.deals.objects, d.offerId = offerId ∧ d.borrower = borrower
  summary : ∀ x ∈ s.summaries.objects, x.totalDebtAmount =
    s.debtOf fun d => d.offerId = x.offerId && d.borrower = x.borrower

lemma Books.bookkeeping (hb : Books s) : Bookkeeping s where
  offer := by
    intro o ho
    obtain ⟨hdiff, hnon⟩ := hb.offers o.id o (find_of_mem ho)
    have howed := owed_nonneg hb (ofOffer_nonneg o.id)
    refine ⟨?_, hnon, by omega⟩
    rw [hdiff]
    refine owed_eq_debtOf fun d => ?_
    by_cases hd : d.offerId = o.id <;> simp [ofOffer, CreditDeal.pair, hd]
  deal := fun d hd => ⟨(hb.deals d hd).1, (hb.deals d hd).2.1⟩
  summary_iff := by
    intro offerId borrower
    constructor
    · intro hsome
      obtain ⟨x, hx⟩ := isSome_iff_exists.1 hsome
      have hpos := hb.positive x (mem_of_find hx)
      have hsum := hb.summaries (offerId, borrower)
      rw [summed, hx, elim_some] at hsum
      -- a total that is not zero counts some deal
      by_contra hnone
      have hzero : s.owed (ofPair (offerId, borrower)) = 0 := by
        apply sum_eq_zero
        intro y hy
        obtain ⟨d, hd, rfl⟩ := mem_map.1 hy
        have hne : d.pair ≠ (offerId, borrower) := by
          intro heq
          obtain ⟨ho, hbor⟩ := Prod.mk.inj heq
          exact hnone ⟨d, hd, ho, hbor⟩
        rw [ofPair, if_neg hne, zero_mul]
      omega
    · rintro ⟨d, hd, rfl, rfl⟩
      obtain ⟨x, hx⟩ := hb.summary_of_deal hd
      exact isSome_iff_exists.2 ⟨x, hx⟩
  summary := by
    intro x hx
    have hsum := hb.summaries x.pair
    rw [summed, find_of_mem hx, elim_some] at hsum
    rw [hsum]
    refine owed_eq_debtOf fun d => ?_
    simp [ofPair, CreditDeal.pair, CreditDealSummary.pair]

/-- In every run the books agree; and the end of a block, which leaves no deal that is due,
succeeds exactly when no automatic repayment divides by zero. -/
theorem credit_books_agree {s0 : CreditState} (hblank : IsBlank s0)
    (hrun : Relation.ReflTransGen Step s0 s) : Bookkeeping s ∧
      ((∃ s', s.updateCreditOffersAndDeals = .ok s' ∧
        ∀ d ∈ s'.deals.objects, s.headTime < d.latestRepayTime) ↔ s.disableOffers.Safe) := by
  have hb : Books s := by
    induction hrun with
    | refl => exact hblank.books
    | tail _ hstep ih => exact hstep.books ih
  refine ⟨hb.bookkeeping, fun ⟨s', hs', _⟩ => ?_, fun hsafe => ?_⟩
  · by_contra hunsafe
    rw [(update_eq hb).2 hunsafe] at hs'
    cases hs'
  · obtain ⟨s', hs', -, hlater⟩ := (update_eq hb).1 hsafe
    exact ⟨s', hs', hlater⟩

/-- Everything exists and is allowed; account 1 has 1000 of asset 1, and account 2 has 500 of
asset 2. -/
def beforeOffers : CreditState where
  rules := ⟨fun _ => true, fun _ => true, fun _ _ => true⟩
  headTime := 1000
  balances := (Tally.add Keyed.empty (1, 1) 1000).add (2, 2) 500
  offers := Store.empty
  deals := Store.empty
  summaries := Keyed.empty

def offerAt (feeRate : UInt32) : CreditOperation :=
  .create ⟨1, 1, 1000, feeRate, 86400, 1, true, 90000,
    Keyed.empty.put (2, ⟨⟨1, 1⟩, ⟨1, 2⟩⟩), Keyed.empty⟩

def borrowAt (feeRate : UInt32) : CreditOperation :=
  .accept ⟨2, 0, ⟨500, 1⟩, ⟨500, 2⟩, feeRate, 86400, some .allowPartialRepayment⟩

def after (s : CreditState) (op : CreditOperation) : CreditState :=
  match s.perform op with
  | .ok s' => s'
  | .error _ => s

def overdue (feeRate : UInt32) : CreditState :=
  { (beforeOffers.after (offerAt feeRate)).after (borrowAt feeRate) with headTime := 90000 }

lemma overdue_of_beforeOffers {s2 : CreditState}
    (h1 : beforeOffers.perform (offerAt feeRate) = .ok s1)
    (h2 : s1.perform (borrowAt feeRate) = .ok s2) :
    Relation.ReflTransGen Step beforeOffers (overdue feeRate) := by
  have haft : (beforeOffers.after (offerAt feeRate)).after (borrowAt feeRate) = s2 := by
    simp only [after, h1, h2]
  unfold overdue
  rw [haft]
  exact .tail (.tail (.single (.operation _ h1)) (.operation _ h2)) (.elsewhere rfl rfl rfl)

/-- At a fee of 3% the borrower, who has 500, repays 485 and pays a fee of 15. -/
theorem credit_books_agree_overdue :
    (overdue 30000).Bookkeeping ∧ (overdue 30000).disableOffers.Safe ∧
      (overdue 30000).deals.objects.length = 1 := by
  have hbooks := credit_books_agree (s := overdue 30000) ⟨rfl, rfl, rfl⟩
    (overdue_of_beforeOffers rfl rfl)
  exact ⟨hbooks.1, hbooks.2.1 ⟨_, rfl, nofun⟩, rfl⟩

/-- The fee rate for which the divisor wraps around to zero. -/
theorem overdue_deal_divides_by_zero :
    IsBlank beforeOffers ∧ Relation.ReflTransGen Step beforeOffers (overdue 4293967296) ∧
      (overdue 4293967296).updateCreditOffersAndDeals = .error .divisionByZero := by
  exact ⟨⟨rfl, rfl, rfl⟩, overdue_of_beforeOffers rfl rfl, rfl⟩

end CreditState

end Graphene.Funds
