import Graphene.Funds.CreditOffer

/-!
# The books of credit offers

What is lent out of an offer is what its open deals owe, and a summary has the sum of what a borrower
owes to an offer.  The invariant is stated with the total of all debts, each weighed by its offer and
borrower (`owed`).
-/

namespace Graphene.Funds

open Lib Protocol Accounts List Keyed Option

namespace CreditState

variable {s s' : CreditState} {d : CreditDeal} {k : Nat × AccountId} {δ : Int}
  {w : Nat × AccountId → Int}

/-- What the open deals owe, each weighed by its offer and borrower. -/
def owed (s : CreditState) (w : Nat × AccountId → Int) : Int :=
  s.deals.total fun d => w d.pair * d.debtAmount

def ofOffer (id : Nat) (k : Nat × AccountId) : Int :=
  if k.1 = id then 1 else 0

def ofPair (j k : Nat × AccountId) : Int :=
  if k = j then 1 else 0

structure Books (s : CreditState) : Prop where
  offers : ∀ id o, s.offers.find id = some o →
    o.totalBalance - o.currentBalance = s.owed (ofOffer id) ∧ 0 ≤ o.currentBalance
  deals : ∀ d ∈ s.deals.objects,
    0 < d.debtAmount ∧ 0 < d.collateralAmount ∧ (s.offers.find d.offerId).isSome
  summaries : ∀ k, s.summed k = s.owed (ofPair k)
  positive : ∀ x ∈ s.summaries.objects, 0 < x.totalDebtAmount

lemma Books.debt_le_owed (h : Books s) (hd : d ∈ s.deals.objects) (hw : ∀ k, 0 ≤ w k) :
    w d.pair * d.debtAmount ≤ s.owed w := by
  have hnon : ∀ x ∈ s.deals.objects.map (fun d => w d.pair * d.debtAmount), 0 ≤ x := by
    intro x hx
    obtain ⟨e, he, rfl⟩ := mem_map.1 hx
    exact mul_nonneg (hw _) (h.deals e he).1.le
  exact single_le_sum hnon _ (mem_map_of_mem hd)

lemma ofOffer_nonneg (id : Nat) (k : Nat × AccountId) : 0 ≤ ofOffer id k := by
  unfold ofOffer
  split <;> decide

lemma ofPair_nonneg (j k : Nat × AccountId) : 0 ≤ ofPair j k := by
  unfold ofPair
  split <;> decide

lemma owed_nonneg (h : Books s) (hw : ∀ k, 0 ≤ w k) : 0 ≤ s.owed w := by
  apply sum_nonneg
  intro x hx
  obtain ⟨e, he, rfl⟩ := mem_map.1 hx
  exact mul_nonneg (hw _) (h.deals e he).1.le

variable {id : Nat}

lemma Books.no_deal (h : Books s) (hzero : s.owed (ofOffer id) = 0) (hd : d ∈ s.deals.objects) :
    d.offerId ≠ id := by
  rintro rfl
  have hle := h.debt_le_owed hd (ofOffer_nonneg d.offerId)
  have hpos := (h.deals d hd).1
  have hwei : ofOffer d.offerId d.pair = 1 := if_pos rfl
  rw [hwei, one_mul, hzero] at hle
  exact absurd hle (not_le.2 hpos)

/-! ## One debt changes -/

/-- The debt of a borrower in an offer changes, in all the books. -/
structure Changes (s s' : CreditState) (k : Nat × AccountId) (δ : Int) : Prop where
  offer : ∀ id o', s'.offers.find id = some o' → ∃ o, s.offers.find id = some o ∧
    o'.totalBalance - o'.currentBalance = o.totalBalance - o.currentBalance + ofOffer id k * δ ∧
      0 ≤ o'.currentBalance
  kept : ∀ id, (s.offers.find id).isSome → (s'.offers.find id).isSome
  owed : ∀ w, s'.owed w = s.owed w + w k * δ
  deals : ∀ d ∈ s'.deals.objects, d ∈ s.deals.objects ∨
    0 < d.debtAmount ∧ 0 < d.collateralAmount ∧ (s.offers.find d.offerId).isSome
  summed : ∀ j, s'.summed j = s.summed j + ofPair j k * δ
  positive : ∀ x ∈ s'.summaries.objects, 0 < x.totalDebtAmount

/-- A change made in all the books keeps them in agreement. -/
lemma Books.of_changes (h : Books s) (hc : Changes s s' k δ) : Books s' where
  offers := by
    intro id o' ho'
    obtain ⟨o, ho, hdiff, hnon⟩ := hc.offer id o' ho'
    exact ⟨by rw [hdiff, (h.offers id o ho).1, hc.owed], hnon⟩
  deals := by
    intro d hd
    rcases hc.deals d hd with hd | ⟨hdebt, hcol, ho⟩
    · obtain ⟨hdebt, hcol, ho⟩ := h.deals d hd
      exact ⟨hdebt, hcol, hc.kept _ ho⟩
    · exact ⟨hdebt, hcol, hc.kept _ ho⟩
  summaries := by
    intro j
    rw [hc.summed, hc.owed, h.summaries]
  positive := hc.positive

lemma Books.of_eq (h : Books s) (hoffers : s'.offers = s.offers) (hdeals : s'.deals = s.deals)
    (hsummaries : s'.summaries = s.summaries) : Books s' := by
  have howed : s'.owed = s.owed := by
    unfold CreditState.owed
    rw [hdeals]
  obtain ⟨h1, h2, h3, h4⟩ := h
  refine ⟨?_, ?_, ?_, hsummaries ▸ h4⟩
  · rwa [howed, hoffers]
  · rwa [hdeals, hoffers]
  · unfold CreditState.summed
    rw [howed, hsummaries]
    exact h3

variable {o n : CreditOffer}

lemma offer_write (h : Books s) (hoffers : s'.offers = s.offers.write n)
    (ho : s.offers.find n.id = some o) (hk : k.1 = n.id)
    (hdiff : n.totalBalance - n.currentBalance = o.totalBalance - o.currentBalance + δ)
    (hnon : 0 ≤ n.currentBalance) (id : Nat) {o' : CreditOffer}
    (ho' : s'.offers.find id = some o') : ∃ o, s.offers.find id = some o ∧
      o'.totalBalance - o'.currentBalance = o.totalBalance - o.currentBalance + ofOffer id k * δ ∧
      0 ≤ o'.currentBalance := by
  rw [hoffers] at ho'
  have hfind := find_put s.offers.toKeyed n id
  by_cases hid : id = n.id
  · rw [if_pos hid] at hfind
    obtain rfl : n = o' := Option.mem_unique hfind ho'
    refine ⟨o, hid ▸ ho, ?_, hnon⟩
    rw [ofOffer, if_pos (hk.trans hid.symm), one_mul, hdiff]
  · rw [if_neg hid] at hfind
    have hold := hfind.symm.trans ho'
    refine ⟨o', hold, ?_, (h.offers id o' hold).2⟩
    rw [ofOffer, if_neg (fun he => hid (he.symm.trans hk)), zero_mul, add_zero]

lemma offer_kept (hoffers : s'.offers = s.offers.write n) (id : Nat)
    (h : (s.offers.find id).isSome) : (s'.offers.find id).isSome := by
  rw [hoffers]
  have hfind := find_put s.offers.toKeyed n id
  change (Keyed.find (s.offers.toKeyed.put n) id).isSome
  rw [hfind]
  split
  · rfl
  · exact h

lemma owed_write {e : CreditDeal} (hdeals : s'.deals = s.deals.write e)
    (hd : s.deals.find e.id = some d) (hpair : e.pair = d.pair)
    (hdebt : e.debtAmount = d.debtAmount + δ) (w : Nat × AccountId → Int) :
    s'.owed w = s.owed w + w d.pair * δ := by
  unfold owed
  rw [hdeals, Store.write, total_put, hd, hpair, hdebt]
  simp only [elim_some]
  ring

lemma owed_remove (hdeals : s'.deals = s.deals.remove d.id) (hd : s.deals.find d.id = some d)
    (w : Nat × AccountId → Int) : s'.owed w = s.owed w + w d.pair * -d.debtAmount := by
  unfold owed
  have htot := total_erase s.deals.toKeyed d.id fun d => w d.pair * d.debtAmount
  rw [hd] at htot
  rw [hdeals]
  refine htot.trans ?_
  simp only [elim_some]
  ring

variable {x : CreditDealSummary} {amount : Int}

lemma summed_put (hsummaries : s'.summaries = s.summaries.put x) (hk : x.pair = k)
    (hx : x.totalDebtAmount = s.summed k + δ) (j : Nat × AccountId) :
    s'.summed j = s.summed j + ofPair j k * δ := by
  subst hk
  unfold summed
  rw [hsummaries, find_put]
  by_cases hj : j = x.pair
  · subst hj
    rwa [if_pos rfl, ofPair, if_pos rfl, one_mul]
  · rw [if_neg hj, ofPair, if_neg (Ne.symm hj), zero_mul, add_zero]

lemma summed_reduce (hsummaries : s'.summaries = s.reduceSummary x amount)
    (hx : s.summaries.find k = some x) (j : Nat × AccountId) :
    s'.summed j = s.summed j + ofPair j k * -amount := by
  obtain rfl : x.pair = k := key_of_find hx
  have hsum : s.summed x.pair = x.totalDebtAmount := by
    unfold summed
    rw [hx]
    rfl
  unfold reduceSummary at hsummaries
  split at hsummaries
  next hall =>
    -- all of the debt: the summary goes away
    unfold summed at hsum ⊢
    rw [hsummaries, find_erase]
    by_cases hj : j = x.pair
    · subst hj
      rw [if_pos rfl, ofPair, if_pos rfl, one_mul, hsum, hall, elim_none, add_neg_cancel]
    · rw [if_neg hj, ofPair, if_neg (Ne.symm hj), zero_mul, add_zero]
  next hpart =>
    refine summed_put hsummaries rfl ?_ j
    change x.totalDebtAmount - amount = s.summed x.pair + -amount
    rw [hsum, sub_eq_add_neg]

lemma positive_reduce (h : Books s) (hle : amount ≤ x.totalDebtAmount) :
    ∀ y ∈ (s.reduceSummary x amount).objects, 0 < y.totalDebtAmount := by
  intro y hy
  unfold reduceSummary at hy
  split at hy
  next => exact h.positive y (mem_erase hy)
  next hpart =>
    rcases mem_put hy with rfl | hy
    · change 0 < x.totalDebtAmount - amount
      omega
    · exact h.positive y hy

lemma Books.debt_le_summary (h : Books s) (hd : d ∈ s.deals.objects)
    (hx : s.summaries.find d.pair = some x) : d.debtAmount ≤ x.totalDebtAmount := by
  have hle := h.debt_le_owed hd (ofPair_nonneg d.pair)
  rwa [← h.summaries, summed, hx, ofPair, if_pos rfl, one_mul] at hle

lemma Books.summary_of_deal (h : Books s) (hd : d ∈ s.deals.objects) :
    ∃ x, s.summaries.find d.pair = some x := by
  have hle := h.debt_le_owed hd (ofPair_nonneg d.pair)
  have hpos := (h.deals d hd).1
  cases hx : s.summaries.find d.pair with
  | some x => exact ⟨x, rfl⟩
  | none =>
    rw [← h.summaries, summed, hx, ofPair, if_pos rfl, one_mul] at hle
    exact absurd hle (not_le.2 hpos)

/-! ## The evaluators -/

lemma offer_eq_ok : s.offer id = .ok o ↔ s.offers.find id = some o := by
  unfold offer
  cases s.offers.find id <;> simp

lemma deal_eq_ok : s.deal id = .ok d ↔ s.deals.find id = some d := by
  unfold deal
  cases s.deals.find id <;> simp

lemma create_books {op : CreditOfferCreate} (hb : Books s) (h : s.creditOfferCreate op = .ok s') :
    Books s' := by
  simp only [creditOfferCreate, CreditOfferCreate.isValid, adjust, checkAuthorized, bind_eq_ok, check_eq_ok,
    exists_const, Bool.and_eq_true, decide_eq_true_eq, pure_eq_ok] at h
  obtain ⟨⟨⟨⟨⟨hpos, -⟩, -⟩, -⟩, -⟩, -, -, -, -, s1, ⟨b, -, rfl⟩, rfl⟩ := h
  -- no deal refers to the new offer
  have hnew : s.owed (ofOffer s.offers.nextId) = 0 := by
    apply sum_eq_zero
    intro x hx
    obtain ⟨e, he, rfl⟩ := mem_map.1 hx
    have hne : e.offerId ≠ s.offers.nextId := by
      intro heq
      have := (hb.deals e he).2.2
      rw [heq, Store.find_nextId] at this
      cases this
    rw [ofOffer, CreditDeal.pair, if_neg hne, zero_mul]
  refine ⟨fun id o ho => ?_, fun d hd => ?_, hb.summaries, hb.positive⟩
  · have hfind := find_put s.offers.toKeyed (s.newOffer op) id
    have ho' := hfind.symm.trans ho
    split at ho'
    next hid =>
      cases ho'
      subst hid
      exact ⟨(sub_self _).trans hnew.symm, hpos.le⟩
    next => exact hb.offers id o ho'
  · obtain ⟨hdebt, hcol, ho⟩ := hb.deals d hd
    exact ⟨hdebt, hcol, offer_kept (s := s) rfl _ ho⟩

lemma delete_books {op : CreditOfferDelete} (hb : Books s) (h : s.creditOfferDelete op = .ok s') :
    Books s' := by
  simp only [creditOfferDelete, adjust, bind_eq_ok, ↓check_then, pure_eq_ok, offer_eq_ok] at h
  obtain ⟨o, ho, -, heq, s1, ⟨b, -, rfl⟩, rfl⟩ := h
  have hzero : s.owed (ofOffer op.offerId) = 0 := by
    rw [← (hb.offers _ o ho).1, heq, sub_self]
  have hfind : ∀ id, (s.offers.remove op.offerId).find id
      = if id = op.offerId then none else s.offers.find id := find_erase _ _
  refine ⟨fun id o' ho' => ?_, fun d hd => ?_, hb.summaries, hb.positive⟩
  · have ho' := (hfind id).symm.trans ho'
    split at ho'
    next => cases ho'
    next => exact hb.offers id o' ho'
  · obtain ⟨hdebt, hcol, hsome⟩ := hb.deals d hd
    refine ⟨hdebt, hcol, ?_⟩
    rwa [hfind, if_neg (hb.no_deal hzero hd)]

lemma update_books {op : CreditOfferUpdate} (hb : Books s) (h : s.creditOfferUpdate op = .ok s') :
    Books s' := by
  simp only [creditOfferUpdate, checkOfferBalance, bind_eq_ok, check_eq_ok, exists_const,
    Bool.and_eq_true, decide_eq_true_eq, pure_eq_ok, offer_eq_ok] at h
  obtain ⟨-, o, ho, -, -, -, -, -, -, s1, h1, ⟨⟨-, hnon⟩, -⟩, -, rfl⟩ := h
  obtain ⟨b, rfl⟩ : ∃ b, s1 = { s with balances := b } := by
    cases hd : op.deltaAmount with
    | none =>
      rw [hd] at h1
      cases h1
      exact ⟨_, rfl⟩
    | some =>
      rw [hd] at h1
      obtain ⟨b, -, h1⟩ := bind_eq_ok.1 h1
      exact ⟨b, (pure_eq_ok.1 h1).symm⟩
  have hid : o.id = op.offerId := key_of_find ho
  have ho : s.offers.find (updatedOffer o op).id = some o := hid ▸ ho
  -- total and current balance change by the same amount
  have hdiff : (updatedOffer o op).totalBalance - (updatedOffer o op).currentBalance
      = o.totalBalance - o.currentBalance + 0 := by
    unfold updatedOffer
    ring
  refine hb.of_changes (k := (o.id, 0)) (δ := 0)
    ⟨offer_write hb rfl ho rfl hdiff hnon, offer_kept rfl, fun w => ?_, fun d hd => .inl hd,
      fun j => ?_, hb.positive⟩
  · rw [mul_zero, add_zero]
    rfl
  · rw [mul_zero, add_zero]
    rfl

lemma accept_books {op : CreditOfferAccept} (hb : Books s) (h : s.creditOfferAccept op = .ok s') :
    Books s' := by
  simp only [creditOfferAccept, adjust, checkAccept, CreditOfferAccept.isValid, checkAuthorized,
    checkOfferBalance, bind_eq_ok, check_eq_ok, exists_const, Bool.and_eq_true, decide_eq_true_eq,
    pure_eq_ok, offer_eq_ok] at h
  obtain ⟨o, ho, u, ⟨⟨hbor, hcol⟩, -⟩, s1, ⟨b1, -, rfl⟩, s2, ⟨b2, -, rfl⟩,
    ⟨⟨-, hnon⟩, -⟩, -, -, rfl⟩ := h
  have hid : o.id = op.offerId := key_of_find ho
  have hpair : (s.newSummary o op).pair = (op.offerId, op.borrower) := by
    unfold newSummary
    split
    next x hx => exact (key_of_find hx : x.pair = _)
    next => rfl
  have hsum : (s.newSummary o op).totalDebtAmount
      = s.summed (op.offerId, op.borrower) + op.borrowAmount.amount := by
    unfold newSummary summed
    cases s.summaries.find (op.offerId, op.borrower) with
    | none => exact (zero_add _).symm
    | some => rfl
  have hpos : 0 < (s.newSummary o op).totalDebtAmount := by
    rw [hsum, hb.summaries]
    exact add_pos_of_nonneg_of_pos (owed_nonneg hb (ofPair_nonneg _)) hbor
  refine hb.of_changes (k := (op.offerId, op.borrower)) (δ := op.borrowAmount.amount)
    ⟨offer_write hb rfl (o := o) (hid ▸ ho) hid.symm ?_ hnon, offer_kept rfl, fun w => ?_, ?_,
      summed_put rfl hpair hsum, ?_⟩
  · ring
  · refine (total_put s.deals.toKeyed _ _).trans ?_
    have hfre : s.deals.find s.deals.nextId = none := Store.find_nextId _
    change _ - (s.deals.find s.deals.nextId).elim _ _ + _ = _
    rw [hfre, elim_none, sub_zero]
    rfl
  · intro d hd
    rcases mem_put hd with rfl | hd
    · refine .inr ⟨hbor, hcol, ?_⟩
      change (s.offers.find op.offerId).isSome
      rw [ho]
      rfl
    · exact .inl hd
  · intro x hx
    rcases mem_put hx with rfl | hx
    · exact hpos
    · exact hb.positive x hx

lemma toInt64_le {x : Int} (h : 0 ≤ x) : toInt64 x ≤ x := by
  rw [toInt64, Int.bmod_def]
  split <;> omega

lemma repayDeal_eq_ok {released : Int} {deals : Store CreditDeal.id} (hdebt : 0 < d.debtAmount)
    (hcol : 0 < d.collateralAmount) (hpos : 0 < amount) (hle : amount ≤ d.debtAmount)
    (h : s.repayDeal d amount = .ok (released, deals)) :
    (amount = d.debtAmount ∧ deals = s.deals.remove d.id) ∨
      ∃ e : CreditDeal, e.id = d.id ∧ e.pair = d.pair ∧ e.debtAmount = d.debtAmount + -amount ∧
        0 < e.debtAmount ∧ 0 < e.collateralAmount ∧ deals = s.deals.write e := by
  unfold repayDeal at h
  split at h
  next hall =>
    cases h
    exact .inl ⟨hall.symm, rfl⟩
  next hpart =>
    simp only [divide, bind_eq_ok, ↓check_then, pure_eq_ok, Prod.mk.injEq] at h
    obtain ⟨x, ⟨-, rfl⟩, hless, rfl, rfl⟩ := h
    have hnon : 0 ≤ amount * d.collateralAmount / d.debtAmount :=
      Int.ediv_nonneg (mul_nonneg hpos.le hcol.le) hdebt.le
    have hrest := toInt64_le hnon
    let e : CreditDeal :=
      { d with
        debtAmount := d.debtAmount - amount
        collateralAmount :=
          d.collateralAmount - toInt64 (amount * d.collateralAmount / d.debtAmount) }
    refine .inr ⟨e, rfl, rfl, sub_eq_add_neg _ _, ?_, ?_, rfl⟩
    · change 0 < d.debtAmount - amount
      omega
    · change 0 < d.collateralAmount - toInt64 (amount * d.collateralAmount / d.debtAmount)
      omega

/-- What a repayment does: the debt is reduced in all books, and the deal is closed or written
back. -/
structure Repaid (s s' : CreditState) (d : CreditDeal) (amount : Int) : Prop where
  changes : Changes s s' d.pair (-amount)
  deals : s'.deals = s.deals.remove d.id ∨ ∃ e, e.id = d.id ∧ s'.deals = s.deals.write e
  headTime : s'.headTime = s.headTime

lemma repay_eq_ok {op : CreditDealRepay} (hb : Books s) (h : s.creditDealRepay op = .ok s') :
    ∃ d, s.deals.find op.dealId = some d ∧ Repaid s s' d op.repayAmount.amount := by
  simp only [creditDealRepay, checkRepay, CreditDealRepay.isValid, adjust, checkAuthorized, bind_eq_ok,
    check_eq_ok, pure_eq_ok, exists_const, Bool.and_eq_true, decide_eq_true_eq, deal_eq_ok] at h
  obtain ⟨d, hd, ⟨⟨⟨hpos, hfee⟩, -⟩, hacc, -, hle, -⟩, s1, ⟨b, -, rfl⟩, o, ho, -, h⟩ := h
  have hid : d.id = op.dealId := key_of_find hd
  have hd' : s.deals.find d.id = some d := hid ▸ hd
  have hmem : d ∈ s.deals.objects := mem_of_find hd
  have hpair : (d.offerId, op.account) = d.pair := by
    rw [CreditDeal.pair, hacc]
  obtain ⟨hdebt, hcol, hsome⟩ := hb.deals d hmem
  rw [offer_eq_ok] at ho
  have hoid : o.id = d.offerId := key_of_find ho
  split at h
  next => cases h
  next x hx =>
    rw [hpair] at hx
    simp only [bind_eq_ok, pure_eq_ok] at h
    obtain ⟨⟨released, deals⟩, hdeals, b', -, rfl⟩ := h
    have hnon := (hb.offers _ o ho).2
    have hcas := repayDeal_eq_ok hdebt hcol hpos hle hdeals
    refine ⟨d, hd, ⟨offer_write hb rfl (o := o) (hoid ▸ ho) hoid.symm ?_ ?_, offer_kept rfl,
      fun w => ?_, fun e he => ?_, summed_reduce rfl hx, ?_⟩, ?_, rfl⟩
    · ring
    · change 0 ≤ o.currentBalance + (op.repayAmount.amount + op.creditFee.amount)
      omega
    · rcases hcas with ⟨heq, rfl⟩ | ⟨e, heid, hepair, hedebt, -, -, rfl⟩
      · rw [heq]
        exact owed_remove rfl hd' w
      · exact owed_write rfl (heid ▸ hd') hepair hedebt w
    · rcases hcas with ⟨heq, rfl⟩ | ⟨e', -, hepair, -, hedebt, heco, rfl⟩
      · exact .inl (mem_erase he)
      · rcases mem_put he with rfl | he
        · have hoffer : e.offerId = d.offerId := congrArg Prod.fst hepair
          exact .inr ⟨hedebt, heco, hoffer ▸ hsome⟩
        · exact .inl he
    · exact positive_reduce (s := s) hb (hle.trans (hb.debt_le_summary hmem hx))
    · rcases hcas with ⟨-, rfl⟩ | ⟨e, heid, -, -, -, -, rfl⟩
      · exact .inl rfl
      · exact .inr ⟨e, heid, rfl⟩

lemma updateDeal_books {op : CreditDealUpdate} (hb : Books s)
    (h : s.creditDealUpdate op = .ok s') : Books s' := by
  simp only [creditDealUpdate, bind_eq_ok, ↓check_then, pure_eq_ok, deal_eq_ok] at h
  obtain ⟨d, hd, -, -, rfl⟩ := h
  have hid : d.id = op.dealId := key_of_find hd
  have hd' : s.deals.find d.id = some d := hid ▸ hd
  refine hb.of_changes (k := d.pair) (δ := 0)
    ⟨fun id o ho => ⟨o, ho, by omega, (hb.offers id o ho).2⟩, fun _ h => h, owed_write rfl hd' rfl
      (add_zero _).symm, fun e he => ?_, fun j => ?_, hb.positive⟩
  · rcases mem_put he with rfl | he
    · exact .inr (hb.deals d (mem_of_find hd))
    · exact .inl he
  · rw [mul_zero, add_zero]
    rfl

lemma perform_books {op : CreditOperation} (hb : Books s) (h : s.perform op = .ok s') :
    Books s' := by
  cases op with
  | create => exact create_books hb h
  | delete => exact delete_books hb h
  | update => exact update_books hb h
  | accept => exact accept_books hb h
  | repay =>
    obtain ⟨d, -, hrep⟩ := repay_eq_ok hb h
    exact hb.of_changes hrep.changes
  | updateDeal => exact updateDeal_books hb h

end CreditState

end Graphene.Funds
