import Graphene.Maintenance.BudgetSafety

/-!
# What the validation of parameters leaves open

Two places that rely on `chain_parameters::validate`.  It compares the review period of proposals for
the committee account with their lifetime by an unsigned difference, and it does not read the two
parameters by which the fee for registering an account is scaled.
-/

namespace Graphene.Maintenance

open Lib Protocol BudgetState Option

/-! ## Proposals for the committee account -/

/-- What `proposal_create_evaluator::do_evaluate` reads of the operation. -/
structure ProposalCreate where
  expirationTime : UInt32
  reviewPeriodSeconds : Option UInt32
  requiredActiveAuths : List AccountId
  requiredOwnerAuths : List AccountId
  requiresOther : Bool
  /-- the visitors and `validate` have nothing against the proposed operations -/
  operationsAllowed : Bool

def ProposalCreate.needsCommittee (o : ProposalCreate) : Bool :=
  grapheneCommitteeAccount ∈ o.requiredActiveAuths ∨ grapheneCommitteeAccount ∈ o.requiredOwnerAuths

/-- `do_evaluate`.  Adding to a time is modulo `2 ^ 32`, the difference of two times is not. -/
def ProposalCreate.doEvaluate (p : ChainParameters) (headBlockTime : UInt32) (o : ProposalCreate) :
    Except String Unit := do
  check o.operationsAllowed "Proposed operations are not allowed"
  check (headBlockTime < o.expirationTime) "Proposal has already expired on creation."
  check (o.expirationTime ≤ headBlockTime + p.maximumProposalLifetime)
    "Proposal expiration time is too far in the future."
  check (o.reviewPeriodSeconds.all fun review =>
      (review.toNat : Int) < o.expirationTime.toNat - headBlockTime.toNat)
    "Proposal review period must be less than its overall lifetime."
  check (!o.requiresOther)
    "Proposals containing operations requiring non-account authorities are not yet implemented."
  if o.needsCommittee then
    check o.reviewPeriodSeconds.isSome "Review period not given, but at least ${min} required"
    check (o.reviewPeriodSeconds.all (p.committeeProposalReviewPeriod ≤ ·))
      "Review period of ${t} specified, but at least ${min} required"

variable {p : ChainParameters} {head : UInt32} {o : ProposalCreate}

lemma ProposalCreate.doEvaluate_eq_ok (hcommittee : o.needsCommittee = true) :
    o.doEvaluate p head = .ok () ↔
      o.operationsAllowed = true ∧ head < o.expirationTime ∧
        o.expirationTime ≤ head + p.maximumProposalLifetime ∧ o.requiresOther = false ∧
        ∃ review, o.reviewPeriodSeconds = some review ∧ p.committeeProposalReviewPeriod ≤ review ∧
          (review.toNat : Int) < o.expirationTime.toNat - head.toNat := by
  unfold ProposalCreate.doEvaluate
  simp only [hcommittee, if_true, bind_eq_ok, check_eq_ok, decide_eq_true_eq, exists_const,
    Bool.not_eq_true']
  cases o.reviewPeriodSeconds with
  | none => simp
  | some review =>
    simp only [all_some, decide_eq_true_eq, isSome_some, true_and, Option.some.injEq,
      exists_eq_left']
    tauto

lemma ProposalCreate.review_fits (h : o.doEvaluate p head = .ok ())
    (hcommittee : o.needsCommittee = true) : (p.committeeProposalReviewPeriod.toNat : Int) <
      (head.toNat + p.maximumProposalLifetime.toNat) % 2 ^ 32 - head.toNat := by
  obtain ⟨-, -, hle, -, review, -, hrev, hfits⟩ := (doEvaluate_eq_ok hcommittee).1 h
  have hle := UInt32.le_iff_toNat_le.1 hle
  have hrev := UInt32.le_iff_toNat_le.1 hrev
  rw [UInt32.toNat_add] at hle
  omega

/-- Under valid parameters a proposal for the committee account can be made just when the review
period that it needs is shorter than the time up to the last possible expiration. -/
theorem committee_proposal_possible_iff (p : ValidParameters) (head : UInt32) (o : ProposalCreate)
    (hcommittee : o.needsCommittee = true) (hother : o.requiresOther = false)
    (hallowed : o.operationsAllowed = true) :
    (∃ expiration review, ProposalCreate.doEvaluate p.toChainParameters head
        { o with expirationTime := expiration, reviewPeriodSeconds := review } = .ok ()) ↔
      (p.committeeProposalReviewPeriod.toNat : Int) <
        (head.toNat + p.maximumProposalLifetime.toNat) % 2 ^ 32 - head.toNat := by
  constructor
  · rintro ⟨expiration, review, h⟩
    exact ProposalCreate.review_fits h hcommittee
  · intro h
    have hlast := UInt32.toNat_add head p.maximumProposalLifetime
    refine ⟨head + p.maximumProposalLifetime, some p.committeeProposalReviewPeriod,
      (ProposalCreate.doEvaluate_eq_ok (o := { o with
          expirationTime := head + p.maximumProposalLifetime
          reviewPeriodSeconds := some p.committeeProposalReviewPeriod }) hcommittee).2
        ⟨hallowed, UInt32.lt_iff_toNat_lt.2 ?_, UInt32.le_refl _, hother, _, rfl,
          UInt32.le_refl _, ?_⟩⟩
    all_goals
      simp only
      omega

def committeeProposal : ProposalCreate where
  expirationTime := 0
  reviewPeriodSeconds := none
  requiredActiveAuths := [grapheneCommitteeAccount]
  requiredOwnerAuths := []
  requiresOther := false
  operationsAllowed := true

theorem committee_proposal_possible_daily :
    ∃ expiration review, ProposalCreate.doEvaluate (dailyParameters 0).toChainParameters 1000
      { committeeProposal with expirationTime := expiration, reviewPeriodSeconds := review } =
        .ok () :=
  (committee_proposal_possible_iff (dailyParameters 0) 1000 committeeProposal rfl rfl rfl).2
    (by decide)

def longReview : ValidParameters where
  toChainParameters := { dailyMaintenance with maximumProposalLifetime := 604800 }
  valid := by decide

/-- These parameters are valid, and at no time does `proposal_create` accept a proposal for the
committee account. -/
theorem long_review_locks_out_committee : longReview.validate = true ∧
    ∀ head expiration review, ProposalCreate.doEvaluate longReview.toChainParameters head
      { committeeProposal with expirationTime := expiration, reviewPeriodSeconds := review } ≠
        .ok () := by
  refine ⟨longReview.valid, fun head expiration review h => ?_⟩
  have hfits := ProposalCreate.review_fits h rfl
  have hlifetime : longReview.maximumProposalLifetime.toNat = 604800 := by decide
  have hperiod : longReview.committeeProposalReviewPeriod.toNat = 1209600 := by decide
  omega

/-! ## The fee for registering an account -/

structure ScaleParameters extends ValidParameters where
  accountsPerFeeScale : UInt16
  accountFeeScaleBitshifts : UInt8

/-- `basic_fee` of `account_create`, a 64-bit number, and `accounts_registered_this_interval`, a
32-bit number. -/
structure FeeScale where
  basicFee : Nat
  registered : Nat

namespace ScaleParameters

/-- Shifting a 64-bit number, which is undefined from 64 bits on. -/
def shiftable (shift fee : Nat) : Option Nat :=
  if shift < 64 then some fee else none

/-- What `account_create_evaluator::do_apply` does to the fee; `none` where the behaviour is
undefined. -/
def register (p : ScaleParameters) (s : FeeScale) : Option FeeScale :=
  if p.accountsPerFeeScale.toNat = 0 then none
  else if (s.registered + 1) % 2 ^ 32 % p.accountsPerFeeScale.toNat = 0 ∧
      p.accountFeeScaleBitshifts.toNat ≠ 0 then
    (shiftable p.accountFeeScaleBitshifts.toNat
      (s.basicFee * 2 ^ p.accountFeeScaleBitshifts.toNat % 2 ^ 64)).map
        fun fee => ⟨fee, (s.registered + 1) % 2 ^ 32⟩
  else some ⟨s.basicFee, (s.registered + 1) % 2 ^ 32⟩

def registerAll (p : ScaleParameters) (fee : Nat) : Nat → Option FeeScale
  | 0 => some ⟨fee, 0⟩
  | n + 1 => (registerAll p fee n).bind p.register

/-- The unscaling of `perform_chain_maintenance`. -/
def unscale (p : ScaleParameters) (s : FeeScale) : Option Nat :=
  if p.accountsPerFeeScale.toNat = 0 then none
  else
    let shift := p.accountFeeScaleBitshifts.toNat *
      (s.registered / p.accountsPerFeeScale.toNat) % 2 ^ 32
    shiftable shift (s.basicFee / 2 ^ shift)

def bits (p : ScaleParameters) (n : Nat) : Nat :=
  p.accountFeeScaleBitshifts.toNat * (n / p.accountsPerFeeScale.toNat)

def Fits (p : ScaleParameters) (fee n : Nat) : Prop :=
  p.accountsPerFeeScale.toNat ≠ 0 ∧ p.bits n < 64 ∧ fee * 2 ^ p.bits n < 2 ^ 64

variable {p : ScaleParameters}

lemma bits_succ (n : Nat) :
    p.bits (n + 1) = p.bits n + if (n + 1) % p.accountsPerFeeScale.toNat = 0 then
      p.accountFeeScaleBitshifts.toNat else 0 := by
  unfold bits
  rw [Nat.succ_div, Nat.mul_add]
  simp only [Nat.dvd_iff_mod_eq_zero]
  split_ifs <;> simp

/-- What is known after `n` registrations: no shift was undefined unless one was taken by 64 bits or
more, and the fee is shifted by all bits at once. -/
lemma registerAll_eq (hper : p.accountsPerFeeScale.toNat ≠ 0) (fee : Nat) {n : Nat}
    (hn : n < 2 ^ 32) (hfee : fee < 2 ^ 64) :
    p.registerAll fee n = some ⟨fee * 2 ^ p.bits n % 2 ^ 64, n⟩ ∨
      p.registerAll fee n = none ∧ 64 ≤ p.bits n := by
  induction n with
  | zero =>
    left
    rw [registerAll, bits, Nat.zero_div, Nat.mul_zero, pow_zero, Nat.mul_one, Nat.mod_eq_of_lt hfee]
  | succ n ih =>
    have hcount : (n + 1) % 2 ^ 32 = n + 1 := Nat.mod_eq_of_lt hn
    have hbits := bits_succ (p := p) n
    rcases ih (by omega) with heq | ⟨heq, hmany⟩
    · unfold registerAll
      rw [heq, bind_some]
      unfold register
      rw [if_neg hper]
      simp only [hcount]
      split_ifs with hfires
      · rw [if_pos hfires.1] at hbits
        unfold shiftable
        split_ifs with hsmall
        · left
          rw [map_some, hbits, pow_add, ← Nat.mul_assoc, Nat.mod_mul_mod]
        · right
          exact ⟨rfl, by omega⟩
      · left
        have hzero : (if (n + 1) % p.accountsPerFeeScale.toNat = 0 then
            p.accountFeeScaleBitshifts.toNat else 0) = 0 := by
          split_ifs with hmod
          · exact not_not.1 fun h => hfires ⟨hmod, h⟩
          · rfl
        rw [hbits, hzero]
        rfl
    · right
      refine ⟨?_, by omega⟩
      unfold registerAll
      rw [heq, bind_none]

lemma unscale_eq (hper : p.accountsPerFeeScale.toNat ≠ 0) (fee n : Nat) :
    p.unscale ⟨fee, n⟩ = shiftable (p.bits n % 2 ^ 32) (fee / 2 ^ (p.bits n % 2 ^ 32)) :=
  if_neg hper

lemma unscale_undefined (hper : p.accountsPerFeeScale.toNat = 0) (s : Option FeeScale) :
    s.bind p.unscale = none := by
  cases s with
  | none => rfl
  | some s => exact if_pos hper

end ScaleParameters

open ScaleParameters (shiftable unscale_eq unscale_undefined)

/-- For less than `2 ^ 32` registrations, the fee is unscaled to what it was if the scaled fee fits
into 64 bits, and only then if it is positive. -/
theorem fee_scaling_reversible_iff (p : ScaleParameters) {fee n : Nat} (hfee : fee < 2 ^ 64)
    (hn : n < 2 ^ 32) : (p.Fits fee n → (p.registerAll fee n).bind p.unscale = some fee) ∧
      (0 < fee → (p.registerAll fee n).bind p.unscale = some fee → p.Fits fee n) := by
  constructor
  · rintro ⟨hper, hbits, hfits⟩
    rcases p.registerAll_eq hper fee hn hfee with heq | ⟨-, hmany⟩
    · have hshift : p.bits n % 2 ^ 32 = p.bits n := Nat.mod_eq_of_lt (by omega)
      rw [heq, bind_some, unscale_eq hper, hshift, Nat.mod_eq_of_lt hfits,
        Nat.mul_div_cancel _ (Nat.two_pow_pos _)]
      exact if_pos hbits
    · omega
  · intro hpos hback
    have hper : p.accountsPerFeeScale.toNat ≠ 0 := by
      intro h
      rw [unscale_undefined h] at hback
      cases hback
    rcases p.registerAll_eq hper fee hn hfee with heq | ⟨heq, -⟩
    · rw [heq, bind_some, unscale_eq hper] at hback
      unfold shiftable at hback
      split_ifs at hback with hshift
      rcases Option.some.inj hback with hback
      have hbits : p.bits n < 64 := by
        -- otherwise no bit of the fee is left
        by_contra hmany
        have hgone : fee * 2 ^ p.bits n % 2 ^ 64 = 0 :=
          Nat.mod_eq_zero_of_dvd (Dvd.dvd.mul_left (pow_dvd_pow 2 (Nat.not_lt.1 hmany)) fee)
        rw [hgone, Nat.zero_div] at hback
        omega
      rw [Nat.mod_eq_of_lt (a := p.bits n) (by omega)] at hback
      refine ⟨hper, hbits, ?_⟩
      calc fee * 2 ^ p.bits n
          = fee * 2 ^ p.bits n % 2 ^ 64 / 2 ^ p.bits n * 2 ^ p.bits n := by rw [hback]
        _ ≤ fee * 2 ^ p.bits n % 2 ^ 64 := Nat.div_mul_le_self _ _
        _ < 2 ^ 64 := Nat.mod_lt _ (Nat.two_pow_pos 64)
    · rw [heq] at hback
      cases hback

def fourBits (accountsPerFeeScale : UInt16) : ScaleParameters where
  toValidParameters := dailyParameters 0
  accountsPerFeeScale := accountsPerFeeScale
  accountFeeScaleBitshifts := 4

theorem fee_scaling_reversible_three_thousand :
    ((fourBits 1000).registerAll 500000 3000).bind (fourBits 1000).unscale = some 500000 :=
  (fee_scaling_reversible_iff (fourBits 1000) (by decide) (by decide)).1 (by
    refine ⟨by decide, by decide, by decide⟩)

/-- With the default values, a fee of 5 core is unscaled to 0.41248 core after 12000 registrations.
With 0 accounts for a step, every maintenance divides by zero. -/
theorem fee_scaling_loses_bits :
    ((fourBits 1000).registerAll 500000 12000).bind (fourBits 1000).unscale = some 41248 ∧
      ∀ fee n, ((fourBits 0).registerAll fee n).bind (fourBits 0).unscale = none := by
  refine ⟨?_, fun _ _ => unscale_undefined rfl _⟩
  rcases (fourBits 1000).registerAll_eq (by decide) 500000 (by decide : 12000 < 2 ^ 32) (by decide)
    with heq | ⟨-, hmany⟩
  · rw [heq]
    decide +kernel
  · exact absurd hmany (by decide)

end Graphene.Maintenance
