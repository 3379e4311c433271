import Graphene.Chain.ApprovalIndex
import Graphene.Protocol.VerifyAuthority

/-!
# Approvals during the review period

Once the review period of a proposal has started, `proposal_update` refuses to add approvals of
accounts.  It does not look at approvals by key.  A proposal may also be unauthorized only because
`verify_authority` finds one of its keys unnecessary, so that a withdrawal authorizes it.
-/

namespace Graphene.Chain

open Lib Protocol List FlatSet AuthorityLookup

/-- `proposal_object`, with its approvals by key and the proposed operations. -/
structure KeyedProposal (K Op : Type) [LinearOrder K] extends Proposal where
  availableKeyApprovals : FlatSet K := .empty
  proposedTransaction : List Op

structure KeyedUpdate (K : Type) [LinearOrder K] extends ProposalUpdate where
  keyApprovalsToAdd : FlatSet K := .empty
  keyApprovalsToRemove : FlatSet K := .empty

variable {K Op : Type} [LinearOrder K]

namespace KeyedProposal

def verify (env : AuthorityLookup K Op) (p : KeyedProposal K Op) : Except (AuthorityError K) Unit :=
  env.verifyAuthority p.proposedTransaction p.availableKeyApprovals.elems true
    p.availableActiveApprovals.elems p.availableOwnerApprovals.elems

def isAuthorizedToExecute (env : AuthorityLookup K Op) (p : KeyedProposal K Op) : Bool :=
  (p.verify env).toBool

/-- The keys and accounts that approve, with the authorities of all accounts. -/
def network (env : AuthorityLookup K Op) (p : KeyedProposal K Op) : Network (AccountId ⊕ K) :=
  env.network p.availableKeyApprovals.elems
    (initialApprovals p.availableActiveApprovals.elems p.availableOwnerApprovals.elems)

end KeyedProposal

namespace KeyedUpdate

def validate (o : KeyedUpdate K) : Bool :=
  !(o.activeApprovalsToAdd.elems.isEmpty && o.activeApprovalsToRemove.elems.isEmpty &&
      o.ownerApprovalsToAdd.elems.isEmpty && o.ownerApprovalsToRemove.elems.isEmpty &&
      o.keyApprovalsToAdd.elems.isEmpty && o.keyApprovalsToRemove.elems.isEmpty) &&
    o.activeApprovalsToAdd.elems.all (fun a => a ∉ o.activeApprovalsToRemove) &&
    o.ownerApprovalsToAdd.elems.all (fun a => a ∉ o.ownerApprovalsToRemove) &&
    o.keyApprovalsToAdd.elems.all (fun k => k ∉ o.keyApprovalsToRemove)

/-- What `do_apply` changes.  A proposal with a review period is not executed here. -/
def doApply (o : KeyedUpdate K) (p : KeyedProposal K Op) : KeyedProposal K Op :=
  { p with
    availableActiveApprovals :=
      (p.availableActiveApprovals.insertAll o.activeApprovalsToAdd.elems).eraseAll
        o.activeApprovalsToRemove.elems
    availableOwnerApprovals :=
      (p.availableOwnerApprovals.insertAll o.ownerApprovalsToAdd.elems).eraseAll
        o.ownerApprovalsToRemove.elems
    availableKeyApprovals :=
      (p.availableKeyApprovals.insertAll o.keyApprovalsToAdd.elems).eraseAll
        o.keyApprovalsToRemove.elems }

/-- The update in a block after one with the given time.  `do_evaluate` reads no key. -/
def apply (headBlockTime : Nat) (o : KeyedUpdate K) (p : KeyedProposal K Op) :
    Option (KeyedProposal K Op) :=
  if o.validate && o.doEvaluate headBlockTime p.toProposal then some (o.doApply p) else none

def applyAll (p : KeyedProposal K Op) : List (Nat × KeyedUpdate K) → Option (KeyedProposal K Op)
  | [] => some p
  | (t, o) :: rest => (o.apply t p).bind fun p => applyAll p rest

end KeyedUpdate

/-! ## Withdrawals -/

/-- `p` is `p0` with approvals withdrawn. -/
structure KeyedProposal.Withdrawn (p0 p : KeyedProposal K Op) : Prop where
  active : p.availableActiveApprovals.elems ⊆ p0.availableActiveApprovals.elems
  owner : p.availableOwnerApprovals.elems ⊆ p0.availableOwnerApprovals.elems
  keys : p.availableKeyApprovals.elems ⊆ p0.availableKeyApprovals.elems
  ops : p.proposedTransaction = p0.proposedTransaction
  review : p.reviewPeriodTime = p0.reviewPeriodTime

lemma withdraw_subset {α : Type} [LinearOrder α] (s : FlatSet α) {added : FlatSet α}
    (h : added.elems = []) (removed : List α) :
    ((s.insertAll added.elems).eraseAll removed).elems ⊆ s.elems := by
  rw [h]
  induction removed generalizing s with
  | nil => exact Subset.refl _
  | cons a rest ih => exact Subset.trans (ih (s.erase a)) erase_subset

lemma KeyedUpdate.apply_withdrawn {p p' : KeyedProposal K Op} {o : KeyedUpdate K} {t start : Nat}
    (hreview : p.reviewPeriodTime = some start) (hlate : start ≤ t)
    (hkeys : o.keyApprovalsToAdd.elems = []) (h : o.apply t p = some p') : p.Withdrawn p' := by
  unfold KeyedUpdate.apply at h
  split_ifs at h with hok
  obtain ⟨⟩ := h
  have hnone : o.activeApprovalsToAdd.elems = [] ∧ o.ownerApprovalsToAdd.elems = [] := by
    simp only [ProposalUpdate.doEvaluate, hreview, Bool.and_eq_true, Bool.or_eq_true,
      decide_eq_true_eq, List.isEmpty_iff] at hok
    exact hok.2.1.1.resolve_left (Nat.not_lt.2 hlate)
  exact ⟨withdraw_subset _ hnone.1 _, withdraw_subset _ hnone.2 _, withdraw_subset _ hkeys _, rfl,
    rfl⟩

lemma KeyedUpdate.applyAll_withdrawn {p p' : KeyedProposal K Op} {start : Nat}
    {history : List (Nat × KeyedUpdate K)} (hreview : p.reviewPeriodTime = some start)
    (hlate : ∀ e ∈ history, start ≤ e.1) (hkeys : ∀ e ∈ history, e.2.keyApprovalsToAdd.elems = [])
    (h : KeyedUpdate.applyAll p history = some p') : p.Withdrawn p' := by
  induction history generalizing p with
  | nil =>
    obtain ⟨⟩ := h
    exact ⟨Subset.refl _, Subset.refl _, Subset.refl _, rfl, rfl⟩
  | cons e rest ih =>
    obtain ⟨p1, hfst, hrest⟩ := Option.bind_eq_some_iff.1 h
    have h1 := apply_withdrawn hreview (hlate e mem_cons_self) (hkeys e mem_cons_self) hfst
    have h2 := ih (h1.review.trans hreview) (forall_mem_cons.1 hlate).2
      (forall_mem_cons.1 hkeys).2 hrest
    exact ⟨Subset.trans h2.active h1.active, Subset.trans h2.owner h1.owner,
      Subset.trans h2.keys h1.keys, h2.ops.trans h1.ops, h2.review.trans h1.review⟩

lemma KeyedProposal.Withdrawn.closure_subset {p0 p : KeyedProposal K Op} (h : p0.Withdrawn p)
    (env : AuthorityLookup K Op) : (p.network env).closure ⊆ (p0.network env).closure := by
  refine Network.closure_mono ?_ rfl
  rintro (a | k) hx
  · exact inl_mem_base.2 (initialApprovals_subset h.active h.owner (inl_mem_base.1 hx))
  · exact inr_mem_base.2 (h.keys (inr_mem_base.1 hx))

/-- Unless an approval by key is added, a proposal that lacks an authority when its review period
starts is not authorized afterwards, provided the authorities of accounts nest within the limit. -/
theorem withdrawals_never_authorize (env : AuthorityLookup K Op) (hfit : env.WeightsFit)
    {p p' : KeyedProposal K Op} {start : Nat} (hreview : p.reviewPeriodTime = some start)
    (hdeep : (p.network env).closure ⊆ (p.network env).within env.maxRecursion)
    {e : AuthorityError K} (hlacks : p.verify env = .error e) (hmissing : e.isMissing = true)
    (history : List (Nat × KeyedUpdate K)) (hlate : ∀ u ∈ history, start ≤ u.1)
    (hkeys : ∀ u ∈ history, u.2.keyApprovalsToAdd.elems = [])
    (hrun : KeyedUpdate.applyAll p history = some p') : p'.isAuthorizedToExecute env = false := by
  have hw := KeyedUpdate.applyAll_withdrawn hreview hlate hkeys hrun
  unfold KeyedProposal.isAuthorizedToExecute
  cases hverify : p'.verify env with
  | error e' => rfl
  | ok _ =>
    -- what is met after the withdrawals was met before them
    have hmet := (verifyAuthority_spec hfit _ _ _ _ _).1 (.inl hverify)
    have hstart := hmet.mono (fun _ hx => hdeep (hw.closure_subset env hx)) hw.active hw.owner
    rw [hw.ops] at hstart
    have hno := (verifyAuthority_spec hfit _ _ _ _ _).2 hstart e hlacks
    exact absurd (hmissing.symm.trans hno) nofun

/-- Every account has one key, and the operation requires account 5. -/
def oneKeyLookup : AuthorityLookup Nat Unit where
  getActive _ := some ⟨1, [], [(7, 1)]⟩
  getOwner _ := some ⟨1, [], [(7, 1)]⟩
  getCustom _ _ := []
  requiredAuthorities _ := ⟨[5], [], []⟩
  allowNonImmediateOwner := true
  maxRecursion := 2

/-- A proposal whose review period starts at time 100. -/
def underReview (active keys : FlatSet Nat) : KeyedProposal Nat Unit where
  reviewPeriodTime := some 100
  availableActiveApprovals := active
  availableKeyApprovals := keys
  proposedTransaction := [()]

lemma underReview_closure (active : FlatSet Nat) :
    ((underReview active .empty).network oneKeyLookup).closure ⊆
      ((underReview active .empty).network oneKeyLookup).base := by
  refine OrderHom.lfp_le _ ?_
  rintro x (hx | ⟨g, hg, hmet⟩)
  · exact hx
  · have hg : g = (⟨1, [], [(7, 1)]⟩ : Authority Nat).gate := by
      rcases x with a | k
      · simpa [KeyedProposal.network, network, oneKeyLookup] using hg
      · cases hg
    subst hg
    unfold Gate.Met at hmet
    simp only [Authority.gate, map_cons, map_nil, append_nil] at hmet
    rw [weightIn_cons_of_not_mem fun h => not_mem_nil (inr_mem_base.1 h)] at hmet
    exact absurd hmet (by simp)

theorem withdrawals_never_authorize_one_key :
    ∃ p', KeyedUpdate.applyAll (underReview (empty.insert 6) .empty)
        [(100, { proposal := 0, activeApprovalsToRemove := empty.insert 6 })] = some p' ∧
      p'.isAuthorizedToExecute oneKeyLookup = false := by
  refine ⟨_, rfl, withdrawals_never_authorize oneKeyLookup ⟨?_, ?_, nofun, nofun⟩
    (p := underReview (empty.insert 6) .empty) rfl ?_ (e := .txMissingActiveAuth 5)
    (by decide +kernel) rfl
    [(100, { proposal := 0, activeApprovalsToRemove := empty.insert 6 })]
    (by simp) (by simp [empty]) rfl⟩
  · rintro a auth ⟨⟩
    simp [Authority.WeightsFit]
  · rintro a auth ⟨⟩
    simp [Authority.WeightsFit]
  · exact fun _ hx => Network.base_subset_within _ 2 (underReview_closure _ hx)

/-- During the review period a key that is added authorizes one proposal, and a key that is withdrawn
another, whose approvals were sufficient apart from that key. -/
theorem keys_authorize_during_review :
    ((underReview .empty .empty).isAuthorizedToExecute oneKeyLookup = false ∧
      ((KeyedUpdate.applyAll (underReview .empty .empty)
        [(100, { proposal := 0, keyApprovalsToAdd := empty.insert 7 })]).map
          (·.isAuthorizedToExecute oneKeyLookup)) = some true) ∧
    (underReview (empty.insert 5) (empty.insert 9)).isAuthorizedToExecute
        oneKeyLookup = false ∧
      ((KeyedUpdate.applyAll (underReview (empty.insert 5) (empty.insert 9))
        [(100, { proposal := 0, keyApprovalsToRemove := empty.insert 9 })]).map
          (·.isAuthorizedToExecute oneKeyLookup)) = some true := by
  decide +kernel

end Graphene.Chain
