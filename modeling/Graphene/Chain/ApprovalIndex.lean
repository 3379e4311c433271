import Graphene.Db.SecondaryIndex
import Graphene.Lib.FlatSet
import Graphene.Lib.MultiMap
import Graphene.Protocol.Types

/-!
# The approval index of proposals

`required_approval_index` maps an account to the proposals that require its approval or have it.  It
represents the union of four sets of each proposal by one map, and a modification applies the
differences of two of them.  An approval that is withdrawn takes the proposal off the account's list,
also when the account is still required to approve.
-/

namespace Graphene.Chain

open Lib Protocol Db List MultiMap Indexed FlatSet

abbrev ProposalId := Nat

/-- `proposal_object`, with the fields that the index and `proposal_update` read. -/
structure Proposal where
  reviewPeriodTime : Option Nat := none
  requiredActiveApprovals : FlatSet AccountId := .empty
  availableActiveApprovals : FlatSet AccountId := .empty
  requiredOwnerApprovals : FlatSet AccountId := .empty
  availableOwnerApprovals : FlatSet AccountId := .empty

namespace Proposal

def Concerns (p : Proposal) (a : AccountId) : Prop :=
  a ∈ p.requiredActiveApprovals ∨ a ∈ p.requiredOwnerApprovals ∨
    a ∈ p.availableActiveApprovals ∨ a ∈ p.availableOwnerApprovals

instance (p : Proposal) (a : AccountId) : Decidable (p.Concerns a) :=
  inferInstanceAs (Decidable (_ ∨ _))

def withAvailable (p : Proposal) (active owner : FlatSet AccountId) : Proposal :=
  { p with availableActiveApprovals := active, availableOwnerApprovals := owner }

end Proposal

structure RequiredApprovalIndex where
  accountToProposals : MultiMap AccountId ProposalId := ∅
  availableActiveBeforeModify : FlatSet AccountId := .empty
  availableOwnerBeforeModify : FlatSet AccountId := .empty

namespace RequiredApprovalIndex

variable (id : ProposalId) (p : Proposal) (r : RequiredApprovalIndex)

def objectInserted : RequiredApprovalIndex :=
  let m := r.accountToProposals.addAll p.requiredActiveApprovals.elems id
  let m := m.addAll p.requiredOwnerApprovals.elems id
  let m := m.addAll p.availableActiveApprovals.elems id
  { r with accountToProposals := m.addAll p.availableOwnerApprovals.elems id }

/-- `remove` of the source is `MultiMap.prune`: the last proposal takes the account with it. -/
def objectRemoved : RequiredApprovalIndex :=
  let m := r.accountToProposals.pruneAll p.requiredActiveApprovals.elems id
  let m := m.pruneAll p.requiredOwnerApprovals.elems id
  let m := m.pruneAll p.availableActiveApprovals.elems id
  { r with accountToProposals := m.pruneAll p.availableOwnerApprovals.elems id }

def insertOrRemoveDelta (p : ProposalId) :
    List AccountId → List AccountId → MultiMap AccountId ProposalId → MultiMap AccountId ProposalId
  | [], [], m => m
  | b :: before, [], m => insertOrRemoveDelta p before [] (m.prune b p)
  | [], a :: after, m => insertOrRemoveDelta p [] after (m.add a p)
  | b :: before, a :: after, m =>
    if b < a then insertOrRemoveDelta p before (a :: after) (m.prune b p)
    else if a < b then insertOrRemoveDelta p (b :: before) after (m.add a p)
    else insertOrRemoveDelta p before after m
termination_by before after => before.length + after.length

def aboutToModify (_ : ProposalId) (p : Proposal) (r : RequiredApprovalIndex) :
    RequiredApprovalIndex :=
  { r with
    availableActiveBeforeModify := p.availableActiveApprovals
    availableOwnerBeforeModify := p.availableOwnerApprovals }

def objectModified : RequiredApprovalIndex :=
  let m := insertOrRemoveDelta id r.availableActiveBeforeModify.elems
    p.availableActiveApprovals.elems r.accountToProposals
  let m := insertOrRemoveDelta id r.availableOwnerBeforeModify.elems
    p.availableOwnerApprovals.elems m
  { r with accountToProposals := m }

end RequiredApprovalIndex

def requiredApprovalIndex : SecondaryIndex Proposal RequiredApprovalIndex where
  objectInserted := RequiredApprovalIndex.objectInserted
  objectRemoved := RequiredApprovalIndex.objectRemoved
  aboutToModify := RequiredApprovalIndex.aboutToModify
  objectModified := RequiredApprovalIndex.objectModified

abbrev Proposals := Indexed Proposal RequiredApprovalIndex

/-- The calls that change proposals.  Required approvals never change. -/
inductive ProposalCall where
  | insert (id : ProposalId) (p : Proposal)
  | modify (id : ProposalId) (active owner : FlatSet AccountId)
  | remove (id : ProposalId)

namespace ProposalCall

def run : ProposalCall → Proposals → Proposals
  | insert id p, w => w.insert requiredApprovalIndex id p
  | modify id active owner, w =>
    match w.objects id with
    | none => w
    | some p => (Edit.mk id [] (p.withAvailable active owner)).run requiredApprovalIndex w
  | remove id, w => w.remove requiredApprovalIndex id

def runAll (calls : List ProposalCall) (w : Proposals) : Proposals :=
  calls.foldl (fun w c => c.run w) w

end ProposalCall

open ProposalCall (modify run runAll)

/-- `proposal_update_operation`, without the approvals by key. -/
structure ProposalUpdate where
  proposal : ProposalId
  activeApprovalsToAdd : FlatSet AccountId := .empty
  activeApprovalsToRemove : FlatSet AccountId := .empty
  ownerApprovalsToAdd : FlatSet AccountId := .empty
  ownerApprovalsToRemove : FlatSet AccountId := .empty

namespace ProposalUpdate

/-- What `validate` checks about the approvals. -/
def validate (o : ProposalUpdate) : Bool :=
  !(o.activeApprovalsToAdd.elems.isEmpty && o.activeApprovalsToRemove.elems.isEmpty &&
      o.ownerApprovalsToAdd.elems.isEmpty && o.ownerApprovalsToRemove.elems.isEmpty) &&
    o.activeApprovalsToAdd.elems.all (fun a => a ∉ o.activeApprovalsToRemove) &&
    o.ownerApprovalsToAdd.elems.all (fun a => a ∉ o.ownerApprovalsToRemove)

def doEvaluate (headBlockTime : Nat) (o : ProposalUpdate) (p : Proposal) : Bool :=
  (match p.reviewPeriodTime with
    | some t => headBlockTime < t ||
        (o.activeApprovalsToAdd.elems.isEmpty && o.ownerApprovalsToAdd.elems.isEmpty)
    | none => true) &&
    o.activeApprovalsToRemove.elems.all (fun a => a ∈ p.availableActiveApprovals) &&
    o.ownerApprovalsToRemove.elems.all (fun a => a ∈ p.availableOwnerApprovals)

/-- The modification that `proposal_update_evaluator::do_apply` makes. -/
def doApply (o : ProposalUpdate) (p : Proposal) : ProposalCall :=
  .modify o.proposal
    ((p.availableActiveApprovals.insertAll o.activeApprovalsToAdd.elems).eraseAll
      o.activeApprovalsToRemove.elems)
    ((p.availableOwnerApprovals.insertAll o.ownerApprovalsToAdd.elems).eraseAll
      o.ownerApprovalsToRemove.elems)

def apply (headBlockTime : Nat) (o : ProposalUpdate) (w : Proposals) : Option Proposals :=
  match w.objects o.proposal with
  | none => none
  | some p => if o.validate && o.doEvaluate headBlockTime p then some ((o.doApply p).run w) else none

end ProposalUpdate

variable (r : RequiredApprovalIndex) (obj : Proposal)

namespace RequiredApprovalIndex

variable {m : MultiMap AccountId ProposalId} {p q : ProposalId} {a : AccountId}

lemma lists_insertOrRemoveDelta {before after : List AccountId} (hb : before.Pairwise (· < ·))
    (ha : after.Pairwise (· < ·)) : (insertOrRemoveDelta p before after m).Lists a q ↔
      (q = p ∧ a ∈ after ∧ a ∉ before) ∨ (¬ (q = p ∧ a ∈ before ∧ a ∉ after) ∧ m.Lists a q) := by
  induction before, after, m using insertOrRemoveDelta.induct p with
  | case1 m => simp [insertOrRemoveDelta]
  | case2 b before m ih =>
    have hmem : ∀ c ∈ before, b < c := (pairwise_cons.1 hb).1
    rw [insertOrRemoveDelta, ih (pairwise_cons.1 hb).2 ha, lists_prune]
    grind
  | case3 c after m ih =>
    rw [insertOrRemoveDelta, ih hb (pairwise_cons.1 ha).2, lists_add]
    grind
  | case4 b before c after m hlt ih =>
    have haft : ∀ d ∈ after, c < d := (pairwise_cons.1 ha).1
    rw [insertOrRemoveDelta, if_pos hlt, ih (pairwise_cons.1 hb).2 ha, lists_prune]
    grind
  | case5 b before c after m hnlt hlt ih =>
    have hbef : ∀ d ∈ before, b < d := (pairwise_cons.1 hb).1
    rw [insertOrRemoveDelta, if_neg hnlt, if_pos hlt, ih hb (pairwise_cons.1 ha).2, lists_add]
    grind
  | case6 b before c after m hnlt hngt ih =>
    have hbef : ∀ d ∈ before, b < d := (pairwise_cons.1 hb).1
    have haft : ∀ d ∈ after, c < d := (pairwise_cons.1 ha).1
    have heq : b = c := le_antisymm (not_lt.1 hngt) (not_lt.1 hnlt)
    rw [insertOrRemoveDelta, if_neg hnlt, if_neg hngt, ih (pairwise_cons.1 hb).2
      (pairwise_cons.1 ha).2]
    grind

lemma lists_objectInserted : (r.objectInserted p obj).accountToProposals.Lists a q ↔
      (q = p ∧ obj.Concerns a) ∨ r.accountToProposals.Lists a q := by
  simp only [objectInserted, lists_addAll, mem_elems, Proposal.Concerns]
  tauto

lemma lists_objectRemoved : (r.objectRemoved p obj).accountToProposals.Lists a q ↔
      ¬ (q = p ∧ obj.Concerns a) ∧ r.accountToProposals.Lists a q := by
  simp only [objectRemoved, lists_pruneAll, mem_elems, Proposal.Concerns]
  tauto

/-- A modification applies the two differences one after the other, so the owner approvals have
the last word. -/
lemma lists_objectModified {r : RequiredApprovalIndex} {obj : Proposal} :
    (r.objectModified p obj).accountToProposals.Lists a q ↔
      (q = p ∧ a ∈ obj.availableOwnerApprovals ∧ a ∉ r.availableOwnerBeforeModify) ∨
      (¬ (q = p ∧ a ∈ r.availableOwnerBeforeModify ∧ a ∉ obj.availableOwnerApprovals) ∧
        ((q = p ∧ a ∈ obj.availableActiveApprovals ∧ a ∉ r.availableActiveBeforeModify) ∨
          (¬ (q = p ∧ a ∈ r.availableActiveBeforeModify ∧ a ∉ obj.availableActiveApprovals) ∧
            r.accountToProposals.Lists a q))) := by
  rw [objectModified, lists_insertOrRemoveDelta (sorted _) (sorted _),
    lists_insertOrRemoveDelta (sorted _) (sorted _)]
  rfl

end RequiredApprovalIndex

/-! ## Exactness -/

/-- The index lists under each account the proposals that concern it. -/
def ApprovalsExact (w : Proposals) : Prop :=
  ∀ a id, w.secondary.accountToProposals.Lists a id ↔ ∃ p, w.objects id = some p ∧ p.Concerns a

/-- A modification withdraws an approval of an account that still concerns the proposal.  The owner
approvals are looked at last: a withdrawn active approval does no harm when the same modification
adds the account to the owner approvals. -/
def Proposal.Forgets (p : Proposal) (active owner : FlatSet AccountId) : Prop :=
  ∃ a, (p.withAvailable active owner).Concerns a ∧
    ((a ∈ p.availableOwnerApprovals ∧ a ∉ owner) ∨
      (a ∈ p.availableActiveApprovals ∧ a ∉ active ∧ (a ∈ p.availableOwnerApprovals ↔ a ∈ owner)))

def NoneForgets : List ProposalCall → Proposals → Prop
  | [], _ => True
  | c :: cs, w =>
    (match c with
      | .modify id active owner => ∀ p, w.objects id = some p → ¬ p.Forgets active owner
      | _ => True) ∧ NoneForgets cs (c.run w)

lemma approvalsExact_empty : ApprovalsExact (.empty {}) := by
  intro a id
  simp only [Indexed.empty, reduceCtorEq, false_and, exists_false, iff_false]
  exact not_lists_empty a id

variable {w : Proposals}

section

variable (h : ApprovalsExact w)
include h

lemma ApprovalsExact.insert (id : ProposalId) (p : Proposal) :
    ApprovalsExact (w.insert requiredApprovalIndex id p) := by
  unfold Indexed.insert
  cases hid : w.objects id with
  | some q => exact h
  | none =>
    intro a id'
    have hmap := RequiredApprovalIndex.lists_objectInserted (p := id) (q := id') (a := a)
      w.secondary p
    change (w.secondary.objectInserted id p).accountToProposals.Lists a id' ↔ _
    rw [hmap, h a id', tell_objects, setObject_objects]
    by_cases hne : id' = id
    · subst hne
      simp [hid]
    · simp [hne]

lemma ApprovalsExact.remove (id : ProposalId) :
    ApprovalsExact (w.remove requiredApprovalIndex id) := by
  unfold Indexed.remove
  cases hid : w.objects id with
  | none => exact h
  | some p =>
    intro a id'
    have hmap := RequiredApprovalIndex.lists_objectRemoved (p := id) (q := id') (a := a)
      w.secondary p
    change (w.secondary.objectRemoved id p).accountToProposals.Lists a id' ↔ _
    rw [hmap, h a id', setObject_objects, tell_objects]
    by_cases hne : id' = id
    · subst hne
      simp [hid]
    · simp [hne]

lemma ApprovalsExact.modify_iff {id : ProposalId} {p : Proposal}
    (hp : w.objects id = some p) (active owner : FlatSet AccountId) :
    ApprovalsExact ((modify id active owner).run w) ↔ ¬ p.Forgets active owner := by
  have hrun : (modify id active owner).run w =
      (w.setObject id (some (p.withAvailable active owner))).tell fun r =>
        (r.aboutToModify id p).objectModified id (p.withAvailable active owner) := by
    simp only [run, hp, Edit.run, Edit.runAll]
    rfl
  -- what the map says about each account and proposal afterwards
  have hlists : ∀ a id', ((modify id active owner).run w
      ).secondary.accountToProposals.Lists a id' ↔
      (id' = id ∧ a ∈ owner ∧ a ∉ p.availableOwnerApprovals) ∨
      (¬ (id' = id ∧ a ∈ p.availableOwnerApprovals ∧ a ∉ owner) ∧
        ((id' = id ∧ a ∈ active ∧ a ∉ p.availableActiveApprovals) ∨
          (¬ (id' = id ∧ a ∈ p.availableActiveApprovals ∧ a ∉ active) ∧
            ∃ o, w.objects id' = some o ∧ o.Concerns a))) := by
    intro a id'
    rw [hrun, ← h a id']
    exact RequiredApprovalIndex.lists_objectModified
  have hobj : ∀ id', ((modify id active owner).run w).objects id' =
      if id' = id then some (p.withAvailable active owner) else w.objects id' := by
    intro id'
    rw [hrun, tell_objects, setObject_objects]
  have hself : ∀ a, ((modify id active owner).run w
      ).secondary.accountToProposals.Lists a id ↔
      (a ∈ owner ∧ a ∉ p.availableOwnerApprovals) ∨
      (¬ (a ∈ p.availableOwnerApprovals ∧ a ∉ owner) ∧
        ((a ∈ active ∧ a ∉ p.availableActiveApprovals) ∨
          (¬ (a ∈ p.availableActiveApprovals ∧ a ∉ active) ∧ p.Concerns a))) := by
    intro a
    rw [hlists a id]
    simp [hp]
  constructor
  · rintro hexc ⟨a, hcon, hwit⟩
    have hlis := (hexc a id).2 ⟨_, by rw [hobj, if_pos rfl], hcon⟩
    rw [hself] at hlis
    tauto
  · intro hkps a id'
    by_cases hne : id' = id
    · subst hne
      have hnot : ¬ ((p.withAvailable active owner).Concerns a ∧
          ((a ∈ p.availableOwnerApprovals ∧ a ∉ owner) ∨
            (a ∈ p.availableActiveApprovals ∧ a ∉ active ∧
              (a ∈ p.availableOwnerApprovals ↔ a ∈ owner)))) := fun hno => hkps ⟨a, hno⟩
      rw [hself, hobj, if_pos rfl]
      simp only [Option.some_inj, exists_eq_left', Proposal.Concerns, Proposal.withAvailable] at hnot ⊢
      tauto
    · rw [hlists, hobj, if_neg hne]
      simp [hne]

lemma ApprovalsExact.run_iff (c : ProposalCall) : ApprovalsExact (c.run w) ↔ NoneForgets [c] w := by
  cases c with
  | insert id p => exact iff_of_true (h.insert id p) ⟨trivial, trivial⟩
  | remove id => exact iff_of_true (h.remove id) ⟨trivial, trivial⟩
  | modify id active owner =>
    cases hp : w.objects id with
    | none =>
      have hrun : (modify id active owner).run w = w := by
        simp only [run, hp]
      rw [hrun]
      exact iff_of_true h ⟨by simp [hp], trivial⟩
    | some p =>
      rw [h.modify_iff hp]
      simp [NoneForgets, hp]

lemma ApprovalsExact.always_iff (calls : List ProposalCall) :
    (∀ n, ApprovalsExact (runAll (calls.take n) w)) ↔ NoneForgets calls w := by
  induction calls generalizing w with
  | nil => exact iff_of_true (fun n => by simpa [runAll] using h) trivial
  | cons c calls ih =>
    constructor
    · intro hall
      have hfst : ApprovalsExact (c.run w) := by simpa [runAll] using hall 1
      have hrest : NoneForgets calls (c.run w) := by
        rw [← ih hfst]
        intro n
        simpa [runAll] using hall (n + 1)
      exact ⟨((h.run_iff c).1 hfst).1, hrest⟩
    · rintro ⟨hc, hrest⟩ n
      have hfst : ApprovalsExact (c.run w) := (h.run_iff c).2 ⟨hc, trivial⟩
      cases n with
      | zero => simpa [runAll] using h
      | succ n => simpa [runAll] using (ih hfst).2 hrest n

end

/-- From an empty database on, the index is exact at every time exactly when no modification
withdraws an approval of an account that is still concerned. -/
theorem approvals_always_exact_iff (calls : List ProposalCall) :
    (∀ n, ApprovalsExact (ProposalCall.runAll (calls.take n) (.empty {}))) ↔
      NoneForgets calls (.empty {}) :=
  approvalsExact_empty.always_iff calls

def awaiting : Proposal where
  requiredActiveApprovals := empty.insert 5

def approveThenWithdraw : List ProposalUpdate :=
  [{ proposal := 0, activeApprovalsToAdd := empty.insert 5 },
    { proposal := 0, activeApprovalsToRemove := empty.insert 5 }]

/-- Both updates are accepted, and the proposal is no longer listed under the account whose
approval it requires. -/
theorem withdrawn_approval_forgets_required_account :
    ∃ w p, approveThenWithdraw.foldlM (fun w o => ProposalUpdate.apply 100 o w)
        ((ProposalCall.insert 0 awaiting).run (.empty {})) = some w ∧
      w.objects 0 = some p ∧ 5 ∈ p.requiredActiveApprovals ∧
      ¬ w.secondary.accountToProposals.Lists 5 0 := by
  refine ⟨_, _, rfl, rfl, by decide, ?_⟩
  -- the second difference has nothing to say, the first one takes the proposal off the list
  change ¬ (RequiredApprovalIndex.objectModified 0 _ _).accountToProposals.Lists 5 0
  rw [RequiredApprovalIndex.lists_objectModified]
  rintro (⟨-, howner, -⟩ | ⟨-, ⟨-, hactive, -⟩ | ⟨hkept, -⟩⟩)
  · exact absurd howner (by decide)
  · exact absurd hactive (by decide)
  · exact hkept ⟨rfl, by decide, by decide⟩

end Graphene.Chain
