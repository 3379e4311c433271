import Graphene.Protocol.AuthorityFixpoint

/-!
# What `verify_authority` decides

The requirements of a list of operations, as a predicate of the accounts and keys that
count as satisfied.  If `verify_authority` gets as far as its last assertion, the requirements
hold at the least fixed point; if they hold within the recursion limit, no assertion
reports a missing authority.
-/

namespace Graphene.Protocol

open Lib List

variable {K Op : Type} [DecidableEq K]

namespace AuthorityLookup

/-- A custom authority of the account for the operation is met. -/
def CustomMet (env : AuthorityLookup K Op) (X : Set (AccountId ⊕ K)) (id : AccountId) (op : Op) :
    Prop :=
  ∃ auth ∈ env.getCustom id op, auth.gate.Met X

/-- The account approves from the start, or its active or owner authority is met. -/
def ActiveMet (env : AuthorityLookup K Op) (approvals : List AccountId)
    (X : Set (AccountId ⊕ K)) (id : AccountId) : Prop :=
  id ∈ approvals ∨ Meets X (env.getActive id) ∨ Meets X (env.getOwner id)

/-- Every authority that the operations require is met by `X`. -/
structure RequirementsMet (env : AuthorityLookup K Op) (ops : List Op)
    (activeApprovals ownerApprovals : List AccountId) (X : Set (AccountId ⊕ K)) : Prop where
  other : ∀ op ∈ ops, ∀ auth ∈ (env.requiredAuthorities op).other, auth.gate.Met X
  owner : ∀ op ∈ ops, ∀ id ∈ (env.requiredAuthorities op).owner,
    id ∈ ownerApprovals ∨ Meets X (env.getOwner id)
  active : ∀ op ∈ ops, ∀ id ∈ (env.requiredAuthorities op).active,
    env.CustomMet X id op ∨ env.ActiveMet (initialApprovals activeApprovals ownerApprovals) X id

variable {env : AuthorityLookup K Op} {s : SignState K}

omit [DecidableEq K] in
lemma RequirementsMet.mono {ops : List Op} {active owner active' owner' : List AccountId}
    {X Y : Set (AccountId ⊕ K)} (h : env.RequirementsMet ops active owner X) (hXY : X ⊆ Y)
    (hact : active ⊆ active') (hown : owner ⊆ owner') :
    env.RequirementsMet ops active' owner' Y where
  other := fun op hop auth hauth => (h.other op hop auth hauth).mono hXY
  owner := fun op hop id hid => (h.owner op hop id hid).imp (fun h => hown h) fun h => h.mono hXY
  active := by
    intro op hop id hid
    rcases h.active op hop id hid with ⟨auth, hauth, hmet⟩ | happ | hmet | hmet
    · exact .inl ⟨auth, hauth, hmet.mono hXY⟩
    · exact .inr (.inl (initialApprovals_subset hact hown happ))
    · exact .inr (.inr (.inl (hmet.mono hXY)))
    · exact .inr (.inr (.inr (hmet.mono hXY)))

section Checks

variable {sigs : List K} {approvals : List AccountId}

section

variable (hfit : env.WeightsFit)
include hfit

lemma checkAccount_spec (id : AccountId) : Decides env sigs approvals
      (id ∈ approvals ∨ ∃ g ∈ (env.network sigs approvals).gates (.inl id),
          g.Met ((env.network sigs approvals).within env.maxRecursion))
      (.inl id ∈ (env.network sigs approvals).closure) (env.checkAccount id) := by
  intro s hs
  have hact := checkAuthority_spec sigs approvals hfit env.maxRecursion (fun _ => hfit.active (a := id))
  have hown := checkAuthority_spec sigs approvals hfit env.maxRecursion (fun _ => hfit.owner (a := id))
  obtain ⟨hs', hsound, hcom⟩ := checkBoth_spec hact hown s hs
  unfold checkAccount
  split_ifs with happ
  · exact ⟨hs, fun _ => hs.sound id happ, fun _ => rfl⟩
  · refine ⟨hs', ?_, ?_⟩
    · intro hc
      obtain ⟨g, hg, hmet⟩ := hsound hc
      exact (env.network sigs approvals).mem_closure_of_gate hg hmet
    · rintro (hbase | hgate)
      · exact absurd (hs.base id hbase) happ
      · exact hcom hgate

lemma checkActive_spec (id : AccountId) : Decides env sigs approvals
      (env.ActiveMet approvals ((env.network sigs approvals).within env.maxRecursion) id)
      (env.ActiveMet approvals (env.network sigs approvals).closure id) (env.checkActive id) := by
  have hown := checkAuthority_spec sigs approvals hfit env.maxRecursion (fun _ => hfit.owner (a := id))
  have heq : ∀ s, env.checkActive id s = if (env.checkAccount id s).1 = true then
      (true, (env.checkAccount id s).2) else
      env.checkAuthority env.maxRecursion (env.getOwner id) (env.checkAccount id s).2 := by
    intro s
    unfold checkActive
    rcases env.checkAccount id s with ⟨_ | _, s'⟩ <;> rfl
  apply ((checkAccount_spec hfit id).orElse hown heq).mono
  · rintro (hbase | hact | hown)
    · exact .inl (.inl hbase)
    · exact .inl (.inr (exists_gate_met.2 (.inl hact)))
    · exact .inr hown
  · rintro (hclo | hown)
    · rcases (env.network sigs approvals).mem_closure hclo with hbase | hgate
      · exact .inl (inl_mem_base.1 hbase)
      · rcases exists_gate_met.1 hgate with hact | ⟨-, hown⟩
        · exact .inr (.inl hact)
        · exact .inr (.inr hown)
    · exact .inr (.inr hown)

lemma checkOwner_spec (ownerApprovals : List AccountId) (id : AccountId) :
    Decides env sigs approvals (id ∈ ownerApprovals ∨
        Meets ((env.network sigs approvals).within env.maxRecursion) (env.getOwner id))
      (id ∈ ownerApprovals ∨ Meets (env.network sigs approvals).closure (env.getOwner id))
      (env.checkOwner ownerApprovals id) := by
  intro s hs
  have hown := checkAuthority_spec sigs approvals hfit env.maxRecursion (fun _ => hfit.owner (a := id))
  obtain ⟨hs', hsound, hcom⟩ := hown s hs
  unfold checkOwner
  split_ifs with happ
  · exact ⟨hs, fun _ => .inl happ, fun _ => rfl⟩
  · refine ⟨hs', fun hc => .inr (hsound hc), ?_⟩
    rintro (hmem | hmet)
    · exact absurd hmem happ
    · exact hcom hmet

lemma approvedByCustomAuthority_spec {auths : List (Authority K)}
    (hauths : ∀ auth ∈ auths, auth.WeightsFit) : Decides env sigs approvals
      (∃ auth ∈ auths, auth.gate.Met ((env.network sigs approvals).within env.maxRecursion))
      (∃ auth ∈ auths, auth.gate.Met (env.network sigs approvals).closure)
      (env.approvedByCustomAuthority auths) := by
  induction auths with
  | nil =>
    refine (Decides.fail (K := K)).mono ?_ id
    rintro ⟨auth, hauth, -⟩
    cases hauth
  | cons auth rest ih =>
    have hauth : ∀ a, some auth = some a → a.WeightsFit := by
      rintro _ ⟨⟩
      exact hauths auth mem_cons_self
    have hfst := checkAuthority_spec sigs approvals hfit env.maxRecursion hauth
    have hrest := ih (forall_mem_cons.1 hauths).2
    simp only [mem_cons, exists_eq_or_imp, ← meets_some]
    apply hfst.orElse (by simpa only [meets_some] using hrest)
    intro s
    rw [approvedByCustomAuthority]
    rcases env.checkAuthority env.maxRecursion (some auth) s with ⟨_ | _, s'⟩ <;> rfl

/-! ## The loops of `verify_authority` -/

lemma eraseApproved_spec (op : Op) (ids : List AccountId) (hs : Tracks env sigs approvals s) :
    Tracks env sigs approvals (env.eraseApproved op ids s).2 ∧
      (∀ id ∈ ids, id ∈ (env.eraseApproved op ids s).1 ∨
        env.CustomMet (env.network sigs approvals).closure id op) ∧
      ∀ id ∈ (env.eraseApproved op ids s).1, id ∈ ids ∧
        ¬ env.CustomMet ((env.network sigs approvals).within env.maxRecursion) id op := by
  induction ids generalizing s with
  | nil =>
    refine ⟨hs, ?_, ?_⟩
    · intro id hid
      cases hid
    · intro id hid
      cases hid
  | cons a rest ih =>
    have hcus : ∀ auth ∈ env.getCustom a op, auth.WeightsFit := fun _ => hfit.custom
    obtain ⟨hs', hsound, hcom⟩ := approvedByCustomAuthority_spec hfit hcus s hs
    unfold eraseApproved
    cases hc : env.approvedByCustomAuthority (env.getCustom a op) s with
    | mk approved s' =>
      rw [hc] at hs' hsound hcom
      obtain ⟨htra, hcov, hleft⟩ := ih hs'
      cases approved with
      | true =>
        refine ⟨htra, ?_, ?_⟩
        · intro id hid
          rcases mem_cons.1 hid with rfl | hid
          · exact .inr (hsound rfl)
          · exact hcov id hid
        · intro id hid
          exact ⟨mem_cons_of_mem _ (hleft id hid).1, (hleft id hid).2⟩
      | false =>
        refine ⟨htra, ?_, ?_⟩
        · intro id hid
          rcases mem_cons.1 hid with rfl | hid
          · exact .inl mem_cons_self
          · exact (hcov id hid).imp (mem_cons_of_mem _) fun h => h
        · intro id hid
          rcases mem_cons.1 hid with rfl | hid
          · exact ⟨mem_cons_self, fun hmet => Bool.noConfusion (hcom hmet)⟩
          · exact ⟨mem_cons_of_mem _ (hleft id hid).1, (hleft id hid).2⟩

lemma requiredActive_spec (ops : List Op) (hs : Tracks env sigs approvals s) :
    Tracks env sigs approvals (env.requiredActive ops s).2 ∧
      (∀ op ∈ ops, ∀ id ∈ (env.requiredAuthorities op).active, id ∈ (env.requiredActive ops s).1 ∨
          env.CustomMet (env.network sigs approvals).closure id op) ∧
      ∀ id ∈ (env.requiredActive ops s).1, ∃ op ∈ ops, id ∈ (env.requiredAuthorities op).active ∧
          ¬ env.CustomMet ((env.network sigs approvals).within env.maxRecursion) id op := by
  induction ops generalizing s with
  | nil =>
    refine ⟨hs, ?_, ?_⟩
    · intro op hop
      cases hop
    · intro id hid
      cases hid
  | cons op ops ih =>
    rcases eraseApproved_spec hfit op (flatSet (env.requiredAuthorities op).active) hs with
      ⟨hs', hcov, hleft⟩
    obtain ⟨hs'', hcov', hleft'⟩ := ih hs'
    refine ⟨hs'', ?_, ?_⟩
    · intro op' hop' id hid
      rcases mem_cons.1 hop' with rfl | hop'
      · exact (hcov id (mem_flatSet.2 hid)).imp (mem_append_left _) fun h => h
      · exact (hcov' op' hop' id hid).imp (mem_append_right _) fun h => h
    · intro id hid
      rcases mem_append.1 hid with hid | hid
      · obtain ⟨hmem, hnot⟩ := hleft id hid
        exact ⟨op, mem_cons_self, mem_flatSet.1 hmem, hnot⟩
      · obtain ⟨op', hop', hmem, hnot⟩ := hleft' id hid
        exact ⟨op', mem_cons_of_mem _ hop', hmem, hnot⟩

end

omit [DecidableEq K] in
lemma assertAll_spec {α : Type} {P Q : α → Prop} {check : α → SignState K → Bool × SignState K}
    (err : α → AuthorityError K) {xs : List α}
    (hchk : ∀ x ∈ xs, Decides env sigs approvals (P x) (Q x) (check x))
    (hs : Tracks env sigs approvals s) :
    (∃ s', assertAll check err xs s = .ok s' ∧ Tracks env sigs approvals s' ∧ ∀ x ∈ xs, Q x) ∨
      ∃ x ∈ xs, assertAll check err xs s = .error (err x) ∧ ¬ P x := by
  induction xs generalizing s with
  | nil =>
    refine .inl ⟨s, rfl, hs, ?_⟩
    intro x hx
    cases hx
  | cons x rest ih =>
    obtain ⟨hs', hsound, hcom⟩ := hchk x mem_cons_self s hs
    unfold assertAll
    cases hx : check x s with
    | mk passed s' =>
      rw [hx] at hs' hsound hcom
      cases passed with
      | false => exact .inr ⟨x, mem_cons_self, rfl, fun hp => Bool.noConfusion (hcom hp)⟩
      | true =>
        rcases ih (forall_mem_cons.1 hchk).2 hs' with
          ⟨s'', heq, htra, hall⟩ | ⟨y, hy, heq, hnot⟩
        · refine .inl ⟨s'', heq, htra, ?_⟩
          intro y hy
          rcases mem_cons.1 hy with rfl | hy
          · exact hsound rfl
          · exact hall y hy
        · exact .inr ⟨y, mem_cons_of_mem _ hy, heq, hnot⟩

lemma checkRequired_spec (hfit : env.WeightsFit) (ops : List Op)
    (ownerApprovals required : List AccountId) (hs : Tracks env sigs approvals s) :
    (∃ s', env.checkRequired ops ownerApprovals required s = .ok s' ∧
      (∀ op ∈ ops, ∀ auth ∈ (env.requiredAuthorities op).other,
        auth.gate.Met (env.network sigs approvals).closure) ∧
      (∀ op ∈ ops, ∀ id ∈ (env.requiredAuthorities op).owner,
        id ∈ ownerApprovals ∨ Meets (env.network sigs approvals).closure (env.getOwner id)) ∧
      ∀ id ∈ required, env.ActiveMet approvals (env.network sigs approvals).closure id) ∨
    (∃ auth, env.checkRequired ops ownerApprovals required s = .error (.txMissingOtherAuth auth) ∧
      ∃ op ∈ ops, auth ∈ (env.requiredAuthorities op).other ∧
        ¬ auth.gate.Met ((env.network sigs approvals).within env.maxRecursion)) ∨
    (∃ id, env.checkRequired ops ownerApprovals required s = .error (.txMissingOwnerAuth id) ∧
      ∃ op ∈ ops, id ∈ (env.requiredAuthorities op).owner ∧ ¬ (id ∈ ownerApprovals ∨
          Meets ((env.network sigs approvals).within env.maxRecursion) (env.getOwner id))) ∨
    ∃ id ∈ required,
      env.checkRequired ops ownerApprovals required s = .error (.txMissingActiveAuth id) ∧
        ¬ env.ActiveMet approvals ((env.network sigs approvals).within env.maxRecursion) id := by
  have hoth : ∀ auth ∈ ops.flatMap fun op => (env.requiredAuthorities op).other,
      Decides env sigs approvals
        (Meets ((env.network sigs approvals).within env.maxRecursion) (some auth))
        (Meets (env.network sigs approvals).closure (some auth))
        (env.checkAuthority env.maxRecursion (some auth)) := by
    intro auth hauth
    obtain ⟨op, -, hmem⟩ := mem_flatMap.1 hauth
    apply checkAuthority_spec sigs approvals hfit
    rintro _ ⟨⟩
    exact hfit.other hmem
  unfold checkRequired
  rcases assertAll_spec .txMissingOtherAuth hoth hs with
    ⟨s1, heq1, hs1, hall1⟩ | ⟨auth, hauth, heq, hnot⟩
  swap
  · obtain ⟨op, hop, hmem⟩ := mem_flatMap.1 hauth
    rw [heq]
    exact .inr (.inl ⟨auth, rfl, op, hop, hmem, fun hmet => hnot (meets_some.2 hmet)⟩)
  rw [heq1]
  rcases assertAll_spec .txMissingOwnerAuth
      (fun id _ => checkOwner_spec hfit ownerApprovals id) hs1 with
    ⟨s2, heq2, hs2, hall2⟩ | ⟨id, hid, heq, hnot⟩
  swap
  · obtain ⟨op, hop, hmem⟩ := mem_flatMap.1 (mem_flatSet.1 hid)
    exact .inr (.inr (.inl ⟨id, by simp only [bind, Except.bind, heq], op, hop, hmem, hnot⟩))
  rcases assertAll_spec .txMissingActiveAuth (fun id _ => checkActive_spec hfit id) hs2 with
    ⟨s3, heq3, -, hall3⟩ | ⟨id, hid, heq, hnot⟩
  swap
  · exact .inr (.inr (.inr
      ⟨id, mem_flatSet.1 hid, by simp only [bind, Except.bind, heq2, heq], hnot⟩))
  refine .inl ⟨s3, by simp only [bind, Except.bind, heq2, heq3], ?_, ?_, ?_⟩
  · intro op hop auth hauth
    exact meets_some.1 (hall1 auth (mem_flatMap.2 ⟨op, hop, hauth⟩))
  · intro op hop id hid
    exact hall2 id (mem_flatSet.2 (mem_flatMap.2 ⟨op, hop, hid⟩))
  · intro id hid
    exact hall3 id (mem_flatSet.2 hid)

omit [DecidableEq K] in
lemma initial_tracks (activeApprovals ownerApprovals : List AccountId) :
    Tracks env sigs (initialApprovals activeApprovals ownerApprovals)
      (.initial sigs activeApprovals ownerApprovals) where
  keys := by simp [SignState.initial, Function.comp_def]
  base := fun _ ha => ha
  sound := fun a ha => (env.network sigs _).base_subset_closure (inl_mem_base.2 ha)

end Checks

lemma verifyAuthority_spec (hfit : env.WeightsFit) (ops : List Op) (sigs : List K)
    (allowCommittee : Bool) (activeApprovals ownerApprovals : List AccountId) :
    let r := env.verifyAuthority ops sigs allowCommittee activeApprovals ownerApprovals
    let g := env.network sigs (initialApprovals activeApprovals ownerApprovals)
    (r = .ok () ∨ r = .error .txIrrelevantSig →
      env.RequirementsMet ops activeApprovals ownerApprovals g.closure) ∧
    (env.RequirementsMet ops activeApprovals ownerApprovals (g.within env.maxRecursion) →
      ∀ e, r = .error e → e.isMissing = false) := by
  dsimp only
  rcases requiredActive_spec hfit ops (initial_tracks activeApprovals ownerApprovals) with
    ⟨hs, hcov, hleft⟩
  unfold verifyAuthority
  rcases hreq : env.requiredActive ops (.initial sigs activeApprovals ownerApprovals) with
    ⟨required, s⟩
  rw [hreq] at hs hcov hleft
  simp only
  split_ifs with hcommittee
  · -- the committee account is refused before any authority is looked at
    refine ⟨?_, ?_⟩
    · rintro (h | h) <;> cases h
    · rintro - e ⟨⟩
      rfl
  rcases checkRequired_spec hfit ops ownerApprovals required hs with
    ⟨s', heq, hoth, hown, hact⟩ | ⟨auth, heq, op, hop, hauth, hnot⟩ |
    ⟨id, heq, op, hop, hid, hnot⟩ | ⟨id, hid, heq, hnot⟩
  · rw [heq]
    refine ⟨fun _ => ⟨hoth, hown, ?_⟩, ?_⟩
    · intro op hop id hid
      rcases hcov op hop id hid with hmem | hcus
      · exact .inr (hact id hmem)
      · exact .inl hcus
    · intro _ e he
      simp only at he
      split_ifs at he
      cases he
      rfl
  · rw [heq]
    refine ⟨?_, fun hmet => absurd (hmet.other op hop auth hauth) hnot⟩
    rintro (h | h) <;> cases h
  · rw [heq]
    refine ⟨?_, fun hmet => absurd (hmet.owner op hop id hid) hnot⟩
    rintro (h | h) <;> cases h
  · rw [heq]
    refine ⟨?_, ?_⟩
    · rintro (h | h) <;> cases h
    · intro hmet
      obtain ⟨op, hop, hmem, hcus⟩ := hleft id hid
      exact absurd ((hmet.active op hop id hmem).resolve_left hcus) hnot

/-- If `verify_authority` returns, or complains only about an unnecessary signature, then every
required authority is met by the least fixed point.  If every required authority is met within
the recursion limit, no missing authority is reported. -/
theorem verify_authority_sound_complete (env : AuthorityLookup K Op) (hfit : env.WeightsFit)
    (ops : List Op) (sigs : List K) (allowCommittee : Bool)
    (activeApprovals ownerApprovals : List AccountId) :
    (env.verifyAuthority ops sigs allowCommittee activeApprovals ownerApprovals = .ok () ∨
        env.verifyAuthority ops sigs allowCommittee activeApprovals ownerApprovals =
          .error .txIrrelevantSig → env.RequirementsMet ops activeApprovals ownerApprovals
        (env.network sigs (initialApprovals activeApprovals ownerApprovals)).closure) ∧
    (env.RequirementsMet ops activeApprovals ownerApprovals
        ((env.network sigs (initialApprovals activeApprovals ownerApprovals)).within
          env.maxRecursion) →
      ∀ e, env.verifyAuthority ops sigs allowCommittee activeApprovals ownerApprovals = .error e →
        e.isMissing = false) :=
  verifyAuthority_spec hfit ops sigs allowCommittee activeApprovals ownerApprovals

/-! ## Two accounts that refer to each other -/

def mutualLookup : AuthorityLookup Nat Unit where
  getActive
    | 10 => some ⟨2, [(11, 1)], [(7, 1)]⟩
    | 11 => some ⟨1, [(10, 1)], [(8, 1)]⟩
    | _ => none
  getOwner _ := none
  getCustom _ _ := []
  requiredAuthorities _ := ⟨[10], [], []⟩
  allowNonImmediateOwner := false
  maxRecursion := 1

lemma mutualLookup_weightsFit : mutualLookup.WeightsFit where
  active := by
    intro a auth h
    unfold mutualLookup at h
    simp only at h
    split at h <;> cases h <;> simp [Authority.WeightsFit]
  owner := nofun
  custom := nofun
  other := nofun

lemma mutualLookup_requirementsMet :
    mutualLookup.RequirementsMet [()] [] [] ((mutualLookup.network [7, 8] [4]).within 1) := by
  have hbase : ∀ k ∈ [7, 8], ∀ n, Sum.inr k ∈ (mutualLookup.network [7, 8] [4]).within n := by
    intro k hk n
    cases n with
    | zero => exact inr_mem_base.2 hk
    | succ n => exact .inl (inr_mem_base.2 hk)
  have h11 : Sum.inl 11 ∈ (mutualLookup.network [7, 8] [4]).within 1 := by
    refine .inr ⟨_, mem_cons_self, ?_⟩
    unfold Gate.Met
    simp only [Authority.gate, map_cons, map_nil, cons_append, nil_append]
    rw [weightIn_cons_of_mem (hbase 8 (by decide) 0)]
    exact Nat.le_add_right 1 _
  refine ⟨nofun, nofun, ?_⟩
  intro _ _ id hid
  obtain rfl := mem_singleton.1 hid
  refine .inr (.inr (.inl ⟨_, rfl, ?_⟩))
  unfold Gate.Met
  simp only [Authority.gate, map_cons, map_nil, cons_append, nil_append]
  rw [weightIn_cons_of_mem (hbase 7 (by decide) 1), weightIn_cons_of_mem h11, weightIn_nil]
  exact le_rfl

theorem verify_authority_sound_complete_mutual : mutualLookup.WeightsFit ∧
      mutualLookup.verifyAuthority [()] [7, 8] false [] [] = .ok () ∧
      mutualLookup.RequirementsMet [()] [] []
        (mutualLookup.network [7, 8] (initialApprovals [] [])).closure ∧
      mutualLookup.RequirementsMet [()] [] []
        ((mutualLookup.network [7, 8] (initialApprovals [] [])).within 1) ∧
      ∀ e, mutualLookup.verifyAuthority [()] [7, 8] false [] [] = .error e → e.isMissing = false := by
  have hok : mutualLookup.verifyAuthority [()] [7, 8] false [] [] = .ok () := by decide +kernel
  have h := verify_authority_sound_complete mutualLookup mutualLookup_weightsFit [()] [7, 8] false
    [] []
  exact ⟨mutualLookup_weightsFit, hok, h.1 (.inl hok), mutualLookup_requirementsMet,
    h.2 mutualLookup_requirementsMet⟩

def committeeLookup : AuthorityLookup Nat Unit where
  getActive _ := some ⟨1, [], [(7, 1)]⟩
  getOwner _ := some ⟨1, [], [(7, 1)]⟩
  getCustom _ _ := []
  requiredAuthorities _ := ⟨[grapheneCommitteeAccount], [], []⟩
  allowNonImmediateOwner := true
  maxRecursion := 2

/-- Without signatures the operation is refused for the committee account, not for a missing
authority. -/
theorem missing_authority_not_reported : committeeLookup.WeightsFit ∧
      committeeLookup.verifyAuthority [()] [] false [] [] = .error .invalidCommitteeApproval ∧
      ¬ committeeLookup.RequirementsMet [()] [] []
        (committeeLookup.network [] (initialApprovals [] [])).closure := by
  refine ⟨⟨?_, ?_, nofun, nofun⟩, by decide +kernel, ?_⟩
  · rintro a auth ⟨⟩
    simp [Authority.WeightsFit]
  · rintro a auth ⟨⟩
    simp [Authority.WeightsFit]
  · intro hmet
    have hunmet : ¬ (⟨1, [], [(7, 1)]⟩ : Authority Nat).gate.Met
        (committeeLookup.network [] (initialApprovals [] [])).closure := by
      have hkey : Sum.inr 7 ∉ (committeeLookup.network [] (initialApprovals [] [])).closure := by
        intro h
        rcases Network.mem_closure _ h with h | ⟨g, hg, -⟩
        · simpa using inr_mem_base.1 h
        · cases hg
      unfold Gate.Met
      simp only [Authority.gate, map_cons, map_nil, append_nil]
      rw [weightIn_cons_of_not_mem hkey]
      simp
    rcases hmet.active () mem_cons_self grapheneCommitteeAccount mem_cons_self with
      ⟨_, h, -⟩ | h | ⟨_, ⟨⟩, h⟩ | ⟨_, ⟨⟩, h⟩
    · cases h
    · revert h
      decide
    · exact hunmet h
    · exact hunmet h

end AuthorityLookup

end Graphene.Protocol
