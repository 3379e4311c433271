import Graphene.Protocol.Authority
import Graphene.Lib.Threshold
import Graphene.Lib.Outcome

/-!
# What the authority checker decides

Authorities are weighted threshold gates over keys and accounts, and an account is
approved through the gates of its active authority and, where allowed, its owner
authority.  The checker never approves more than the least fixed point of this network,
and it finds every authority that is met through no more nested accounts than its
recursion limit.  Both follow from one invariant on the state of the checker: the
accounts in `approved_by` lie in the fixed point, and the initial approvals are among
them.
-/

namespace Graphene.Protocol

open Lib List

variable {K Op : Type}

def Authority.gate (auth : Authority K) : Gate (AccountId ⊕ K) where
  threshold := auth.weightThreshold
  members := (auth.keyAuths.map fun e => (.inr e.1, e.2)) ++
    auth.accountAuths.map fun e => (.inl e.1, e.2)

def Authority.WeightsFit (auth : Authority K) : Prop :=
  (auth.keyAuths.map Prod.snd).sum + (auth.accountAuths.map Prod.snd).sum < 2 ^ 32

namespace AuthorityLookup

/-- The signatures and approvals, and the authorities of all accounts. -/
def network (env : AuthorityLookup K Op) (sigs : List K) (approvals : List AccountId) :
    Network (AccountId ⊕ K) where
  base := {x | (∃ a ∈ approvals, x = .inl a) ∨ ∃ k ∈ sigs, x = .inr k}
  gates
    | .inl a => (env.getActive a).toList.map Authority.gate ++
        if env.allowNonImmediateOwner then (env.getOwner a).toList.map Authority.gate else []
    | .inr _ => []

structure WeightsFit (env : AuthorityLookup K Op) : Prop where
  active : ∀ {a auth}, env.getActive a = some auth → auth.WeightsFit
  owner : ∀ {a auth}, env.getOwner a = some auth → auth.WeightsFit
  custom : ∀ {a op auth}, auth ∈ env.getCustom a op → auth.WeightsFit
  other : ∀ {op auth}, auth ∈ (env.requiredAuthorities op).other → auth.WeightsFit

end AuthorityLookup

open AuthorityLookup (network)

variable {a : AccountId} {s : SignState K} {X : Set (AccountId ⊕ K)} {k : K}
  {Y : Set (AccountId ⊕ K)} {expand : Option (AccountId → SignState K → Bool × SignState K)}
  {auth : Authority K} {check : SignState K → Bool × SignState K} {au : Option (Authority K)}

section Checker

variable [DecidableEq K] {env : AuthorityLookup K Op} {sigs : List K} {approvals : List AccountId}

section

omit [DecidableEq K]

lemma inr_mem_base : Sum.inr k ∈ (env.network sigs approvals).base ↔ k ∈ sigs := by
  simp [network]

lemma inl_mem_base : Sum.inl a ∈ (env.network sigs approvals).base ↔ a ∈ approvals := by
  simp [network]

lemma inr_mem_within {n : Nat} (h : Sum.inr k ∈ (env.network sigs approvals).within n) :
    k ∈ sigs := by
  cases n with
  | zero => exact inr_mem_base.1 h
  | succ =>
    rcases h with h | ⟨g, hg, -⟩
    · exact inr_mem_base.1 h
    · cases hg

end

structure Tracks (env : AuthorityLookup K Op) (sigs : List K) (approvals : List AccountId)
    (s : SignState K) : Prop where
  keys : s.providedSignatures.map Prod.fst = sigs
  base : ∀ a ∈ approvals, a ∈ s.approvedBy
  sound : ∀ a ∈ s.approvedBy, Sum.inl a ∈ (env.network sigs approvals).closure

/-- A check that keeps the invariant, succeeds when `P` holds, and only when `Q` does. -/
def Decides (env : AuthorityLookup K Op) (sigs : List K) (approvals : List AccountId) (P Q : Prop)
    (check : SignState K → Bool × SignState K) : Prop :=
  ∀ s, Tracks env sigs approvals s → Tracks env sigs approvals (check s).2 ∧
    ((check s).1 = true → Q) ∧ (P → (check s).1 = true)

lemma signedBy_spec (h : Tracks env sigs approvals s) (k : K) :
    Tracks env sigs approvals (s.signedBy k).2 ∧ ((s.signedBy k).1 = true ↔ k ∈ sigs) := by
  unfold SignState.signedBy
  rw [h.keys]
  split_ifs with hk
  · refine ⟨⟨?_, h.base, h.sound⟩, by simp [hk]⟩
    rw [← h.keys, map_map]
    apply map_congr_left
    intro p _
    simp only [Function.comp_apply]
    split_ifs <;> rfl
  · exact ⟨h, by simp [hk]⟩

omit [DecidableEq K] in
lemma approve_tracks (h : Tracks env sigs approvals s)
    (ha : Sum.inl a ∈ (env.network sigs approvals).closure) :
    Tracks env sigs approvals (s.approve a) := by
  unfold SignState.approve
  split_ifs
  · exact h
  · refine ⟨h.keys, fun b hb => mem_cons_of_mem _ (h.base b hb), ?_⟩
    intro b hb
    rcases mem_cons.1 hb with rfl | hb
    · exact ha
    · exact h.sound b hb

/-! ## The loops over the entries of an authority -/

lemma addWeight_eq {total w : Nat} (h : total + w < 2 ^ 32) : addWeight total w = total + w :=
  Nat.mod_eq_of_lt h

lemma checkKeys_spec (hX : ∀ k, .inr k ∈ X → k ∈ sigs) (hY : ∀ k ∈ sigs, .inr k ∈ Y)
    (threshold : Nat) (entries : List (K × Nat)) (total : Nat) (hs : Tracks env sigs approvals s)
    (hfit : total + (entries.map Prod.snd).sum < 2 ^ 32) :
    Tracks env sigs approvals (checkKeys threshold entries total s).2 ∧
      Counts X Y threshold total (entries.map fun e => (.inr e.1, e.2))
        (checkKeys threshold entries total s).1 := by
  induction entries generalizing total s with
  | nil => exact ⟨hs, .nil X Y threshold total⟩
  | cons e rest ih =>
    obtain ⟨k, w⟩ := e
    rw [map_cons, sum_cons] at hfit
    obtain ⟨hs', hsig⟩ := signedBy_spec hs k
    cases hk : s.signedBy k with
    | mk signed =>
      rw [hk] at hs' hsig
      cases signed with
      | false =>
        have hnot : k ∉ sigs := fun hmem => by simpa using hsig.2 hmem
        simp only [checkKeys, hk]
        obtain ⟨htra, hcou⟩ := ih total hs' (by omega)
        exact ⟨htra, hcou.skipped (fun hmem => hnot (hX k hmem))⟩
      | true =>
        have hmem : Sum.inr k ∈ Y := hY k (hsig.1 rfl)
        have hadd : addWeight total w = total + w := addWeight_eq (by omega)
        simp only [checkKeys, hk, hadd]
        split_ifs with hreached
        · exact ⟨hs', .reached _ hmem hreached⟩
        · obtain ⟨htra, hcou⟩ := ih (total + w) hs' (by omega)
          exact ⟨htra, hcou.counted hmem⟩

/-- What the loop over the accounts needs of the recursive check. -/
def ExpandsTo (env : AuthorityLookup K Op) (sigs : List K) (approvals : List AccountId)
    (X : Set (AccountId ⊕ K)) : Option (AccountId → SignState K → Bool × SignState K) → Prop
  | none => ∀ a, .inl a ∈ X → a ∈ approvals
  | some check => ∀ a, Decides env sigs approvals (.inl a ∈ X ∧ a ∉ approvals)
      (.inl a ∈ (env.network sigs approvals).closure) (check a)

omit [DecidableEq K] in
lemma checkAccounts_spec (hexp : ExpandsTo env sigs approvals X expand) (threshold : Nat)
    (entries : List (AccountId × Nat)) (total : Nat) (hs : Tracks env sigs approvals s)
    (hfit : total + (entries.map Prod.snd).sum < 2 ^ 32) :
    Tracks env sigs approvals (checkAccounts expand threshold entries total s).2 ∧
      Counts X (env.network sigs approvals).closure threshold total
        (entries.map fun e => (.inl e.1, e.2))
        (checkAccounts expand threshold entries total s).1 := by
  induction entries generalizing total s with
  | nil => exact ⟨hs, .nil _ _ threshold total⟩
  | cons e rest ih =>
    obtain ⟨a, w⟩ := e
    rw [map_cons, sum_cons] at hfit
    have hadd : addWeight total w = total + w := addWeight_eq (by omega)
    by_cases happ : a ∈ s.approvedBy
    · have hmem := hs.sound a happ
      simp only [checkAccounts, happ, if_true, hadd]
      split_ifs with hreached
      · exact ⟨hs, .reached _ hmem hreached⟩
      · obtain ⟨htra, hcou⟩ := ih (total + w) hs (by omega)
        exact ⟨htra, hcou.counted hmem⟩
    · have hnew : a ∉ approvals := fun hbase => happ (hs.base a hbase)
      cases expand with
      | none =>
        -- at the recursion limit only approved accounts count
        simp only [checkAccounts, happ, if_false]
        obtain ⟨htra, hcou⟩ := ih total hs (by omega)
        exact ⟨htra, hcou.skipped (fun hmem => hnew (hexp a hmem))⟩
      | some check =>
        obtain ⟨hs', hsound, hcom⟩ := hexp a s hs
        simp only [checkAccounts, happ, if_false]
        cases hchk : check a s with
        | mk approves =>
          rw [hchk] at hs' hsound hcom
          cases approves with
          | false =>
            obtain ⟨htra, hcou⟩ := ih total hs' (by omega)
            refine ⟨htra, hcou.skipped ?_⟩
            intro hmem
            simpa using hcom ⟨hmem, hnew⟩
          | true =>
            have hmem := hsound rfl
            have hs'' := approve_tracks hs' hmem
            simp only [hadd]
            split_ifs with hreached
            · exact ⟨hs'', .reached _ hmem hreached⟩
            · obtain ⟨htra, hcou⟩ := ih (total + w) hs'' (by omega)
              exact ⟨htra, hcou.counted hmem⟩

/-- One authority: it passes when it is met by what the entries can expand to, and only when it is
met by the fixed point. -/
lemma checkEntries_spec (hexp : ExpandsTo env sigs approvals X expand)
    (hkeys : ∀ k, .inr k ∈ X → k ∈ sigs) (hfit : auth.WeightsFit) :
    Decides env sigs approvals (auth.gate.Met X)
      (auth.gate.Met (env.network sigs approvals).closure) (checkEntries expand auth) := by
  intro s hs
  have hclo : ∀ k ∈ sigs, .inr k ∈ (env.network sigs approvals).closure := fun k hk =>
    (env.network sigs approvals).base_subset_closure (inr_mem_base.2 hk)
  unfold Authority.WeightsFit at hfit
  have hme : ∀ Z, weightIn Z auth.gate.members =
      weightIn Z (auth.keyAuths.map fun e => (.inr e.1, e.2)) +
        weightIn Z (auth.accountAuths.map fun e => (.inl e.1, e.2)) :=
    fun Z => weightIn_append Z _ _
  have hthr : auth.gate.threshold = auth.weightThreshold := rfl
  unfold Gate.Met
  rw [hme, hme, hthr]
  have hkes := checkKeys_spec hkeys hclo auth.weightThreshold auth.keyAuths 0 hs (by omega)
  unfold checkEntries
  cases hk : checkKeys auth.weightThreshold auth.keyAuths 0 s with
  | mk r s1 =>
    rw [hk] at hkes
    obtain ⟨hs1, hcou⟩ := hkes
    cases r with
    | none =>
      simp only [Counts] at hcou
      exact ⟨hs1, fun _ => by omega, fun _ => rfl⟩
    | some t =>
      simp only [Counts] at hcou
      have htot : weightIn (env.network sigs approvals).closure
          (auth.keyAuths.map fun e => (Sum.inr e.1, e.2)) ≤ (auth.keyAuths.map Prod.snd).sum := by
        have h := weightIn_le_sum (env.network sigs approvals).closure
          (auth.keyAuths.map fun e => (Sum.inr e.1, e.2))
        rwa [map_map] at h
      have haccs := checkAccounts_spec hexp auth.weightThreshold auth.accountAuths t hs1
        (by omega)
      simp only
      cases ha : checkAccounts expand auth.weightThreshold auth.accountAuths t s1 with
      | mk r' =>
        rw [ha] at haccs
        obtain ⟨hs2, hcou'⟩ := haccs
        cases r' with
        | none =>
          simp only [Counts] at hcou'
          exact ⟨hs2, fun _ => by omega, fun _ => rfl⟩
        | some =>
          simp only [Counts] at hcou'
          refine ⟨hs2, ?_, ?_⟩
          · intro hmet
            have := of_decide_eq_true hmet
            omega
          · intro hmet
            exact decide_eq_true (by omega)

/-! ## The recursion over accounts -/

section

omit [DecidableEq K]

lemma Decides.mono {P P' Q Q' : Prop} (h : Decides env sigs approvals P Q check) (hP : P' → P)
    (hQ : Q → Q') : Decides env sigs approvals P' Q' check := by
  intro s hs
  obtain ⟨hs', hsound, hcom⟩ := h s hs
  exact ⟨hs', fun hc => hQ (hsound hc), fun hp => hcom (hP hp)⟩

lemma Decides.orElse {P1 Q1 P2 Q2 : Prop} {first second : SignState K → Bool × SignState K}
    (h1 : Decides env sigs approvals P1 Q1 first) (h2 : Decides env sigs approvals P2 Q2 second)
    (heq : ∀ s, check s = if (first s).1 = true then (true, (first s).2) else second (first s).2) :
    Decides env sigs approvals (P1 ∨ P2) (Q1 ∨ Q2) check := by
  intro s hs
  obtain ⟨hs1, hsou, hco⟩ := h1 s hs
  obtain ⟨hs2, hso, hcomp⟩ := h2 _ hs1
  rw [heq]
  split_ifs with hfirst
  · exact ⟨hs1, fun _ => .inl (hsou hfirst), fun _ => rfl⟩
  · refine ⟨hs2, fun hc => .inr (hso hc), ?_⟩
    rintro (hp | hp)
    · exact absurd (hco hp) hfirst
    · exact hcomp hp

lemma Decides.fail {Q : Prop} :
    Decides env sigs approvals False Q fun s : SignState K => (false, s) := by
  intro s hs
  exact ⟨hs, fun hc => Bool.noConfusion hc, False.elim⟩

end

def Meets (X : Set (AccountId ⊕ K)) (au : Option (Authority K)) : Prop :=
  ∃ auth, au = some auth ∧ auth.gate.Met X

section

omit [DecidableEq K]

lemma Meets.mono (h : Meets X au) (hXY : X ⊆ Y) : Meets Y au := by
  obtain ⟨auth, hau, hmet⟩ := h
  exact ⟨auth, hau, hmet.mono hXY⟩

@[simp] lemma meets_some : Meets X (some auth) ↔ auth.gate.Met X := by
  simp [Meets]

@[simp] lemma not_meets_none : ¬ Meets X (none : Option (Authority K)) := by
  simp [Meets]

/-- An account is approved by its gates: the active authority, or the owner authority where that is
allowed. -/
lemma exists_gate_met : (∃ g ∈ (env.network sigs approvals).gates (.inl a), g.Met X) ↔
      Meets X (env.getActive a) ∨ env.allowNonImmediateOwner = true ∧ Meets X (env.getOwner a) := by
  simp only [network, mem_append, or_and_right, exists_or]
  apply or_congr
  · simp [Meets]
  · split_ifs with hown
    · simp [Meets, hown]
    · simp [hown]

end

namespace AuthorityLookup

omit [DecidableEq K] in
lemma checkBoth_spec {check : Option (Authority K) → SignState K → Bool × SignState K}
    (hact : Decides env sigs approvals (Meets X (env.getActive a)) (Meets Y (env.getActive a))
      (check (env.getActive a)))
    (hown : Decides env sigs approvals (Meets X (env.getOwner a)) (Meets Y (env.getOwner a))
      (check (env.getOwner a))) :
    Decides env sigs approvals (∃ g ∈ (env.network sigs approvals).gates (.inl a), g.Met X)
      (∃ g ∈ (env.network sigs approvals).gates (.inl a), g.Met Y) (env.checkBoth check a) := by
  simp only [exists_gate_met]
  have hsec : Decides env sigs approvals
      (env.allowNonImmediateOwner = true ∧ Meets X (env.getOwner a))
      (env.allowNonImmediateOwner = true ∧ Meets Y (env.getOwner a))
      (fun s => if env.allowNonImmediateOwner then check (env.getOwner a) s else (false, s)) := by
    by_cases hallow : env.allowNonImmediateOwner = true
    · simp only [hallow, if_true, true_and]
      exact hown
    · simp only [hallow, Bool.false_eq_true, if_false, false_and]
      exact Decides.fail (K := K)
  apply hact.orElse hsec
  intro s
  unfold checkBoth
  rcases check (env.getActive a) s with ⟨_ | _, s'⟩ <;> rfl

variable (sigs approvals) in
/-- With `left` more levels to expand, an authority passes when it is met within that many levels,
and only when it is met by the fixed point. -/
lemma checkAuthority_spec (hfit : env.WeightsFit) (left : Nat)
    (hau : ∀ auth, au = some auth → auth.WeightsFit) :
    Decides env sigs approvals (Meets ((env.network sigs approvals).within left) au)
      (Meets (env.network sigs approvals).closure au) (env.checkAuthority left au) := by
  induction left generalizing au with
  | zero =>
    cases au with
    | none => exact (Decides.fail (K := K)).mono not_meets_none id
    | some auth =>
      have hexp : ExpandsTo env sigs approvals ((env.network sigs approvals).within 0)
          none := fun a ha => inl_mem_base.1 ha
      have hent := checkEntries_spec hexp (fun k => inr_mem_within) (hau auth rfl)
      exact hent.mono meets_some.1 meets_some.2
  | succ left ih =>
    cases au with
    | none => exact (Decides.fail (K := K)).mono not_meets_none id
    | some auth =>
      -- an account that is no initial approval needs one of its gates, one level down
      have hexp : ExpandsTo env sigs approvals
          ((env.network sigs approvals).within (left + 1))
          (some (env.checkBoth (env.checkAuthority left))) := by
        intro a
        refine (checkBoth_spec (ih fun _ => hfit.active) (ih fun _ => hfit.owner)).mono ?_ ?_
        · rintro ⟨hbase | hgate, hnew⟩
          · exact absurd (inl_mem_base.1 hbase) hnew
          · exact hgate
        · rintro ⟨g, hg, hmet⟩
          exact (env.network sigs approvals).mem_closure_of_gate hg hmet
      have hent := checkEntries_spec hexp (fun k => inr_mem_within) (hau auth rfl)
      exact hent.mono meets_some.1 meets_some.2

end AuthorityLookup

end Checker

end Graphene.Protocol
