import Mathlib

/-!
# Weighted threshold gates

A gate lists members with weights and is met by a set when the weights of the members
in the set reach its threshold.  In a network every member may have gates, any of which
approves it.  The closure of a network is the least set that contains the members that
are approved from the start and everything that a gate approves; `within n` is the part
that is approved through at most `n` nested gates.
-/

namespace Graphene.Lib

variable {S : Type}

open Classical in
noncomputable def weightIn (X : Set S) : List (S × Nat) → Nat
  | [] => 0
  | m :: ms => (if m.1 ∈ X then m.2 else 0) + weightIn X ms

@[simp] lemma weightIn_nil (X : Set S) : weightIn X [] = 0 := rfl

variable {X Y : Set S} {threshold total : Nat} {x : S} {m : S × Nat} {w : Nat}
  {entries : List (S × Nat)} {r : Option Nat}

lemma weightIn_cons_of_mem (h : m.1 ∈ X) (ms : List (S × Nat)) :
    weightIn X (m :: ms) = m.2 + weightIn X ms := by
  simp [weightIn, h]

lemma weightIn_cons_of_not_mem (h : m.1 ∉ X) (ms : List (S × Nat)) :
    weightIn X (m :: ms) = weightIn X ms := by
  simp [weightIn, h]

lemma weightIn_append (X : Set S) (ms ns : List (S × Nat)) :
    weightIn X (ms ++ ns) = weightIn X ms + weightIn X ns := by
  induction ms with
  | nil => simp
  | cons m ms ih =>
    simp only [List.cons_append, weightIn, ih]
    omega

lemma weightIn_mono (h : X ⊆ Y) (ms : List (S × Nat)) : weightIn X ms ≤ weightIn Y ms := by
  induction ms with
  | nil => exact le_rfl
  | cons m ms ih =>
    by_cases hX : m.1 ∈ X
    · rw [weightIn_cons_of_mem hX, weightIn_cons_of_mem (h hX)]
      exact Nat.add_le_add_left ih _
    · rw [weightIn_cons_of_not_mem hX]
      exact ih.trans (Nat.le_add_left _ _)

lemma weightIn_le_sum (X : Set S) (ms : List (S × Nat)) : weightIn X ms ≤ (ms.map Prod.snd).sum := by
  refine (weightIn_mono (Set.subset_univ X) ms).trans_eq ?_
  induction ms with
  | nil => rfl
  | cons m ms ih => simp [weightIn, ih]

/-- What a loop over weighted entries returns, when it counts every entry in `X` and only entries in
`Y`: nothing more to do, or the new total. -/
def Counts (X Y : Set S) (threshold total : Nat) (entries : List (S × Nat)) : Option Nat → Prop
  | none => threshold ≤ total + weightIn Y entries
  | some t => total + weightIn X entries ≤ t ∧ t ≤ total + weightIn Y entries

lemma Counts.nil (X Y : Set S) (threshold total : Nat) :
    Counts X Y threshold total [] (some total) := by
  simp [Counts]

lemma Counts.counted (hx : x ∈ Y) (h : Counts X Y threshold (total + w) entries r) :
    Counts X Y threshold total ((x, w) :: entries) r := by
  have hY : weightIn Y ((x, w) :: entries) = w + weightIn Y entries := weightIn_cons_of_mem hx _
  have hX : weightIn X ((x, w) :: entries) ≤ w + weightIn X entries := by
    by_cases hmem : x ∈ X
    · exact (weightIn_cons_of_mem hmem _).le
    · exact (weightIn_cons_of_not_mem hmem _).le.trans (Nat.le_add_left _ _)
  cases r
  all_goals
    simp only [Counts] at h ⊢
    omega

lemma Counts.skipped (hx : x ∉ X) (h : Counts X Y threshold total entries r) :
    Counts X Y threshold total ((x, w) :: entries) r := by
  have hX : weightIn X ((x, w) :: entries) = weightIn X entries := weightIn_cons_of_not_mem hx _
  have hY : weightIn Y entries ≤ weightIn Y ((x, w) :: entries) := by
    by_cases hmem : x ∈ Y
    · exact (Nat.le_add_left _ _).trans (weightIn_cons_of_mem hmem _).ge
    · exact (weightIn_cons_of_not_mem hmem _).ge
  cases r
  all_goals
    simp only [Counts] at h ⊢
    omega

lemma Counts.reached (entries : List (S × Nat)) (hx : x ∈ Y) (h : threshold ≤ total + w) :
    Counts X Y threshold total ((x, w) :: entries) none := by
  have hY : weightIn Y ((x, w) :: entries) = w + weightIn Y entries := weightIn_cons_of_mem hx _
  simp only [Counts]
  omega

structure Gate (S : Type) where
  threshold : Nat
  members : List (S × Nat)

def Gate.Met (g : Gate S) (X : Set S) : Prop :=
  g.threshold ≤ weightIn X g.members

variable {g : Gate S}

lemma Gate.Met.mono (h : g.Met X) (hXY : X ⊆ Y) : g.Met Y :=
  le_trans h (weightIn_mono hXY g.members)

/-- Members approved from the start, and the gates of every member. -/
structure Network (S : Type) where
  base : Set S
  gates : S → List (Gate S)

variable {a : S}

namespace Network

variable (net : Network S)

def step : Set S →o Set S where
  toFun X := net.base ∪ {a | ∃ g ∈ net.gates a, g.Met X}
  monotone' := by
    intro X Y hXY a ha
    rcases ha with ha | ⟨g, hg, hmet⟩
    · exact .inl ha
    · exact .inr ⟨g, hg, hmet.mono hXY⟩

/-- Everything that is approved: the least fixed point. -/
def closure : Set S :=
  OrderHom.lfp net.step

def within : Nat → Set S
  | 0 => net.base
  | n + 1 => net.step (within n)

lemma step_closure : net.step net.closure = net.closure := OrderHom.map_lfp net.step

lemma base_subset_closure : net.base ⊆ net.closure := by
  intro a ha
  rw [← net.step_closure]
  exact .inl ha

lemma mem_closure_of_gate (hg : g ∈ net.gates a) (h : g.Met net.closure) : a ∈ net.closure := by
  rw [← net.step_closure]
  exact .inr ⟨g, hg, h⟩

lemma mem_closure (h : a ∈ net.closure) : a ∈ net.base ∨ ∃ g ∈ net.gates a, g.Met net.closure := by
  rwa [← net.step_closure] at h

lemma closure_mono {net net' : Network S} (hbase : net.base ⊆ net'.base)
    (hgates : net.gates = net'.gates) : net.closure ⊆ net'.closure := by
  refine OrderHom.lfp.monotone ?_
  rintro X a (ha | ⟨g, hg, hmet⟩)
  · exact .inl (hbase ha)
  · exact .inr ⟨g, hgates ▸ hg, hmet⟩

lemma base_subset_within (n : Nat) : net.base ⊆ net.within n := by
  cases n with
  | zero => exact fun _ h => h
  | succ n => exact fun _ h => .inl h

end Network

end Graphene.Lib
