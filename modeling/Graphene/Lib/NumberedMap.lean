import Mathlib

/-!
# Values stored under the numbers of a counter

Values are put into a map one after another, each under the next number of a counter
that wraps around.  An insertion does not overwrite, so a value is lost when the counter
has come back to a number in use.  Nothing is lost exactly when the numbers are
different from each other and new.
-/

namespace Graphene.Lib

open List
namespace NumberedMap

variable {V : Type}

/-- `std::map::insert`: a key that is present keeps its value. -/
def insertNew (m : AList fun _ : ℕ => V) (k : ℕ) (v : V) : AList fun _ : ℕ => V :=
  if k ∈ m then m else m.insert k v

/-- Insert the values under consecutive numbers modulo `N`; the counter comes first. -/
def insertNumbered (N : ℕ) : List V → ℕ × (AList fun _ : ℕ => V) → ℕ × (AList fun _ : ℕ => V)
  | [], s => s
  | v :: vs, (c, m) => insertNumbered N vs ((c + 1) % N, insertNew m c v)

def numbers (N : ℕ) : ℕ → ℕ → List ℕ
  | 0, _ => []
  | n + 1, c => c :: numbers N n ((c + 1) % N)

/-- `after` has what `before` has, and each of the values under a number of its own. -/
def Extends (before : ℕ → Option V) (vs : List V) (after : ℕ → Option V) : Prop :=
  ∃ ids : List ℕ, ids.Nodup ∧ ids.length = vs.length ∧ (∀ k ∈ ids, before k = none) ∧
    (∀ p ∈ ids.zip vs, after p.1 = some p.2) ∧ ∀ k, k ∉ ids → after k = before k

@[simp] lemma length_numbers (N n c : ℕ) : (numbers N n c).length = n := by
  induction n generalizing c with
  | zero => rfl
  | succ n ih => simp [numbers, ih]

variable {N c : ℕ} {vs : List V} {m : AList fun _ : ℕ => V} {n k : ℕ}

lemma mem_numbers (hc : c < N) : k ∈ numbers N n c ↔ ∃ i < n, k = (c + i) % N := by
  induction n generalizing c with
  | zero => simp [numbers]
  | succ n ih =>
    rw [numbers, mem_cons, ih (Nat.mod_lt _ (Nat.zero_lt_of_lt hc))]
    constructor
    · rintro (rfl | ⟨i, hi, rfl⟩)
      · exact ⟨0, n.succ_pos, (Nat.mod_eq_of_lt hc).symm⟩
      · refine ⟨i + 1, Nat.succ_lt_succ hi, ?_⟩
        rw [Nat.mod_add_mod, Nat.add_right_comm, Nat.add_assoc]
    · rintro ⟨i, hi, rfl⟩
      cases i with
      | zero => exact Or.inl (Nat.mod_eq_of_lt hc)
      | succ i =>
        refine Or.inr ⟨i, Nat.lt_of_succ_lt_succ hi, ?_⟩
        rw [Nat.mod_add_mod, Nat.add_right_comm, Nat.add_assoc]

lemma nodup_numbers_iff (hc : c < N) : (numbers N n c).Nodup ↔ n ≤ N := by
  induction n generalizing c with
  | zero => simp [numbers]
  | succ n ih =>
    have hc' : (c + 1) % N < N := Nat.mod_lt _ (Nat.zero_lt_of_lt hc)
    rw [numbers, nodup_cons, ih hc', mem_numbers hc']
    constructor
    · rintro ⟨hnew, hn⟩
      by_contra hlt
      -- the first number comes again after `N` steps
      apply hnew
      refine ⟨N - 1, by omega, ?_⟩
      rw [Nat.mod_add_mod, Nat.add_assoc, Nat.add_sub_cancel' (by omega), Nat.add_mod_right,
        Nat.mod_eq_of_lt hc]
    · intro hn
      refine ⟨?_, by omega⟩
      rintro ⟨i, hi, heq⟩
      rw [Nat.mod_add_mod] at heq
      rcases Nat.lt_or_ge (c + 1 + i) N with hlt | hge
      · rw [Nat.mod_eq_of_lt hlt] at heq
        omega
      · rw [Nat.mod_eq_sub_mod hge, Nat.mod_eq_of_lt (by omega)] at heq
        omega

/-- Where every number in use is below the counter, the next `n ≤ N` numbers are new as far as the
ones after the wrap do not reach a number in use. -/
lemma numbers_new_iff (hc : c < N) (hn : n ≤ N) {Used : ℕ → Prop} (hbel : ∀ k, Used k → k < c) :
    (∀ k ∈ numbers N n c, ¬ Used k) ↔ ∀ k, Used k → c + n ≤ k + N := by
  constructor
  · intro hnew k hk
    by_contra hlt
    refine hnew k ?_ hk
    rw [mem_numbers hc]
    have hkc := hbel k hk
    refine ⟨k + N - c, by omega, ?_⟩
    rw [Nat.add_sub_cancel' (by omega), Nat.add_mod_right, Nat.mod_eq_of_lt (by omega)]
  · intro hroom k hk hused
    obtain ⟨i, hi, rfl⟩ := (mem_numbers hc).1 hk
    have hkc := hbel _ hused
    have hfar := hroom _ hused
    rcases Nat.lt_or_ge (c + i) N with hlt | hge
    · rw [Nat.mod_eq_of_lt hlt] at hkc
      omega
    · rw [Nat.mod_eq_sub_mod hge, Nat.mod_eq_of_lt (by omega)] at hfar
      omega

/-! ## The insertions -/

lemma lookup_insertNew (c : ℕ) (v : V) (k : ℕ) :
    (insertNew m c v).lookup k = if k = c ∧ m.lookup c = none then some v else m.lookup k := by
  unfold insertNew
  by_cases hmem : c ∈ m
  · have hsome : m.lookup c ≠ none := by
      rwa [Ne, AList.lookup_eq_none, not_not]
    rw [if_pos hmem, if_neg fun h => hsome h.2]
  · rw [if_neg hmem, AList.lookup_eq_none.2 hmem]
    by_cases hk : k = c
    · rw [hk, AList.lookup_insert, if_pos ⟨rfl, rfl⟩]
    · rw [AList.lookup_insert_ne hk, if_neg fun h => hk h.1]

lemma insertNumbered_fst_lt {s : ℕ × (AList fun _ : ℕ => V)} (hs : s.1 < N) :
    (insertNumbered N vs s).1 < N := by
  induction vs generalizing s with
  | nil => exact hs
  | cons v vs ih => exact ih (Nat.mod_lt _ (Nat.zero_lt_of_lt hs))

lemma lookup_insertNumbered_of_not_mem (hk : k ∉ numbers N vs.length c) :
    (insertNumbered N vs (c, m)).2.lookup k = m.lookup k := by
  induction vs generalizing c m with
  | nil => rfl
  | cons v vs ih =>
    rw [length_cons, numbers, mem_cons, not_or] at hk
    rw [insertNumbered, ih hk.2, lookup_insertNew, if_neg fun h => hk.1 h.1]

lemma lookup_insertNumbered_of_mem (hnodup : (numbers N vs.length c).Nodup)
    (hnew : ∀ k ∈ numbers N vs.length c, m.lookup k = none) : ∀ p ∈ (numbers N vs.length c).zip vs,
      (insertNumbered N vs (c, m)).2.lookup p.1 = some p.2 := by
  induction vs generalizing c m with
  | nil =>
    intro p hp
    cases hp
  | cons v vs ih =>
    rw [length_cons, numbers] at hnodup hnew ⊢
    rw [nodup_cons] at hnodup
    have hfree : m.lookup c = none := hnew c mem_cons_self
    intro p hp
    rw [zip_cons_cons, mem_cons] at hp
    rcases hp with rfl | hp
    · -- the rest of the loop does not come back to this number
      rw [insertNumbered, lookup_insertNumbered_of_not_mem hnodup.1, lookup_insertNew,
        if_pos ⟨rfl, hfree⟩]
    · refine ih hnodup.2 ?_ p hp
      intro k hk
      have hkc : k ≠ c := by
        rintro rfl
        exact hnodup.1 hk
      rw [lookup_insertNew, if_neg fun h => hkc h.1]
      exact hnew k (mem_cons_of_mem _ hk)

/-- Nothing is lost exactly when the numbers are different from each other and new. -/
theorem extends_insertNumbered_iff :
    Extends (fun k => m.lookup k) vs (fun k => (insertNumbered N vs (c, m)).2.lookup k) ↔
      (numbers N vs.length c).Nodup ∧ ∀ k ∈ numbers N vs.length c, m.lookup k = none := by
  constructor
  · rintro ⟨ids, hnodup, hlen, hfree, hval, -⟩
    -- a value stored under a new number is stored under one of the numbers given out
    have hsub : ids ⊆ numbers N vs.length c := by
      intro k hk
      by_contra hnot
      obtain ⟨i, hi, rfl⟩ := getElem_of_mem hk
      have hzip : (ids[i], vs[i]) ∈ ids.zip vs := by
        rw [mem_iff_getElem]
        exact ⟨i, by rw [length_zip]; omega, getElem_zip⟩
      have harr := hval _ hzip
      have hsame : (insertNumbered N vs (c, m)).2.lookup ids[i] = none :=
        (lookup_insertNumbered_of_not_mem hnot).trans (hfree _ hk)
      exact Option.some_ne_none _ (harr.symm.trans hsame)
    have hperm : ids.Perm (numbers N vs.length c) := by
      refine (hnodup.subperm hsub).perm_of_length_le ?_
      rw [length_numbers, hlen]
    exact ⟨hperm.nodup_iff.1 hnodup, fun k hk => hfree k (hperm.mem_iff.2 hk)⟩
  · rintro ⟨hnodup, hnew⟩
    exact ⟨numbers N vs.length c, hnodup, length_numbers N _ c, hnew,
      lookup_insertNumbered_of_mem hnodup hnew, fun k hk => lookup_insertNumbered_of_not_mem hk⟩

def eraseKeys (m : AList fun _ : ℕ => V) (ks : List ℕ) : AList fun _ : ℕ => V :=
  ks.foldl (fun m k => m.erase k) m

lemma lookup_eraseKeys (ks : List ℕ) (k : ℕ) :
    (eraseKeys m ks).lookup k = if k ∈ ks then none else m.lookup k := by
  induction ks generalizing m with
  | nil => rfl
  | cons j ks ih =>
    rw [eraseKeys, foldl_cons, ← eraseKeys, ih]
    by_cases hj : k = j
    · subst hj
      simp
    · simp [hj, AList.lookup_erase_ne hj]

end NumberedMap
end Graphene.Lib
