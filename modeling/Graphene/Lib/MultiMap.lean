import Graphene.Lib.MultiIndex

/-!
# Maps to sets

A map that assigns a set of identifiers to each key, kept by adding and dropping one
identifier at a time.  What matters of such a map is which identifiers it lists
under which key; a key with the empty set and a missing key are the same.
-/

namespace Graphene.Lib

abbrev MultiMap (K I : Type) := AList fun _ : K => Finset I

namespace MultiMap

variable {K I : Type} [DecidableEq K] [DecidableEq I]

def Lists (m : MultiMap K I) (k : K) (i : I) : Prop :=
  i ∈ (m.lookup k).getD ∅

instance (m : MultiMap K I) (k : K) (i : I) : Decidable (m.Lists k i) :=
  inferInstanceAs (Decidable (_ ∈ _))

def add (m : MultiMap K I) (k : K) (i : I) : MultiMap K I :=
  m.insert k (insert i ((m.lookup k).getD ∅))

/-- `m[k].erase(i)`, which leaves an empty set behind. -/
def drop (m : MultiMap K I) (k : K) (i : I) : MultiMap K I :=
  m.insert k (((m.lookup k).getD ∅).erase i)

/-- Erase the identifier, and the key with its last one; a missing key stays missing. -/
def prune (m : MultiMap K I) (k : K) (i : I) : MultiMap K I :=
  match m.lookup k with
  | none => m
  | some s => if s.erase i = ∅ then m.erase k else m.insert k (s.erase i)

omit [DecidableEq I] in
lemma not_lists_empty (k : K) (i : I) : ¬ (∅ : MultiMap K I).Lists k i := by
  simp [Lists]

variable {m : MultiMap K I} {k : K} {i j : I} {ks : List K}

variable {k' : K}

lemma lists_add : (m.add k i).Lists k' j ↔ (k' = k ∧ j = i) ∨ m.Lists k' j := by
  unfold Lists add
  by_cases hk : k' = k
  · subst hk
    simp
  · simp [hk]

lemma lists_drop : (m.drop k i).Lists k' j ↔ ¬ (k' = k ∧ j = i) ∧ m.Lists k' j := by
  unfold Lists drop
  by_cases hk : k' = k
  · subst hk
    simp
  · simp [hk]

lemma lists_prune : (m.prune k i).Lists k' j ↔ ¬ (k' = k ∧ j = i) ∧ m.Lists k' j := by
  unfold prune
  cases hs : m.lookup k with
  | none =>
    constructor
    · intro h
      refine ⟨?_, h⟩
      rintro ⟨rfl, -⟩
      simp [Lists, hs] at h
    · exact And.right
  | some s =>
    dsimp only
    split_ifs with hempty
    · unfold Lists
      by_cases hk : k' = k
      · subst hk
        have hj : j ≠ i → j ∉ s := by
          intro hne hmem
          have hin : j ∈ s.erase i := Finset.mem_erase.2 ⟨hne, hmem⟩
          rw [hempty] at hin
          exact Finset.notMem_empty j hin
        simpa [hs] using hj
      · simp [hk]
    · have hdrop : m.insert k (s.erase i) = m.drop k i := by simp [drop, hs]
      rw [hdrop, lists_drop]

def addAll (m : MultiMap K I) (ks : List K) (i : I) : MultiMap K I :=
  ks.foldl (fun m k => m.add k i) m

def dropAll (m : MultiMap K I) (ks : List K) (i : I) : MultiMap K I :=
  ks.foldl (fun m k => m.drop k i) m

def pruneAll (m : MultiMap K I) (ks : List K) (i : I) : MultiMap K I :=
  ks.foldl (fun m k => m.prune k i) m

lemma lists_addAll : (m.addAll ks i).Lists k j ↔ (k ∈ ks ∧ j = i) ∨ m.Lists k j := by
  induction ks generalizing m with
  | nil => simp [addAll]
  | cons a ks ih =>
    have hstep : m.addAll (a :: ks) i = (m.add a i).addAll ks i := rfl
    rw [hstep, ih, lists_add, List.mem_cons]
    tauto

lemma lists_foldl_of_erases {op : MultiMap K I → K → MultiMap K I}
    (hop : ∀ m a, (op m a).Lists k j ↔ ¬ (k = a ∧ j = i) ∧ m.Lists k j) :
    (ks.foldl op m).Lists k j ↔ ¬ (k ∈ ks ∧ j = i) ∧ m.Lists k j := by
  induction ks generalizing m with
  | nil => simp
  | cons a ks ih =>
    rw [List.foldl_cons, ih, hop, List.mem_cons]
    tauto

lemma lists_dropAll : (m.dropAll ks i).Lists k j ↔ ¬ (k ∈ ks ∧ j = i) ∧ m.Lists k j :=
  lists_foldl_of_erases fun _ _ => lists_drop

lemma lists_pruneAll : (m.pruneAll ks i).Lists k j ↔ ¬ (k ∈ ks ∧ j = i) ∧ m.Lists k j :=
  lists_foldl_of_erases fun _ _ => lists_prune

end MultiMap

end Graphene.Lib
