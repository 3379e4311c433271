import Mathlib.Algebra.BigOperators.Group.Finset.Basic
import Mathlib.Tactic.Abel

/-!
# Tables and their totals

A table of objects that carry their own key, no two with the same one, and the total of a quantity over
such a table.  Two tables are built on it: a `Store`, which hands out identifiers, and a `Tally`, which
counts.
-/

namespace Graphene.Lib

open List

structure Keyed {α κ : Type} (key : α → κ) where
  objects : List α
  nodup : (objects.map key).Nodup

namespace Keyed

variable {α κ : Type} [DecidableEq κ] {key : α → κ}

def empty : Keyed key where
  objects := []
  nodup := nodup_nil

def find (t : Keyed key) (k : κ) : Option α :=
  t.objects.find? fun o => key o = k

def erase (t : Keyed key) (k : κ) : Keyed key where
  objects := t.objects.filter fun o => key o ≠ k
  nodup := (filter_sublist.map key).nodup t.nodup

variable {t : Keyed key} {k : κ} {o : α}

lemma key_ne_of_mem_erase (h : o ∈ (t.erase k).objects) : key o ≠ k := by
  simpa using (mem_filter.1 h).2

def put (t : Keyed key) (o : α) : Keyed key where
  objects := o :: (t.erase (key o)).objects
  nodup := by
    rw [map_cons, nodup_cons]
    refine ⟨?_, (t.erase (key o)).nodup⟩
    intro h
    obtain ⟨o', ho', he⟩ := mem_map.1 h
    exact key_ne_of_mem_erase ho' he

lemma key_of_find (h : t.find k = some o) : key o = k := by
  simpa using find?_some h

lemma mem_of_find (h : t.find k = some o) : o ∈ t.objects := mem_of_find?_eq_some h

lemma find_of_mem (h : o ∈ t.objects) : t.find (key o) = some o := by
  obtain ⟨l, hl⟩ := t
  simp only [find] at h ⊢
  induction l with
  | nil => cases h
  | cons x l ih =>
    rw [map_cons, nodup_cons] at hl
    rcases mem_cons.1 h with rfl | h
    · simp
    · have hne : key x ≠ key o := fun he => hl.1 (he ▸ mem_map_of_mem h)
      simp [hne, ih hl.2 h]

lemma eq_of_key_eq {o' : α} (h : o ∈ t.objects) (h' : o' ∈ t.objects) (hkey : key o = key o') : o = o' := by
  have hfind := find_of_mem h
  rw [hkey, find_of_mem h'] at hfind
  exact (Option.some.inj hfind).symm

lemma mem_iff_find : o ∈ t.objects ↔ t.find (key o) = some o := ⟨find_of_mem, mem_of_find⟩

lemma find_erase (t : Keyed key) (k j : κ) :
    (t.erase k).find j = if j = k then none else t.find j := by
  simp only [find, erase, find?_filter]
  split
  next h =>
    subst h
    simp
  next h =>
    congr 1
    funext o
    by_cases ho : key o = j
    · simp [ho, h]
    · simp [ho]

lemma find_put (t : Keyed key) (o : α) (k : κ) :
    (t.put o).find k = if k = key o then some o else t.find k := by
  by_cases h : k = key o
  · subst h
    simp [find, put]
  · have hf := find_erase t (key o) k
    simp only [find, put] at hf ⊢
    simp [Ne.symm h, hf, h]

lemma mem_erase (h : o ∈ (t.erase k).objects) : o ∈ t.objects := (mem_filter.1 h).1

variable {x : α} {t' : Keyed key}

lemma mem_put (h : x ∈ (t.put o).objects) : x = o ∨ x ∈ t.objects :=
  (mem_cons.1 h).imp_right mem_erase

lemma length_lt_of_gone (hk : t.find k = some o) (hgone : t'.find k = none)
    (hsub : ∀ x ∈ t'.objects, key x ∈ t.objects.map key) : t'.objects.length < t.objects.length := by
  have hnodup : (k :: t'.objects.map key).Nodup := by
    refine nodup_cons.2 ⟨fun hmem => ?_, t'.nodup⟩
    obtain ⟨x, hx, rfl⟩ := mem_map.1 hmem
    rw [find_of_mem hx] at hgone
    cases hgone
  have hsu : k :: t'.objects.map key ⊆ t.objects.map key := by
    intro j hj
    rcases mem_cons.1 hj with rfl | hj
    · exact mem_map.2 ⟨o, mem_of_find hk, key_of_find hk⟩
    · obtain ⟨x, hx, rfl⟩ := mem_map.1 hj
      exact hsub x hx
  have hle := (hnodup.subperm hsu).length_le
  rwa [length_cons, length_map, length_map] at hle

omit [DecidableEq κ] in
lemma length_le_of_keys (hsub : ∀ x ∈ t'.objects, key x ∈ t.objects.map key) :
    t'.objects.length ≤ t.objects.length := by
  have hsu : t'.objects.map key ⊆ t.objects.map key := by
    intro j hj
    obtain ⟨x, hx, rfl⟩ := mem_map.1 hj
    exact hsub x hx
  simpa using (t'.nodup.subperm hsu).length_le

/-! ## Totals -/

section Total

variable {M : Type} [AddCommGroup M]

def total (t : Keyed key) (f : α → M) : M :=
  (t.objects.map f).sum

variable {k : κ} {t : Keyed key} {o : α}

lemma sum_filter_key (f : α → M) {l : List α} (h : (l.map key).Nodup) :
    ((l.filter fun o => key o ≠ k).map f).sum
      = (l.map f).sum - ((l.find? fun o => key o = k).elim 0 f) := by
  induction l with
  | nil => simp
  | cons x l ih =>
    rw [map_cons, nodup_cons] at h
    by_cases hx : key x = k
    · subst hx
      -- no other object has the key, so the rest is kept as it is
      have hkeep : l.filter (fun o => key o ≠ key x) = l := by
        rw [filter_eq_self]
        intro o ho
        simpa using fun he : key o = key x => h.1 (he ▸ mem_map_of_mem ho)
      rw [filter_cons_of_neg (by simp), hkeep, map_cons, sum_cons]
      simp
    · have := ih h.2
      simp only [filter_cons, find?_cons, map_cons, sum_cons]
      simp only [hx, ne_eq, not_false_eq_true, decide_true, decide_false, if_true, map_cons,
        sum_cons] at this ⊢
      rw [this]
      abel

lemma total_erase (t : Keyed key) (k : κ) (f : α → M) :
    (t.erase k).total f = t.total f - (t.find k).elim 0 f :=
  sum_filter_key f t.nodup

lemma total_put (t : Keyed key) (o : α) (f : α → M) :
    (t.put o).total f = t.total f - (t.find (key o)).elim 0 f + f o := by
  have h : (t.put o).total f = f o + (t.erase (key o)).total f := by
    simp [total, put]
  rw [h, total_erase]
  abel

omit [DecidableEq κ] in
lemma total_one (t : Keyed key) : t.total (fun _ => (1 : ℤ)) = t.objects.length := by
  simp [total]

lemma length_erase (h : t.find k = some o) : (t.erase k).objects.length + 1 = t.objects.length := by
  have htot := total_erase t k fun _ => (1 : ℤ)
  rw [h, Option.elim_some, total_one, total_one] at htot
  omega

lemma length_put {o' : α} (h : t.find (key o') = some o) :
    (t.put o').objects.length = t.objects.length := by
  have htot := total_put t o' fun _ => (1 : ℤ)
  rw [h, Option.elim_some, total_one, total_one] at htot
  omega

end Total

end Keyed

/-- Objects with identifiers, which are handed out in order. -/
structure Store {α : Type} (key : α → ℕ) extends Keyed key where
  nextId : ℕ
  bounded : ∀ o ∈ objects, key o < nextId

namespace Store

variable {α : Type} {key : α → ℕ}

def empty : Store key where
  toKeyed := Keyed.empty
  nextId := 0
  bounded := by
    intro o h
    cases h

def remove (t : Store key) (i : ℕ) : Store key where
  toKeyed := t.toKeyed.erase i
  nextId := t.nextId
  bounded := fun o h => t.bounded o (Keyed.mem_erase h)

def write (t : Store key) (o : α) : Store key where
  toKeyed := t.toKeyed.put o
  nextId := max t.nextId (key o + 1)
  bounded := by
    intro x hx
    rcases Keyed.mem_put hx with rfl | hx
    · omega
    · have := t.bounded x hx
      omega

lemma lt_nextId {t : Store key} {i : ℕ} {o : α} (h : t.find i = some o) : i < t.nextId := by
  have := t.bounded o (Keyed.mem_of_find h)
  rwa [Keyed.key_of_find h] at this

lemma find_write_self (t : Store key) (o : α) : (t.write o).find (key o) = some o :=
  (Keyed.find_put _ _ _).trans (if_pos rfl)

lemma find_write_of_ne (t : Store key) (o : α) {k : ℕ} (h : k ≠ key o) :
    (t.write o).find k = t.find k :=
  (Keyed.find_put _ _ _).trans (if_neg h)

def reserve (t : Store key) (n : ℕ) : Store key where
  toKeyed := t.toKeyed
  nextId := max t.nextId n
  bounded := fun o h => lt_max_of_lt_left (t.bounded o h)

lemma find_nextId (t : Store key) : t.find t.nextId = none := by
  cases h : t.find t.nextId with
  | none => rfl
  | some o => exact absurd (lt_nextId h) (lt_irrefl _)

end Store

/-- A count for each key, zero where there is no entry. -/
abbrev Tally (κ : Type) : Type :=
  Keyed (Prod.fst : κ × ℤ → κ)

namespace Tally

variable {κ : Type} [DecidableEq κ]

def get (t : Tally κ) (k : κ) : ℤ :=
  (t.find k).elim 0 Prod.snd

def add (t : Tally κ) (k : κ) (x : ℤ) : Tally κ :=
  t.put (k, t.get k + x)

@[simp] lemma get_empty (k : κ) : get Keyed.empty k = 0 := rfl

lemma get_add (t : Tally κ) (k : κ) (x : ℤ) : (t.add k x).get = t.get + Pi.single k x := by
  funext j
  by_cases h : j = k
  · subst h
    simp [add, get, Keyed.find_put]
  · simp [add, get, Keyed.find_put, h]

variable {M : Type}

lemma total_add [AddCommGroup M] (t : Tally κ) (w : κ → ℤ →+ M) (k : κ) (x : ℤ) :
    (t.add k x).total (fun p => w p.1 p.2) = t.total (fun p => w p.1 p.2) + w k x := by
  have hold : (t.find k).elim 0 (fun p => w p.1 p.2) = w k (t.get k) := by
    cases h : t.find k with
    | none => simp [get, h]
    | some p =>
      have hp : p.1 = k := Keyed.key_of_find h
      simp [get, h, hp]
  rw [add, Keyed.total_put]
  simp only [hold, map_add]
  abel

lemma total_congr [AddCommGroup M] {t t' : Tally κ} {w : κ → ℤ →+ M}
    (h : ∀ k, w k (t.get k) = w k (t'.get k)) :
    t.total (fun p => w p.1 p.2) = t'.total fun p => w p.1 p.2 := by
  have hsum : ∀ (t : Tally κ) (K : Finset κ), (∀ p ∈ t.objects, p.1 ∈ K) →
      t.total (fun p => w p.1 p.2) = ∑ k ∈ K, w k (t.get k) := by
    intro t K hK
    have hkeys : (t.objects.map Prod.fst).toFinset ⊆ K := by
      intro k hk
      obtain ⟨p, hp, rfl⟩ := mem_map.1 (mem_toFinset.1 hk)
      exact hK p hp
    have hzero : ∀ k ∈ K, k ∉ (t.objects.map Prod.fst).toFinset → w k (t.get k) = 0 := by
      intro k _ hk
      have hnone : t.find k = none := by
        cases hfind : t.find k with
        | none => rfl
        | some p =>
          have hkey : p.1 = k := Keyed.key_of_find hfind
          exact absurd (mem_toFinset.2 (mem_map.2 ⟨p, Keyed.mem_of_find hfind, hkey⟩)) hk
      rw [get, hnone, Option.elim_none, map_zero]
    rw [← Finset.sum_subset hkeys hzero, sum_toFinset _ t.nodup, map_map]
    refine congrArg sum (map_congr_left fun p hp => ?_)
    rw [Function.comp_apply, get, Keyed.find_of_mem hp, Option.elim_some]
  have hall := hsum t ((t.objects.map Prod.fst).toFinset ∪ (t'.objects.map Prod.fst).toFinset)
    fun p hp => Finset.mem_union_left _ (mem_toFinset.2 (mem_map_of_mem hp))
  have hall' := hsum t' ((t.objects.map Prod.fst).toFinset ∪ (t'.objects.map Prod.fst).toFinset)
    fun p hp => Finset.mem_union_right _ (mem_toFinset.2 (mem_map_of_mem hp))
  rw [hall, hall']
  exact Finset.sum_congr rfl fun k _ => h k

end Tally

end Graphene.Lib
