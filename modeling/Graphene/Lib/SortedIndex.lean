import Mathlib.Data.List.Sort
import Mathlib.Data.List.TakeWhile
import Mathlib.Data.Prod.Lex
import Mathlib.Order.Bounds.Basic

/-!
# Sorted indices

An index is the list of the objects of a table, sorted by a relation that need only be an order on the
objects that are there.  `lower_bound` and `upper_bound` cut the list where a condition changes.  An
iterator is the number of an object, or nothing at the end.
-/

namespace Graphene.Lib

open List

variable {α : Type} {r : α → α → Prop} [DecidableRel r] {a : α} {l : List α} {b : α}

lemma pairwise_orderedInsert (htot : ∀ b ∈ l, r a b ∨ r b a)
    (htrans : ∀ b ∈ l, ∀ c ∈ l, r a b → r b c → r a c) (h : l.Pairwise r) :
    (l.orderedInsert r a).Pairwise r := by
  induction l with
  | nil => exact pairwise_singleton r a
  | cons b l ih =>
    rw [pairwise_cons] at h
    by_cases hab : r a b
    · rw [orderedInsert_cons_of_le r l hab, pairwise_cons]
      refine ⟨fun c hc => ?_, pairwise_cons.2 h⟩
      rcases mem_cons.1 hc with rfl | hc
      · exact hab
      · exact htrans b mem_cons_self c (mem_cons_of_mem _ hc) hab (h.1 c hc)
    · rw [orderedInsert_of_not_le r l hab, pairwise_cons]
      refine ⟨fun c hc => ?_, ih (forall_mem_cons.1 htot).2 (fun c hc d hd =>
        htrans c (mem_cons_of_mem _ hc) d (mem_cons_of_mem _ hd)) h.2⟩
      rcases (mem_orderedInsert r).1 hc with rfl | hc
      · exact (htot b mem_cons_self).resolve_left hab
      · exact h.1 c hc

section Keys

variable {K : Type} [LinearOrder K] {k : α → K} {i : α → ℕ}

/-- The order of an index by a key, with ties broken by the identifier. -/
def KeyBefore (k : α → K) (i : α → ℕ) (a b : α) : Prop :=
  k a < k b ∨ ¬ k b < k a ∧ i a ≤ i b

lemma KeyBefore.total (a b : α) : KeyBefore k i a b ∨ KeyBefore k i b a := by
  rcases lt_trichotomy (k a) (k b) with h | h | h
  · exact .inl (.inl h)
  · rcases le_total (i a) (i b) with hi | hi
    · exact .inl (.inr ⟨h.le.not_gt, hi⟩)
    · exact .inr (.inr ⟨h.ge.not_gt, hi⟩)
  · exact .inr (.inl h)

lemma KeyBefore.le (h : KeyBefore k i a b) : k a ≤ k b := h.elim le_of_lt fun h => not_lt.1 h.1

lemma KeyBefore.trans {c : α} (hab : KeyBefore k i a b) (hbc : KeyBefore k i b c) :
    KeyBefore k i a c := by
  rcases lt_or_eq_of_le (hab.le.trans hbc.le) with h | h
  · exact .inl h
  · -- all three keys are equal
    have hb : k a = k b := le_antisymm hab.le (h ▸ hbc.le)
    have hid1 : i a ≤ i b := hab.elim (fun hlt => absurd hlt hb.not_lt) And.right
    have hid2 : i b ≤ i c := hbc.elim (fun hlt => absurd hlt (hb.symm.trans h).not_lt) And.right
    exact .inr ⟨h.le.not_gt, hid1.trans hid2⟩

instance : Std.Total (KeyBefore k i) := ⟨KeyBefore.total⟩

instance : IsTrans α (KeyBefore k i) := ⟨fun _ _ _ => KeyBefore.trans⟩

/-- The relation of an index need only agree with the order by keys on the objects that are there. -/
lemma pairwise_keyBefore (h : ∀ a ∈ l, ∀ b ∈ l, r a b ↔ KeyBefore k i a b) :
    (l.insertionSort r).Pairwise (KeyBefore k i) := by
  classical
  have hsort := map_insertionSort r (KeyBefore k i) id l h
  rw [map_id, map_id] at hsort
  rw [hsort]
  exact pairwise_insertionSort _ l

end Keys

variable {p : α → Bool}

section

omit [DecidableRel r]

lemma dropWhile_eq_filter (hl : l.Pairwise r)
    (hp : ∀ a ∈ l, ∀ b ∈ l, r a b → p b = true → p a = true) :
    l.dropWhile p = l.filter fun a => !p a := by
  induction l with
  | nil => rfl
  | cons a l ih =>
    rw [pairwise_cons] at hl
    by_cases ha : p a = true
    · rw [dropWhile_cons_of_pos ha, filter_cons_of_neg (by simp [ha]), ih hl.2 fun b hb c hc =>
        hp b (mem_cons_of_mem _ hb) c (mem_cons_of_mem _ hc)]
    · rw [dropWhile_cons_of_neg ha, eq_comm, filter_eq_self]
      intro b hb
      rcases mem_cons.1 hb with rfl | hb
      · simp [ha]
      · have : ¬ p b = true := fun hpb =>
          ha (hp a mem_cons_self b (mem_cons_of_mem _ hb) (hl.1 b hb) hpb)
        simp [this]

lemma takeWhile_eq_filter (hl : l.Pairwise r)
    (hp : ∀ a ∈ l, ∀ b ∈ l, r a b → p b = true → p a = true) : l.takeWhile p = l.filter p := by
  have hdrop : (l.dropWhile p).filter p = [] := by simp [dropWhile_eq_filter hl hp]
  have htake : (l.takeWhile p).filter p = l.takeWhile p := filter_eq_self.2 fun _ => mem_takeWhile_imp
  conv_rhs => rw [← takeWhile_append_dropWhile (p := p) (l := l), filter_append, hdrop, htake, append_nil]

end

/-! ## Places and iterators -/

section Places

variable {K : Type} [LinearOrder K] {k : α → K} {i : α → ℕ} {l : List α} {x : α}

def place (k : α → K) (i : α → ℕ) (a : α) : K ×ₗ ℕ :=
  toLex (k a, i a)

def numberAt (p : K ×ₗ ℕ) : ℕ :=
  (ofLex p).2

lemma keyBefore_iff : KeyBefore k i a b ↔ place k i a ≤ place k i b := by
  rw [place, place, Prod.Lex.toLex_le_toLex]
  refine or_congr_right' fun h => and_congr_left' ?_
  exact ⟨fun hle => le_antisymm (not_lt.1 hle) (not_lt.1 h), fun he => he.le.not_gt⟩

def places (k : α → K) (i : α → ℕ) (l : List α) : Set (K ×ₗ ℕ) :=
  {p | ∃ a ∈ l, place k i a = p}

/-- The iterator that points to the first of a set of places. -/
def IsFirst (A : Set (K ×ₗ ℕ)) (itr : Option ℕ) : Prop :=
  A = ∅ ∧ itr = none ∨ ∃ p, IsLeast A p ∧ itr = some (numberAt p)

lemma IsFirst.unique {A : Set (K ×ₗ ℕ)} {itr itr' : Option ℕ} (h : IsFirst A itr) (h' : IsFirst A itr') :
    itr = itr' := by
  rcases h with ⟨he, rfl⟩ | ⟨p, hp, rfl⟩
  · rcases h' with ⟨-, rfl⟩ | ⟨q, hq, -⟩
    · rfl
    · exact absurd hq.1 (he ▸ Set.notMem_empty q)
  · rcases h' with ⟨he, -⟩ | ⟨q, hq, rfl⟩
    · exact absurd hp.1 (he ▸ Set.notMem_empty p)
    · rw [hp.unique hq]

omit [LinearOrder K] in
lemma place_mem (h : a ∈ l) : place k i a ∈ places k i l := ⟨a, h, rfl⟩

lemma isFirst_dropWhile {C : Set (K ×ₗ ℕ)} (hl : l.Pairwise (KeyBefore k i))
    (hp : ∀ a ∈ l, p a = true ↔ place k i a ∉ C) :
    IsFirst (places k i l ∩ C) ((l.dropWhile p).head?.map i) := by
  induction l with
  | nil =>
    left
    refine ⟨Set.eq_empty_of_forall_notMem ?_, rfl⟩
    rintro _ ⟨⟨a, ha, -⟩, -⟩
    cases ha
  | cons a l ih =>
    rw [pairwise_cons] at hl
    have htail := ih hl.2 (forall_mem_cons.1 hp).2
    by_cases ha : p a = true
    · -- the first object does not count
      have hpla : places k i (a :: l) ∩ C = places k i l ∩ C := by
        ext q
        constructor
        · rintro ⟨⟨b, hb, rfl⟩, hC⟩
          rcases mem_cons.1 hb with rfl | hb
          · exact absurd hC ((hp b mem_cons_self).1 ha)
          · exact ⟨place_mem hb, hC⟩
        · rintro ⟨⟨b, hb, rfl⟩, hC⟩
          exact ⟨place_mem (mem_cons_of_mem _ hb), hC⟩
      rwa [dropWhile_cons_of_pos ha, hpla]
    · right
      have hC : place k i a ∈ C := not_not.1 fun hC => ha ((hp a mem_cons_self).2 hC)
      refine ⟨place k i a, ⟨⟨place_mem mem_cons_self, hC⟩, ?_⟩, ?_⟩
      · rintro _ ⟨⟨b, hb, rfl⟩, -⟩
        rcases mem_cons.1 hb with rfl | hb
        · exact le_rfl
        · exact keyBefore_iff.1 (hl.1 b hb)
      · rw [dropWhile_cons_of_neg ha]
        rfl

omit [LinearOrder K] in
lemma place_ne (h : i a ≠ i b) : place k i a ≠ place k i b := fun he => h (congrArg numberAt he)

variable (hl : l.Pairwise (KeyBefore k i))
include hl

lemma isFirst_next (hnodup : (l.map i).Nodup) (hx : x ∈ l) :
    IsFirst (places k i l ∩ Set.Ioi (place k i x))
      (((l.dropWhile fun a => i a ≠ i x).drop 1).head?.map i) := by
  induction l with
  | nil => cases hx
  | cons a l ih =>
    rw [pairwise_cons] at hl
    rw [map_cons, nodup_cons] at hnodup
    have hpla : place k i a ≤ place k i x →
        places k i (a :: l) ∩ Set.Ioi (place k i x) = places k i l ∩ Set.Ioi (place k i x) := by
      intro hle
      ext q
      constructor
      · rintro ⟨⟨b, hb, rfl⟩, hlt⟩
        rcases mem_cons.1 hb with rfl | hb
        · exact absurd hle (not_le.2 hlt)
        · exact ⟨place_mem hb, hlt⟩
      · rintro ⟨⟨b, hb, rfl⟩, hlt⟩
        exact ⟨place_mem (mem_cons_of_mem _ hb), hlt⟩
    rcases mem_cons.1 hx with rfl | hx
    · -- all that follows comes after it
      rw [hpla le_rfl, dropWhile_cons_of_neg (by simp), drop_one, tail_cons]
      have haft : ∀ b ∈ l, place k i b ∈ Set.Ioi (place k i x) := by
        intro b hb
        refine lt_of_le_of_ne (keyBefore_iff.1 (hl.1 b hb)) (place_ne fun he => ?_)
        exact hnodup.1 (he ▸ mem_map_of_mem hb)
      have h := isFirst_dropWhile (p := fun _ => false) hl.2 fun b hb =>
        ⟨nofun, fun hno => absurd (haft b hb) hno⟩
      rwa [dropWhile_eq_self_iff.2 (by simp)] at h
    · have hne : i a ≠ i x := fun he => hnodup.1 (he ▸ mem_map_of_mem hx)
      rw [hpla (keyBefore_iff.1 (hl.1 x hx)), dropWhile_cons_of_pos (by simpa using hne)]
      exact ih hl.2 hnodup.2 hx

lemma previous_le {y : α} (hx : x ∈ l) (hy : (l.takeWhile fun a => i a ≠ i x).getLast? = some y) :
    y ∈ l ∧ i y ≠ i x ∧ place k i y ≤ place k i x := by
  have hmem := mem_of_getLast? hy
  have hne : i y ≠ i x := by simpa using mem_takeWhile_imp hmem
  have hyl : y ∈ l := ( takeWhile_prefix _).subset hmem
  refine ⟨hyl, hne, ?_⟩
  -- `x` is in the second part of the list
  have hsplit := takeWhile_append_dropWhile (p := fun a => decide (i a ≠ i x)) (l := l)
  rw [← hsplit, pairwise_append] at hl
  rw [← hsplit, mem_append] at hx
  rcases hx with hx | hx
  · have := mem_takeWhile_imp hx
    simp at this
  · exact keyBefore_iff.1 (hl.2.2 y hmem x hx)

end Places

end Graphene.Lib
