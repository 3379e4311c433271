import Graphene.Lib.SortedIndex

/-!
# Sorted sets and the walk along two of them

A `FlatSet` is a set kept as its elements in increasing order.

`setDifference` is the algorithm of the C++ standard library: it walks along two sequences and compares
their heads.  On sequences that are not sorted by the comparison it uses, it reports elements that occur
in both; such an element is then reported by the difference the other way, too.
-/

namespace Graphene.Lib

open List

/-- `flat_set` and `set`: the elements in increasing order. -/
@[ext] structure FlatSet (α : Type) [LinearOrder α] where
  elems : List α
  sorted : elems.Pairwise (· < ·)

namespace FlatSet

variable {α : Type} [LinearOrder α]

instance : DecidableEq (FlatSet α) := fun s t =>
  decidable_of_iff (s.elems = t.elems) FlatSet.ext_iff.symm

instance : Membership α (FlatSet α) where
  mem s a := a ∈ s.elems

instance (a : α) (s : FlatSet α) : Decidable (a ∈ s) :=
  decidable_of_iff (∃ b ∈ s.elems, b = a) exists_eq_right

variable {s : FlatSet α} {a : α}

lemma mem_elems : a ∈ s.elems ↔ a ∈ s := Iff.rfl

lemma nodup (s : FlatSet α) : s.elems.Nodup := s.sorted.imp fun h => ne_of_lt h

def empty : FlatSet α where
  elems := []
  sorted := List.Pairwise.nil

@[simp] lemma not_mem_empty (a : α) : a ∉ (empty : FlatSet α) := not_mem_nil

lemma sorted_orderedInsert (ha : a ∉ s) : (s.elems.orderedInsert (· < ·) a).Pairwise (· < ·) := by
  refine pairwise_orderedInsert ?_ (fun _ _ _ _ => lt_trans) s.sorted
  intro b hb
  apply lt_or_gt_of_ne
  rintro rfl
  exact ha hb

def insert (s : FlatSet α) (a : α) : FlatSet α :=
  if h : a ∈ s then s
  else { elems := s.elems.orderedInsert (· < ·) a, sorted := sorted_orderedInsert h }

def erase (s : FlatSet α) (a : α) : FlatSet α where
  elems := s.elems.erase a
  sorted := s.sorted.sublist erase_sublist

variable {b : α}

@[simp] lemma mem_insert : b ∈ s.insert a ↔ b = a ∨ b ∈ s := by
  unfold insert
  split_ifs with h
  · constructor
    · exact Or.inr
    · rintro (rfl | hb)
      · exact h
      · exact hb
  · exact mem_orderedInsert _

def insertAll (s : FlatSet α) (l : List α) : FlatSet α :=
  l.foldl insert s

def eraseAll (s : FlatSet α) (l : List α) : FlatSet α :=
  l.foldl erase s

@[simp] lemma mem_insertAll {l : List α} : b ∈ s.insertAll l ↔ b ∈ l ∨ b ∈ s := by
  induction l generalizing s with
  | nil => simp [insertAll]
  | cons a l ih =>
    have hstep : s.insertAll (a :: l) = (s.insert a).insertAll l := rfl
    rw [hstep, ih, mem_insert, mem_cons]
    tauto

end FlatSet

/-! ## The difference of two sequences -/

section Difference

variable {α : Type} {lt : α → α → Bool}

/-- `std::set_difference`, with the comparison it is given. -/
def setDifference (lt : α → α → Bool) : List α → List α → List α
  | [], _ => []
  | a :: as, [] => a :: as
  | a :: as, b :: bs =>
    if lt a b then a :: setDifference lt as (b :: bs)
    else if lt b a then setDifference lt (a :: as) bs
    else setDifference lt as bs
termination_by as bs => as.length + bs.length

/-- One move of a walk along two sequences: past the head of the first, of the second, or of both. -/
inductive Move (α : Type) where
  | first (a : α)
  | second (b : α)
  | both (a b : α)

namespace Move

def swap : Move α → Move α
  | first a => second a
  | second b => first b
  | both a b => both b a

def ofFirst : Move α → Option α
  | first a => some a
  | second _ => none
  | both a _ => some a

def onlyFirst : Move α → Option α
  | first a => some a
  | _ => none

variable {m : Move α} {x : α}

lemma ofFirst_eq_some : m.ofFirst = some x ↔ m = first x ∨ ∃ b, m = both x b := by
  cases m <;> simp [ofFirst, eq_comm]

lemma onlyFirst_eq_some : m.onlyFirst = some x ↔ m = first x := by
  cases m <;> simp [onlyFirst]

end Move

/-- The walk that `setDifference` takes. -/
def walk (lt : α → α → Bool) : List α → List α → List (Move α)
  | [], bs => bs.map .second
  | a :: as, [] => (a :: as).map .first
  | a :: as, b :: bs =>
    if lt a b then .first a :: walk lt as (b :: bs)
    else if lt b a then .second b :: walk lt (a :: as) bs
    else .both a b :: walk lt as bs
termination_by as bs => as.length + bs.length

lemma setDifference_eq_walk (as bs : List α) :
    setDifference lt as bs = (walk lt as bs).filterMap Move.onlyFirst := by
  induction as, bs using setDifference.induct lt with
  | case1 bs | case2 a as =>
    simp [setDifference, walk, filterMap_map, Function.comp_def, Move.onlyFirst]
  | case3 a as b bs h ih => simp [setDifference, walk, h, ih, Move.onlyFirst]
  | case4 a as b bs h h' ih | case5 a as b bs h h' ih =>
    simp [setDifference, walk, h, h', ih, filterMap_cons, Move.onlyFirst]

lemma ofFirst_walk (as bs : List α) : (walk lt as bs).filterMap Move.ofFirst = as := by
  induction as, bs using setDifference.induct lt with
  | case1 bs | case2 a as => simp [walk, filterMap_map, Function.comp_def, Move.ofFirst]
  | case3 a as b bs h ih => simp [walk, h, ih, Move.ofFirst]
  | case4 a as b bs h h' ih => simp [walk, h, h', ih, filterMap_cons, Move.ofFirst]
  | case5 a as b bs h h' ih => simp [walk, h, h', ih, Move.ofFirst]

lemma walk_swap (hasymm : ∀ a b, lt a b → ¬ lt b a) (as bs : List α) :
    walk lt bs as = (walk lt as bs).map Move.swap := by
  induction as, bs using setDifference.induct lt with
  | case1 bs => cases bs <;> simp [walk, Function.comp_def, Move.swap]
  | case2 a as => simp [walk, Function.comp_def, Move.swap]
  | case3 a as b bs h ih => simp [walk, h, hasymm a b h, ih, Move.swap]
  | case4 a as b bs h h' ih | case5 a as b bs h h' ih => simp [walk, h, h', ih, Move.swap]

variable {as bs : List α} {x : α}

lemma both_mem_walk {a b : α} (h : .both a b ∈ walk lt as bs) :
    a ∈ as ∧ b ∈ bs ∧ ¬ lt a b ∧ ¬ lt b a := by
  induction as, bs using setDifference.induct lt with
  | case1 bs | case2 a as => simp [walk] at h
  | case3 c as d bs hlt ih =>
    simp only [walk, hlt, if_true, mem_cons, reduceCtorEq, false_or] at h
    obtain ⟨ha, hb, hrest⟩ := ih h
    exact ⟨mem_cons_of_mem _ ha, hb, hrest⟩
  | case4 c as d bs hlt hgt ih =>
    simp only [walk, hlt, hgt, if_true, mem_cons, reduceCtorEq, false_or, if_false,
      Bool.false_eq_true] at h
    obtain ⟨ha, hb, hrest⟩ := ih h
    exact ⟨ha, mem_cons_of_mem _ hb, hrest⟩
  | case5 c as d bs hlt hgt ih =>
    simp only [walk, hlt, hgt, mem_cons, Move.both.injEq, if_false, Bool.false_eq_true] at h
    rcases h with ⟨rfl, rfl⟩ | h
    · exact ⟨mem_cons_self, mem_cons_self, hlt, hgt⟩
    · obtain ⟨ha, hb, hrest⟩ := ih h
      exact ⟨mem_cons_of_mem _ ha, mem_cons_of_mem _ hb, hrest⟩

lemma mem_setDifference_iff_first : x ∈ setDifference lt as bs ↔ .first x ∈ walk lt as bs := by
  simp [setDifference_eq_walk, mem_filterMap, Move.onlyFirst_eq_some]

lemma mem_walk_of_mem (h : x ∈ as) : .first x ∈ walk lt as bs ∨ ∃ b, .both x b ∈ walk lt as bs := by
  rw [← ofFirst_walk as bs, mem_filterMap] at h
  obtain ⟨m, hm, hx⟩ := h
  rcases Move.ofFirst_eq_some.1 hx with rfl | ⟨b, rfl⟩
  · exact Or.inl hm
  · exact Or.inr ⟨b, hm⟩

lemma eq_of_nodup_filterMap {β γ : Type} {f : β → Option γ} {l : List β} (h : (l.filterMap f).Nodup)
    {m m' : β} {x : γ} (hm : m ∈ l) (hm' : m' ∈ l) (hx : f m = some x) (hx' : f m' = some x) :
    m = m' := by
  induction l with
  | nil => cases hm
  | cons c l ih =>
    have htail : (l.filterMap f).Nodup := h.sublist ((sublist_cons_self c l).filterMap f)
    have hfre : ∀ d ∈ l, f d = some x → f c ≠ some x := by
      intro d hd hdx hcx
      rw [filterMap_cons, hcx] at h
      exact (nodup_cons.1 h).1 (mem_filterMap.2 ⟨d, hd, hdx⟩)
    rcases mem_cons.1 hm with hc | hl
    · rcases mem_cons.1 hm' with hc' | hl'
      · exact hc.trans hc'.symm
      · exact absurd (hc ▸ hx) (hfre m' hl' hx')
    · rcases mem_cons.1 hm' with hc' | hl'
      · exact absurd (hc' ▸ hx') (hfre m hl hx)
      · exact ih htail hl hl'

/-- The comparison tells the elements of the two sequences apart. -/
def Separates (lt : α → α → Bool) (as bs : List α) : Prop :=
  ∀ a ∈ as, ∀ b ∈ bs, ¬ lt a b → ¬ lt b a → a = b

lemma Separates.symm (h : Separates lt as bs) : Separates lt bs as :=
  fun b hb a ha hba hab => (h a ha b hb hab hba).symm

lemma mem_of_mem_setDifference (h : x ∈ setDifference lt as bs) : x ∈ as := by
  rw [← ofFirst_walk as bs, mem_filterMap]
  exact ⟨.first x, mem_setDifference_iff_first.1 h, rfl⟩

lemma mem_setDifference_of_not_mem (hsep : Separates lt as bs) (ha : x ∈ as) (hb : x ∉ bs) :
    x ∈ setDifference lt as bs := by
  rw [mem_setDifference_iff_first]
  rcases mem_walk_of_mem ha with h | ⟨b, h⟩
  · exact h
  · obtain ⟨-, hmem, hlt, hgt⟩ := both_mem_walk h
    exact absurd (hsep x ha b hmem hlt hgt ▸ hmem) hb

lemma mem_setDifference_swap (hasymm : ∀ a b, lt a b → ¬ lt b a) (hsep : Separates lt as bs)
    (has : as.Nodup) (hx : x ∈ setDifference lt as bs) (hb : x ∈ bs) :
    x ∈ setDifference lt bs as := by
  rw [mem_setDifference_iff_first] at hx
  rw [mem_setDifference_iff_first]
  rcases mem_walk_of_mem hb with h | ⟨a, h⟩
  · exact h
  · -- `x` is passed together with itself, but it is also passed alone
    have hmem : .both a x ∈ walk lt as bs := by
      rw [walk_swap hasymm bs as]
      exact mem_map.2 ⟨_, h, rfl⟩
    obtain ⟨ha, -, hlt, hgt⟩ := both_mem_walk hmem
    obtain rfl := hsep a ha x hb hlt hgt
    rw [← ofFirst_walk as bs] at has
    cases eq_of_nodup_filterMap has hx hmem rfl rfl

end Difference

end Graphene.Lib
