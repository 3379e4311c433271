import Mathlib

/-!
# Containers with unique keys

A container of elements stored under a primary key, with a list of further *unique* keys computed from
the element, as an ordered or hashed multi-index container: `insert?` refuses an element whose key is
taken, and `modify?` *erases* an element when its new value collides with another one.  Uniqueness of the
keys is a field of the structure.
-/

namespace Graphene.Lib

open List Option AList

/-! ## Lookup in a map of constant type -/

section Lookup

variable {ι V : Type} [DecidableEq ι]

lemma exists_lookup_of_mem {m : AList fun _ : ι => V} {i : ι} (h : i ∈ m) :
    ∃ v, m.lookup i = some v :=
  isSome_iff_exists.1 (lookup_isSome.2 h)

lemma foldl_entries_view {S T : Type} (view : S → ι → T) (body : S → (Σ _ : ι, V) → S)
    (step : T → V → T)
    (hbody : ∀ s e i, view (body s e) i = if i = e.1 then step (view s i) e.2 else view s i)
    (m : AList fun _ : ι => V) (s : S) (i : ι) :
    view (m.entries.foldl body s) i = (m.lookup i).elim (view s i) (step (view s i)) := by
  obtain ⟨l, hl⟩ := m
  simp only [AList.lookup]
  induction l generalizing s with
  | nil => simp
  | cons e l ih =>
    obtain ⟨hnot, hl'⟩ := nodupKeys_cons.1 hl
    rw [foldl_cons, ih (body s e) hl', hbody]
    by_cases hi : i = e.1
    · subst hi
      -- the key does not occur again
      simp [dlookup_eq_none.2 hnot, List.dlookup]
    · obtain ⟨a, b⟩ := e
      simp [hi, dlookup_cons_ne l ⟨a, b⟩ hi]

end Lookup

section Keys

variable {ι κ V : Type}

/-- Two elements clash when one of the unique keys takes the same value on both. -/
def Clash (keys : List (V → κ)) (v w : V) : Prop :=
  ∃ k ∈ keys, k v = k w

instance [DecidableEq κ] (keys : List (V → κ)) (v w : V) : Decidable (Clash keys v w) :=
  inferInstanceAs (Decidable (∃ k ∈ keys, k v = k w))

variable {keys : List (V → κ)}

lemma Clash.symm {v w : V} (h : Clash keys v w) : Clash keys w v := by
  obtain ⟨k, hk, he⟩ := h
  exact ⟨k, hk, he.symm⟩

@[simp] lemma not_clash_nil (v w : V) : ¬ Clash ([] : List (V → κ)) v w := by
  simp [Clash]

/-- Some element stored under another primary key clashes with `v`. -/
def Taken [DecidableEq ι] (keys : List (V → κ)) (m : AList fun _ : ι => V) (i : ι) (v : V) : Prop :=
  ∃ e ∈ m.entries, e.1 ≠ i ∧ Clash keys v e.2

instance [DecidableEq ι] [DecidableEq κ] (keys : List (V → κ)) (m : AList fun _ : ι => V)
    (i : ι) (v : V) : Decidable (Taken keys m i v) :=
  inferInstanceAs (Decidable (∃ e ∈ m.entries, e.1 ≠ i ∧ Clash keys v e.2))

end Keys

/-- A container of elements `V` under primary keys `ι`; no two elements agree on any of `keys`. -/
structure MultiIndex (ι : Type) {κ V : Type} [DecidableEq ι] (keys : List (V → κ)) where
  elements : AList fun _ : ι => V
  unique : ∀ i j v w, i ≠ j → elements.lookup i = some v → elements.lookup j = some w →
    ¬ Clash keys v w

namespace MultiIndex

variable {ι κ V : Type} [DecidableEq ι] {keys : List (V → κ)}

def find (c : MultiIndex ι keys) (i : ι) : Option V :=
  c.elements.lookup i

def empty : MultiIndex ι keys where
  elements := ∅
  unique := by
    intro i j v w _ hv
    simp at hv

variable (i : ι) (c : MultiIndex ι keys)

@[simp] lemma find_empty : (empty : MultiIndex ι keys).find i = none := rfl

/-- The key of `v` is held by an element other than the one under `i`. -/
def Occupied (c : MultiIndex ι keys) (i : ι) (v : V) : Prop :=
  Taken keys c.elements i v

instance [DecidableEq κ] (c : MultiIndex ι keys) (i : ι) (v : V) : Decidable (c.Occupied i v) :=
  inferInstanceAs (Decidable (Taken keys c.elements i v))

lemma occupied_iff {c : MultiIndex ι keys} {i : ι} {v : V} :
    c.Occupied i v ↔ ∃ j w, j ≠ i ∧ c.find j = some w ∧ Clash keys v w := by
  constructor
  · rintro ⟨⟨j, w⟩, he, hj, hc⟩
    exact ⟨j, w, hj, mem_lookup_iff.2 he, hc⟩
  · rintro ⟨j, w, hj, hw, hc⟩
    exact ⟨⟨j, w⟩, mem_lookup_iff.1 hw, hj, hc⟩

lemma not_occupied_empty (v : V) : ¬ (empty : MultiIndex ι keys).Occupied i v := by
  simp [occupied_iff]

def put (c : MultiIndex ι keys) (i : ι) (v : V) (h : ¬ c.Occupied i v) : MultiIndex ι keys where
  elements := c.elements.insert i v
  unique := by
    intro a b x y hab hx hy hc
    by_cases ha : a = i
    · subst ha
      rw [lookup_insert, some_inj] at hx
      rw [lookup_insert_ne hab.symm] at hy
      exact h (occupied_iff.2 ⟨b, y, hab.symm, hy, hx ▸ hc⟩)
    · rw [lookup_insert_ne ha] at hx
      by_cases hb : b = i
      · subst hb
        rw [lookup_insert, some_inj] at hy
        exact h (occupied_iff.2 ⟨a, x, hab, hx, hy ▸ hc.symm⟩)
      · rw [lookup_insert_ne hb] at hy
        exact c.unique a b x y hab hx hy hc

lemma find_put (i j : ι) (v : V) (h : ¬ c.Occupied i v) :
    (c.put i v h).find j = if j = i then some v else c.find j := by
  by_cases hj : j = i
  · subst hj
    simp [find, put]
  · simp [find, put, lookup_insert_ne hj, hj]

def erase (c : MultiIndex ι keys) (i : ι) : MultiIndex ι keys where
  elements := c.elements.erase i
  unique := by
    intro a b x y hab hx hy
    have keep : ∀ {a x}, (c.elements.erase i).lookup a = some x → c.elements.lookup a = some x := by
      intro a x hx
      by_cases ha : a = i
      · rw [ha, lookup_erase] at hx
        cases hx
      · rwa [lookup_erase_ne ha] at hx
    exact c.unique a b x y hab (keep hx) (keep hy)

lemma find_erase (i j : ι) : (c.erase i).find j = if j = i then none else c.find j := by
  by_cases hj : j = i
  · subst hj
    simp [find, erase]
  · simp [find, erase, lookup_erase_ne hj, hj]

section Update

variable [DecidableEq κ]

/-- Insertion fails when the primary key or one of the further keys is taken. -/
def insert? (c : MultiIndex ι keys) (i : ι) (v : V) : Option (MultiIndex ι keys) :=
  if h : (c.find i).isSome ∨ c.Occupied i v then none
  else some (c.put i v fun ho => h (Or.inr ho))

/-- Replacement of the element under `i`; the flag tells whether it survived.  On a collision the
element is erased. -/
def modify? (c : MultiIndex ι keys) (i : ι) (v : V) : MultiIndex ι keys × Bool :=
  if h : c.Occupied i v then (c.erase i, false) else (c.put i v h, true)

variable {c : MultiIndex ι keys} {i : ι} {v : V}

lemma insert?_eq_some {c' : MultiIndex ι keys} (h : c.insert? i v = some c') :
    c.find i = none ∧ ¬ c.Occupied i v ∧ ∀ j, c'.find j = if j = i then some v else c.find j := by
  unfold insert? at h
  split at h
  · cases h
  · rename_i hno
    push Not at hno
    cases h
    exact ⟨by simpa using hno.1, hno.2, fun j => find_put c i j v _⟩

lemma insert?_isSome (hi : c.find i = none) (ho : ¬ c.Occupied i v) :
    ∃ c', c.insert? i v = some c' := by
  simp [insert?, hi, ho]

lemma find_modify? (c : MultiIndex ι keys) (i j : ι) (v : V) : (c.modify? i v).1.find j =
      if j = i then (if c.Occupied i v then none else some v) else c.find j := by
  by_cases h : c.Occupied i v
  · simp [modify?, h, find_erase]
  · simp [modify?, h, find_put]

end Update

end MultiIndex

/-- The order in which an unordered container is walked: some permutation of its content. -/
structure Traversal (α : Type) where
  order : List α → List α
  perm : ∀ l, (order l).Perm l

namespace Traversal

variable {α : Type}

def forward : Traversal α where
  order := fun l => l
  perm := List.Perm.refl

@[simp] lemma mem_order (t : Traversal α) (l : List α) (a : α) : a ∈ t.order l ↔ a ∈ l :=
  (t.perm l).mem_iff

variable {ι V : Type} [DecidableEq ι]

lemma dlookup_order (t : Traversal (Σ _ : ι, V)) (m : AList fun _ : ι => V) (i : ι) :
    (t.order m.entries).dlookup i = m.lookup i :=
  perm_dlookup i ((perm_nodupKeys (t.perm _)).2 m.nodupKeys) (t.perm _)

/-- One round of a loop that writes the entries of a list. -/
lemma dlookup_cons_or {a : Σ _ : ι, V} {l : List (Σ _ : ι, V)} (ha : a.1 ∉ l.keys)
    {f g : ι → Option V} (h : ∀ i, g i = if i = a.1 then some a.2 else f i) (i : ι) :
    (l.dlookup i).or (g i) = ((a :: l).dlookup i).or (f i) := by
  rw [h]
  by_cases hi : i = a.1
  · subst hi
    rw [dlookup_eq_none.2 ha, if_pos rfl, dlookup_cons_eq]
    rfl
  · rw [if_neg hi, dlookup_cons_ne l a hi]

end Traversal

end Graphene.Lib
