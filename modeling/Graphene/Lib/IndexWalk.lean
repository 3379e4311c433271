import Graphene.Lib.Outcome

/-!
# Walks over an index that changes

A loop walks over the marked elements of an ordered index.  It moves its iterator on before it works
on an element, and the work may mark other elements, or take the mark from the element itself.  An
element that is marked when the loop starts is worked on exactly once; one that is marked on the way may
be skipped.
-/

namespace Graphene.Lib

open List Finset

/-- The iterator points to the first element of a set, or to the end if there is none. -/
def FirstOf {ι K : Type} [LE K] (key : ι → K) (A : Set ι) : Option ι → Prop
  | none => ∀ i, i ∉ A
  | some i => i ∈ A ∧ ∀ j ∈ A, key i ≤ key j

variable {K ι : Type} {key : ι → K} {A : Set ι} {itr : Option ι}

lemma FirstOf.mem [LE K] {i : ι} (h : FirstOf key A itr) (hi : itr = some i) : i ∈ A := by
  rw [hi] at h
  exact h.1

lemma FirstOf.map {κ L : Type} [LE K] [LE L] {key' : κ → L} {B : Set κ} {f : ι → κ}
    (h : FirstOf key A itr) (hA : ∀ i ∈ A, f i ∈ B) (hB : ∀ j ∈ B, ∃ i ∈ A, f i = j)
    (hle : ∀ i ∈ A, ∀ j ∈ A, key i ≤ key j → key' (f i) ≤ key' (f j)) :
    FirstOf key' B (itr.map f) := by
  cases itr with
  | none =>
    intro j hj
    obtain ⟨i, hi, -⟩ := hB j hj
    exact h i hi
  | some i =>
    refine ⟨hA i h.1, fun j hj => ?_⟩
    obtain ⟨i', hi', rfl⟩ := hB j hj
    exact hle i h.1 i' hi' (h.2 i' hi')

lemma firstOf_find? {α : Type} [Preorder K] {key : α → K} {l : List α} {p : α → Bool}
    (hl : l.Pairwise fun x y => key x ≤ key y) :
    FirstOf key {x | x ∈ l ∧ p x = true} (l.find? p) := by
  cases hfind : l.find? p with
  | none =>
    rintro x ⟨hx, hp⟩
    exact List.find?_eq_none.1 hfind x hx hp
  | some x =>
    obtain ⟨hp, before, after, rfl, hbef⟩ := List.find?_eq_some_iff_append.1 hfind
    refine ⟨⟨mem_append_right _ mem_cons_self, hp⟩, ?_⟩
    rintro y ⟨hy, hpy⟩
    rcases mem_append.1 hy with hy | hy
    · have := hbef y hy
      rw [hpy] at this
      cases this
    · rcases mem_cons.1 hy with rfl | hy
      · exact le_refl _
      · exact (pairwise_cons.1 (pairwise_append.1 hl).2.1).1 y hy

variable {S ι K ε : Type}

def walkIndex (stuck : ε) (next : S → ι → Option ι) (body : S → ι → Except ε S) :
    Nat → S → Option ι → Except ε S
  | 0, _, _ => .error stuck
  | _ + 1, s, none => .ok s
  | fuel + 1, s, some x => do
    -- the iterator has moved on before the body runs
    let itr := next s x
    let s' ← body s x
    walkIndex stuck next body fuel s' itr

/-- What a walk needs: `next` finds the next marked element, and the body takes no mark from another
element than the one it works on.  `all` are the elements there are. -/
structure Walk [LinearOrder K] (next : S → ι → Option ι) (body : S → ι → Except ε S)
    (Inv : S → Prop) (marked : S → Set ι) (key : ι → K) (all : Finset ι) : Prop where
  bounded : ∀ {s x}, Inv s → x ∈ marked s → x ∈ all
  distinct : ∀ {x y}, x ∈ all → y ∈ all → key x = key y → x = y
  next_first : ∀ {s x}, Inv s → x ∈ marked s →
    FirstOf key {y | y ∈ marked s ∧ key x < key y} (next s x)
  body_ok : ∀ {s x}, Inv s → x ∈ marked s →
    ∃ s', body s x = .ok s' ∧ Inv s' ∧ ∀ y, y ≠ x → y ∈ marked s → y ∈ marked s'

variable {s : S} {x : ι} {fuel : Nat} {itr : Option ι} {y : ι} {s' r : S}

namespace Walk

variable [LinearOrder K] {next : S → ι → Option ι} {body : S → ι → Except ε S}
  {Inv : S → Prop} {marked : S → Set ι} {key : ι → K} {all : Finset ι} {stuck : ε}

def ahead (key : ι → K) (all : Finset ι) : Option ι → Finset ι
  | none => ∅
  | some x => all.filter fun y => key x ≤ key y

lemma card_ahead_le : (ahead key all itr).card ≤ all.card := by
  cases itr with
  | none => exact Nat.zero_le _
  | some x => exact card_filter_le _ _

section

variable (w : Walk next body Inv marked key all)
include w

variable (hs : Inv s)
include hs

lemma lt_of_next (hx : x ∈ marked s) (hy : next s x = some y) : y ∈ marked s ∧ key x < key y :=
  (w.next_first hs hx).mem hy

lemma marked_next (hx : x ∈ marked s) (hmark : ∀ y, y ≠ x → y ∈ marked s → y ∈ marked s')
    (hy : next s x = some y) : y ∈ marked s' := by
  obtain ⟨hmar, hlt⟩ := w.lt_of_next hs hx hy
  refine hmark y (fun heq => ?_) hmar
  rw [heq] at hlt
  exact lt_irrefl _ hlt

lemma card_ahead_next (hx : x ∈ marked s) :
    (ahead key all (next s x)).card < (ahead key all (some x)).card := by
  have hself : x ∈ ahead key all (some x) := mem_filter.2 ⟨w.bounded hs hx, le_refl _⟩
  cases hy : next s x with
  | none => exact card_pos.2 ⟨x, hself⟩
  | some y =>
    have hlt := (w.lt_of_next hs hx hy).2
    refine card_lt_card ((ssubset_iff_of_subset fun z hz => ?_).2 ⟨x, hself, ?_⟩)
    · obtain ⟨hall, hle⟩ := mem_filter.1 hz
      exact mem_filter.2 ⟨hall, hlt.le.trans hle⟩
    · intro hx'
      exact absurd (mem_filter.1 hx').2 (not_le_of_gt hlt)

/-- The loop ends, when it has more fuel than there are elements ahead. -/
lemma exists_walk (hitr : ∀ x, itr = some x → x ∈ marked s)
    (hfuel : (ahead key all itr).card < fuel) :
    ∃ s', walkIndex stuck next body fuel s itr = .ok s' ∧ Inv s' := by
  induction fuel generalizing s itr with
  | zero => exact absurd hfuel (Nat.not_lt_zero _)
  | succ fuel ih =>
    cases itr with
    | none => exact ⟨s, rfl, hs⟩
    | some x =>
      have hx := hitr x rfl
      obtain ⟨s', hbody, hs', hmark⟩ := w.body_ok hs hx
      have hless := w.card_ahead_next hs hx
      rw [walkIndex, hbody, ok_bind]
      exact ih hs' (fun y hy => w.marked_next hs hx hmark hy) (by omega)

end

/-! ## One element -/

variable (w : Walk next body Inv marked key all)
include w

/-- An element is worked on at most once: it is `Fresh` until then, and `Done` afterwards, when the
iterator has passed it. -/
lemma fresh_or_done (z : ι) (Fresh Done : S → Prop)
    (hfre : ∀ {s s' x}, Inv s → x ∈ marked s → x ≠ z → Fresh s → body s x = .ok s' → Fresh s')
    (hwork : ∀ {s s'}, Inv s → z ∈ marked s → Fresh s → body s z = .ok s' → Fresh s' ∨ Done s')
    (hdone : ∀ {s s' x}, Inv s → x ∈ marked s → x ≠ z → Done s → body s x = .ok s' → Done s')
    (hs : Inv s) (hitr : ∀ x, itr = some x → x ∈ marked s)
    (h : Fresh s ∨ (Done s ∧ ∀ x, itr = some x → key z < key x))
    (hrun : walkIndex stuck next body fuel s itr = .ok r) : Fresh r ∨ Done r := by
  induction fuel generalizing s itr with
  | zero => cases hrun
  | succ fuel ih =>
    cases itr with
    | none =>
      cases hrun
      exact h.imp_right And.left
    | some x =>
      have hx := hitr x rfl
      obtain ⟨s', hbody, hs', hmark⟩ := w.body_ok hs hx
      rw [walkIndex, hbody, ok_bind] at hrun
      refine ih hs' (fun y hy => w.marked_next hs hx hmark hy) ?_ hrun
      rcases h with hz | ⟨hz, hlt⟩
      · by_cases hxz : x = z
        · subst hxz
          exact (hwork hs hx hz hbody).imp_right fun hd =>
            ⟨hd, fun y hy => (w.lt_of_next hs hx hy).2⟩
        · exact Or.inl (hfre hs hx hxz hz hbody)
      · have hzx := hlt x rfl
        have hne : x ≠ z := by
          rintro rfl
          exact lt_irrefl _ hzx
        exact Or.inr ⟨hdone hs hx hne hz hbody, fun y hy => hzx.trans (w.lt_of_next hs hx hy).2⟩

/-- How one element fares: `Before` says that it is still marked and has not been worked on, `After`
that it has.  The work on other elements keeps either. -/
structure Served (body : S → ι → Except ε S) (Inv : S → Prop) (marked : S → Set ι) (z : ι)
    (Before After : S → Prop) : Prop where
  marked_before : ∀ {s}, Before s → z ∈ marked s
  before : ∀ {s s' x}, Inv s → x ∈ marked s → x ≠ z → Before s → body s x = .ok s' → Before s'
  work : ∀ {s s'}, Inv s → Before s → body s z = .ok s' → After s'
  after : ∀ {s s' x}, Inv s → x ∈ marked s → x ≠ z → After s → body s x = .ok s' → After s'

/-- The iterator has not passed the element, or the element is done. -/
def Ahead (key : ι → K) (z : ι) (Before After : S → Prop) (s : S) (itr : Option ι) : Prop :=
  (Before s ∧ ∃ x, itr = some x ∧ key x ≤ key z) ∨ (After s ∧ ∀ x, itr = some x → key z < key x)

variable {z : ι} {Before After : S → Prop} (hser : Served body Inv marked z Before After)
include hser

lemma Ahead.step (hs : Inv s) (hx : x ∈ marked s) (hbody : body s x = .ok s')
    (h : Ahead key z Before After s (some x)) : Ahead key z Before After s' (next s x) := by
  rcases h with ⟨hz, x', hx', hle⟩ | ⟨hdone, hlt⟩
  · cases hx'
    have hmar := hser.marked_before hz
    by_cases hxz : x = z
    · subst hxz
      exact Or.inr ⟨hser.work hs hz hbody, fun y hy => (w.lt_of_next hs hx hy).2⟩
    · have hkey : key x < key z := lt_of_le_of_ne hle fun heq =>
        hxz (w.distinct (w.bounded hs hx) (w.bounded hs hmar) heq)
      refine Or.inl ⟨hser.before hs hx hxz hz hbody, ?_⟩
      -- `z` is among the elements of which the next one is the first
      have hnext := w.next_first hs hx
      cases hy : next s x with
      | none =>
        rw [hy] at hnext
        exact absurd ⟨hmar, hkey⟩ (hnext z)
      | some y =>
        rw [hy] at hnext
        exact ⟨y, rfl, hnext.2 z ⟨hmar, hkey⟩⟩
  · have hzx := hlt x rfl
    have hne : x ≠ z := by
      rintro rfl
      exact lt_irrefl _ hzx
    exact Or.inr ⟨hser.after hs hx hne hdone hbody,
      fun y hy => hzx.trans (w.lt_of_next hs hx hy).2⟩

lemma Ahead.walk (hs : Inv s) (hitr : ∀ x, itr = some x → x ∈ marked s) (h : Ahead key z Before After s itr)
    (hrun : walkIndex stuck next body fuel s itr = .ok r) : After r := by
  induction fuel generalizing s itr with
  | zero => cases hrun
  | succ fuel ih =>
    cases itr with
    | none =>
      cases hrun
      rcases h with ⟨-, x, hx, -⟩ | ⟨hdone, -⟩
      · cases hx
      · exact hdone
    | some x =>
      have hx := hitr x rfl
      obtain ⟨s', hbody, hs', hmark⟩ := w.body_ok hs hx
      rw [walkIndex, hbody, ok_bind] at hrun
      exact ih hs' (fun y hy => w.marked_next hs hx hmark hy) (h.step w hser hs hx hbody) hrun

/-- An element that is marked when the loop starts has been worked on when it ends. -/
lemma Served.after_walk (hs : Inv s) (hfst : FirstOf key (marked s) itr) (hz : Before s)
    (hrun : walkIndex stuck next body fuel s itr = .ok r) : After r := by
  refine Ahead.walk w hser hs (fun x hx => hfst.mem hx) ?_ hrun
  cases itr with
  | none => exact absurd (hser.marked_before hz) (hfst z)
  | some x => exact Or.inl ⟨hz, x, rfl, hfst.2 z (hser.marked_before hz)⟩

end Walk

end Graphene.Lib
