import Mathlib.Data.Option.Basic

/-!
# Links between objects

Every object has at most one link to another one: a function `f : α → Option α`.
`Shallow f` says that no chain of links is longer than two.  Setting one link keeps this
under conditions on the neighbours of the two objects only.
-/

namespace Graphene.Lib

open Function

variable {α : Type} {f : α → Option α}

def follow (f : α → Option α) : Nat → α → Option α
  | 0, a => some a
  | k + 1, a => (f a).bind (follow f k)

def Shallow (f : α → Option α) : Prop :=
  ∀ a b c, f a = some b → f b = some c → f c = none

lemma follow_add (i j : Nat) (a : α) : follow f (i + j) a = (follow f i a).bind (follow f j) := by
  induction i generalizing a with
  | zero => rw [Nat.zero_add]; rfl
  | succ i ih =>
    rw [Nat.succ_add, follow, follow]
    cases f a with
    | none => rfl
    | some b => exact ih b

namespace Shallow

section

variable (h : Shallow f)
include h

lemma follow_three (a : α) : follow f 3 a = none := by
  cases hb : f a with
  | none => simp [follow, hb]
  | some b =>
    cases hc : f b with
    | none => simp [follow, hb, hc]
    | some c => simp [follow, hb, hc, h a b c hb hc]

lemma follow_succ_ne (k : Nat) (a : α) : follow f (k + 1) a ≠ some a := by
  intro hback
  -- three rounds are too long
  have hthree : follow f (3 * (k + 1)) a = some a := by
    rw [show 3 * (k + 1) = k + 1 + (k + 1) + (k + 1) by omega, follow_add, follow_add, hback]
    change (follow f (k + 1) a).bind (follow f (k + 1)) = some a
    rwa [hback]
  rw [show 3 * (k + 1) = 3 + 3 * k by omega, follow_add, h.follow_three] at hthree
  cases hthree

/-- Following the links never reaches an object twice. -/
theorem follow_ne {i j : Nat} (hij : i < j) {a b : α}
    (hi : follow f i a = some b) : follow f j a ≠ some b := by
  obtain ⟨k, rfl⟩ := Nat.exists_eq_add_of_lt hij
  rw [Nat.add_assoc, follow_add, hi]
  exact h.follow_succ_ne k b

/-- Within two links an object without a link is reached. -/
theorem exists_end (a : α) : ∃ k ≤ 2, ∃ b, follow f k a = some b ∧ f b = none := by
  cases hb : f a with
  | none => exact ⟨0, by omega, a, rfl, hb⟩
  | some b =>
    cases hc : f b with
    | none => exact ⟨1, by omega, b, by simp [follow, hb], hc⟩
    | some c => exact ⟨2, Nat.le_refl 2, c, by simp [follow, hb, hc], h a b c hb hc⟩

end

variable [DecidableEq α]

/-- A link may be set to an object that has at most one link before the end, and to one without a
link where other objects link to `a`. -/
theorem update (h : Shallow f) {a b : α} (hself : b ≠ a)
    (hend : ∀ c, f b = some c → f c = none ∧ c ≠ a) (hchild : ∀ x, f x = some a → f b = none)
    (hdeep : ∀ x y, f x = some y → f y ≠ some a) : Shallow (update f a (some b)) := by
  intro x y z hy hz
  by_cases hx : x = a
  · -- the chain starts with the new link
    subst hx
    rw [update_self] at hy
    cases hy
    rw [update_of_ne hself] at hz
    obtain ⟨hnone, hne⟩ := hend z hz
    rwa [update_of_ne hne]
  rw [update_of_ne hx] at hy
  by_cases hya : y = a
  · -- the new link is the second one
    subst hya
    rw [update_self] at hz
    cases hz
    rw [update_of_ne hself]
    exact hchild x hy
  rw [update_of_ne hya] at hz
  have hza : z ≠ a := by
    rintro rfl
    exact hdeep x y hy hz
  rw [update_of_ne hza]
  exact h x y z hy hz

end Shallow

end Graphene.Lib
