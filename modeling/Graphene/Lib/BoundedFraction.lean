import Mathlib.Data.Rat.Floor
import Mathlib.Tactic.Positivity

/-!
# Fractions with bounded parts

A positive fraction is approximated by one whose numerator and denominator do not exceed
a bound.  Both parts are halved, and the fraction reduced, until they fit; a fraction with
numerator or denominator one becomes the smallest or the largest one.  If something was
halved, the integer part, or that of the inverse, is taken instead where it is closer.
-/

namespace Graphene.Lib

def Fits (max : Nat) (x : ℚ) : Prop :=
  x.num ≤ max ∧ x.den ≤ max

instance (max : Nat) (x : ℚ) : Decidable (Fits max x) := inferInstanceAs (Decidable (_ ∧ _))

def halved (x : ℚ) : ℚ :=
  mkRat (x.num / 2) (x.den / 2)

/-- The result of the halving loop: the fraction, whether it was halved, and whether it was
replaced by the smallest or the largest one. -/
structure Shrunk where
  value : ℚ
  shrinked : Bool
  usingMax : Bool

def shrink (max : Nat) : Nat → ℚ → Bool → Shrunk
  | 0, x, shrinked => ⟨x, shrinked, false⟩
  | fuel + 1, x, shrinked =>
    if Fits max x then ⟨x, shrinked, false⟩
    else if x.num = 1 then ⟨mkRat 1 max, shrinked, true⟩
    else if x.den = 1 then ⟨mkRat max 1, shrinked, true⟩
    else shrink max fuel (halved x) true

/-- The integer part, or the inverse of the integer part of the inverse, within the bound. -/
def integral (max : Nat) (x : ℚ) : ℚ :=
  if (x.den : Int) < x.num then mkRat (min (x.num / x.den) max) 1
  else mkRat 1 (min (x.den / x.num.toNat) max)

def closer (max : Nat) (x halved : ℚ) : ℚ :=
  if (integral max x).num = max ∨ (integral max x).den = max then integral max x
  else if |integral max x - x| < |halved - x| then integral max x
  else halved

/-- The approximation, and whether it may differ from the fraction.  Halving makes the numerator
smaller, so it is an upper bound for the number of rounds. -/
def approximate (max : Nat) (x : ℚ) : ℚ × Bool :=
  let s := shrink max x.num.toNat x false
  (if s.shrinked then closer max x s.value else s.value, s.shrinked || s.usingMax)

def rounded (max : Nat) (x : ℚ) : ℚ :=
  (approximate max x).1

/-! ## The approximation is a fraction that fits -/

variable {max : Nat} {x : ℚ}

lemma mkRat_pos {a : Int} {b : Nat} (ha : 0 < a) (hb : 0 < b) : 0 < mkRat a b := by
  rw [Rat.mkRat_eq_div]
  have ha' : (0 : ℚ) < a := Int.cast_pos.2 ha
  have hb' : (0 : ℚ) < b := Nat.cast_pos.2 hb
  exact div_pos ha' hb'

lemma halved_pos (hx : 0 < x) (hnum : x.num ≠ 1) (hden : x.den ≠ 1) : 0 < halved x := by
  have hn : 0 < x.num := Rat.num_pos.2 hx
  have hd : 0 < x.den := x.den_pos
  exact mkRat_pos (by omega) (by omega)

lemma shrink_pos (hmax : 0 < max) (fuel : Nat) {shrinked : Bool} (hx : 0 < x) :
    0 < (shrink max fuel x shrinked).value := by
  induction fuel generalizing x shrinked with
  | zero => exact hx
  | succ fuel ih =>
    unfold shrink
    split_ifs with hfits hnum hden
    · exact hx
    · exact mkRat_pos one_pos hmax
    · exact mkRat_pos (by exact_mod_cast hmax) one_pos
    · exact ih (halved_pos hx hnum hden)

lemma integral_parts (hmax : 0 < max) (hx : 0 < x) :
    ∃ (a : Int) (b : Nat), integral max x = mkRat a b ∧ 0 < a ∧ 0 < b := by
  have hn : 0 < x.num := Rat.num_pos.2 hx
  have hd : 0 < x.den := x.den_pos
  unfold integral
  split_ifs with hlt
  · refine ⟨_, _, rfl, ?_, one_pos⟩
    have hdiv : 1 ≤ x.num / x.den := Int.le_ediv_of_mul_le (by omega) (by omega)
    exact lt_min hdiv (by exact_mod_cast hmax)
  · refine ⟨_, _, rfl, one_pos, ?_⟩
    have hdiv : 0 < x.den / x.num.toNat := Nat.div_pos (by omega) (by omega)
    exact lt_min hdiv hmax

lemma closer_eq (halved : ℚ) : closer max x halved = integral max x ∨ closer max x halved = halved := by
  unfold closer
  split_ifs
  · exact .inl rfl
  · exact .inl rfl
  · exact .inr rfl

lemma rounded_eq (max : Nat) (x : ℚ) :
    rounded max x = integral max x ∨ rounded max x = (shrink max x.num.toNat x false).value := by
  unfold rounded approximate
  dsimp only
  split_ifs
  · exact closer_eq _
  · exact .inr rfl

lemma rounded_pos (hmax : 0 < max) (hx : 0 < x) : 0 < rounded max x := by
  rcases rounded_eq max x with h | h
  · obtain ⟨a, b, hab, ha, hb⟩ := integral_parts hmax hx
    rw [h, hab]
    exact mkRat_pos ha hb
  · rw [h]
    exact shrink_pos hmax _ hx

lemma approximate_of_fits (hx : 0 < x) (hfits : Fits max x) : approximate max x = (x, false) := by
  have hn : 0 < x.num := Rat.num_pos.2 hx
  obtain ⟨fuel, hfuel⟩ : ∃ fuel, x.num.toNat = fuel + 1 := ⟨x.num.toNat - 1, by omega⟩
  unfold approximate
  rw [hfuel, shrink, if_pos hfits]
  rfl

lemma rounded_of_fits (hx : 0 < x) (hfits : Fits max x) : rounded max x = x := by
  unfold rounded
  rw [approximate_of_fits hx hfits]

lemma fits_of_exact (hx : 0 < x) (hexc : (approximate max x).2 = false) : Fits max x := by
  by_contra hfits
  have hn : 0 < x.num := Rat.num_pos.2 hx
  obtain ⟨fuel, hfuel⟩ : ∃ fuel, x.num.toNat = fuel + 1 := ⟨x.num.toNat - 1, by omega⟩
  have hmark : ∀ fuel (y : ℚ), (shrink max fuel y true).shrinked = true := by
    intro fuel
    induction fuel with
    | zero => exact fun _ => rfl
    | succ fuel ih =>
      intro y
      unfold shrink
      split_ifs
      · rfl
      · rfl
      · rfl
      · exact ih _
  unfold approximate at hexc
  rw [hfuel, shrink, if_neg hfits] at hexc
  split_ifs at hexc <;> simp [hmark] at hexc

end Graphene.Lib
