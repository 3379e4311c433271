import Mathlib.Algebra.Group.PUnit
import Mathlib.Tactic.Abel

/-!
# Rules for computations with a state

What every run of a computation does, from the state it starts in.  A successful run is a step between
two states that is graded by an element of a group: what the computation adds to some quantity.  A
failed run is described by a relation that steps in front of it preserve.
-/

namespace Graphene.Lib

structure RunLogic (ε σ D : Type) [AddCommGroup D] where
  step : σ → σ → D → Prop
  fail : σ → ε → σ → Prop
  refl : ∀ s, step s s 0
  trans : ∀ {s t u d e}, step s t d → step t u e → step s u (d + e)
  trans_fail : ∀ {s t u d e}, step s t d → fail t e u → fail s e u

namespace RunLogic

variable {ε σ D α β : Type} [AddCommGroup D] (L : RunLogic ε σ D)

/-- What the run of `x` from `s` does. -/
def Holds (s : σ) (x : EStateM ε σ α) (d : α → D) : Prop :=
  match x s with
  | .ok r s' => L.step s s' (d r)
  | .error e s' => L.fail s e s'

variable {L} {s t : σ} {x : EStateM ε σ α} {d d' : α → D} {r : α} {s' : σ} {e : ε}

lemma holds_ok (hx : x s = .ok r s') : L.Holds s x d ↔ L.step s s' (d r) := by
  simp [Holds, hx]

lemma holds_error (hx : x s = .error e s') : L.Holds s x d ↔ L.fail s e s' := by
  simp [Holds, hx]

lemma Holds.step (h : L.Holds s x d) (hx : x s = .ok r s') : L.step s s' (d r) := (holds_ok hx).1 h

lemma Holds.fail (h : L.Holds s x d) (hx : x s = .error e s') : L.fail s e s' :=
  (holds_error hx).1 h

lemma Holds.congr (h : L.Holds s x d) (hd : ∀ r s', x s = .ok r s' → d r = d' r) :
    L.Holds s x d' := by
  cases hx : x s with
  | ok r s' =>
    rw [holds_ok hx, ← hd r s' hx]
    exact h.step hx
  | error e s' =>
    rw [holds_error hx]
    exact h.fail hx

lemma holds_pure (h : d r = 0) : L.Holds s (pure r) d := by
  change L.step s s (d r)
  rw [h]
  exact L.refl s

lemma holds_throw (h : L.fail s e s) : L.Holds s (throw e) d := h

variable {f : α → EStateM ε σ β} {d : β → D}

lemma Holds.bind {e : α → D} (hx : L.Holds s x e)
    (hf : ∀ r t, x s = .ok r t → L.Holds t (f r) fun r' => d r' - e r) : L.Holds s (x >>= f) d := by
  cases h : x s with
  | error err s' =>
    have hb : (x >>= f) s = .error err s' := by
      change EStateM.bind x f s = _
      simp [EStateM.bind, h]
    exact (holds_error hb).2 (hx.fail h)
  | ok r t =>
    have hfst := hx.step h
    have hsec := hf r t h
    cases hr : f r t with
    | error err s' =>
      have hb : (x >>= f) s = .error err s' := by
        change EStateM.bind x f s = _
        simp [EStateM.bind, h, hr]
      exact (holds_error hb).2 (L.trans_fail hfst (hsec.fail hr))
    | ok r' s' =>
      have hb : (x >>= f) s = .ok r' s' := by
        change EStateM.bind x f s = _
        simp [EStateM.bind, h, hr]
      rw [holds_ok hb]
      have hstep := L.trans hfst (hsec.step hr)
      rwa [add_sub_cancel] at hstep

lemma Holds.andThen (hx : L.Holds s x fun _ => 0) (hf : ∀ r t, x s = .ok r t → L.Holds t (f r) d) :
    L.Holds s (x >>= f) d :=
  hx.bind fun r t h => by simpa using hf r t h

end RunLogic

lemma bind_ok_iff {ε σ α β : Type} {x : EStateM ε σ α} {f : α → EStateM ε σ β} {s s' : σ} {r : β} :
    (x >>= f) s = .ok r s' ↔ ∃ a t, x s = .ok a t ∧ f a t = .ok r s' := by
  change EStateM.bind x f s = _ ↔ _
  cases h : x s with
  | ok a t | error e t => simp [EStateM.bind, h]

lemma bind_run {ε σ α β : Type} {x : EStateM ε σ α} {s t : σ} {a : α} (h : x s = .ok a t)
    (f : α → EStateM ε σ β) : (x >>= f) s = f a t := by
  change EStateM.bind x f s = _
  simp [EStateM.bind, h]

section Results

variable {ε σ α β : Type} {x : EStateM ε σ α} {f : α → EStateM ε σ β} {P : α → Prop} {Q : β → Prop}

/-- Whatever the state, the result of a successful run satisfies `P`. -/
def Returns (x : EStateM ε σ α) (P : α → Prop) : Prop :=
  ∀ s r t, x s = .ok r t → P r

lemma returns_pure {r : α} (h : P r) : Returns (pure r : EStateM ε σ α) P := by
  intro s r' t hr
  cases hr
  exact h

lemma Returns.bind (hx : Returns x P) (hf : ∀ a, P a → Returns (f a) Q) : Returns (x >>= f) Q := by
  intro s r t hr
  obtain ⟨a, u, ha, hr⟩ := bind_ok_iff.1 hr
  exact hf a (hx s a u ha) u r t hr

lemma returns_bind (hf : ∀ a, Returns (f a) Q) : Returns (x >>= f) Q :=
  Returns.bind (P := fun _ => True) (fun _ _ _ _ => trivial) fun a _ => hf a

end Results

section Postconditions

variable {ε σ α β : Type} {E : ε → Prop} {s : σ} {x : EStateM ε σ α} {f : α → EStateM ε σ β}
  {P Q : α → σ → Prop} {R : β → σ → Prop}

/-- The run ends with a result and a state that satisfy `Q`, or with an error that satisfies `E`. -/
def Ends (E : ε → Prop) (s : σ) (x : EStateM ε σ α) (Q : α → σ → Prop) : Prop :=
  match x s with
  | .ok r t => Q r t
  | .error e _ => E e

variable {r : α} {t : σ}

lemma Ends.ok (h : Ends E s x Q) (hx : x s = .ok r t) : Q r t := by
  simpa only [Ends, hx] using h

lemma Ends.error {e : ε} (h : Ends E s x Q) (hx : x s = .error e t) : E e := by
  simpa only [Ends, hx] using h

lemma ends_intro (hok : ∀ r t, x s = .ok r t → Q r t) (herror : ∀ e t, x s = .error e t → E e) :
    Ends E s x Q := by
  unfold Ends
  cases hx : x s with
  | ok r t => exact hok r t hx
  | error e t => exact herror e t hx

lemma ends_pure (h : Q r s) : Ends E s (pure r) Q := h

lemma Ends.mono (h : Ends E s x P) (hPQ : ∀ r t, P r t → Q r t) : Ends E s x Q :=
  ends_intro (fun r t hx => hPQ r t (h.ok hx)) fun _ _ hx => h.error hx

lemma Ends.and_holds {D : Type} [AddCommGroup D] {L : RunLogic ε σ D} {d : α → D} (h : Ends E s x P)
    (h' : L.Holds s x d) : Ends E s x fun r t => P r t ∧ L.step s t (d r) :=
  ends_intro (fun _ _ hx => ⟨h.ok hx, h'.step hx⟩) fun _ _ hx => h.error hx

lemma Ends.and_returns {R : α → Prop} (h : Ends E s x P) (h' : Returns x R) :
    Ends E s x fun r t => P r t ∧ R r :=
  ends_intro (fun r t hx => ⟨h.ok hx, h' s r t hx⟩) fun _ _ hx => h.error hx

lemma Ends.bind (hx : Ends E s x P) (hf : ∀ r t, P r t → Ends E t (f r) R) : Ends E s (x >>= f) R := by
  cases h : x s with
  | ok r t =>
    have hrest := hf r t (hx.ok h)
    unfold Ends at hrest ⊢
    rwa [bind_run h]
  | error e t =>
    have hb : (x >>= f) s = .error e t := by
      change EStateM.bind x f s = _
      simp [EStateM.bind, h]
    unfold Ends
    rw [hb]
    exact hx.error h

end Postconditions

end Graphene.Lib
