import Mathlib

/-!
# Computations that may fail

Inversion of `do` blocks in `Except`: what a successful run says about its parts.
-/

namespace Graphene.Lib

variable {ε α β : Type} {x : Except ε α} {f : Unit → Except ε β} {b : β} {ok : Bool} {e : ε}
  {u : Unit} {l : List α} {e' : ε}

lemma bind_eq_ok {f : α → Except ε β} {r : β} :
    (x >>= f) = .ok r ↔ ∃ a, x = .ok a ∧ f a = .ok r := by
  cases x with
  | error e =>
    constructor
    · intro h
      cases h
    · rintro ⟨a, h, -⟩
      cases h
  | ok a =>
    constructor
    · intro h
      exact ⟨a, rfl, h⟩
    · rintro ⟨a', h, hf⟩
      cases h
      exact hf

lemma pure_eq_ok {a b : α} : (pure a : Except ε α) = .ok b ↔ a = b :=
  Iff.of_eq (Except.ok.injEq a b)

lemma then_ok {x : Except ε Unit} (h : (x >>= f) = .ok b) : f () = .ok b := by
  obtain ⟨_, -, h⟩ := bind_eq_ok.1 h
  exact h

lemma exists_of_map_ok {f : α → β} (h : (x >>= fun a => .ok (f a)) = .ok b) :
    ∃ a, x = .ok a ∧ b = f a := by
  obtain ⟨a, ha, h⟩ := bind_eq_ok.1 h
  cases h
  exact ⟨a, ha, rfl⟩

@[simp] lemma ok_bind (a : α) (f : α → Except ε β) : (Except.ok a >>= f) = f a := rfl

def check (ok : Bool) (e : ε) : Except ε Unit :=
  if ok then .ok () else .error e

lemma check_eq_ok : check ok e = .ok u ↔ ok = true := by
  cases ok <;> simp [check]

lemma check_then {p : Prop} [Decidable p] : (check p e >>= f) = .ok b ↔ p ∧ f () = .ok b := by
  by_cases hp : p <;> simp [check, hp, bind, Except.bind]

lemma foldlM_keeps {f : β → α → Except ε β} {r : β → β → Prop} (hrefl : ∀ b, r b b)
    (htrans : ∀ {a b c}, r a b → r b c → r a c) (hstep : ∀ {b a b'}, f b a = .ok b' → r b b')
    {b' : β} (h : l.foldlM f b = .ok b') : r b b' := by
  induction l generalizing b with
  | nil =>
    cases h
    exact hrefl _
  | cons a l ih =>
    obtain ⟨b1, h1, h⟩ := bind_eq_ok.1 h
    exact htrans (hstep h1) (ih h)

lemma forM_eq_ok {f : α → Except ε Unit} (h : l.forM f = .ok u) : ∀ x ∈ l, f x = .ok () := by
  induction l with
  | nil =>
    intro x hx
    cases hx
  | cons y l ih =>
    obtain ⟨_, hy, h⟩ := bind_eq_ok.1 h
    intro x hx
    rcases List.mem_cons.1 hx with rfl | hx
    · exact hy
    · exact ih h x hx

lemma bind_ne_error {f : α → Except ε β} (hx : x ≠ .error e) (hf : ∀ a, x = .ok a → f a ≠ .error e) :
    (x >>= f) ≠ .error e := by
  cases x with
  | error e' =>
    intro h
    cases h
    exact hx rfl
  | ok a => exact hf a rfl

lemma check_ne_error (h : e' ≠ e) : check ok e' ≠ .error e := by
  cases ok with
  | false =>
    intro he
    cases he
    exact h rfl
  | true => nofun

lemma check_bind_ne (h : e' ≠ e) (hf : ∀ u, check ok e' = .ok u → f u ≠ .error e) :
    (check ok e' >>= f) ≠ .error e :=
  bind_ne_error (check_ne_error h) hf

lemma check_ne_error_of (h : ok = true) : check ok e' ≠ .error e := by
  rw [h]
  nofun

end Graphene.Lib
