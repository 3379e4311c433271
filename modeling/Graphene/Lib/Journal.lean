import Mathlib.Data.List.Induction

/-!
# Journals: a state with a bounded stack of saved states

The specification of an undo stack over an arbitrary type of states: the current state and the states
saved before each session, newest first.  After any number of sessions, the `k`-th saved state is the one
before the `k`-th last session, for every `k` up to the bound (`saved_sessions`).
-/

namespace Graphene.Lib

open List

structure Journal (S : Type) where
  current : S
  saved : List S
  bound : Nat

namespace Journal

variable {S : Type} (j : Journal S)

def start : Journal S :=
  { j with saved := j.current :: j.saved.take j.bound }

def write (s : S) : Journal S :=
  { j with current := s }

def restore : Option (Journal S) :=
  match j.saved with
  | [] => none
  | s :: rest => some { j with current := s, saved := rest }

def undo : Journal S :=
  j.restore.getD j

def merge : Option (Journal S) :=
  match j.saved with
  | _ :: s :: rest => some { j with saved := s :: rest }
  | _ => none

def restoreN : Nat → Journal S → Option (Journal S)
  | 0, j => some j
  | n + 1, j => j.restore.bind (restoreN n)

def session (s : S) : Journal S :=
  j.start.write s

def sessions (ss : List S) : Journal S :=
  ss.foldl session j

lemma restore_eq_some {j j' : Journal S} (h : j.restore = some j') :
    ∃ s rest, j.saved = s :: rest ∧ j' = ⟨s, rest, j.bound⟩ := by
  unfold restore at h
  cases hs : j.saved with
  | nil => simp [hs] at h
  | cons s rest =>
    rw [hs] at h
    cases h
    exact ⟨s, rest, rfl, rfl⟩

variable {s : S}

lemma undo_of_saved {j : Journal S} {rest : List S} (h : j.saved = s :: rest) :
    j.undo = ⟨s, rest, j.bound⟩ := by
  simp [undo, restore, h]

/-! ## Sessions above a state -/

/-- `j'` is `j` after sessions above it were started and given up: the oldest states may be gone, but
no more than the bound asks for. -/
structure Trims (j j' : Journal S) : Prop where
  current : j'.current = j.current
  saved : ∃ keep, j.bound ≤ keep + 1 ∧ j'.saved = j.saved.take keep
  bound_le : j.bound ≤ j'.bound

/-- `k` has one session above `j`, up to old states that are gone. -/
structure OnTop (j k : Journal S) : Prop where
  saved : ∃ keep, j.bound ≤ keep + 1 ∧ k.saved = j.current :: j.saved.take keep
  bound_le : j.bound ≤ k.bound

variable {k : Journal S} (ss : List S)

lemma Trims.refl : Trims j j where
  current := rfl
  saved := ⟨max j.bound j.saved.length, by omega, by rw [take_of_length_le (by omega)]⟩
  bound_le := Nat.le_refl _

lemma take_take_keep (l : List S) {bound bound' keep keep' : Nat} (hkeep : bound ≤ keep + 1)
    (hbnd : bound ≤ bound') (hkeep' : bound' ≤ keep' + 1) :
    ∃ k, bound ≤ k + 1 ∧ (l.take keep).take keep' = l.take k :=
  ⟨min keep' keep, by omega, take_take⟩

lemma Trims.trans {j m : Journal S} (h : Trims j k) (h' : Trims k m) : Trims j m := by
  obtain ⟨keep, hkeep, hsaved⟩ := h.saved
  obtain ⟨keep', hkeep', hsav'⟩ := h'.saved
  refine ⟨h'.current.trans h.current, ?_, Nat.le_trans h.bound_le h'.bound_le⟩
  rw [hsav', hsaved]
  exact take_take_keep j.saved hkeep h.bound_le hkeep'

lemma Trims.start {j : Journal S} (h : Trims j k) : OnTop j k.start := by
  obtain ⟨keep, hkeep, hsaved⟩ := h.saved
  rcases take_take_keep j.saved hkeep h.bound_le (Nat.le_succ k.bound) with
    ⟨keep', hkeep', htake⟩
  refine ⟨⟨keep', hkeep', ?_⟩, h.bound_le⟩
  rw [Journal.start, hsaved, htake, h.current]

lemma OnTop.undo {j : Journal S} (h : OnTop j k) : Trims j k.undo := by
  obtain ⟨keep, hkeep, hsaved⟩ := h.saved
  rw [undo_of_saved hsaved]
  exact ⟨rfl, ⟨keep, hkeep, rfl⟩, h.bound_le⟩

lemma onTop_undo (h : k.saved ≠ []) : OnTop k.undo k := by
  cases hs : k.saved with
  | nil => exact absurd hs h
  | cons s rest =>
    rw [undo_of_saved hs]
    refine ⟨⟨max k.bound rest.length, by dsimp only; omega, ?_⟩, Nat.le_refl _⟩
    rw [hs, take_of_length_le (Nat.le_max_right k.bound rest.length)]

/-- A temporary session above the one on top of `j`.  Given up, it leaves the state as it was; merged,
it leaves the new one; the session on top of `j` stays. -/
lemma OnTop.temporary {j t : Journal S} (h : OnTop j k) (hpos : 0 < j.bound)
    (hsaved : t.saved = k.start.saved) (hbnd : k.bound ≤ t.bound) :
    OnTop j t.undo ∧ t.undo.current = k.current ∧
      ∃ m, t.merge = some m ∧ OnTop j m ∧ m.current = t.current := by
  obtain ⟨keep, hkeep, hk⟩ := h.saved
  obtain ⟨n, hn⟩ := Nat.exists_eq_succ_of_ne_zero
    (Nat.ne_of_gt (Nat.lt_of_lt_of_le hpos h.bound_le))
  rcases take_take_keep j.saved hkeep h.bound_le (Nat.le_of_eq hn) with
    ⟨keep', hkeep', htake⟩
  have ht : t.saved = k.current :: j.current :: j.saved.take keep' := by
    rw [hsaved, start, hk, hn, take_succ_cons, htake]
  have hle : j.bound ≤ t.bound := Nat.le_trans h.bound_le hbnd
  refine ⟨?_, ?_, ⟨t.current, j.current :: j.saved.take keep', t.bound⟩, ?_, ?_, rfl⟩
  · rw [undo_of_saved ht]
    exact ⟨⟨keep', hkeep', rfl⟩, hle⟩
  · rw [undo_of_saved ht]
  · rw [merge, ht]
  · exact ⟨⟨keep', hkeep', rfl⟩, hle⟩

@[simp] lemma sessions_nil : j.sessions [] = j := rfl

lemma sessions_concat (s : S) : j.sessions (ss ++ [s]) = (j.sessions ss).session s := by
  simp [sessions]

@[simp] lemma bound_sessions : (j.sessions ss).bound = j.bound := by
  induction ss using reverseRecOn with
  | nil => rfl
  | append_singleton ss s ih =>
    rw [sessions_concat]
    exact ih

/-- Sessions leave their own states on top of the saved ones, newest first, within the bound. -/
lemma saved_sessions (k : Nat) (hk : k < ss.length) (hb : k ≤ j.bound) :
    (j.sessions ss).saved[k]? = some (j.sessions (ss.take (ss.length - (k + 1)))).current := by
  induction ss using reverseRecOn generalizing k with
  | nil => simp at hk
  | append_singleton ss s ih =>
    rw [sessions_concat]
    cases k with
    | zero => simp [session, start, write]
    | succ k =>
      have hlen : k < ss.length := by simpa using hk
      have hlt : ¬ j.bound ≤ k := by omega
      have htake : (ss ++ [s]).take ((ss ++ [s]).length - (k + 1 + 1)) =
          ss.take (ss.length - (k + 1)) := by
        rw [length_append, length_singleton,
          show ss.length + 1 - (k + 1 + 1) = ss.length - (k + 1) by omega,
          take_append_of_le_length (by omega)]
      rw [htake, ← ih k hlen (by omega)]
      simp [session, start, write, getElem?_take, hlt]

/-- Restoring `n` times succeeds exactly when `n` states are saved, and ends in the `n`-th. -/
lemma restoreN_eq_some {n : Nat} {j : Journal S} (h : j.saved[n]? = some s) :
    restoreN (n + 1) j = some { j with current := s, saved := j.saved.drop (n + 1) } := by
  induction n generalizing j with
  | zero =>
    cases hs : j.saved with
    | nil => simp [hs] at h
    | cons t rest =>
      simp [hs] at h
      simp [restoreN, restore, hs, h]
  | succ n ih =>
    cases hs : j.saved with
    | nil => simp [hs] at h
    | cons t rest =>
      rw [hs, getElem?_cons_succ] at h
      have step := ih (j := { j with current := t, saved := rest }) h
      rw [restoreN, restore, hs]
      simpa using step

/-- Going back through the last sessions, one by one, within the bound. -/
theorem restoreN_sessions (k : Nat) (hk : k ≤ ss.length) (hb : k ≤ j.bound + 1) :
    ∃ j', restoreN k (j.sessions ss) = some j' ∧
      j'.current = (j.sessions (ss.take (ss.length - k))).current := by
  cases k with
  | zero => exact ⟨j.sessions ss, rfl, by simp⟩
  | succ k =>
    have hs := saved_sessions j ss k hk (by omega)
    exact ⟨_, restoreN_eq_some hs, rfl⟩

end Journal

end Graphene.Lib
